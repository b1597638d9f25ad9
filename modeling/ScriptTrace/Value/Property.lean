import ScriptTrace.Datum
import ScriptTrace.Value.Render
/-!
# Properties

Reading and writing `container[key]`. A key is used as an **index** when it is a non-negative integer or a
text of digits; the key `length` names the number of elements. Reading what is not there gives
`undefined`. A write that makes no sense for the container is ignored and answered by a **remark**.
-/
namespace ScriptTrace.Value

/-- The largest gap a write may open behind the last element of an array. -/
def maxGap : Nat := 1000

def lengthKey : Text := "length"

/-- The index a text of digits stands for. -/
def digitIndex (key : Text) : Except Fault Nat :=
  match Numeral.readInteger 10 key with
  | .ok n => .ok n.toNat
  | .error why => .error (.badIndex ⟨key, why⟩)

/-- The index a key stands for, if it is one. -/
def indexOf (key : Value) : Except Fault (Option Nat) :=
  match key with
  | .number (.int n) => .ok (if 0 ≤ n then some n.toNat else none)
  | .text t => if t.allDigitLike then (digitIndex t).map some else .ok none
  | _ => .ok none

/-- The value of a property; `undefined` for one that is not there. -/
def getProperty (h : Heap) (container key : Value) : Except Fault Value :=
  match container with
  | .array ref =>
    if key.render h = lengthKey then .ok (.ofNat (h.array ref).length)
    else do
      let index ← key.indexOf
      return (index.bind fun i => (h.array ref)[i]?).getD .undefined
  | .text t =>
    if key.render h = lengthKey then .ok (.ofNat t.length)
    else do
      let index ← key.indexOf
      return ((index.bind fun i => t.codes[i]?).map fun c => .text (.single c)).getD .undefined
  | .object ref => .ok (((h.object ref).get? (.text (key.render h))).getD .undefined)
  | _ => .ok .undefined

/-- Why a write was ignored. -/
inductive Remark
  | notAnIndex (key : Text)
  | indexTooFar (index : Nat)
  | lengthTooFar (length : Nat)
  | noContainer (kind : Kind) (line : Nat)

def Remark.message : Remark → Text
  | .notAnIndex key => Text.concat ["Ignoring non-index array property '", key, "'"]
  | .indexTooFar index =>
    Text.concat ["Array index ", (index : Text), " too far past the end; ignored"]
  | .lengthTooFar length =>
    Text.concat ["Array length ", (length : Text), " too far past the end; ignored"]
  | .noContainer kind line =>
    Text.concat ["Cannot set property on a ", kind.name, " value (line ", (line : Text), ")"]

/-- The elements after one of them is stored at `index`, which may open a gap of `undefined`. -/
def storeAt (items : List Value) (index : Nat) (v : Value) : List Value :=
  if index < items.length then items.set index v
  else items ++ List.replicate (index - items.length) .undefined ++ [v]

/-- The elements after the length is set: cut off, or filled up with `undefined`. -/
def resize (items : List Value) (length : Nat) : List Value :=
  items.take length ++ List.replicate (length - items.length) .undefined

/-- Writing the length of an array. -/
def setLength (h : Heap) (ref : Nat) (length : Number) (line : Nat) :
    Except Fault (Heap × Option Remark) :=
  let items := h.array ref
  match length with
  | .int (.ofNat n) =>
    if n ≤ items.length + maxGap then .ok (h.setArray ref (resize items n), none)
    else .ok (h, some (.lengthTooFar n))
  | _ => .error (.failure .invalidLength (some line))

/-- Writing an element of an array. -/
def setElement (h : Heap) (ref : Nat) (key v : Value) : Except Fault (Heap × Option Remark) := do
  let items := h.array ref
  match ← key.indexOf with
  | none => return (h, some (.notAnIndex (key.toDatum h).shown))
  | some i =>
    if items.length + maxGap < i then return (h, some (.indexTooFar i))
    else return (h.setArray ref (storeAt items i v), none)

/-- Writing a property: the heap afterwards, and a remark if the write was ignored. -/
def setProperty (h : Heap) (container key v : Value) (line : Nat) :
    Except Fault (Heap × Option Remark) :=
  match container with
  | .undefined | .null =>
    .error (.failure (.nullishWrite (container.render h) (key.render h)) (some line))
  | .object ref => .ok (h.setObject ref ((h.object ref).insert (.text (key.render h)) v), none)
  | .array ref =>
    if key.render h = lengthKey then
      match v.toNumber h with
      | .ok n => setLength h ref n line
      | .error fault => .error fault
    else setElement h ref key v
  | _ => .ok (h, some (.noContainer container.kind line))

end ScriptTrace.Value
