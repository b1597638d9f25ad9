import ScriptTrace.Datum
import ScriptTrace.Fault
import ScriptTrace.Number.Numeral
import ScriptTrace.Plain.Json
import ScriptTrace.Value.Basic
/-!
# Texts and numbers of values

* The **shown** text of a value, used by concatenation, templates and messages: JSON text for containers.
* The **joined** text, used when arithmetic or comparison meets a container: the elements between
  commas, with nothing for null, undefined and an array inside itself.
* The **number** a value stands for in arithmetic.

Both traversals enter at most `containerLimit` containers. Shared containers are entered once for each
path that leads to them, so without the limit a small heap could take exponential time.

Both are recursive, and each container they stand in takes frames of the native stack. A traversal that goes in
deeper than the frames of the heap allow is **exhausted**. Where the text is to be shown this is answered like every
other obstacle; where containers are joined it is a fault.
-/
namespace ScriptTrace

/-- How many containers one traversal may enter. -/
def containerLimit : Nat := 10000

/-- How many containers deep the traversal for JSON text can go. -/
def Heap.jsonReach (h : Heap) : Nat := h.frames / 2

/-- How many arrays deep joining can go. -/
def Heap.joinReach (h : Heap) : Nat := h.frames / 3

/-- What stops a traversal. -/
inductive Obstacle
  /-- A container that stands in itself. -/
  | circular
  | tooLarge
  | tooDeep
  /-- The native stack is used up. -/
  | exhausted
deriving DecidableEq, Repr

def Obstacle.message : Obstacle → Text
  | .circular => "Converting circular structure to JSON"
  | .tooLarge => "Value too large to traverse"
  | .tooDeep => "Value too deep to traverse"
  | .exhausted => Fault.exhaustedMessage

/-- Applies `f` along a list, passing on what is left of the budget. -/
def walk {α β : Type} (f : α → Nat → Except Obstacle (β × Nat)) :
    List α → Nat → Except Obstacle (List β × Nat)
  | [], budget => .ok ([], budget)
  | a :: rest, budget =>
    match f a budget with
    | .error o => .error o
    | .ok (b, budget) =>
      match walk f rest budget with
      | .error o => .error o
      | .ok (bs, budget) => .ok (b :: bs, budget)

/-- The name JSON gives to an entry. -/
def EntryKey.jsonName : EntryKey → Text
  | .text t => t
  | .other .null => "null"
  | .other (.bool b) => if b then "true" else "false"
  | .other (.number n) => n.lay .json
  | k => k.toDatum.shown

namespace Value

/-- What JSON makes of a number: none that is not finite, and one zero. -/
def jsonNumber (n : Number) : Plain :=
  match n.point? with
  | some (.dyadic m _) => .number (if m = 0 then 0 else n)
  | _ => .null

/-- Whether JSON leaves out a property with this value. -/
def isOmitted : Value → Bool
  | .undefined | .function _ => true
  | _ => false

/-- The JSON data of a value and the remaining budget; `path` holds the containers it stands in. The first
argument says how many containers deeper the native stack reaches. -/
def jsonData (h : Heap) : Nat → List Value → Value → Nat → Except Obstacle (Plain × Nat)
  | 0, _, .array _, _ | 0, _, .object _, _ => .error .exhausted
  | depth + 1, path, .array ref, budget =>
    if path.contains (.array ref) then .error .circular
    else
      match budget with
      | 0 => .error .tooLarge
      | budget + 1 =>
        (walk (jsonData h depth (.array ref :: path)) (h.array ref) budget).map
          fun (items, left) => (.list items, left)
  | depth + 1, path, .object ref, budget =>
    if path.contains (.object ref) then .error .circular
    else
      match budget with
      | 0 => .error .tooLarge
      | budget + 1 =>
        (walk (fun (k, v) left =>
            (jsonData h depth (.object ref :: path) v left).map fun (p, left) => ((k.jsonName, p), left))
          ((h.object ref).filter fun (_, v) => !v.isOmitted) budget).map
          fun (fields, left) => (.record fields, left)
  | _, _, .undefined, budget => .ok (.null, budget)
  | _, _, .function _, budget => .ok (.null, budget)
  | _, _, .null, budget => .ok (.null, budget)
  | _, _, .bool b, budget => .ok (.bool b, budget)
  | _, _, .number n, budget => .ok (jsonNumber n, budget)
  | _, _, .text t, budget => .ok (.text t, budget)

/-- The JSON text of a value. -/
def jsonText (h : Heap) (v : Value) : Except Obstacle Text :=
  (jsonData h h.jsonReach [] v containerLimit).map fun (data, _) => data.write .compact

/-- The text shown for a value. -/
def render (h : Heap) : Value → Text
  | .text t => t
  | .null => "null"
  | .undefined => "undefined"
  | .bool b => if b then "true" else "false"
  | .number n => n.lay .display
  | .function name => placeholder name
  | v =>
    match v.jsonText h with
    | .ok t => t
    | .error _ => "[Object]"

/-- The text shown for a value in a message: a text is quoted. -/
def describe (h : Heap) : Value → Text
  | .text t => t.quote
  | v => v.render h

/-- The joined text of a value and the remaining budget; `path` holds the arrays it stands in. -/
def joined (h : Heap) : Nat → List Nat → Value → Nat → Except Obstacle (Text × Nat)
  | 0, _, .array _, _ => .error .exhausted
  | depth + 1, path, .array ref, budget =>
    if path.contains ref then .ok (Text.empty, budget)
    else
      match budget with
      | 0 => .error .tooLarge
      | budget + 1 =>
        (walk (fun v left =>
            if v.isNullish then .ok (Text.empty, left) else joined h depth (ref :: path) v left)
          (h.array ref) budget).map fun (items, left) => (Text.join "," items, left)
  | _, _, .object _, budget => .ok ("[object Object]", budget)
  | _, _, v, budget => .ok (v.render h, budget)

/-- The joined text of a value. -/
def joinText (h : Heap) (v : Value) : Except Fault Text :=
  match joined h h.joinReach [] v containerLimit with
  | .ok (t, _) => .ok t
  | .error .exhausted => .error .exhausted
  | .error _ => .error (.failure .textTooLong none)

/-- The number a value stands for. -/
def toNumber (h : Heap) : Value → Except Fault Number
  | .number n => .ok n
  | .bool b => .ok (if b then 1 else 0)
  | .null => .ok 0
  | .text t => .ok (Numeral.ofText t)
  | .array ref => (joinText h (.array ref)).map Numeral.ofText
  | .undefined | .object _ | .function _ => .ok .nan

end Value

end ScriptTrace
