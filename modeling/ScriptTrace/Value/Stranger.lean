import ScriptTrace.Value.Operator
import ScriptTrace.Value.Property
/-!
# Strangers

A caller may put things into a heap that are no script values. Each is represented by an array of its own, a
**stranger**. An operation that comes to a stranger, or has to write an entry that JSON has no name for, ends
with a misfit.

A **look** goes ahead of an operation, in the order in which the operation itself goes: it ends with a misfit
if the operation does, and it stops without one where the operation stops for a reason of its own.
-/
namespace ScriptTrace

/-- What a look ends with: a misfit, or none if the operation ends before it comes to one. -/
abbrev Look := Except (Option Misfit) Unit

/-! ## Keys without a name -/

namespace Datum

/-- What a key is called that JSON has no name for. -/
def unnamed? : Datum → Option Text
  | .undefined => some "_Undefined"
  | .function _ => some "FunctionRef"
  | .foreign => some "complex"
  | _ => none

/-- Whether JSON leaves out an entry with this value. -/
def isOmitted : Datum → Bool
  | .undefined | .function _ => true
  | _ => false

mutual

/-- The first key below a datum that JSON has no name for. -/
def firstUnnamed? : Datum → Option Text
  | .list items => firstUnnamedItem? items
  | .record fields => firstUnnamedField? fields
  | _ => none

def firstUnnamedItem? : List Datum → Option Text
  | [] => none
  | d :: rest => (firstUnnamed? d).or (firstUnnamedItem? rest)

def firstUnnamedField? : List (Datum × Datum) → Option Text
  | [] => none
  | (k, d) :: rest =>
    if d.isOmitted then firstUnnamedField? rest
    else (k.unnamed?.or (firstUnnamed? d)).or (firstUnnamedField? rest)

end

end Datum

namespace Value

/-! ## Looks at one value -/

/-- The values that a traversal goes on to: those of arrays, and for JSON those of objects. -/
def inner? (json : Bool) (h : Heap) : Value → Option (List Value)
  | .array ref => some (h.array ref)
  | .object ref => if json then some (((h.object ref).map Prod.snd).filter (!·.isOmitted)) else none
  | _ => none

/-- A look along a traversal and what it leaves of the budget; `path` holds the containers the value stands
in. JSON ends at a container that stands in itself, joining passes over it. -/
def lookWithin (strangers : List Value) (json : Bool) (h : Heap) :
    Nat → List Value → Value → Nat → Except (Option Misfit) Nat
  | depth, path, v, budget =>
    if strangers.contains v then .error (some .notAValue)
    else
      match v.inner? json h with
      | none => .ok budget
      | some items =>
        match depth with
        | 0 => .error none
        | depth + 1 =>
          if path.contains v then (if json then .error none else .ok budget)
          else
            match budget with
            | 0 => .error none
            | budget + 1 =>
              items.foldlM (fun left w => lookWithin strangers json h depth (v :: path) w left) budget

/-- For an operation that asks for the kind of a value. -/
def lookAt (strangers : List Value) (v : Value) : Look :=
  if strangers.contains v then .error (some .notAValue) else .ok ()

/-- For an operation that joins a value. -/
def lookJoined (strangers : List Value) (h : Heap) (v : Value) : Look :=
  (lookWithin strangers false h h.joinReach [] v containerLimit).map fun _ => ()

/-- For an operation that shows a value: showing does not end where JSON does. -/
def lookShown (strangers : List Value) (h : Heap) (v : Value) : Look :=
  match lookWithin strangers true h h.jsonReach [] v containerLimit with
  | .error (some m) => .error (some m)
  | .error none => .ok ()
  | .ok _ =>
    match (v.toDatum h).firstUnnamed? with
    | some name => .error (some (.unnamedKey name))
    | none => .ok ()

/-- For an operation that takes the number of a value. -/
def lookNumber (strangers : List Value) (h : Heap) (v : Value) : Look :=
  match v with
  | .array _ => lookJoined strangers h v
  | _ => lookAt strangers v

/-! ## Looks at operations -/

def lookNumbers (strangers : List Value) (h : Heap) (l r : Value) : Look := do
  lookNumber strangers h l
  lookNumber strangers h r

def lookPlus (strangers : List Value) (h : Heap) (l r : Value) : Look := do
  lookAt strangers l
  if l.kind ≠ .string then lookAt strangers r
  if l.kind = .string ∨ r.kind = .string then do
    lookShown strangers h l
    lookShown strangers h r
  else lookNumbers strangers h l r

def lookCompare (strangers : List Value) (h : Heap) (l r : Value) : Look := do
  lookAt strangers l
  if l.kind = .string then lookAt strangers r
  if l.kind = .string ∧ r.kind = .string then return ()
  else lookNumbers strangers h l r

def lookEqual (strangers : List Value) (h : Heap) (loose : Bool) (l r : Value) : Look := do
  lookAt strangers l
  lookAt strangers r
  if !loose || l.isNullish || r.isNullish || l.kind = r.kind then return ()
  else do
    if l.isContainer then lookJoined strangers h l
    if r.isContainer then lookJoined strangers h r

def lookContained (strangers : List Value) (h : Heap) (key container : Value) : Look := do
  lookAt strangers container
  match container with
  | .object _ => lookShown strangers h key
  | .array _ =>
    lookShown strangers h key
    if key.render h = lengthKey then return () else lookNumber strangers h key
  | _ => return ()

def lookBinary (strangers : List Value) (h : Heap) (op : BinaryOp) (l r : Value) : Look :=
  match op with
  | .add => lookPlus strangers h l r
  | .lt | .le | .gt | .ge => lookCompare strangers h l r
  | .strictEq | .strictNe => lookEqual strangers h false l r
  | .looseEq | .looseNe => lookEqual strangers h true l r
  | .contained => lookContained strangers h l r
  | _ => lookNumbers strangers h l r

/-- For reading a property. -/
def lookRead (strangers : List Value) (h : Heap) (holder key : Value) : Look := do
  lookAt strangers holder
  match holder with
  | .bool _ | .number _ | .function _ => return ()
  | _ => lookShown strangers h key

/-- For writing a property. -/
def lookWrite (strangers : List Value) (h : Heap) (holder key v : Value) : Look := do
  lookAt strangers holder
  match holder with
  | .undefined | .null | .object _ => lookShown strangers h key
  | .array _ =>
    lookShown strangers h key
    if key.render h = lengthKey then lookNumber strangers h v
  | _ => return ()

end Value

end ScriptTrace
