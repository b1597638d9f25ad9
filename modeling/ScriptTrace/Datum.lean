import ScriptTrace.Text.Inspect
import ScriptTrace.Number.Layout
import ScriptTrace.Value.Basic
/-!
# Loose data

A **datum** is whatever a caller may hand to a check: script values of every kind, records whose keys
need not be texts, containers that lead back to themselves, and things that are no script value at all.
Its **inspected** form is how messages show it.
-/
namespace ScriptTrace

inductive Datum
  | undefined
  | null
  | bool (b : Bool)
  | number (n : Number)
  | text (t : Text)
  | function (name : Text)
  | foreign
  | list (items : List Datum)
  | record (fields : List (Datum × Datum))
  /-- A container that is one of its own ancestors: a record or a list. -/
  | cycle (isRecord : Bool)
deriving Repr, Inhabited

namespace Datum

mutual

/-- The form in which messages show a datum. -/
def inspect : Datum → Text
  | .undefined => "undefined"
  | .null => "None"
  | .bool b => if b then "True" else "False"
  | .number n => n.lay .data
  | .text t => t.inspect
  | .function name => "FunctionRef(name=" ++ name.inspect ++ (")" : Text)
  | .foreign => "1j"
  | .list items => "[" ++ Text.join ", " (inspectItems items) ++ ("]" : Text)
  | .record fields => "\x7b" ++ Text.join ", " (inspectFields fields) ++ ("\x7d" : Text)
  | .cycle isRecord => if isRecord then "\x7b...\x7d" else "[...]"

def inspectItems : List Datum → List Text
  | [] => []
  | a :: rest => inspect a :: inspectItems rest

def inspectFields : List (Datum × Datum) → List Text
  | [] => []
  | (k, a) :: rest => Text.concat [inspect k, ": ", inspect a] :: inspectFields rest

end

/-- The number a datum counts as when keys are compared. -/
def keyNumber? : Datum → Option Number
  | .bool b => some (if b then 1 else 0)
  | .number n => some n
  | _ => none

/-- Whether two keys of a record are the same: numbers and truth values by what they count as, a NaN never. -/
def sameKey (a b : Datum) : Bool :=
  match a.keyNumber?, b.keyNumber? with
  | some m, some n => m.eq n
  | none, none =>
    match a, b with
    | .text s, .text t => s == t
    | .function f, .function g => f == g
    | .undefined, .undefined | .null, .null | .foreign, .foreign => true
    | _, _ => false
  | _, _ => false

/-- A datum as part of a sentence: a text stands without quotes. -/
def shown : Datum → Text
  | .text t => t
  | a => a.inspect

end Datum

/-- What an entry stands under, as a datum. A container that does is a thing that is no value. -/
def EntryKey.toDatum : EntryKey → Datum
  | .text t => .text t
  | .other .undefined => .undefined
  | .other .null => .null
  | .other (.bool b) => .bool b
  | .other (.number n) => .number n
  | .other (.text t) => .text t
  | .other (.function name) => .function name
  | .other (.array _) => .foreign
  | .other (.object _) => .foreign

/-- The tree below a value, cut where a container comes back on its own path. `fuel` bounds the length of
the path. -/
def Value.unfold (h : Heap) : Nat → List Value → Value → Datum
  | _, _, .undefined => .undefined
  | _, _, .null => .null
  | _, _, .bool b => .bool b
  | _, _, .number n => .number n
  | _, _, .text t => .text t
  | _, _, .function name => .function name
  | 0, _, .array _ => .cycle false
  | 0, _, .object _ => .cycle true
  | fuel + 1, path, .array ref =>
    if path.contains (.array ref) then .cycle false
    else .list ((h.array ref).map (unfold h fuel (.array ref :: path)))
  | fuel + 1, path, .object ref =>
    if path.contains (.object ref) then .cycle true
    else .record ((h.object ref).map fun (k, v) => (k.toDatum, unfold h fuel (.object ref :: path) v))

/-- The tree below a value. A path without repetition is no longer than there are containers. -/
def Value.toDatum (h : Heap) (v : Value) : Datum :=
  v.unfold h (h.arrays.size + h.objects.size + 1) []

end ScriptTrace
