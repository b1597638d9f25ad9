import ScriptTrace.Assoc
import ScriptTrace.Text.Basic
import ScriptTrace.Number.Basic
/-!
# Values

A script **value** is of one of eight kinds. Arrays and objects are held by reference: the value names a
place in the **heap**, so two values may share a container and a container may contain itself. A function
is an opaque name.

Scripts store the entries of objects under texts. An object that was handed in from outside may also have
entries under other values, which no script can reach by name.
-/
namespace ScriptTrace

inductive Value
  | undefined
  | null
  | bool (b : Bool)
  | number (n : Number)
  | text (t : Text)
  | function (name : Text)
  | array (ref : Nat)
  | object (ref : Nat)
deriving DecidableEq, Repr, Inhabited

/-- The eight kinds of values. -/
inductive Kind
  | number
  | string
  | boolean
  | null
  | undefined
  | array
  | object
  | function
deriving DecidableEq, Repr

namespace Kind

def name : Kind → Text
  | number => "number"
  | string => "string"
  | boolean => "boolean"
  | null => "null"
  | undefined => "undefined"
  | array => "array"
  | object => "object"
  | function => "function"

end Kind

/-- What an entry of an object stands under: a text, or another value that is no container. -/
inductive EntryKey
  | text (t : Text)
  | other (v : Value)
deriving DecidableEq, Repr, Inhabited

namespace EntryKey

instance : Coe Text EntryKey := ⟨text⟩

def isText : EntryKey → Bool
  | .text _ => true
  | .other _ => false

end EntryKey

/-- The entries of an object, in order. -/
abbrev Entries := Assoc EntryKey Value

/-- The containers of a run, each kind in its own store. -/
structure Heap where
  arrays : Array (List Value)
  objects : Array Entries
  /-- How many frames of the native stack a traversal of them may take. -/
  frames : Nat
deriving Repr, Inhabited

namespace Heap

def empty (frames : Nat) : Heap := ⟨#[], #[], frames⟩

def array (h : Heap) (ref : Nat) : List Value :=
  h.arrays.getD ref []

def object (h : Heap) (ref : Nat) : Entries :=
  h.objects.getD ref []

def setArray (h : Heap) (ref : Nat) (items : List Value) : Heap :=
  { h with arrays := h.arrays.setIfInBounds ref items }

def setObject (h : Heap) (ref : Nat) (entries : Entries) : Heap :=
  { h with objects := h.objects.setIfInBounds ref entries }

/-- A new array, and the heap that holds it. -/
def newArray (h : Heap) (items : List Value) : Value × Heap :=
  (.array h.arrays.size, { h with arrays := h.arrays.push items })

/-- A new object, and the heap that holds it. -/
def newObject (h : Heap) (entries : Entries) : Value × Heap :=
  (.object h.objects.size, { h with objects := h.objects.push entries })

end Heap

namespace Value

/-- The name of a function that has none of its own. -/
def anonymous : Text := "anonymous"

def ofNat (n : Nat) : Value := .number (.int n)

def kind : Value → Kind
  | .undefined => .undefined
  | .null => .null
  | .bool _ => .boolean
  | .number _ => .number
  | .text _ => .string
  | .function _ => .function
  | .array _ => .array
  | .object _ => .object

/-- Null or undefined. -/
def isNullish : Value → Bool
  | .undefined | .null => true
  | _ => false

/-- Whether a value counts as true in a test. -/
def truthy : Value → Bool
  | .undefined | .null => false
  | .bool b => b
  | .number n => !(n.isZero || n.isNaN)
  | .text t => !t.isEmpty
  | .function _ | .array _ | .object _ => true

/-- What the `typeof` operator answers. -/
def typeName (v : Value) : Text :=
  match v.kind with
  | .null | .array | .object => "object"
  | k => k.name

/-- How a function is shown. -/
def placeholder (name : Text) : Text :=
  "[Function: " ++ name ++ ("]" : Text)

end Value

end ScriptTrace
