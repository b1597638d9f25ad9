import ScriptTrace.Number.Bits
import ScriptTrace.Value.Render
/-!
# Operators

The strict operators of the script language on two values; `&&`, `||` and `??` are not among them, since
they may leave an operand unevaluated.
-/
namespace ScriptTrace

/-- The longest text that concatenation or a template may build. -/
def maxTextLength : Nat := Nat.pow 2 20

inductive BinaryOp
  | add
  | sub
  | mul
  | div
  | mod
  | pow
  | lt
  | le
  | gt
  | ge
  | strictEq
  | strictNe
  | looseEq
  | looseNe
  | bitAnd
  | bitOr
  | bitXor
  | shiftLeft
  | shiftRight
  | shiftRightZero
  | contained
deriving DecidableEq, Repr

namespace BinaryOp

/-- Every operator with its spelling. -/
def table : List (String × BinaryOp) :=
  [("+", add), ("-", sub), ("*", mul), ("/", div), ("%", mod), ("**", pow), ("<", lt), ("<=", le),
    (">", gt), (">=", ge), ("===", strictEq), ("!==", strictNe), ("==", looseEq), ("!=", looseNe),
    ("&", bitAnd), ("|", bitOr), ("^", bitXor), ("<<", shiftLeft), (">>", shiftRight),
    (">>>", shiftRightZero), ("in", contained)]

def ofText? (spelling : Text) : Option BinaryOp :=
  (table.find? fun (s, _) => Text.ofString s = spelling).map Prod.snd

end BinaryOp

namespace Value

/-- A text no longer than the cap. -/
def capped (t : Text) : Except Fault Text :=
  if maxTextLength < t.length then .error (.failure .textTooLong none) else .ok t

/-- Addition: of two texts if one operand is a text, else of two numbers. -/
def plus (h : Heap) (l r : Value) : Except Fault Value :=
  if l.kind = .string ∨ r.kind = .string then (capped (l.render h ++ r.render h)).map .text
  else do
    let a ← l.toNumber h
    let b ← r.toNumber h
    return .number (a.add b)

/-- An operation on the numbers of two values. -/
def arith (h : Heap) (op : Number → Number → Number) (l r : Value) : Except Fault Value := do
  let a ← l.toNumber h
  let b ← r.toNumber h
  return .number (op a b)

/-- The four relations of order. -/
inductive Relation
  | lt
  | le
  | gt
  | ge
deriving DecidableEq, Repr

def Relation.holds : Relation → Ordering → Bool
  | .lt, o => o == .lt
  | .le, o => o != .gt
  | .gt, o => o == .gt
  | .ge, o => o != .lt

def orderTexts (s t : Text) : Ordering :=
  if s.lt t then .lt else if t.lt s then .gt else .eq

/-- Relational comparison: of texts by code points, else of numbers; nothing relates to a NaN. -/
def compare (h : Heap) (rel : Relation) (l r : Value) : Except Fault Bool :=
  match l, r with
  | .text s, .text t => .ok (rel.holds (orderTexts s t))
  | l, r => do
    let a ← l.toNumber h
    let b ← r.toNumber h
    return match a.compare? b with
      | some o => rel.holds o
      | none => false

/-- Equality without coercion: containers are equal only to themselves. -/
def strictEquals : Value → Value → Bool
  | .number a, .number b => a.eq b
  | l, r => l == r

/-- A boolean as a number; other values as they are. -/
def numberOfBool : Value → Value
  | .bool b => .number (if b then 1 else 0)
  | v => v

def isContainer : Value → Bool
  | .array _ | .object _ => true
  | _ => false

/-- Loose equality of a text with a value that is neither nullish nor a boolean. -/
def looseText (h : Heap) (s : Text) (v : Value) : Except Fault Bool :=
  match v with
  | .text t => .ok (s == t)
  | .number n => .ok ((Numeral.ofText s).eq n)
  | .array _ | .object _ => (joinText h v).map (s == ·)
  | _ => .ok false

/-- Loose equality of values that are neither nullish nor booleans. -/
def looseRest (h : Heap) (l r : Value) : Except Fault Bool :=
  if l.kind = r.kind then .ok (strictEquals l r)
  else if l.isContainer then do looseText h (← joinText h l) r
  else if r.isContainer then do looseText h (← joinText h r) l
  else
    match l, r with
    | .number a, .text t => .ok (a.eq (Numeral.ofText t))
    | .text t, .number b => .ok ((Numeral.ofText t).eq b)
    | _, _ => .ok false

/-- Equality with coercion. -/
def looseEquals (h : Heap) (l r : Value) : Except Fault Bool :=
  if l.isNullish || r.isNullish then .ok (l.isNullish && r.isNullish)
  else if l.kind = r.kind then .ok (strictEquals l r)
  else looseRest h l.numberOfBool r.numberOfBool

/-- Whether a container has a property. -/
def containsKey (h : Heap) (container key : Value) : Except Fault Bool :=
  match container with
  | .object ref => .ok ((h.object ref).contains (.text (key.render h)))
  | .array ref =>
    if key.render h = "length" then .ok true
    else do
      match ← key.toNumber h with
      | .int n => return decide (0 ≤ n ∧ n < (h.array ref).length)
      | .float _ => return false
  | _ => .ok false

/-- An integer with ones for its low 32 bits. -/
def wordMask : Int := 0xFFFFFFFF

/-- The low 32 bits of an integer, read with a sign. -/
def signed32 (n : Int) : Int :=
  let low := Bits.and n wordMask
  if 0x80000000 ≤ low then low - 0x100000000 else low

/-- The integer that a number is cut to; zero if it is not finite. -/
def wholeOf : Number → Int
  | .int n => n
  | .float x => Binary64.truncate x

def toInt32 (h : Heap) (v : Value) : Except Fault Int := do
  return signed32 (wholeOf (← v.toNumber h))

def toUInt32 (h : Heap) (v : Value) : Except Fault Int := do
  return Bits.and (← v.toInt32 h) wordMask

/-- By how many bits a value shifts: its low five bits say it. -/
def shiftCount (h : Heap) (v : Value) : Except Fault Nat := do
  return (Bits.and (← v.toUInt32 h) 31).toNat

/-- An operation on the signed words of two values. -/
def bitwise (h : Heap) (op : Int → Int → Int) (l r : Value) : Except Fault Value := do
  let a ← l.toInt32 h
  let b ← r.toInt32 h
  return .number (.int (signed32 (op a b)))

/-- A shift of the word that `read` takes of a value. -/
def shift (h : Heap) (read : Heap → Value → Except Fault Int) (op : Int → Nat → Int) (l r : Value) :
    Except Fault Value := do
  let a ← read h l
  let count ← r.shiftCount h
  return .number (.int (op a count))

def apply (h : Heap) (op : BinaryOp) (l r : Value) : Except Fault Value :=
  match op with
  | .add => plus h l r
  | .sub => arith h .sub l r
  | .mul => arith h .mul l r
  | .div => arith h .div l r
  | .mod => arith h .mod l r
  | .pow => arith h .pow l r
  | .lt => (compare h .lt l r).map .bool
  | .le => (compare h .le l r).map .bool
  | .gt => (compare h .gt l r).map .bool
  | .ge => (compare h .ge l r).map .bool
  | .strictEq => .ok (.bool (strictEquals l r))
  | .strictNe => .ok (.bool (!strictEquals l r))
  | .looseEq => (looseEquals h l r).map .bool
  | .looseNe => (looseEquals h l r).map (.bool !·)
  | .bitAnd => bitwise h Bits.and l r
  | .bitOr => bitwise h Bits.or l r
  | .bitXor => bitwise h Bits.xor l r
  | .shiftLeft => shift h toInt32 (fun a count => signed32 (a <<< count)) l r
  | .shiftRight => shift h toInt32 (· >>> ·) l r
  | .shiftRightZero => shift h toUInt32 (· >>> ·) l r
  | .contained => (containsKey h r l).map .bool

/-- The complement of the word of a value. -/
def bitNot (h : Heap) (v : Value) : Except Fault Value := do
  return .number (.int (signed32 (~~~(← v.toInt32 h))))

end Value

end ScriptTrace
