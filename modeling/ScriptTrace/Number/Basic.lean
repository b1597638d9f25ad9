import ScriptTrace.Number.Binary64
/-!
# Numbers

A script **number** is a double, but it is carried in one of two ways: as an integer or as a float. A
number is **normal** when every value that is whole, below `2 ^ 53` in magnitude and not negative zero is
carried as an integer. Arithmetic is done on doubles and normalises its result; indexing and step
comparison look at the carrier.
-/
namespace ScriptTrace

open Binary64

inductive Number
  | int (n : Int)
  | float (x : Float)
deriving DecidableEq, Repr, Inhabited

namespace Number

def nan : Number := .float Binary64.nan

def infinity (negative : Bool) : Number := .float (Binary64.infinity negative)

instance (n : Nat) : OfNat Number n := ⟨.int n⟩

/-- The double a number stands for. -/
def toFloat : Number → Float
  | .int n => Float.ofInt n
  | .float x => x

/-- Integers from this magnitude on stay floats. -/
def safeBound : Nat := Nat.pow 2 53

/-- The number that a double is carried as. -/
def ofFloat (x : Float) : Number :=
  match parts x with
  | .finite negative mantissa exponent =>
    let whole := wholePart mantissa exponent
    if isWhole mantissa exponent && decide (whole < safeBound) && !(negative && whole == 0) then
      .int (withSign negative whole)
    else .float x
  | _ => .float x

def normalize : Number → Number
  | .int n => .int n
  | .float x => ofFloat x

/-- Fixed points of `normalize`. -/
def IsNormal (n : Number) : Prop :=
  n.normalize = n

def isNaN : Number → Bool
  | .int _ => false
  | .float x => x.isNaN

/-- A number as an element of the extended line: an exact dyadic value or an infinity. -/
inductive Point
  | low
  | dyadic (mantissa : Int) (exponent : Int)
  | high

/-- Where a number lies; a NaN lies nowhere. -/
def point? : Number → Option Point
  | .int n => some (.dyadic n 0)
  | .float x =>
    match parts x with
    | .nan => none
    | .infinite negative => some (if negative then .low else .high)
    | .finite negative mantissa exponent => some (.dyadic (withSign negative mantissa) exponent)

/-- Exact comparison on the extended line. -/
def Point.compare : Point → Point → Ordering
  | .low, .low => .eq
  | .low, _ => .lt
  | _, .low => .gt
  | .high, .high => .eq
  | .high, _ => .gt
  | _, .high => .lt
  | .dyadic m e, .dyadic m' e' =>
    let unit := min e e'
    Ord.compare (m * Nat.pow 2 (e - unit).toNat) (m' * Nat.pow 2 (e' - unit).toNat)

/-- Exact comparison, across carriers; a NaN compares with nothing. -/
def compare? (a b : Number) : Option Ordering :=
  match a.point?, b.point? with
  | some p, some q => some (p.compare q)
  | _, _ => none

/-- Numeric equality: across carriers, both zeros alike, a NaN equal to nothing. -/
def eq (a b : Number) : Bool :=
  a.compare? b == some .eq

def isZero (n : Number) : Bool :=
  n.eq 0

def add (a b : Number) : Number :=
  ofFloat (a.toFloat + b.toFloat)

def sub (a b : Number) : Number :=
  ofFloat (a.toFloat - b.toFloat)

def mul (a b : Number) : Number :=
  ofFloat (a.toFloat * b.toFloat)

def neg (a : Number) : Number :=
  ofFloat (-a.toFloat)

/-- Division; by a zero it gives a NaN or an infinity of the product sign. -/
def div (a b : Number) : Number :=
  let x := a.toFloat
  let y := b.toFloat
  if y == 0 then
    if x == 0 || x.isNaN then nan else infinity (isNegative x != isNegative y)
  else ofFloat (x / y)

/-- The remainder of truncated division, with the sign of the dividend. -/
def mod (a b : Number) : Number :=
  let x := a.toFloat
  let y := b.toFloat
  if y == 0 || x.isNaN || y.isNaN || x.isInf then nan
  else if y.isInf then ofFloat x
  else ofFloat (remainder x y)

/-- Whether `y` is an odd integer. -/
def isOdd (y : Float) : Bool :=
  isInteger y && truncate y % 2 != 0

/-- Powers with an operand that is not finite. -/
def powSpecial (x y : Float) : Float :=
  if x.isNaN then if y == 0 then 1 else x
  else if y.isNaN then if x == 1 then 1 else y
  else if x.isInf then
    if y == 0 then 1
    else if 0 < y then if isOdd y then x else Binary64.infinity false
    else if isOdd y && isNegative x then -0.0 else 0
  else if x.abs == 1 then 1
  else if 0 < y && 1 < x.abs then y
  else if y < 0 && x.abs < 1 then -y
  else 0

/-- Powers, from those of finite doubles. A zero has no negative powers and a negative number no
fractional ones: both give NaN. A finite power that is too large is positive infinity, whatever its sign. -/
def powBy (power : Float → Float → Float) (a b : Number) : Number :=
  let x := a.toFloat
  let y := b.toFloat
  if !isFinite x || !isFinite y then ofFloat (powSpecial x y)
  else if x == 0 && y < 0 then nan
  else if x < 0 && !isInteger y then nan
  else
    let r := power x y
    if r.isInf then infinity false else ofFloat r

def pow (a b : Number) : Number :=
  powBy Float.pow a b

end Number

end ScriptTrace
