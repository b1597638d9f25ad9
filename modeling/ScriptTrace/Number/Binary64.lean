/-!
# Binary64 numbers taken apart

A double is a NaN, an infinity, or a sign with an exact dyadic value `mantissa * 2 ^ exponent`. The
operations here that decide integrality, cut off a fraction or take a remainder work on that exact
value, never on rounded intermediate results.
-/
namespace ScriptTrace.Binary64

/-- What a double stands for. -/
inductive Parts
  | nan
  | infinite (negative : Bool)
  | finite (negative : Bool) (mantissa : Nat) (exponent : Int)
deriving DecidableEq, Repr

/-- The fields of the 64-bit word, read as sign, exponent and fraction. -/
def parts (x : Float) : Parts :=
  let word : Nat := x.toBits.toNat
  let negative := decide (Nat.pow 2 63 ≤ word)
  let exponent : Nat := word / Nat.pow 2 52 % Nat.pow 2 11
  let fraction : Nat := word % Nat.pow 2 52
  if exponent = 2047 then if fraction = 0 then .infinite negative else .nan
  else if exponent = 0 then .finite negative fraction (-1074)
  else .finite negative (Nat.pow 2 52 + fraction) ((exponent : Int) - 1075)

def infinity (negative : Bool) : Float :=
  Float.ofBits (if negative then 0xFFF0000000000000 else 0x7FF0000000000000)

def nan : Float :=
  Float.ofBits 0x7FF8000000000000

/-- The sign bit; a NaN has none. -/
def isNegative (x : Float) : Bool :=
  match parts x with
  | .nan => false
  | .infinite negative => negative
  | .finite negative _ _ => negative

def isFinite (x : Float) : Bool :=
  match parts x with
  | .finite .. => true
  | _ => false

/-- The integer part of `mantissa * 2 ^ exponent`. -/
def wholePart (mantissa : Nat) (exponent : Int) : Nat :=
  match exponent with
  | .ofNat e => mantissa * Nat.pow 2 e
  | .negSucc e => mantissa / Nat.pow 2 (e + 1)

/-- Whether `mantissa * 2 ^ exponent` is an integer. -/
def isWhole (mantissa : Nat) (exponent : Int) : Bool :=
  match exponent with
  | .ofNat _ => true
  | .negSucc e => mantissa % Nat.pow 2 (e + 1) == 0

def isInteger (x : Float) : Bool :=
  match parts x with
  | .finite _ mantissa exponent => isWhole mantissa exponent
  | _ => false

/-- Whether `x` is greater than `n`, in exact terms. -/
def exceeds (x : Float) (n : Nat) : Bool :=
  match parts x with
  | .nan => false
  | .infinite negative => !negative
  | .finite negative mantissa exponent =>
    !negative &&
      match exponent with
      | .ofNat e => decide (n < mantissa * Nat.pow 2 e)
      | .negSucc e => decide (n * Nat.pow 2 (e + 1) < mantissa)

def withSign (negative : Bool) (n : Nat) : Int :=
  if negative then -n else n

/-- `x` without its fraction; zero if `x` is no finite number. -/
def truncate (x : Float) : Int :=
  match parts x with
  | .finite negative mantissa exponent => withSign negative (wholePart mantissa exponent)
  | _ => 0

/-- The double of value `mantissa * 2 ^ exponent`, for values that are doubles. -/
def ofParts (negative : Bool) (mantissa : Nat) (exponent : Int) : Float :=
  let sign : Nat := if negative then Nat.pow 2 63 else 0
  if mantissa = 0 then Float.ofBits (UInt64.ofNat sign)
  else
    -- the exponent of the unit in the last place
    let unit : Int := max (-1074) (exponent + Nat.log2 mantissa - 52)
    let scaled : Nat :=
      match exponent - unit with
      | .ofNat e => mantissa * Nat.pow 2 e
      | .negSucc e => mantissa / Nat.pow 2 (e + 1)
    let word : Nat := if scaled < Nat.pow 2 52 then scaled else (unit + 1075).toNat * Nat.pow 2 52 + (scaled - Nat.pow 2 52)
    Float.ofBits (UInt64.ofNat (sign + word))

/-- The remainder of `x` by `y`, with the sign of `x`, for finite `x` and finite non-zero `y`. -/
def remainder (x y : Float) : Float :=
  match parts x, parts y with
  | .finite negative m e, .finite _ m' e' =>
    let unit := min e e'
    let a := m * Nat.pow 2 (e - unit).toNat
    let b := m' * Nat.pow 2 (e' - unit).toNat
    ofParts negative (a % b) unit
  | _, _ => nan

end ScriptTrace.Binary64
