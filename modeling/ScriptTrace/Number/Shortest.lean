import ScriptTrace.Number.Binary64
/-!
# Shortest decimal digits

The decimal digits by which a double is written: the fewest that still single it out among all doubles,
of those the nearest to its value, and of two equally near the one that ends in an even digit.

A decimal singles out `mantissa * 2 ^ exponent` when it lies between the midpoints to the two
neighbouring doubles, the midpoints themselves included if the mantissa is even.
-/
namespace ScriptTrace.Binary64

/-- Significant digits `d₁ d₂ … dₖ` of the number `d₁.d₂…dₖ * 10 ^ exponent`. -/
structure Digits where
  digits : List Nat
  exponent : Int
deriving DecidableEq, Repr

/-- A positive number as the fraction `num / den`. -/
structure Ratio where
  num : Nat
  den : Nat

def Ratio.mul (r : Ratio) (n : Nat) : Ratio :=
  ⟨r.num * n, r.den⟩

def Ratio.mulPow (r : Ratio) (base : Nat) (e : Int) : Ratio :=
  match e with
  | .ofNat e => ⟨r.num * Nat.pow base e, r.den⟩
  | .negSucc e => ⟨r.num, r.den * Nat.pow base (e + 1)⟩

/-- Whether `10 ^ e ≤ r`. -/
def Ratio.reaches (r : Ratio) (e : Int) : Bool :=
  let s := r.mulPow 10 (-e)
  s.den ≤ s.num

/-- The exponent of the first significant digit of `r`. -/
def Ratio.decimalExponent (r : Ratio) : Int :=
  let guess := (((Nat.log2 r.num : Int) - Nat.log2 r.den) * 30103).fdiv 100000
  if r.reaches (guess + 1) then guess + 1 else if r.reaches guess then guess else guess - 1

/-- The decimals around a double: `low * unit` to `high * unit` read back as `middle * unit`. -/
structure Neighbourhood where
  low : Nat
  middle : Nat
  high : Nat
  closed : Bool
  unit : Ratio

def neighbourhood (mantissa : Nat) (exponent : Int) : Neighbourhood where
  low := if mantissa = Nat.pow 2 52 ∧ exponent ≠ -1074 then 4 * mantissa - 1 else 4 * mantissa - 2
  middle := 4 * mantissa
  high := 4 * mantissa + 2
  closed := mantissa % 2 == 0
  unit := Ratio.mulPow ⟨1, 1⟩ 2 (exponent - 2)

/-- Whether `c * 10 ^ p` reads back, where `scale` is the neighbourhood's unit over `10 ^ p`. -/
def Neighbourhood.admits (n : Neighbourhood) (scale : Ratio) (c : Nat) : Bool :=
  let value := c * scale.den
  if n.closed then n.low * scale.num ≤ value && value ≤ n.high * scale.num
  else n.low * scale.num < value && value < n.high * scale.num

/-- The multiple of `10 ^ p` that reads back and is nearest, if one of the two around the value does. -/
def Neighbourhood.onGrid? (n : Neighbourhood) (p : Int) : Option Nat :=
  let scale := n.unit.mulPow 10 (-p)
  let exact := n.middle * scale.num
  let below := exact / scale.den
  let above := below + 1
  match n.admits scale below, n.admits scale above with
  | false, false => none
  | true, false => some below
  | false, true => some above
  | true, true =>
    let down := exact - below * scale.den
    let up := above * scale.den - exact
    some (if down < up then below else if up < down then above
      else if below % 2 = 0 then below else above)

/-- The decimal digits of a natural number, the most significant first. -/
def decimalDigits (n : Nat) : List Nat :=
  (Nat.toDigits 10 n).map fun c => c.toNat - 48

def dropZeros (digits : List Nat) : List Nat :=
  (digits.reverse.dropWhile (· == 0)).reverse

/-- The shortest digits of the positive number `mantissa * 2 ^ exponent`. -/
def shortest (mantissa : Nat) (exponent : Int) : Digits :=
  let n := neighbourhood mantissa exponent
  let first := (n.unit.mul n.middle).decimalExponent
  let attempt (k : Nat) : Option Digits :=
    let p := first - k
    (n.onGrid? p).map fun c =>
      let digits := decimalDigits c
      ⟨dropZeros digits, p + digits.length - 1⟩
  ((List.range 17).findSome? attempt).getD ⟨decimalDigits mantissa, 0⟩

end ScriptTrace.Binary64
