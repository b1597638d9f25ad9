import ScriptTrace.Text.Basic
import ScriptTrace.Number.Basic
import ScriptTrace.Number.Shortest
/-!
# Number texts

How digits are laid out as text. A **layout** says which exponents are written positionally and how an
exponent looks. There are two: `Layout.data` for JSON and messages about data, `Layout.display` for the
text of a number inside a script.
-/
namespace ScriptTrace

open Binary64

namespace Number

/-- The decisions behind the text of a float. -/
structure Layout where
  /-- A whole number below `10 ^ 21` is written by all its digits. -/
  wholeInFull : Bool
  /-- A whole number is marked by a point and a zero. -/
  pointZero : Bool
  /-- Least number of digits in an exponent. -/
  exponentWidth : Nat
  nan : Text
  infinity : Text
  negativeInfinity : Text

/-- Floats in JSON: a point or an exponent is always there, and an exponent has two digits. -/
def Layout.json : Layout where
  wholeInFull := false
  pointZero := true
  exponentWidth := 2
  nan := "NaN"
  infinity := "Infinity"
  negativeInfinity := "-Infinity"

/-- Floats in messages about data: as in JSON, with other words for what is not finite. -/
def Layout.data : Layout :=
  { Layout.json with nan := "nan", infinity := "inf", negativeInfinity := "-inf" }

/-- Numbers as a script shows them. -/
def Layout.display : Layout where
  wholeInFull := true
  pointZero := false
  exponentWidth := 1
  nan := "NaN"
  infinity := "Infinity"
  negativeInfinity := "-Infinity"

def digitText (digits : List Nat) : Text :=
  ⟨digits.map (48 + ·)⟩

def zeros (n : Nat) : Text :=
  ⟨List.replicate n 48⟩

/-- Digits with a point at its place. -/
def positional (pointZero : Bool) (d : Digits) : Text :=
  match d.exponent with
  | .negSucc e => "0." ++ zeros e ++ digitText d.digits
  | .ofNat e =>
    let whole := digitText (d.digits.take (e + 1)) ++ zeros (e + 1 - d.digits.length)
    let fraction := d.digits.drop (e + 1)
    if fraction.isEmpty then if pointZero then whole ++ (".0" : Text) else whole
    else whole ++ ("." : Text) ++ digitText fraction

/-- Digits with a point after the first and an explicit exponent. -/
def exponential (exponentWidth : Nat) (d : Digits) : Text :=
  let mantissa :=
    match d.digits with
    | [] => zeros 1
    | [c] => digitText [c]
    | c :: rest => digitText [c] ++ ("." : Text) ++ digitText rest
  let sign : Text := if d.exponent < 0 then "-" else "+"
  let digits := Text.ofNat d.exponent.natAbs
  mantissa ++ ("e" : Text) ++ sign ++ zeros (exponentWidth - digits.length) ++ digits

/-- Exponents from -4 to 15 are written positionally. -/
def layDigits (layout : Layout) (d : Digits) : Text :=
  if -4 ≤ d.exponent ∧ d.exponent < 16 then positional layout.pointZero d
  else exponential layout.exponentWidth d

/-- The text of a float. -/
def layFloat (layout : Layout) (x : Float) : Text :=
  match parts x with
  | .nan => layout.nan
  | .infinite negative => if negative then layout.negativeInfinity else layout.infinity
  | .finite negative mantissa exponent =>
    if layout.wholeInFull && isWhole mantissa exponent && decide (wholePart mantissa exponent < Nat.pow 10 21) then
      Text.ofInt (withSign negative (wholePart mantissa exponent))
    else
      let sign : Text := if negative then "-" else ""
      sign ++ if mantissa = 0 then positional layout.pointZero ⟨[0], 0⟩
        else layDigits layout (shortest mantissa exponent)

/-- The text of a number; an integer is its digits in every layout. -/
def lay (layout : Layout) : Number → Text
  | .int n => Text.ofInt n
  | .float x => layFloat layout x

end Number

end ScriptTrace
