import ScriptTrace.Text.Blank
import ScriptTrace.Text.Digit
import ScriptTrace.Number.Basic
import ScriptTrace.Number.Digits
/-!
# Numerals

Reading numbers from text.

* `readInteger` reads an integer in a base, with the leniency the literals of scripts get: padding around
  it, a sign, a second mark of the same base, and single underscores between digits are accepted.
* `decimal?` reads a decimal numeral, or one of the words for what is not finite.
* `literal` is the value of a numeric literal; a literal that cannot be read, or an integer too large for
  a double, is NaN.
* `ofText` is the value of a text in arithmetic, and has a stricter grammar for decimals.

Digits of every script count as decimal digits.
-/
namespace ScriptTrace.Numeral

open Text

/-- The value of a digit of a base: decimal digits of any script, and ASCII letters. -/
def digitOf? (base c : Nat) : Option Nat :=
  let value :=
    match decimalValue? c with
    | some d => some d
    | none =>
      if 97 ≤ c ∧ c ≤ 122 then some (c - 87) else if 65 ≤ c ∧ c ≤ 90 then some (c - 55) else none
  value.filter (· < base)

/-- A leading sign, if there is one, and what follows it. -/
def sign (codes : List Nat) : Bool × List Nat :=
  match codes with
  | 45 :: rest => (true, rest)
  | 43 :: rest => (false, rest)
  | rest => (false, rest)

/-- The letter that marks a base after a zero. -/
def mark? (base : Nat) : Option Nat :=
  match base with
  | 16 => some 120
  | 8 => some 111
  | 2 => some 98
  | _ => none

/-- `codes` without a zero and the mark of `base` in front; one underscore may follow the mark. -/
def dropMark (base : Nat) (codes : List Nat) : List Nat :=
  match codes with
  | 48 :: c :: rest =>
    if mark? base = some c ∨ (mark? base).map (· - 32) = some c then
      match rest with
      | 95 :: more => more
      | more => more
    else codes
  | _ => codes

/-- A decimal digit of any script as the ASCII digit of the same value; other code points as they are. -/
def asciiDigit (c : Nat) : Nat :=
  match decimalValue? c with
  | some d => 48 + d
  | none => c

/-- Digits without the underscores between them; none unless each underscore stands between two digits and
there is a digit. The flag says whether a digit came just before. -/
def ungroup? : Bool → List Nat → Option (List Nat)
  | after, [] => if after then some [] else none
  | after, c :: rest =>
    if c = 95 then (if after then ungroup? false rest else none)
    else (ungroup? true rest).map (c :: ·)

/-- The digits of a run of digits and underscores. -/
def groupedDigits? (codes : List Nat) : Option (List Nat) :=
  if codes.contains 95 then ungroup? false codes else if codes.isEmpty then none else some codes

/-- Why a text is no integer. -/
inductive Unreadable
  | noNumeral
  | tooManyDigits (count : Nat)
deriving DecidableEq, Repr

/-- The most digits of a decimal integer. -/
def maxDigits : Nat := 4300

/-- An integer numeral in a base. A decimal one has a limited number of digits, which is enforced before what
follows the digits is looked at. -/
def readInteger (base : Nat) (t : Text) : Except Unreadable Int :=
  let (negative, rest) := sign (t.unpad.codes.map asciiDigit)
  let body := dropMark base rest
  let isPart (c : Nat) : Bool := c == 95 || (digitOf? base c).isSome
  match groupedDigits? (body.takeWhile isPart) with
  | none => .error .noNumeral
  | some digits =>
    if base = 10 ∧ maxDigits < digits.length then .error (.tooManyDigits digits.length)
    else if body.all isPart then
      .ok (Binary64.withSign negative
        (Digits.spell base (digits.map fun c => (digitOf? base c).getD 0)))
    else .error .noNumeral

def integer? (base : Nat) (t : Text) : Option Int :=
  (readInteger base t).toOption

/-- The pieces of a decimal numeral. -/
structure Decimal where
  negative : Bool
  whole : List Nat
  point : Bool
  fraction : List Nat
  /-- Sign and digits of the exponent, if it is written. -/
  exponent : Option (Bool × List Nat)

def isDecimal (c : Nat) : Bool :=
  (decimalValue? c).isSome

/-- The exponent part of a numeral; `none` if it is malformed. -/
def exponent? (codes : List Nat) : Option (Option (Bool × List Nat)) :=
  match codes with
  | [] => some none
  | c :: rest =>
    if c = 101 ∨ c = 69 then
      let (negative, digits) := sign rest
      if !digits.isEmpty && digits.all isDecimal then some (some (negative, digits)) else none
    else none

/-- Sign, digits with an optional point among or around them, and an optional exponent; at least one
digit stands before the exponent. -/
def scan? (codes : List Nat) : Option Decimal :=
  let (negative, body) := sign codes
  let whole := body.takeWhile isDecimal
  let rest := body.dropWhile isDecimal
  let (point, fraction, rest) :=
    match rest with
    | 46 :: more => (true, more.takeWhile isDecimal, more.dropWhile isDecimal)
    | more => (false, [], more)
  if whole.isEmpty && fraction.isEmpty then none
  else (exponent? rest).map fun exponent => ⟨negative, whole, point, fraction, exponent⟩

/-- Numbers with a decimal exponent beyond this read as zero or infinity. -/
def exponentBound : Int := 400

/-- The double nearest to `n * 10 ^ e`. The decimal exponent of `n` lies between three tenths and a third of its
binary one, so a number that is out of bounds is known without computing a power. -/
def scaled (n : Nat) (e : Int) : Float :=
  if n = 0 then 0
  else if exponentBound < e + (n.log2 * 3 / 10 : Nat) then Binary64.infinity false
  else if e + (n.log2 / 3 + 1 : Nat) < -exponentBound then 0
  else Float.ofScientific n (decide (e < 0)) e.natAbs

/-- The number that decimal digits spell. -/
def decimals (codes : List Nat) : Nat :=
  Digits.spell 10 (codes.map fun c => (decimalValue? c).getD 0)

/-- The double nearest to a decimal numeral. -/
def Decimal.toFloat (d : Decimal) : Float :=
  let shift : Int :=
    match d.exponent with
    | none => 0
    | some (negative, digits) => Binary64.withSign negative (decimals digits)
  let x := scaled (decimals (d.whole ++ d.fraction)) (shift - d.fraction.length)
  if d.negative then -x else x

/-- The words that read as a number. -/
def word? (codes : List Nat) : Option Float :=
  let (negative, rest) := sign codes
  let lower := (Text.mk rest).toLower
  if lower = "inf" ∨ lower = "infinity" then some (Binary64.infinity negative)
  else if lower = "nan" then some Binary64.nan
  else none

/-- A decimal numeral or a word for what is not finite, with padding around it allowed. -/
def decimal? (t : Text) : Option Float :=
  let codes := t.unpad.codes
  match scan? codes with
  | some d => some d.toFloat
  | none => word? codes

/-- Integers of this many bits and more are beyond every double. -/
def integerBits : Nat := 1024

/-- An integer as a number; too large a one is NaN. -/
def ofInteger? (n : Option Int) : Number :=
  match n with
  | none => .nan
  | some n =>
    if integerBits ≤ n.natAbs.log2 then .nan
    else
      let x := Float.ofInt n
      if x.isInf then .nan else .ofFloat x

/-- A literal without its separators and without the mark of a big integer. -/
def cleaned (t : Text) : Text :=
  ⟨((t.codes.filter (· ≠ 95)).reverse.dropWhile (· == 110)).reverse⟩

/-- The value of a numeric literal. -/
def literal (t : Text) : Number :=
  let clean := cleaned t
  let lower := clean.toLower
  match lower.codes with
  | 48 :: 120 :: rest => ofInteger? (integer? 16 ⟨rest⟩)
  | 48 :: 111 :: rest => ofInteger? (integer? 8 ⟨rest⟩)
  | 48 :: 98 :: rest => ofInteger? (integer? 2 ⟨rest⟩)
  | codes =>
    if 1 < codes.length && codes.head? == some 48 && lower.allDigitLike then
      ofInteger? (integer? 8 lower)
    else
      match decimal? clean with
      | some x => .ofFloat x
      | none => .nan

/-- Whether a text starts with a zero and the mark of a base. -/
def hasMark (codes : List Nat) : Bool :=
  match codes with
  | 48 :: c :: _ => c == 120 || c == 111 || c == 98
  | _ => false

/-- The number a text stands for in arithmetic. -/
def ofText (t : Text) : Number :=
  let body := t.strip
  if body.isEmpty then 0
  else if body = "Infinity" ∨ body = "+Infinity" then .infinity false
  else if body = "-Infinity" then .infinity true
  else if hasMark body.toLower.codes then literal body.toLower
  else
    match scan? body.codes with
    | some d => .ofFloat d.toFloat
    | none => .nan

end ScriptTrace.Numeral
