import ScriptTrace.Text.Hidden
import ScriptTrace.Text.Quoted
/-!
# Inspected texts

How a text is shown inside a message about data: between single quotes, or double ones if it holds a
single quote and no double one. Code points without a visible form are written by their number.
-/
namespace ScriptTrace.Text

/-- The last `width` hexadecimal digits of a number. -/
def hexDigits : Nat → Nat → List Nat
  | 0, _ => []
  | width + 1, n => hexDigits width (n / 16) ++ [hexDigit (n % 16)]

/-- How one code point is shown between the given quotes. -/
def inspectCode (mark c : Nat) : List Nat :=
  if c = mark ∨ c = 92 then [92, c]
  else if c = 10 then [92, 110]
  else if c = 13 then [92, 114]
  else if c = 9 then [92, 116]
  else if isHidden c then
    if c < 0x100 then 92 :: 120 :: hexDigits 2 c
    else if c < 0x10000 then 92 :: 117 :: hexDigits 4 c
    else 92 :: 85 :: hexDigits 8 c
  else [c]

def inspect (t : Text) : Text :=
  let mark := if t.codes.contains 39 && !t.codes.contains 34 then 34 else 39
  ⟨mark :: t.codes.flatMap (inspectCode mark) ++ [mark]⟩

end ScriptTrace.Text
