import ScriptTrace.Text.Basic
/-!
# Quoted texts

A text between double quotes. The quote, the backslash and the code points below `0x20` are escaped,
the common ones by a letter and the rest by four hexadecimal digits; everything else stands as it is.
-/
namespace ScriptTrace.Text

/-- A small number as a hexadecimal digit. -/
def hexDigit (n : Nat) : Nat :=
  if n < 10 then 48 + n else 87 + n

/-- How one code point is written between quotes. -/
def quoteCode (c : Nat) : List Nat :=
  match c with
  | 34 => [92, 34]
  | 92 => [92, 92]
  | 10 => [92, 110]
  | 13 => [92, 114]
  | 9 => [92, 116]
  | 8 => [92, 98]
  | 12 => [92, 102]
  | c => if c < 32 then [92, 117, 48, 48, hexDigit (c / 16), hexDigit (c % 16)] else [c]

/-- What stands between the quotes. -/
def quoteBody (t : Text) : Text :=
  ⟨t.codes.flatMap quoteCode⟩

def quote (t : Text) : Text :=
  single 34 ++ quoteBody t ++ single 34

end ScriptTrace.Text
