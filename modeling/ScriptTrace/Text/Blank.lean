import ScriptTrace.Text.Basic
/-!
# Blanks

* The **blanks** are the code points that count as white space around a text: those with the Unicode
  bidirectional type or category of a space, plus the four information separators.
* **Padding** is what may stand around a numeral: the blanks other than the information separators.
-/
namespace ScriptTrace.Text

def isBlank (c : Nat) : Bool :=
  (9 ≤ c && c ≤ 13) || (28 ≤ c && c ≤ 32) || c == 0x85 || c == 0xA0 || c == 0x1680 ||
    (0x2000 ≤ c && c ≤ 0x200A) || c == 0x2028 || c == 0x2029 || c == 0x202F || c == 0x205F ||
    c == 0x3000

def isPadding (c : Nat) : Bool :=
  isBlank c && !(28 ≤ c && c ≤ 31)

/-- `t` without the code points of a class at its two ends. -/
def stripOf (p : Nat → Bool) (t : Text) : Text :=
  ⟨((t.codes.dropWhile p).reverse.dropWhile p).reverse⟩

/-- `t` without the blanks at its two ends. -/
def strip (t : Text) : Text :=
  t.stripOf isBlank

/-- `t` without the padding at its two ends. -/
def unpad (t : Text) : Text :=
  t.stripOf isPadding

end ScriptTrace.Text
