/-!
# Texts

A **text** is a finite sequence of code points. Scripts can spell half of a surrogate pair on its
own, so a text is not a `String`: every code point below `0x110000` may occur, surrogates included,
and each counts as one position.
-/
namespace ScriptTrace

/-- A sequence of code points, lone surrogates included. -/
structure Text where
  codes : List Nat
deriving DecidableEq, Repr, Inhabited

namespace Text

def ofString (s : String) : Text :=
  ⟨s.toList.map Char.toNat⟩

instance : Coe String Text := ⟨ofString⟩

/-- The scalar values of a text as a `String`; a lone surrogate becomes the replacement character. -/
def toString (t : Text) : String :=
  String.ofList (t.codes.map fun c => if c.isValidChar then Char.ofNat c else '�')

def empty : Text := ⟨[]⟩

instance : EmptyCollection Text := ⟨empty⟩

protected def append (s t : Text) : Text :=
  ⟨s.codes ++ t.codes⟩

instance : Append Text := ⟨Text.append⟩

def length (t : Text) : Nat :=
  t.codes.length

def isEmpty (t : Text) : Bool :=
  t.codes.isEmpty

def take (n : Nat) (t : Text) : Text :=
  ⟨t.codes.take n⟩

def drop (n : Nat) (t : Text) : Text :=
  ⟨t.codes.drop n⟩

/-- The text that consists of one code point. -/
def single (c : Nat) : Text :=
  ⟨[c]⟩

def replicate (n : Nat) (t : Text) : Text :=
  ⟨(List.replicate n t.codes).flatten⟩

def concat (parts : List Text) : Text :=
  ⟨parts.flatMap Text.codes⟩

/-- The parts in order with `separator` between neighbours. -/
def join (separator : Text) (parts : List Text) : Text :=
  ⟨separator.codes.intercalate (parts.map Text.codes)⟩

/-- `t` preceded by enough blanks to have at least `width` code points. -/
def padLeft (width : Nat) (t : Text) : Text :=
  ⟨List.replicate (width - t.length) 32 ++ t.codes⟩

/-- `t` followed by enough blanks to have at least `width` code points. -/
def padRight (width : Nat) (t : Text) : Text :=
  ⟨t.codes ++ List.replicate (width - t.length) 32⟩

/-- Decimal digits of a natural number. -/
def ofNat (n : Nat) : Text :=
  ⟨(Nat.toDigits 10 n).map Char.toNat⟩

/-- Decimal digits of an integer, with a sign only if it is negative. -/
def ofInt (n : Int) : Text :=
  if n < 0 then single 45 ++ ofNat n.natAbs else ofNat n.natAbs

instance : Coe Nat Text := ⟨ofNat⟩

/-- The longest first part of a list before `separator`, and what follows the separator. -/
private def splitFirst (separator : Nat) : List Nat → List Nat × List (List Nat)
  | [] => ([], [])
  | c :: rest =>
    let (first, more) := splitFirst separator rest
    if c = separator then ([], first :: more) else (c :: first, more)

/-- The pieces of `t` between separators; there is always at least one. -/
def split (separator : Nat) (t : Text) : List Text :=
  let (first, more) := splitFirst separator t.codes
  ⟨first⟩ :: more.map Text.mk

private theorem length_splitFirst (separator : Nat) (codes : List Nat) :
    (splitFirst separator codes).2.length = codes.count separator := by
  induction codes with
  | nil => rfl
  | cons c rest ih =>
    by_cases h : c = separator
    · simp [splitFirst, h, ih]
    · simp [splitFirst, h, ih]

theorem length_split (separator : Nat) (t : Text) :
    (t.split separator).length = t.codes.count separator + 1 := by
  simp [split, length_splitFirst]

/-- The pieces of `t` between line feeds. -/
def lines (t : Text) : List Text :=
  t.split 10

/-- Lexicographic order on code points. -/
def lt (s t : Text) : Bool :=
  decide (s.codes < t.codes)

/-- `s` with ASCII capitals made small. -/
def toLower (t : Text) : Text :=
  ⟨t.codes.map fun c => if 65 ≤ c ∧ c ≤ 90 then c + 32 else c⟩

/-- The UTF-16 code units of a text: a code point outside the basic plane counts as two. -/
def units16 (t : Text) : List Nat :=
  t.codes.flatMap fun c =>
    if c < 0x10000 then [c] else [0xD800 + (c - 0x10000) / 0x400, 0xDC00 + (c - 0x10000) % 0x400]

/-- Whether a text has no half of a surrogate pair in it. -/
def isUnicode (t : Text) : Bool :=
  t.codes.all Nat.isValidChar

/-- How many bytes a code point takes in UTF-8. -/
def width8 (c : Nat) : Nat :=
  if c < 0x80 then 1 else if c < 0x800 then 2 else if c < 0x10000 then 3 else 4

/-- How many bytes a text takes in UTF-8. -/
def size8 (t : Text) : Nat :=
  t.codes.foldl (fun n c => n + width8 c) 0

@[simp] theorem codes_append (s t : Text) : (s ++ t).codes = s.codes ++ t.codes := rfl

@[simp] theorem length_append (s t : Text) : (s ++ t).length = s.length + t.length := by
  simp [length]

end Text

end ScriptTrace
