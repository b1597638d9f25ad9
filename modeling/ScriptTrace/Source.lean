import ScriptTrace.Text.Basic
/-!
# Source texts

Positions in a program are byte offsets into its UTF-8 form; people count **lines**, from one, and
**columns**, in bytes from zero.
-/
namespace ScriptTrace

structure Source where
  text : Text
deriving Repr, Inhabited

namespace Source

/-- How many line feeds stand in the first `offset` bytes. -/
def newlinesBefore : List Nat → Nat → Nat
  | [], _ => 0
  | c :: rest, offset =>
    if offset = 0 then 0
    else (if c = 10 then 1 else 0) + newlinesBefore rest (offset - Text.width8 c)

/-- The bytes between the last line feed before `offset` and `offset`. -/
def columnBefore : List Nat → Nat → Nat → Nat
  | [], _, column => column
  | c :: rest, offset, column =>
    if offset = 0 then column
    else columnBefore rest (offset - Text.width8 c) (if c = 10 then 0 else column + Text.width8 c)

def dropBytes : List Nat → Nat → List Nat
  | [], _ => []
  | c :: rest, n => if n = 0 then c :: rest else dropBytes rest (n - Text.width8 c)

def takeBytes : List Nat → Nat → List Nat
  | [], _ => []
  | c :: rest, n => if n = 0 then [] else c :: takeBytes rest (n - Text.width8 c)

/-- The line on which the byte at `offset` stands. -/
def lineAt (src : Source) (offset : Nat) : Nat :=
  newlinesBefore src.text.codes offset + 1

def columnAt (src : Source) (offset : Nat) : Nat :=
  columnBefore src.text.codes offset 0

/-- The text between two offsets. -/
def slice (src : Source) (start stop : Nat) : Text :=
  ⟨takeBytes (dropBytes src.text.codes start) (stop - start)⟩

def lines (src : Source) : List Text :=
  src.text.lines

/-- The text of a line; nothing for a line that is not there. -/
def line (src : Source) (n : Nat) : Text :=
  if n = 0 then .empty else src.lines.getD (n - 1) .empty

/-- How many lines the source has, not counting an empty one at its end. -/
def lineCount (src : Source) : Nat :=
  let feeds := src.text.codes.count 10
  if src.text.isEmpty || src.text.codes.getLast? == some 10 then feeds else feeds + 1

/-! ## Lines of offsets -/

theorem newlinesBefore_le_count (codes : List Nat) (offset : Nat) :
    newlinesBefore codes offset ≤ codes.count 10 := by
  induction codes generalizing offset with
  | nil => exact Nat.le_refl 0
  | cons c rest ih =>
    have := ih (offset - Text.width8 c)
    unfold newlinesBefore
    split
    · exact Nat.zero_le _
    · rw [List.count_cons, Nat.add_comm]
      by_cases hc : c = 10
      · rw [if_pos hc, if_pos (beq_iff_eq.2 hc)]
        omega
      · rw [if_neg hc, if_neg (mt beq_iff_eq.1 hc)]
        omega

theorem newlinesBefore_mono (codes : List Nat) {a b : Nat} (h : a ≤ b) :
    newlinesBefore codes a ≤ newlinesBefore codes b := by
  induction codes generalizing a b with
  | nil => exact Nat.le_refl 0
  | cons c rest ih =>
    have := ih (Nat.sub_le_sub_right h (Text.width8 c))
    unfold newlinesBefore
    by_cases ha : a = 0
    · rw [if_pos ha]
      exact Nat.zero_le _
    · have hb : b ≠ 0 := by omega
      rw [if_neg ha, if_neg hb]
      omega

theorem lineAt_pos (src : Source) (offset : Nat) : 1 ≤ src.lineAt offset :=
  Nat.le_add_left 1 _

/-- Every offset, also one past the end, is on a line of the source. -/
theorem lineAt_le_length (src : Source) (offset : Nat) : src.lineAt offset ≤ src.lines.length := by
  have := newlinesBefore_le_count src.text.codes offset
  rw [lines, Text.lines, Text.length_split]
  exact Nat.succ_le_succ this

theorem lineAt_mono (src : Source) {a b : Nat} (h : a ≤ b) : src.lineAt a ≤ src.lineAt b :=
  Nat.succ_le_succ (newlinesBefore_mono _ h)

/-! ## Offsets behind a front part -/

section Front

variable {front : List Nat} (ascii : ∀ c ∈ front, c < 0x80) (rest : List Nat) (n : Nat)

include ascii

end Front

end Source

end ScriptTrace
