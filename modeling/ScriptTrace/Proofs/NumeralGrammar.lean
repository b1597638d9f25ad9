import Mathlib.Data.List.Forall2
import ScriptTrace.Proofs.Keys
/-!
# The grammar of numerals

The numerals that can be read, as relations on their codes. Integers in one of the marked bases are read leniently:
padding may stand around the numeral, a sign in front of it, and the zero and mark of the base once more. Decimal
numerals have a sign, digits with a point among or around them, and an exponent. All digits may be of any script.

* `integer_eq_some_iff`: a text without separators is read as an integer exactly if it is a `Lenient` numeral.
* `scan_isSome_iff`: a text is read as a decimal numeral exactly if it is a `DecimalNumeral`.
-/
namespace ScriptTrace.Text

/-! ## Stripping -/

variable {p : Nat → Bool} {before mid after : List Nat}

theorem exists_stripOf (p : Nat → Bool) (t : Text) : ∃ before after, t.codes = before ++ (t.stripOf p).codes ++ after ∧
    (∀ c ∈ before, p c = true) ∧ ∀ c ∈ after, p c = true := by
  have front := List.takeWhile_append_dropWhile (p := p) (l := t.codes)
  have back := List.takeWhile_append_dropWhile (p := p) (l := (t.codes.dropWhile p).reverse)
  refine ⟨t.codes.takeWhile p, ((t.codes.dropWhile p).reverse.takeWhile p).reverse, ?_, ?_, ?_⟩
  · rw [stripOf, List.append_assoc, ← List.reverse_append, back, List.reverse_reverse, front]
  · exact fun c hc => List.mem_takeWhile_imp hc
  · exact fun c hc => List.mem_takeWhile_imp (List.mem_reverse.1 hc)

theorem dropWhile_around (hb : ∀ c ∈ before, p c = true) (hm : ∀ c ∈ mid, p c = false) (nonempty : mid ≠ []) :
    (before ++ mid ++ after).dropWhile p = mid ++ after := by
  obtain ⟨c, rest, rfl⟩ := List.exists_cons_of_ne_nil nonempty
  rw [List.append_assoc, List.dropWhile_append_of_pos hb, List.cons_append,
    List.dropWhile_cons_of_neg (by simp [hm c])]

theorem stripOf_around (hb : ∀ c ∈ before, p c = true) (ha : ∀ c ∈ after, p c = true) (hm : ∀ c ∈ mid, p c = false)
    (nonempty : mid ≠ []) : (Text.mk (before ++ mid ++ after)).stripOf p = ⟨mid⟩ := by
  have back : (after.reverse ++ mid.reverse ++ []).dropWhile p = mid.reverse ++ [] :=
    dropWhile_around (fun c hc => ha c (List.mem_reverse.1 hc)) (fun c hc => hm c (List.mem_reverse.1 hc))
      (by simpa using nonempty)
  rw [List.append_nil, List.append_nil] at back
  rw [stripOf, dropWhile_around hb hm nonempty, List.reverse_append, back, List.reverse_reverse]

end ScriptTrace.Text

namespace ScriptTrace.Numeral

open Text Binary64

/-! ## Pieces of a numeral -/

/-- The codes of a sign, or of none, and whether it is the minus. -/
inductive Signs : List Nat → Bool → Prop
  | none : Signs [] false
  | plus : Signs [43] false
  | minus : Signs [45] true

/-- Whether a letter, small or capital, marks a base. -/
def IsMark (base m : Nat) : Prop :=
  mark? base = some m ∨ (mark? base).map (· - 32) = some m

/-- A zero and the mark of a base, or neither. -/
inductive Marks (base : Nat) : List Nat → Prop
  | none : Marks base []
  | zero {z m : Nat} (hz : asciiDigit z = 48) (hm : IsMark base m) : Marks base [z, m]

/-- Digits of a base and their values; decimal digits may be of any script. -/
def Spelled (base : Nat) : List Nat → List Nat → Prop :=
  List.Forall₂ fun c d => digitOf? base (asciiDigit c) = some d

/-- The integer numerals of a base that can be read, with their values. -/
inductive Lenient (base : Nat) : List Nat → Int → Prop
  | mk {before signs marks digits after ds : List Nat} {negative : Bool} (hb : ∀ c ∈ before, isPadding c = true)
    (hs : Signs signs negative) (hm : Marks base marks) (hd : Spelled base digits ds) (nonempty : ds ≠ [])
    (ha : ∀ c ∈ after, isPadding c = true) :
    Lenient base (before ++ (signs ++ (marks ++ digits)) ++ after) (withSign negative (Digits.inOrder base ds))

/-- What is no digit of ASCII after the digits have been written so was not changed. -/
theorem eq_of_asciiDigit {c : Nat} (h : ¬(48 ≤ asciiDigit c ∧ asciiDigit c ≤ 57)) : asciiDigit c = c := by
  refine asciiDigit_of_not_isDecimal fun decimal => ?_
  obtain ⟨d, -, lt, hd⟩ := asciiDigit_of_isDecimal decimal
  omega

theorem mem_separator {codes : List Nat} (h : 95 ∈ codes.map asciiDigit) : 95 ∈ codes := by
  obtain ⟨c, hc, separator⟩ := List.mem_map.1 h
  rw [eq_of_asciiDigit (by omega)] at separator
  exact separator ▸ hc

theorem IsMark.cases {base m : Nat} (h : IsMark base m) :
    base = 16 ∧ (m = 120 ∨ m = 88) ∨ base = 8 ∧ (m = 111 ∨ m = 79) ∨ base = 2 ∧ (m = 98 ∨ m = 66) := by
  unfold IsMark mark? at h
  split at h <;> simp_all <;> omega

/-- A mark is neither a digit of its base nor of any other class that matters here. -/
theorem IsMark.spec {base m : Nat} (h : IsMark base m) :
    digitOf? base m = none ∧ isPadding m = false ∧ asciiDigit m = m ∧ 48 ≤ m ∧ m ≠ 95 := by
  rcases h.cases with ⟨rfl, rfl | rfl⟩ | ⟨rfl, rfl | rfl⟩ | ⟨rfl, rfl | rfl⟩ <;> decide

section Sign

variable {codes signs : List Nat} {negative : Bool}

theorem exists_signs (codes : List Nat) : ∃ signs, Signs signs (sign codes).1 ∧ codes = signs ++ (sign codes).2 := by
  unfold sign
  split
  · exact ⟨_, .minus, rfl⟩
  · exact ⟨_, .plus, rfl⟩
  · exact ⟨_, .none, rfl⟩

theorem sign_of_head (h : ∀ c ∈ codes.head?, c ≠ 45 ∧ c ≠ 43) : sign codes = (false, codes) := by
  unfold sign
  split
  · exact absurd rfl (h 45 rfl).1
  · exact absurd rfl (h 43 rfl).2
  · rfl

theorem sign_append (hs : Signs signs negative) (h : ∀ c ∈ codes.head?, c ≠ 45 ∧ c ≠ 43) :
    sign (signs ++ codes) = (negative, codes) := by
  cases hs with
  | none => exact sign_of_head h
  | plus => rfl
  | minus => rfl

theorem Signs.map_asciiDigit (hs : Signs signs negative) : signs.map asciiDigit = signs := by
  cases hs <;> rfl

/-- Digits of other scripts are no signs. -/
theorem sign_map (codes : List Nat) :
    sign (codes.map asciiDigit) = ((sign codes).1, (sign codes).2.map asciiDigit) := by
  cases codes with
  | nil => rfl
  | cons c rest =>
    by_cases small : asciiDigit c = 45 ∨ asciiDigit c = 43
    · have same : asciiDigit c = c := eq_of_asciiDigit (by omega)
      rw [same] at small
      rcases small with rfl | rfl <;> rfl
    · have other : c ≠ 45 ∧ c ≠ 43 := by
        constructor <;> rintro rfl <;> exact small (by decide)
      have unsigned : sign (c :: rest) = (false, c :: rest) := sign_of_head (by simpa using other)
      have unsigned' : sign ((c :: rest).map asciiDigit) = (false, (c :: rest).map asciiDigit) :=
        sign_of_head (by simpa using small)
      rw [unsigned, unsigned']

end Sign

section Digits

variable {base c d : Nat} {digits ds : List Nat}

/-- Digits are letters or look like digits. -/
theorem digitOf_range (h : digitOf? base c = some d) : isDecimal c = true ∨ 65 ≤ c ∧ c ≤ 90 ∨ 97 ≤ c ∧ c ≤ 122 := by
  by_cases decimal : isDecimal c = true
  · exact .inl decimal
  · refine .inr (by_contra fun other => ?_)
    simp only [digitOf?, Option.not_isSome_iff_eq_none.1 decimal] at h
    rw [if_neg (by omega), if_neg (by omega)] at h
    cases h

theorem digit_spec (h : digitOf? base (asciiDigit c) = some d) :
    48 ≤ asciiDigit c ∧ asciiDigit c ≠ 95 ∧ isPadding c = false := by
  by_cases decimal : isDecimal c = true
  · have like := isDigitLike_of_isDecimal decimal
    obtain ⟨low, other⟩ := asciiDigit_bounds like
    exact ⟨low, other, isPadding_of_isDigitLike like⟩
  · rw [asciiDigit_of_not_isDecimal decimal] at h ⊢
    have letter := (digitOf_range h).resolve_left decimal
    have dark : isBlank c = false := by
      refine Bool.eq_false_iff.2 fun blank => ?_
      have apart : ∀ c ∈ blanks, ¬(65 ≤ c ∧ c ≤ 90 ∨ 97 ≤ c ∧ c ≤ 122) := by decide
      exact apart c ((isBlank_iff c).1 blank) letter
    refine ⟨by omega, by omega, ?_⟩
    rw [isPadding, dark, Bool.false_and]

theorem exists_related {R : Nat → Nat → Prop} (h : List.Forall₂ R digits ds) (hc : c ∈ digits) : ∃ d ∈ ds, R c d := by
  induction h with
  | nil => cases hc
  | cons head _ ih =>
    rcases List.mem_cons.1 hc with rfl | hc
    · exact ⟨_, List.mem_cons_self, head⟩
    · obtain ⟨d, hd, h⟩ := ih hc
      exact ⟨d, List.mem_cons_of_mem _ hd, h⟩

theorem Spelled.exists_digit (hd : Spelled base digits ds) (hc : c ∈ digits) :
    ∃ d, digitOf? base (asciiDigit c) = some d := by
  obtain ⟨d, -, h⟩ := exists_related hd hc
  exact ⟨d, h⟩

theorem Spelled.values (hd : Spelled base digits ds) :
    (digits.map asciiDigit).map (fun c => (digitOf? base c).getD 0) = ds := by
  induction hd with
  | nil => rfl
  | cons head _ ih => rw [List.map_cons, List.map_cons, ih, head, Option.getD_some]

theorem spelled_of_forall (h : ∀ c ∈ digits, (digitOf? base (asciiDigit c)).isSome = true) :
    Spelled base digits ((digits.map asciiDigit).map fun c => (digitOf? base c).getD 0) := by
  rw [List.map_map, Spelled, List.forall₂_map_right_iff, List.forall₂_same]
  intro c hc
  obtain ⟨d, hd⟩ := Option.isSome_iff_exists.1 (h c hc)
  rw [Function.comp_apply, hd, Option.getD_some]

end Digits

section Mark

variable {base m : Nat} {codes rest marks digits ds : List Nat}

theorem dropMark_marked (hm : IsMark base m) (plain : 95 ∉ rest) : dropMark base (48 :: m :: rest) = rest := by
  unfold IsMark at hm
  rw [dropMark, if_pos hm]
  rintro more rfl
  exact plain List.mem_cons_self

theorem dropMark_unmarked (h : ∀ m rest, codes = 48 :: m :: rest → ¬IsMark base m) : dropMark base codes = codes := by
  unfold dropMark
  split
  · rename_i m rest
    exact if_neg (h m rest rfl)
  · rfl

theorem exists_marks (base : Nat) (plain : 95 ∉ codes) : ∃ marks rest, Marks base marks ∧ codes = marks ++ rest ∧
    dropMark base (codes.map asciiDigit) = rest.map asciiDigit := by
  by_cases marked : ∃ z m rest, codes = z :: m :: rest ∧ asciiDigit z = 48 ∧ IsMark base (asciiDigit m)
  · obtain ⟨z, m, rest, rfl, hz, hm⟩ := marked
    have same : asciiDigit m = m := eq_of_asciiDigit (by rcases hm.cases with h | h | h <;> omega)
    have plain' : 95 ∉ rest.map asciiDigit := fun separator =>
      plain (List.mem_cons_of_mem _ (List.mem_cons_of_mem _ (mem_separator separator)))
    refine ⟨[z, m], rest, .zero hz (same ▸ hm), rfl, ?_⟩
    rw [List.map_cons, List.map_cons, hz, dropMark_marked hm plain']
  · refine ⟨[], codes, .none, rfl, dropMark_unmarked fun m rest eq hm => marked ?_⟩
    obtain ⟨z, tail, rfl, hz, eq⟩ := List.map_eq_cons_iff.1 eq
    obtain ⟨m, tail, rfl, rfl, -⟩ := List.map_eq_cons_iff.1 eq
    exact ⟨z, m, tail, rfl, hz, hm⟩

theorem Spelled.not_mem_separator (hd : Spelled base digits ds) : 95 ∉ digits.map asciiDigit := by
  rw [List.mem_map]
  rintro ⟨c, hc, separator⟩
  obtain ⟨d, hd⟩ := hd.exists_digit hc
  exact (digit_spec hd).2.1 separator

theorem dropMark_digits (hm : Marks base marks) (hd : Spelled base digits ds) :
    dropMark base ((marks ++ digits).map asciiDigit) = digits.map asciiDigit := by
  cases hm with
  | none =>
    -- a mark is no digit, so the numeral does not seem to be marked once more
    refine dropMark_unmarked fun m rest eq hm => ?_
    obtain ⟨z, tail, rfl, -, eq⟩ := List.map_eq_cons_iff.1 eq
    obtain ⟨c, tail, rfl, rfl, -⟩ := List.map_eq_cons_iff.1 eq
    obtain ⟨d, digit⟩ := hd.exists_digit (List.mem_cons_of_mem _ List.mem_cons_self)
    rw [hm.spec.1] at digit
    cases digit
  | zero hz mark =>
    rw [List.map_append, List.map_cons, List.map_cons, List.map_nil, hz, mark.spec.2.2.1]
    exact dropMark_marked mark hd.not_mem_separator

end Mark

/-! ## Integers -/

section Integer

variable {base : Nat} {codes : List Nat}

/-- Reading in a base other than ten, for a text without separators. -/
theorem integer_eq (other : base ≠ 10) {t : Text} {negative : Bool} {rest body : List Nat}
    (signed : sign (t.unpad.codes.map asciiDigit) = (negative, rest)) (unmarked : dropMark base rest = body)
    (plain : 95 ∉ body) :
    integer? base t =
      if body ≠ [] ∧ ∀ c ∈ body, (digitOf? base c).isSome = true then
        some (withSign negative (Digits.inOrder base (body.map fun c => (digitOf? base c).getD 0)))
      else none := by
  have part : ∀ c ∈ body, (c == 95 || (digitOf? base c).isSome) = (digitOf? base c).isSome := by
    intro c hc
    have differs : c ≠ 95 := by
      rintro rfl
      exact plain hc
    rw [beq_false_of_ne differs, Bool.false_or]
  have all : body.all (fun c => c == 95 || (digitOf? base c).isSome) = true ↔
      ∀ c ∈ body, (digitOf? base c).isSome = true := by
    rw [List.all_eq_true]
    exact forall₂_congr fun c hc => by rw [part c hc]
  simp only [integer?, readInteger, signed, unmarked, other, false_and, if_false, Digits.spell_eq_inOrder]
  by_cases digits : ∀ c ∈ body, (digitOf? base c).isSome = true
  · have whole : body.takeWhile (fun c => c == 95 || (digitOf? base c).isSome) = body :=
      List.takeWhile_eq_self_iff.2 fun c hc => (part c hc).trans (digits c hc)
    have grouped : groupedDigits? body = if body = [] then none else some body := by
      have absent : body.contains 95 = false := by rwa [List.contains_eq_mem, decide_eq_false_iff_not]
      rw [groupedDigits?, absent]
      simp
    rw [whole, grouped]
    by_cases empty : body = []
    · simp [empty, Except.toOption]
    · rw [if_neg empty, if_pos ⟨empty, digits⟩]
      simp only [all.2 digits, if_true, Except.toOption]
  · have broken : ¬body.all (fun c => c == 95 || (digitOf? base c).isSome) = true := fun h => digits (all.1 h)
    rw [if_neg fun h => digits h.2]
    split
    · rfl
    · rw [if_neg broken]
      rfl

/-- No code of a numeral is padding, and all but a sign come after the signs. -/
theorem piece_spec {marks digits ds : List Nat} (hm : Marks base marks) (hd : Spelled base digits ds) :
    ∀ c ∈ marks ++ digits, 48 ≤ asciiDigit c ∧ isPadding c = false := by
  intro c hc
  rcases List.mem_append.1 hc with hc | hc
  · cases hm with
    | none => cases hc
    | zero hz mark =>
      rcases List.mem_cons.1 hc with rfl | hc
      · have decimal : isDecimal c = true := by
          by_contra other
          rw [asciiDigit_of_not_isDecimal other] at hz
          exact other (hz ▸ rfl)
        exact ⟨hz.ge, isPadding_of_isDigitLike (isDigitLike_of_isDecimal decimal)⟩
      · rw [List.mem_singleton.1 hc, mark.spec.2.2.1]
        exact ⟨mark.spec.2.2.2.1, mark.spec.2.1⟩
  · obtain ⟨d, digit⟩ := hd.exists_digit hc
    exact ⟨(digit_spec digit).1, (digit_spec digit).2.2⟩

theorem Lenient.integer_eq (other : base ≠ 10) {n : Int} (h : Lenient base codes n) :
    integer? base ⟨codes⟩ = some n := by
  obtain ⟨hb, hs, hm, hd, nonempty, ha⟩ := h
  rename_i before signs marks digits after ds negative
  have pieces := piece_spec hm hd
  have filled : digits ≠ [] := by
    rintro rfl
    exact nonempty (List.forall₂_nil_left_iff.1 hd)
  have bare : (Text.mk (before ++ (signs ++ (marks ++ digits)) ++ after)).unpad = ⟨signs ++ (marks ++ digits)⟩ := by
    refine stripOf_around hb ha (fun c hc => ?_) (by simp [filled])
    rcases List.mem_append.1 hc with hc | hc
    · cases hs with
      | none => cases hc
      | plus | minus =>
        rw [List.mem_singleton.1 hc]
        rfl
    · exact (pieces c hc).2
  have signed : sign ((Text.mk (before ++ (signs ++ (marks ++ digits)) ++ after)).unpad.codes.map asciiDigit) =
      (negative, (marks ++ digits).map asciiDigit) := by
    rw [bare, List.map_append, hs.map_asciiDigit]
    refine sign_append hs fun c hc => ?_
    have low := List.forall_mem_map.2 (fun c hc => (pieces c hc).1) c (List.mem_of_mem_head? hc)
    omega
  have read : ∀ c ∈ digits.map asciiDigit, (digitOf? base c).isSome = true := by
    refine List.forall_mem_map.2 fun c hc => ?_
    exact Option.isSome_iff_exists.2 (hd.exists_digit hc)
  rw [Numeral.integer_eq other signed (dropMark_digits hm hd) hd.not_mem_separator,
    if_pos ⟨by simpa using filled, read⟩, hd.values]

theorem lenient_of_integer (other : base ≠ 10) (plain : 95 ∉ codes) {n : Int} (read : integer? base ⟨codes⟩ = some n) :
    Lenient base codes n := by
  obtain ⟨before, after, around, hb, ha⟩ := exists_stripOf isPadding ⟨codes⟩
  obtain ⟨signs, hs, signed⟩ := exists_signs (Text.mk codes).unpad.codes
  have unsigned : 95 ∉ (sign (Text.mk codes).unpad.codes).2 := by
    intro separator
    have inner : 95 ∈ (Text.mk codes).unpad.codes := signed ▸ List.mem_append_right _ separator
    have whole : 95 ∈ (Text.mk codes).codes := around ▸ List.mem_append_left _ (List.mem_append_right _ inner)
    exact plain whole
  obtain ⟨marks, digits, hm, marked, unmarked⟩ := exists_marks base unsigned
  have shape : codes = before ++ (signs ++ (marks ++ digits)) ++ after := by
    rw [← marked, ← signed]
    exact around
  have plain' : 95 ∉ digits.map asciiDigit := by
    intro separator
    have inner := mem_separator separator
    rw [shape] at plain
    simp [inner] at plain
  rw [Numeral.integer_eq other (sign_map _) unmarked plain'] at read
  split at read
  case isTrue h =>
    obtain rfl := Option.some.inj read
    have hd := spelled_of_forall (List.forall_mem_map.1 h.2)
    generalize (sign (Text.mk codes).unpad.codes).1 = negative at hs
    rw [shape]
    exact .mk hb hs hm hd (by simpa using h.1) ha
  case isFalse => cases read

/-- A text without separators can be read in a base other than ten exactly if it is a numeral of it. -/
theorem integer_eq_some_iff (other : base ≠ 10) (plain : 95 ∉ codes) {n : Int} :
    integer? base ⟨codes⟩ = some n ↔ Lenient base codes n :=
  ⟨lenient_of_integer other plain, Lenient.integer_eq other⟩

end Integer

/-! ## Decimal numerals -/

/-- A point and the digits behind it, or neither. -/
inductive Fraction : List Nat → List Nat → Prop
  | none : Fraction [] []
  | point {digits : List Nat} (hd : ∀ c ∈ digits, isDecimal c = true) : Fraction (46 :: digits) digits

/-- The codes of an exponent, or of none. -/
inductive Exponent : List Nat → Prop
  | none : Exponent []
  | some {e : Nat} {signs digits : List Nat} {negative : Bool} (he : e = 101 ∨ e = 69) (hs : Signs signs negative)
    (hd : ∀ c ∈ digits, isDecimal c = true) (nonempty : digits ≠ []) : Exponent (e :: (signs ++ digits))

/-- The decimal numerals that can be read. -/
inductive DecimalNumeral : List Nat → Prop
  | mk {signs whole fraction digits exponent : List Nat} {negative : Bool} (hs : Signs signs negative)
    (hw : ∀ c ∈ whole, isDecimal c = true) (hf : Fraction fraction digits) (he : Exponent exponent)
    (nonempty : whole ++ digits ≠ []) : DecimalNumeral (signs ++ (whole ++ (fraction ++ exponent)))

section Decimal

variable {codes : List Nat}

theorem span_eq {p : Nat → Bool} {front back : List Nat} (hf : ∀ c ∈ front, p c = true)
    (hb : ∀ c ∈ back.head?, p c = false) :
    (front ++ back).takeWhile p = front ∧ (front ++ back).dropWhile p = back := by
  rw [List.takeWhile_append_of_pos hf, List.dropWhile_append_of_pos hf]
  cases back with
  | nil => simp
  | cons c rest =>
    have stop : ¬p c = true := by simp [hb c rfl]
    simp [stop]

/-- The digits of a numeral are no signs. -/
theorem head_digits {digits : List Nat} (hd : ∀ c ∈ digits, isDecimal c = true) :
    ∀ c ∈ digits.head?, c ≠ 45 ∧ c ≠ 43 := by
  intro c hc
  have decimal := hd c (List.mem_of_mem_head? hc)
  constructor <;> rintro rfl <;> exact absurd decimal (by decide)

theorem exponent_isSome_iff : (exponent? codes).isSome = true ↔ Exponent codes := by
  constructor
  · intro read
    unfold exponent? at read
    split at read
    · exact .none
    · rename_i e rest
      split at read
      · rename_i he
        obtain ⟨signs, hs, signed⟩ := exists_signs rest
        dsimp only at read
        split at read
        · rename_i digits
          rw [Bool.and_eq_true, Bool.not_eq_true', List.isEmpty_eq_false_iff, List.all_eq_true] at digits
          rw [signed]
          exact .some he hs digits.2 digits.1
        · cases read
      · cases read
  · intro h
    cases h with
    | none => rfl
    | some he hs hd nonempty =>
      rw [exponent?, if_pos he, sign_append hs (head_digits hd)]
      simpa [nonempty] using hd

theorem Exponent.head {exponent : List Nat} (he : Exponent exponent) : ∀ c ∈ exponent.head?, c = 101 ∨ c = 69 := by
  cases he with
  | none => rintro c ⟨⟩
  | some he =>
    rintro c ⟨⟩
    exact he

/-- What follows the sign does not start with one. -/
theorem head_unsigned {whole fraction digits exponent : List Nat} (hw : ∀ c ∈ whole, isDecimal c = true)
    (hf : Fraction fraction digits) (he : Exponent exponent) :
    ∀ c ∈ (whole ++ (fraction ++ exponent)).head?, c ≠ 45 ∧ c ≠ 43 := by
  cases whole with
  | cons d rest =>
    rintro c ⟨⟩
    exact head_digits hw d rfl
  | nil =>
    cases hf with
    | none =>
      intro c hc
      have := he.head c hc
      omega
    | point =>
      rintro c ⟨⟩
      decide

/-- The last step of scanning: without a digit there is no numeral, whatever the exponent. -/
theorem guarded_isSome {whole fraction : List Nat} {exponent : Option (Option (Bool × List Nat))}
    (f : Option (Bool × List Nat) → Decimal) :
    (if (whole.isEmpty && fraction.isEmpty) = true then none else exponent.map f).isSome = true ↔
      whole ++ fraction ≠ [] ∧ exponent.isSome = true := by
  cases whole <;> cases fraction <;> simp

section Scan

variable {body more : List Nat} {negative : Bool} (signed : sign codes = (negative, body))

include signed

theorem scan_point (point : body.dropWhile isDecimal = 46 :: more) :
    (scan? codes).isSome = true ↔ (body.takeWhile isDecimal ++ more.takeWhile isDecimal ≠ []) ∧
      (exponent? (more.dropWhile isDecimal)).isSome = true := by
  simp only [scan?, signed, point]
  exact guarded_isSome _

theorem scan_whole (other : ∀ more, body.dropWhile isDecimal ≠ 46 :: more) :
    (scan? codes).isSome = true ↔ (body.takeWhile isDecimal ++ [] ≠ []) ∧
      (exponent? (body.dropWhile isDecimal)).isSome = true := by
  -- without a point, nothing is taken off what follows the digits
  cases rest : body.dropWhile isDecimal with
  | nil =>
    simp only [scan?, signed, rest]
    exact guarded_isSome _
  | cons c more =>
    have apart : c ≠ 46 := fun eq => other more (eq ▸ rest)
    simp only [scan?, signed, rest]
    split
    case h_1 h => exact absurd (List.cons.inj h).1 apart
    case h_2 => exact guarded_isSome _

end Scan

theorem decimalNumeral_of_scan (read : (scan? codes).isSome = true) : DecimalNumeral codes := by
  obtain ⟨signs, hs, signed⟩ := exists_signs codes
  have whole : ∀ c ∈ (sign codes).2.takeWhile isDecimal, isDecimal c = true := fun c hc => List.mem_takeWhile_imp hc
  have body := List.takeWhile_append_dropWhile (p := isDecimal) (l := (sign codes).2)
  by_cases point : ∃ more, (sign codes).2.dropWhile isDecimal = 46 :: more
  · obtain ⟨more, point⟩ := point
    obtain ⟨nonempty, exponent⟩ := (scan_point rfl point).1 read
    have fraction : ∀ c ∈ more.takeWhile isDecimal, isDecimal c = true := fun c hc => List.mem_takeWhile_imp hc
    have shape : codes = signs ++ ((sign codes).2.takeWhile isDecimal ++
        (46 :: more.takeWhile isDecimal ++ more.dropWhile isDecimal)) := by
      rw [List.cons_append, List.takeWhile_append_dropWhile, ← point, body, ← signed]
    rw [shape]
    exact .mk hs whole (.point fraction) (exponent_isSome_iff.1 exponent) nonempty
  · obtain ⟨nonempty, exponent⟩ := (scan_whole rfl (not_exists.1 point)).1 read
    have shape : codes = signs ++ ((sign codes).2.takeWhile isDecimal ++
        ([] ++ (sign codes).2.dropWhile isDecimal)) := by
      rw [List.nil_append, body, ← signed]
    rw [shape]
    exact .mk hs whole .none (exponent_isSome_iff.1 exponent) nonempty

theorem DecimalNumeral.scan_isSome (h : DecimalNumeral codes) : (scan? codes).isSome = true := by
  obtain ⟨hs, hw, hf, he, nonempty⟩ := h
  rename_i signs whole fraction digits exponent negative
  have signed := sign_append hs (head_unsigned hw hf he)
  have stops : ∀ c ∈ exponent.head?, isDecimal c = false := by
    intro c hc
    rcases he.head c hc with rfl | rfl <;> rfl
  have read := exponent_isSome_iff.2 he
  cases hf with
  | none =>
    obtain ⟨taken, dropped⟩ := span_eq hw stops
    have other : ∀ more, exponent ≠ 46 :: more := by
      rintro more rfl
      exact absurd (he.head 46 rfl) (by decide)
    rw [← dropped] at other read
    exact (scan_whole signed other).2 ⟨by rwa [List.nil_append, taken], read⟩
  | point hd =>
    have pointed : ∀ c ∈ (46 :: (digits ++ exponent)).head?, isDecimal c = false := by
      rintro c ⟨⟩
      rfl
    obtain ⟨taken, dropped⟩ := span_eq hw pointed
    obtain ⟨taken', dropped'⟩ := span_eq hd stops
    refine (scan_point signed dropped).2 ⟨?_, ?_⟩
    · rw [taken']
      exact (congrArg (· ++ digits) taken).trans_ne nonempty
    · rwa [dropped']

/-- A text is read as a decimal numeral exactly if it is one. -/
theorem scan_isSome_iff : (scan? codes).isSome = true ↔ DecimalNumeral codes :=
  ⟨decimalNumeral_of_scan, DecimalNumeral.scan_isSome⟩

end Decimal

end ScriptTrace.Numeral
