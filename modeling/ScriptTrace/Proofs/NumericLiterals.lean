import ScriptTrace.Proofs.Membership
import ScriptTrace.Proofs.NumeralDoubles
import ScriptTrace.Proofs.NumeralGrammar
/-!
# Numeric literals

The grammar of numeric literals, and what they are read as. An integer below `2 ^ 53` is carried as itself, however it
is written, except for one form: a decimal integer with a zero in front is taken for an octal one, and is NaN because a
digit of it is none in that base. In the other bases an integer that overflows is NaN too; no decimal literal is.

* `IntegerLiteral`, `DecimalLiteral`: the literals without and with a point or an exponent.
* `IntegerLiteral.literal_eq`: what an integer literal is read as, by its form.
* `DecimalLiteral.isNaN`: literals with a point or an exponent are not NaN.
-/
namespace ScriptTrace.Numeral

open Text Binary64

/-! ## The grammar -/

/-- A digit of a base and its value. -/
def IsDigit (base c d : Nat) : Prop :=
  hexValue? c = some d ∧ d < base

/-- Digits of a base with their values; one separator may stand between two of them. -/
inductive Grouped (base : Nat) : List Nat → List Nat → Prop
  | one {c d : Nat} (h : IsDigit base c d) : Grouped base [c] [d]
  | cons {c d : Nat} {codes ds : List Nat} (h : IsDigit base c d) (rest : Grouped base codes ds) :
    Grouped base (c :: codes) (d :: ds)
  | separated {c d : Nat} {codes ds : List Nat} (h : IsDigit base c d) (rest : Grouped base codes ds) :
    Grouped base (c :: 95 :: codes) (d :: ds)

/-- The mark of a big integer, or none. -/
inductive BigMark : List Nat → Prop
  | none : BigMark []
  | some : BigMark [110]

/-- The ways to write an integer: with the mark of a base, with a zero in front, or as a decimal number. -/
inductive Form
  | marked
  | legacyOctal
  | legacyDecimal
  | decimal
deriving DecidableEq

/-- A decimal integer and its digits. With a zero in front, one of the digits is too large for an octal number. -/
inductive DecimalInteger : Form → List Nat → List Nat → Prop
  | zero : DecimalInteger .decimal [48] [0]
  | grouped {d : Nat} {codes ds : List Nat} (hd : Grouped 10 codes (d :: ds)) (nonzero : d ≠ 0) :
    DecimalInteger .decimal codes (d :: ds)
  | legacy {codes ds : List Nat} (hd : List.Forall₂ (IsDigit 10) codes ds) (large : ∃ d ∈ ds, 8 ≤ d) :
    DecimalInteger .legacyDecimal (48 :: codes) (0 :: ds)

/-- An integer literal and its value. Old forms have neither separators nor the mark of a big integer. -/
inductive IntegerLiteral : Form → List Nat → Nat → Prop
  | marked {base m : Nat} {codes ds suffix : List Nat} (hm : IsMark base m) (hd : Grouped base codes ds)
    (hs : BigMark suffix) : IntegerLiteral .marked (48 :: m :: (codes ++ suffix)) (Digits.inOrder base ds)
  | legacyOctal {codes ds : List Nat} (hd : List.Forall₂ (IsDigit 8) codes ds) (nonempty : ds ≠ []) :
    IntegerLiteral .legacyOctal (48 :: codes) (Digits.inOrder 8 ds)
  | legacyDecimal {codes ds : List Nat} (hd : DecimalInteger .legacyDecimal codes ds) :
    IntegerLiteral .legacyDecimal codes (Digits.inOrder 10 ds)
  | decimal {codes ds suffix : List Nat} (hd : DecimalInteger .decimal codes ds) (hs : BigMark suffix) :
    IntegerLiteral .decimal (codes ++ suffix) (Digits.inOrder 10 ds)

/-- The exponent of a literal. -/
inductive ExponentPart : List Nat → Prop
  | mk {e : Nat} {signs codes ds : List Nat} {negative : Bool} (he : e = 101 ∨ e = 69) (hs : Signs signs negative)
    (hd : Grouped 10 codes ds) : ExponentPart (e :: (signs ++ codes))

/-- A literal with a point or an exponent. -/
inductive DecimalLiteral : List Nat → Prop
  | point {form : Form} {whole ds fraction exponent : List Nat} (hw : DecimalInteger form whole ds)
    (hf : fraction = [] ∨ ∃ ds, Grouped 10 fraction ds) (he : exponent = [] ∨ ExponentPart exponent) :
    DecimalLiteral (whole ++ (46 :: fraction ++ exponent))
  | fraction {fraction ds exponent : List Nat} (hf : Grouped 10 fraction ds)
    (he : exponent = [] ∨ ExponentPart exponent) : DecimalLiteral (46 :: fraction ++ exponent)
  | exponent {form : Form} {whole ds exponent : List Nat} (hw : DecimalInteger form whole ds)
    (he : ExponentPart exponent) : DecimalLiteral (whole ++ exponent)

/-! ## Digits and separators -/

/-- Codes without the separators among them. -/
def bare (codes : List Nat) : List Nat :=
  codes.filter (· ≠ 95)

@[simp] theorem bare_append (as bs : List Nat) : bare (as ++ bs) = bare as ++ bare bs :=
  List.filter_append ..

theorem bare_eq_self {codes : List Nat} (plain : 95 ∉ codes) : bare codes = codes := by
  refine List.filter_eq_self.2 fun c hc => decide_eq_true ?_
  rintro rfl
  exact plain hc

section Digits

variable {base c d : Nat} {codes digits ds : List Nat}

theorem IsDigit.range (h : IsDigit base c d) :
    48 ≤ c ∧ c ≤ 57 ∧ d + 48 = c ∨ 97 ≤ c ∧ c ≤ 102 ∧ d + 87 = c ∨ 65 ≤ c ∧ c ≤ 70 ∧ d + 55 = c := by
  obtain ⟨value, -⟩ := h
  unfold hexValue? at value
  split at value
  · cases value
    omega
  split at value
  · cases value
    omega
  split at value
  · cases value
    omega
  · cases value

theorem IsDigit.ne (h : IsDigit base c d) : c ≠ 95 ∧ c ≠ 110 := by
  have := h.range
  omega

/-- A decimal digit has the same value as a digit of any script. -/
theorem IsDigit.decimalValue (h : IsDigit 10 c d) : 48 ≤ c ∧ c ≤ 57 ∧ decimalValue? c = some d := by
  have range : 48 ≤ c ∧ c ≤ 57 ∧ d + 48 = c := by
    have := h.range
    have := h.2
    omega
  refine ⟨range.1, range.2.1, ?_⟩
  rw [decimalValue?, if_pos ⟨range.1, range.2.1⟩]
  congr 1
  omega

/-- A small digit has the same value where letters are made small and digits of any script are read. -/
theorem IsDigit.digitOf_lower (h : IsDigit base c d) :
    digitOf? base (asciiDigit (if 65 ≤ c ∧ c ≤ 90 then c + 32 else c)) = some d := by
  have filtered : (some d).filter (· < base) = some d := by simp [h.2]
  rw [← filtered]
  rcases h.range with ⟨low, high, value⟩ | ⟨low, high, value⟩ | ⟨low, high, value⟩
  · obtain rfl : d = c - 48 := by omega
    interval_cases c <;> rfl
  · obtain rfl : d = c - 87 := by omega
    interval_cases c <;> rfl
  · obtain rfl : d = c - 55 := by omega
    interval_cases c <;> rfl

theorem Grouped.bare (h : Grouped base codes ds) :
    List.Forall₂ (IsDigit base) (bare codes) ds ∧ ds ≠ [] := by
  have kept {c : Nat} {rest : List Nat} (h : c ≠ 95) : Numeral.bare (c :: rest) = c :: Numeral.bare rest :=
    List.filter_cons_of_pos (decide_eq_true h)
  induction h with
  | one h =>
    rw [kept h.ne.1]
    exact ⟨.cons h .nil, List.cons_ne_nil _ _⟩
  | cons h _ ih =>
    rw [kept h.ne.1]
    exact ⟨.cons h ih.1, List.cons_ne_nil _ _⟩
  | separated h _ ih =>
    rw [kept h.ne.1]
    exact ⟨.cons h ih.1, List.cons_ne_nil _ _⟩

theorem exists_isDigit (hd : List.Forall₂ (IsDigit base) digits ds) (hc : c ∈ digits) : ∃ d, IsDigit base c d := by
  obtain ⟨d, -, h⟩ := exists_related hd hc
  exact ⟨d, h⟩

theorem not_mem_digits (hd : List.Forall₂ (IsDigit base) digits ds) : 95 ∉ digits ∧ 110 ∉ digits := by
  constructor <;> intro hc <;> obtain ⟨d, h⟩ := exists_isDigit hd hc
  · exact h.ne.1 rfl
  · exact h.ne.2 rfl

theorem bare_ne_nil (hd : List.Forall₂ (IsDigit base) (bare codes) ds) (nonempty : ds ≠ []) :
    bare codes ≠ [] := by
  intro empty
  rw [empty] at hd
  exact nonempty (List.forall₂_nil_left_iff.1 hd)

theorem DecimalInteger.bare {form : Form} (h : DecimalInteger form codes ds) :
    List.Forall₂ (IsDigit 10) (bare codes) ds ∧ ds ≠ [] := by
  have zero : IsDigit 10 48 0 := ⟨rfl, by decide⟩
  cases h with
  | zero => exact ⟨.cons zero .nil, List.cons_ne_nil _ _⟩
  | grouped hd => exact hd.bare
  | legacy hd =>
    have digits := List.Forall₂.cons zero hd
    rw [bare_eq_self (not_mem_digits digits).1]
    exact ⟨digits, List.cons_ne_nil _ _⟩

/-- Decimal digits as they are read in a decimal numeral. -/
theorem isDecimal_of_digits (hd : List.Forall₂ (IsDigit 10) digits ds) : ∀ c ∈ digits, isDecimal c = true := by
  intro c hc
  obtain ⟨d, h⟩ := exists_isDigit hd hc
  rw [isDecimal, h.decimalValue.2.2, Option.isSome_some]

theorem decimals_eq (hd : List.Forall₂ (IsDigit 10) digits ds) : decimals digits = Digits.inOrder 10 ds := by
  rw [decimals, Digits.spell_eq_inOrder]
  congr 1
  induction hd with
  | nil => rfl
  | cons head _ ih => rw [List.map_cons, ih, head.decimalValue.2.2, Option.getD_some]

/-- Digits as they are read in an integer, once letters are made small. -/
theorem spelled_lower (hd : List.Forall₂ (IsDigit base) digits ds) :
    Spelled base (Text.mk digits).toLower.codes ds := by
  refine List.forall₂_map_left_iff.2 (hd.imp fun c d h => ?_)
  exact h.digitOf_lower

theorem lenient_lower (hd : List.Forall₂ (IsDigit base) digits ds) (nonempty : ds ≠ []) :
    Lenient base (Text.mk digits).toLower.codes (Digits.inOrder base ds) := by
  have numeral : Lenient base ([] ++ ([] ++ ([] ++ (Text.mk digits).toLower.codes)) ++ []) (withSign false _) :=
    .mk (by simp) .none .none (spelled_lower hd) nonempty (by simp)
  rw [List.nil_append, List.nil_append, List.nil_append, List.append_nil] at numeral
  exact numeral

end Digits

/-! ## Reading -/

section Reading

variable {t : Text} {codes digits suffix : List Nat}

/-- What is left of a literal without its separators and the marks of a big integer. -/
theorem cleaned_of_bare (kept : bare codes = digits ++ suffix) (nonempty : digits ≠ []) (other : 110 ∉ digits)
    (big : ∀ c ∈ suffix, c = 110) : cleaned ⟨codes⟩ = ⟨digits⟩ := by
  have clear : ∀ c ∈ digits.reverse, (c == 110) = false := by
    intro c hc
    refine beq_false_of_ne ?_
    rintro rfl
    exact other (List.mem_reverse.1 hc)
  have dropped : (suffix.reverse ++ digits.reverse ++ []).dropWhile (· == 110) = digits.reverse ++ [] :=
    dropWhile_around (fun c hc => beq_iff_eq.2 (big c (List.mem_reverse.1 hc))) clear (by simpa using nonempty)
  rw [List.append_nil, List.append_nil] at dropped
  have filtered : codes.filter (· ≠ 95) = digits ++ suffix := kept
  rw [cleaned, filtered, List.reverse_append, dropped, List.reverse_reverse]

theorem cleaned_eq (kept : bare codes = digits) (nonempty : digits ≠ []) (other : 110 ∉ digits) (hs : BigMark suffix) :
    cleaned ⟨codes ++ suffix⟩ = ⟨digits⟩ := by
  have marks : bare suffix = suffix ∧ ∀ c ∈ suffix, c = 110 := by
    cases hs <;> decide
  refine cleaned_of_bare ?_ nonempty other marks.2
  rw [bare_append, kept, marks.1]

theorem literal_marked {base m : Nat} {rest : List Nat} (lower : (cleaned t).toLower.codes = 48 :: m :: rest)
    (hm : mark? base = some m) : literal t = ofInteger? (integer? base ⟨rest⟩) := by
  unfold literal
  dsimp only
  rw [lower]
  unfold mark? at hm
  split at hm <;> cases hm <;> rfl

theorem literal_unmarked (other : hasMark (cleaned t).toLower.codes = false) :
    literal t =
      if 1 < (cleaned t).toLower.codes.length && (cleaned t).toLower.codes.head? == some 48 &&
          (cleaned t).toLower.allDigitLike then
        ofInteger? (integer? 8 (cleaned t).toLower)
      else ((decimal? (cleaned t)).map Number.ofFloat).getD .nan := by
  unfold literal
  dsimp only
  split
  case h_1 h | h_2 h | h_3 h =>
    rw [h] at other
    cases other
  case h_4 =>
    split
    · rfl
    · cases decimal? (cleaned t) <;> rfl

end Reading

section Forms

variable {base m : Nat} {codes digits ds suffix : List Nat}

theorem IsMark.lower (hm : IsMark base m) : mark? base = some (if 65 ≤ m ∧ m ≤ 90 then m + 32 else m) := by
  rcases hm.cases with ⟨rfl, rfl | rfl⟩ | ⟨rfl, rfl | rfl⟩ | ⟨rfl, rfl | rfl⟩ <;> rfl

theorem literal_of_marked (hm : IsMark base m) (hd : Grouped base codes ds) (hs : BigMark suffix) :
    literal ⟨48 :: m :: (codes ++ suffix)⟩ = ofInteger? (some (Digits.inOrder base ds)) := by
  obtain ⟨digits, nonempty⟩ := hd.bare
  have letter := hm.cases
  have kept : bare (48 :: m :: codes) = 48 :: m :: bare codes := by
    have plain : m ≠ 95 := by omega
    exact (List.filter_cons_of_pos rfl).trans (congrArg _ (List.filter_cons_of_pos (decide_eq_true plain)))
  have other : 110 ∉ 48 :: m :: bare codes := by
    rw [List.mem_cons, List.mem_cons, not_or, not_or]
    exact ⟨by decide, by omega, (not_mem_digits digits).2⟩
  have clean : cleaned ⟨48 :: m :: (codes ++ suffix)⟩ = ⟨48 :: m :: bare codes⟩ :=
    cleaned_eq kept (List.cons_ne_nil _ _) other hs
  have lower : (cleaned ⟨48 :: m :: (codes ++ suffix)⟩).toLower.codes =
      48 :: (if 65 ≤ m ∧ m ≤ 90 then m + 32 else m) :: (Text.mk (bare codes)).toLower.codes := by
    rw [clean]
    rfl
  have read := (lenient_lower digits nonempty).integer_eq (by omega)
  rw [literal_marked lower hm.lower, read]

theorem head_ne_zero {d : Nat} (hd : List.Forall₂ (IsDigit 10) digits (d :: ds)) (nonzero : d ≠ 0) :
    digits.head? ≠ some 48 := by
  cases hd with
  | cons head _ =>
    rintro ⟨⟩
    have := head.range
    omega

theorem toLower_eq_self (small : ∀ c ∈ codes, ¬(65 ≤ c ∧ c ≤ 90)) : (Text.mk codes).toLower = ⟨codes⟩ :=
  congrArg Text.mk ((List.map_congr_left fun c hc => if_neg (small c hc)).trans (List.map_id _))

/-- Decimal digits are neither capitals nor padding. -/
theorem digits_bare (hd : List.Forall₂ (IsDigit 10) digits ds) :
    (Text.mk digits).toLower = ⟨digits⟩ ∧ (Text.mk digits).unpad = ⟨digits⟩ := by
  constructor
  · refine toLower_eq_self fun c hc => ?_
    obtain ⟨d, h⟩ := exists_isDigit hd hc
    have := h.decimalValue
    omega
  · refine stripOf_eq_self fun c hc => ?_
    exact isPadding_of_isDigitLike (isDigitLike_of_isDecimal (isDecimal_of_digits hd c hc))

/-- With a zero in front, digits are read as an octal number. -/
theorem literal_of_zero (hd : List.Forall₂ (IsDigit 10) codes ds) (nonempty : codes ≠ []) :
    literal ⟨48 :: codes⟩ = ofInteger? (integer? 8 ⟨48 :: codes⟩) := by
  have digits : List.Forall₂ (IsDigit 10) (48 :: codes) (0 :: ds) := .cons ⟨rfl, by decide⟩ hd
  have decimal := isDecimal_of_digits digits
  have clean : cleaned ⟨48 :: codes ++ []⟩ = ⟨48 :: codes⟩ :=
    cleaned_eq (bare_eq_self (not_mem_digits digits).1) (List.cons_ne_nil _ _) (not_mem_digits digits).2 .none
  rw [List.append_nil] at clean
  have like : (Text.mk (48 :: codes)).allDigitLike = true := by
    have all : (48 :: codes).all isDigitLike = true :=
      List.all_eq_true.2 fun c hc => isDigitLike_of_isDecimal (decimal c hc)
    rw [allDigitLike, all]
    rfl
  have unmarked : hasMark (cleaned ⟨48 :: codes⟩).toLower.codes = false := by
    rw [clean]
    exact hasMark_digits decimal
  rw [literal_unmarked unmarked, clean, (digits_bare digits).1, like]
  simp [nonempty, List.length_pos_iff]

theorem integer_octal (hd : List.Forall₂ (IsDigit 8) codes ds) :
    integer? 8 ⟨48 :: codes⟩ = some (Digits.inOrder 8 ds) := by
  have digits : List.Forall₂ (IsDigit 8) (48 :: codes) (0 :: ds) := .cons ⟨rfl, by decide⟩ hd
  have decimal : List.Forall₂ (IsDigit 10) (48 :: codes) (0 :: ds) :=
    digits.imp fun c d h => ⟨h.1, h.2.trans (by decide)⟩
  have numeral := lenient_lower digits (List.cons_ne_nil _ _)
  rw [(digits_bare decimal).1] at numeral
  exact numeral.integer_eq (by decide)

theorem exists_code {d : Nat} (hd : List.Forall₂ (IsDigit base) digits ds) (mem : d ∈ ds) :
    ∃ c ∈ digits, IsDigit base c d :=
  exists_related hd.flip mem

/-- Decimal digits one of which is too large are no octal number. -/
theorem integer_octal_none (hd : List.Forall₂ (IsDigit 10) digits ds) (large : ∃ d ∈ ds, 8 ≤ d) :
    integer? 8 ⟨digits⟩ = none := by
  have decimal := isDecimal_of_digits hd
  -- there is neither a sign nor a mark nor a separator, so that only the large digit can be in the way
  have unmarked : dropMark 8 (digits.map asciiDigit) = digits.map asciiDigit := by
    refine dropMark_unmarked fun m rest eq hm => ?_
    have mem : m ∈ digits.map asciiDigit := eq ▸ List.mem_cons_of_mem _ List.mem_cons_self
    obtain ⟨c, hc, rfl⟩ := List.mem_map.1 mem
    obtain ⟨d, -, lt, value⟩ := asciiDigit_of_isDecimal (decimal c hc)
    have := hm.cases
    omega
  have plain : 95 ∉ digits.map asciiDigit := fun separator => (not_mem_digits hd).1 (mem_separator separator)
  have signed := body_digitLike fun c hc => isDigitLike_of_isDecimal (decimal c hc)
  rw [integer_eq (by decide) signed unmarked plain, if_neg]
  rintro ⟨-, all⟩
  obtain ⟨d, mem, least⟩ := large
  obtain ⟨c, hc, digit⟩ := exists_code hd mem
  obtain ⟨d', value, lt, ascii⟩ := asciiDigit_of_isDecimal (decimal c hc)
  obtain rfl : d = d' := Option.some.inj (digit.decimalValue.2.2.symm.trans value)
  have octal := all _ (List.mem_map_of_mem hc)
  rw [ascii] at octal
  interval_cases d <;> cases octal

theorem decimal_of_digits (hd : List.Forall₂ (IsDigit 10) digits ds) (nonempty : digits ≠ []) :
    decimal? ⟨digits⟩ = some (scaled (Digits.inOrder 10 ds) 0) := by
  simp only [decimal?, (digits_bare hd).2, scan_digits (isDecimal_of_digits hd) nonempty]
  simp [Decimal.toFloat, decimals_eq hd]

theorem literal_of_decimal (hd : DecimalInteger .decimal codes ds) (hs : BigMark suffix) :
    literal ⟨codes ++ suffix⟩ = .ofFloat (scaled (Digits.inOrder 10 ds) 0) := by
  obtain ⟨digits, nonempty⟩ := hd.bare
  have filled := bare_ne_nil digits nonempty
  have clean : cleaned ⟨codes ++ suffix⟩ = ⟨bare codes⟩ := cleaned_eq rfl filled (not_mem_digits digits).2 hs
  have unmarked : hasMark (cleaned ⟨codes ++ suffix⟩).toLower.codes = false := by
    rw [clean]
    exact hasMark_digits (isDecimal_of_digits digits)
  -- with a zero in front the digits would be taken for an octal number
  have whole : (1 < (bare codes).length && (bare codes).head? == some 48) = false := by
    cases hd with
    | zero => rfl
    | grouped hd nonzero => rw [beq_false_of_ne (head_ne_zero digits nonzero), Bool.and_false]
  rw [literal_unmarked unmarked, clean, (digits_bare digits).1, decimal_of_digits digits filled, whole]
  rfl

end Forms

/-! ## Points and exponents -/

/-- Besides digits of any script, a decimal numeral has no letter but that of the exponent. -/
theorem DecimalNumeral.mem_codes {codes : List Nat} (h : DecimalNumeral codes) :
    ∀ c ∈ codes, isDecimal c = true ∨ c ∈ [43, 45, 46, 69, 101] := by
  have signs_mem {signs : List Nat} {negative : Bool} (hs : Signs signs negative) :
      ∀ c ∈ signs, c ∈ [43, 45, 46, 69, 101] := by
    cases hs <;> decide
  obtain ⟨hs, hw, hf, he, -⟩ := h
  intro c hc
  rcases List.mem_append.1 hc with hc | hc
  · exact .inr (signs_mem hs c hc)
  rcases List.mem_append.1 hc with hc | hc
  · exact .inl (hw c hc)
  rcases List.mem_append.1 hc with hc | hc
  · cases hf with
    | none => cases hc
    | point hd =>
      rcases List.mem_cons.1 hc with rfl | hc
      · exact .inr (by decide)
      · exact .inl (hd c hc)
  · cases he with
    | none => cases hc
    | some letter hs hd =>
      rcases List.mem_cons.1 hc with rfl | hc
      · exact .inr (by rcases letter with rfl | rfl <;> decide)
      · exact (List.mem_append.1 hc).elim (fun hc => .inr (signs_mem hs c hc)) fun hc => .inl (hd c hc)

theorem DecimalNumeral.hasMark_lower {codes : List Nat} (h : DecimalNumeral codes) :
    hasMark (Text.mk codes).toLower.codes = false := by
  unfold hasMark
  split
  · rename_i m rest eq
    have mem : m ∈ (Text.mk codes).toLower.codes := eq ▸ List.mem_cons_of_mem _ List.mem_cons_self
    obtain ⟨c, hc, rfl⟩ := List.mem_map.1 mem
    rcases h.mem_codes c hc with decimal | other
    · have range := isDecimal_range decimal
      rw [if_neg (by omega)]
      simp only [Bool.or_eq_false_iff, beq_eq_false_iff_ne]
      omega
    · have apart : ∀ c ∈ [43, 45, 46, 69, 101], hasMark [48, if 65 ≤ c ∧ c ≤ 90 then c + 32 else c] = false := by decide
      exact apart c other
  · rfl

section Scanned

variable {codes digits ds exponent : List Nat}

/-- The codes of a decimal numeral. -/
def plainCodes : List Nat :=
  List.range' 48 10 ++ [43, 45, 46, 69, 101]

/-- The codes of a decimal numeral are neither the mark of a big integer nor padding. -/
theorem plainCodes_spec : ∀ c ∈ plainCodes, c ≠ 110 ∧ isPadding c = false := by
  decide

theorem plain_of_digits (hd : List.Forall₂ (IsDigit 10) digits ds) : ∀ c ∈ digits, c ∈ plainCodes := by
  intro c hc
  obtain ⟨d, h⟩ := exists_isDigit hd hc
  have range := h.decimalValue
  exact List.mem_append_left _ (List.mem_range'_1.2 ⟨range.1, by omega⟩)

/-- A decimal numeral with a point or an exponent is no NaN. -/
theorem isNaN_literal (numeral : DecimalNumeral (bare codes)) (plain : ∀ c ∈ bare codes, c ∈ plainCodes)
    (broken : ∃ c ∈ bare codes, c ∈ [46, 101, 69]) : (literal ⟨codes⟩).isNaN = false := by
  obtain ⟨c, hc, mark⟩ := broken
  have clean : cleaned ⟨codes ++ []⟩ = ⟨bare codes⟩ :=
    cleaned_eq rfl (List.ne_nil_of_mem hc) (fun big => (plainCodes_spec 110 (plain 110 big)).1 rfl) .none
  rw [List.append_nil] at clean
  have unmarked : hasMark (cleaned ⟨codes⟩).toLower.codes = false := by
    rw [clean]
    exact numeral.hasMark_lower
  -- the point or the letter keeps a literal such as 0.5 or 08e1 from being taken for an octal number
  have other : (Text.mk (bare codes)).toLower.allDigitLike = false := by
    have apart : ∀ c ∈ [46, 101, 69], ¬isDigitLike (if 65 ≤ c ∧ c ≤ 90 then c + 32 else c) = true := by decide
    have all : (Text.mk (bare codes)).toLower.codes.all isDigitLike = false :=
      List.all_eq_false.2 ⟨_, List.mem_map_of_mem hc, apart c mark⟩
    rw [allDigitLike, all, Bool.and_false]
  have unpadded : (Text.mk (bare codes)).unpad = ⟨bare codes⟩ :=
    stripOf_eq_self fun c hc => (plainCodes_spec c (plain c hc)).2
  obtain ⟨d, read⟩ := Option.isSome_iff_exists.1 numeral.scan_isSome
  have value : decimal? ⟨bare codes⟩ = some d.toFloat := by simp only [decimal?, unpadded, read]
  rw [literal_unmarked unmarked, clean, other, Bool.and_false, value]
  exact (Number.isNaN_ofFloat _).trans d.isNaN_toFloat

theorem ExponentPart.bare (h : ExponentPart codes) : Exponent (bare codes) ∧ (∀ c ∈ bare codes, c ∈ plainCodes) ∧
    ∃ c ∈ bare codes, c ∈ [46, 101, 69] := by
  obtain ⟨he, hs, hd⟩ := h
  rename_i e signs codes ds negative
  obtain ⟨digits, nonempty⟩ := hd.bare
  have letter : Numeral.bare [e] = [e] ∧ e ∈ plainCodes ∧ e ∈ [46, 101, 69] := by
    rcases he with rfl | rfl <;> decide
  have around : Numeral.bare signs = signs ∧ ∀ c ∈ signs, c ∈ plainCodes := by
    cases hs <;> decide
  have kept : Numeral.bare ([e] ++ (signs ++ codes)) = [e] ++ (signs ++ Numeral.bare codes) := by
    rw [bare_append, bare_append, letter.1, around.1]
  have filled := bare_ne_nil digits nonempty
  rw [List.singleton_append, List.singleton_append] at kept
  rw [kept]
  refine ⟨.some he hs (isDecimal_of_digits digits) filled, ?_, e, List.mem_cons_self, letter.2.2⟩
  intro c hc
  rcases List.mem_cons.1 hc with rfl | hc
  · exact letter.2.1
  · exact (List.mem_append.1 hc).elim (around.2 c) (plain_of_digits digits c)

theorem exponent_bare (h : exponent = [] ∨ ExponentPart exponent) :
    Exponent (bare exponent) ∧ ∀ c ∈ bare exponent, c ∈ plainCodes := by
  rcases h with rfl | h
  · exact ⟨.none, by simp [bare]⟩
  · exact ⟨h.bare.1, h.bare.2.1⟩

section Pieces

variable {whole fraction ws fs : List Nat} (hw : List.Forall₂ (IsDigit 10) (bare whole) ws)

include hw

theorem isNaN_pointed (hf : List.Forall₂ (IsDigit 10) (bare fraction) fs)
    (nonempty : bare whole ++ bare fraction ≠ []) (he : exponent = [] ∨ ExponentPart exponent) :
    (literal ⟨whole ++ (46 :: fraction ++ exponent)⟩).isNaN = false := by
  obtain ⟨part, plain⟩ := exponent_bare he
  have kept : bare (whole ++ (46 :: fraction ++ exponent)) = bare whole ++ (46 :: bare fraction ++ bare exponent) := by
    have point : bare (46 :: fraction) = 46 :: bare fraction := List.filter_cons_of_pos rfl
    rw [bare_append, bare_append, point]
  refine isNaN_literal ?_ ?_ ⟨46, ?_, by decide⟩
  · rw [kept]
    exact .mk .none (isDecimal_of_digits hw) (.point (isDecimal_of_digits hf)) part nonempty
  · rw [kept]
    intro c hc
    rcases List.mem_append.1 hc with hc | hc
    · exact plain_of_digits hw c hc
    rcases List.mem_append.1 hc with hc | hc
    · rcases List.mem_cons.1 hc with rfl | hc
      · decide
      · exact plain_of_digits hf c hc
    · exact plain c hc
  · rw [kept]
    exact List.mem_append_right _ (List.mem_append_left _ List.mem_cons_self)

theorem isNaN_exponent (nonempty : bare whole ≠ []) (he : ExponentPart exponent) :
    (literal ⟨whole ++ exponent⟩).isNaN = false := by
  obtain ⟨part, plain, c, hc, mark⟩ := he.bare
  refine isNaN_literal ?_ ?_ ⟨c, ?_, mark⟩
  · rw [bare_append]
    exact .mk .none (isDecimal_of_digits hw) .none part (by rwa [List.append_nil])
  · rw [bare_append]
    exact fun c hc => (List.mem_append.1 hc).elim (plain_of_digits hw c) (plain c)
  · rw [bare_append]
    exact List.mem_append_right _ hc

end Pieces

/-- No literal with a point or an exponent is NaN. -/
theorem DecimalLiteral.isNaN (h : DecimalLiteral codes) : (literal ⟨codes⟩).isNaN = false := by
  cases h with
  | point hw hf he =>
    obtain ⟨digits, nonempty⟩ := hw.bare
    have filled := bare_ne_nil digits nonempty
    rcases hf with rfl | ⟨ds, hf⟩
    · exact isNaN_pointed digits .nil (by simp [filled]) he
    · exact isNaN_pointed digits hf.bare.1 (by simp [filled]) he
  | fraction hf he =>
    obtain ⟨digits, nonempty⟩ := hf.bare
    have front : List.Forall₂ (IsDigit 10) (bare []) [] := .nil
    exact isNaN_pointed front digits (bare_ne_nil digits nonempty) he
  | exponent hw he =>
    obtain ⟨digits, nonempty⟩ := hw.bare
    exact isNaN_exponent digits (bare_ne_nil digits nonempty) he

end Scanned

/-! ## Values -/

/-- The value of an integer literal as a number, by its form. -/
theorem IntegerLiteral.literal_eq {form : Form} {codes : List Nat} {v : Nat} (h : IntegerLiteral form codes v) :
    literal ⟨codes⟩ =
      if form = .legacyDecimal then .nan
      else if form = .decimal then .ofFloat (scaled v 0)
      else ofInteger? (some v) := by
  cases h with
  | marked hm hd hs => exact literal_of_marked hm hd hs
  | legacyOctal hd nonempty =>
    rename_i codes ds
    have decimal : List.Forall₂ (IsDigit 10) codes ds := hd.imp fun c d h => ⟨h.1, h.2.trans (by decide)⟩
    have filled : codes ≠ [] := by
      rintro rfl
      exact nonempty (List.forall₂_nil_left_iff.1 hd)
    exact (literal_of_zero decimal filled).trans (congrArg ofInteger? (integer_octal hd))
  | legacyDecimal hd =>
    cases hd with
    | legacy hd large =>
      obtain ⟨d, mem, least⟩ := large
      obtain ⟨c, hc, -⟩ := exists_code hd mem
      have digits := List.Forall₂.cons (show IsDigit 10 48 0 from ⟨rfl, by decide⟩) hd
      have none := integer_octal_none digits ⟨d, List.mem_cons_of_mem _ mem, least⟩
      exact (literal_of_zero hd (List.ne_nil_of_mem hc)).trans (congrArg ofInteger? none)
  | decimal hd hs => exact literal_of_decimal hd hs

/-- What numeric literals are read as. An integer literal is carried as its value if this is below `2 ^ 53`, unless it
is a decimal number with a zero in front. It is NaN exactly in this case, and if it is no decimal number and overflows.
Literals with a point or an exponent are never NaN. -/
theorem literal_value_unless_legacy_decimal_or_overflow (t : Text) :
    (∀ form v, IntegerLiteral form t.codes v →
      (form ≠ .legacyDecimal → v < 2 ^ 53 → literal t = .int v) ∧
      ((literal t).isNaN = true ↔ form = .legacyDecimal ∨ form ≠ .decimal ∧ overflow ≤ v)) ∧
    (DecimalLiteral t.codes → (literal t).isNaN = false) := by
  refine ⟨fun form v h => ?_, fun h => h.isNaN⟩
  have read : literal t = _ := h.literal_eq
  rw [read]
  cases form with
  | legacyDecimal =>
    have nan : Number.nan.isNaN = true := by decide +kernel
    exact ⟨fun other => absurd rfl other, iff_of_true nan (.inl rfl)⟩
  | decimal =>
    refine ⟨fun _ small => Number.ofFloat_scaled small, ?_⟩
    show (Number.ofFloat (scaled v 0)).isNaN = true ↔ _
    rw [Number.isNaN_ofFloat, isNaN_scaled]
    simp
  | marked | legacyOctal =>
    refine ⟨fun _ small => ofInteger_small small, ?_⟩
    show (ofInteger? (some v)).isNaN = true ↔ _
    rw [ofInteger_isNaN]
    simp

/-- Sixteen bits with a capital mark, a separator and the mark of a big integer, and a small fraction. -/
theorem literal_value_sixteen_bits :
    (IntegerLiteral .marked (Text.codes "0XFf_fFn") 65535 ∧ literal "0XFf_fFn" = .int 65535) ∧
      DecimalLiteral (Text.codes ".5e-3_0") ∧ (literal ".5e-3_0").isNaN = false := by
  have digits : Grouped 16 [70, 102, 95, 102, 70] [15, 15, 15, 15] :=
    .cons ⟨rfl, by decide⟩ (.separated ⟨rfl, by decide⟩ (.cons ⟨rfl, by decide⟩ (.one ⟨rfl, by decide⟩)))
  have bits : IntegerLiteral .marked (Text.codes "0XFf_fFn") 65535 := .marked (.inr rfl) digits .some
  have power : ExponentPart [101, 45, 51, 95, 48] :=
    .mk (.inl rfl) .minus (.separated ⟨rfl, by decide⟩ (.one ⟨rfl, by decide⟩))
  have half : DecimalLiteral (Text.codes ".5e-3_0") := .fraction (.one ⟨rfl, by decide⟩) (.inr power)
  exact ⟨⟨bits, ((literal_value_unless_legacy_decimal_or_overflow _).1 _ _ bits).1 (by decide) (by decide)⟩,
    half, (literal_value_unless_legacy_decimal_or_overflow _).2 half⟩

/-- A decimal number with a zero in front is no number. -/
theorem eighty_nine_with_zero_is_nan : IntegerLiteral .legacyDecimal (Text.codes "089") 89 ∧ literal "089" = .nan := by
  have digits : List.Forall₂ (IsDigit 10) [56, 57] [8, 9] :=
    .cons ⟨rfl, by decide⟩ (.cons ⟨rfl, by decide⟩ .nil)
  exact ⟨.legacyDecimal (.legacy digits ⟨8, by decide, by decide⟩), by decide +kernel⟩

end ScriptTrace.Numeral
