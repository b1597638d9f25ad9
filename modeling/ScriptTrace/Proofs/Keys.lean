import Mathlib.Tactic.IntervalCases
import ScriptTrace.Proofs.NumberTexts
import ScriptTrace.Value.Operator
import ScriptTrace.Value.Property
/-!
# Keys

Arrays know three sorts of keys that are no containers. A key that **names** an index is an integer or a text of decimal
digits. The key `length` is that text and no other value, although keys are compared by the text they are shown as. All
others mean nothing to an array.

* `Numeral.readInteger_digits`: the number that a text of decimal digits spells, of whatever script.
* `Value.indexOf_eq_some_iff`: the keys that name an index.
* `Value.render_eq_lengthKey_iff`: the key that is shown as `length`.
-/
namespace ScriptTrace

/-! ## Texts of digits -/

namespace Text

theorem isDigitLike_of_isDecimal {c : Nat} (h : Numeral.isDecimal c = true) : isDigitLike c = true := by
  unfold Numeral.isDecimal at h
  unfold isDigitLike
  rw [h, Bool.true_or]

/-- The blanks, one by one. -/
def blanks : List Nat :=
  List.range' 9 5 ++ List.range' 28 5 ++ List.range' 0x2000 11 ++
    [0x85, 0xA0, 0x1680, 0x2028, 0x2029, 0x202F, 0x205F, 0x3000]

theorem isBlank_iff (c : Nat) : isBlank c = true ↔ c ∈ blanks := by
  simp only [isBlank, blanks, List.mem_append, List.mem_range'_1, List.mem_cons, List.not_mem_nil, Bool.or_eq_true,
    or_false, Bool.and_eq_true, decide_eq_true_eq, beq_iff_eq]
  omega

theorem isBlank_of_isDigitLike {c : Nat} (h : isDigitLike c = true) : isBlank c = false := by
  have apart : ∀ c ∈ blanks, isDigitLike c = false := by decide
  refine Bool.eq_false_iff.2 fun blank => ?_
  rw [apart c ((isBlank_iff c).1 blank)] at h
  cases h

theorem isPadding_of_isDigitLike {c : Nat} (h : isDigitLike c = true) : isPadding c = false := by
  rw [isPadding, isBlank_of_isDigitLike h, Bool.false_and]

theorem stripOf_eq_self {p : Nat → Bool} {t : Text} (h : ∀ c ∈ t.codes, p c = false) : t.stripOf p = t := by
  have ends : ∀ cs : List Nat, (∀ c ∈ cs, p c = false) → cs.dropWhile p = cs := by
    intro cs hcs
    cases cs with
    | nil => rfl
    | cons c rest => rw [List.dropWhile_cons_of_neg (by simp [hcs c])]
  have reversed : ∀ c ∈ t.codes.reverse, p c = false := fun c hc => h c (List.mem_reverse.1 hc)
  rw [stripOf, ends _ h, ends _ reversed, List.reverse_reverse]

end Text

namespace Numeral

open Text

/-- Decimal digits are written as the digits of ASCII before they are read. -/
theorem asciiDigit_of_isDecimal {c : Nat} (h : isDecimal c = true) :
    ∃ d, decimalValue? c = some d ∧ d < 10 ∧ asciiDigit c = 48 + d := by
  obtain ⟨d, hd⟩ := Option.isSome_iff_exists.1 h
  refine ⟨d, hd, ?_, by rw [asciiDigit, hd]⟩
  unfold decimalValue? at hd
  split at hd
  · cases hd
    omega
  · split at hd
    · cases hd
    · obtain ⟨z, hz, rfl⟩ := Option.map_eq_some_iff.1 hd
      have range := List.find?_some hz
      simp only [Bool.and_eq_true, decide_eq_true_eq] at range
      omega

theorem asciiDigit_of_not_isDecimal {c : Nat} (h : ¬isDecimal c = true) : asciiDigit c = c := by
  rw [asciiDigit, Option.not_isSome_iff_eq_none.1 h]

theorem digitOf_of_not_isDecimal {c : Nat} (h : ¬isDecimal c = true) : digitOf? 10 c = none := by
  simp only [digitOf?, Option.not_isSome_iff_eq_none.1 h]
  -- what is left are letters, whose values are ten and more
  split
  · simp only [Option.filter_some, decide_eq_true_eq, ite_eq_right_iff, reduceCtorEq]
    omega
  · split
    · simp only [Option.filter_some, decide_eq_true_eq, ite_eq_right_iff, reduceCtorEq]
      omega
    · rfl

theorem digitOf_asciiDigit {c : Nat} (h : isDecimal c = true) : digitOf? 10 (asciiDigit c) = decimalValue? c := by
  obtain ⟨d, value, lt, hd⟩ := asciiDigit_of_isDecimal h
  rw [hd, value]
  interval_cases d <;> rfl

/-- Codes that look like digits are no signs and no separators. -/
theorem asciiDigit_bounds {c : Nat} (h : isDigitLike c = true) : 48 ≤ asciiDigit c ∧ asciiDigit c ≠ 95 := by
  by_cases decimal : isDecimal c = true
  · obtain ⟨d, -, lt, hd⟩ := asciiDigit_of_isDecimal decimal
    omega
  · rw [asciiDigit_of_not_isDecimal decimal]
    have apart : ∀ c < 48, isDigitLike c = false := by decide
    constructor
    · by_contra small
      rw [apart c (by omega)] at h
      cases h
    · rintro rfl
      exact absurd h (by decide)

theorem sign_of_le {codes : List Nat} (h : ∀ c ∈ codes, 48 ≤ c) : sign codes = (false, codes) := by
  unfold sign
  split
  · have := h 45 List.mem_cons_self
    omega
  · have := h 43 List.mem_cons_self
    omega
  · rfl

theorem dropMark_ten (codes : List Nat) : dropMark 10 codes = codes := by
  unfold dropMark
  split
  · rw [if_neg (by simp [mark?])]
  · rfl

section Reading

variable {codes : List Nat}

/-- A text that looks like digits has neither padding nor a sign nor a mark. -/
theorem body_digitLike (h : ∀ c ∈ codes, isDigitLike c = true) :
    sign ((Text.mk codes).unpad.codes.map asciiDigit) = (false, codes.map asciiDigit) := by
  have bare : (Text.mk codes).unpad = ⟨codes⟩ := stripOf_eq_self fun c hc => isPadding_of_isDigitLike (h c hc)
  rw [bare]
  exact sign_of_le (List.forall_mem_map.2 fun c hc => (asciiDigit_bounds (h c hc)).1)

/-- If a text that looks like digits can be read, its codes are decimal digits. -/
theorem isDecimal_of_readInteger {n : Int} (h : ∀ c ∈ codes, isDigitLike c = true)
    (read : readInteger 10 ⟨codes⟩ = .ok n) : ∀ c ∈ codes, isDecimal c = true := by
  intro c hc
  by_contra decimal
  have broken : (codes.map asciiDigit).all (fun c => c == 95 || (digitOf? 10 c).isSome) = false := by
    refine List.all_eq_false.2 ⟨asciiDigit c, List.mem_map_of_mem hc, ?_⟩
    rw [beq_false_of_ne (asciiDigit_bounds (h c hc)).2, asciiDigit_of_not_isDecimal decimal,
      digitOf_of_not_isDecimal decimal]
    exact Bool.false_ne_true
  unfold readInteger at read
  simp only [body_digitLike h, dropMark_ten, broken, Bool.false_eq_true, if_false] at read
  split at read
  · cases read
  · split at read <;> cases read

/-- A run of decimal digits spells an integer, unless it is too long. -/
theorem readInteger_digits (h : ∀ c ∈ codes, isDecimal c = true) (some : codes ≠ []) :
    readInteger 10 ⟨codes⟩ =
      if maxDigits < codes.length then .error (.tooManyDigits codes.length) else .ok (decimals codes) := by
  have like : ∀ c ∈ codes, isDigitLike c = true := fun c hc => isDigitLike_of_isDecimal (h c hc)
  have parts : ∀ c ∈ codes.map asciiDigit, (c == 95 || (digitOf? 10 c).isSome) = true := by
    refine List.forall_mem_map.2 fun c hc => ?_
    rw [digitOf_asciiDigit (h c hc), Bool.or_eq_true]
    exact .inr (h c hc)
  have whole : (codes.map asciiDigit).takeWhile (fun c => c == 95 || (digitOf? 10 c).isSome) = codes.map asciiDigit :=
    List.takeWhile_eq_self_iff.2 parts
  have ungrouped : groupedDigits? (codes.map asciiDigit) = .some (codes.map asciiDigit) := by
    have plain : (codes.map asciiDigit).contains 95 = false := by
      rw [List.contains_eq_mem, decide_eq_false_iff_not, List.mem_map]
      rintro ⟨c, hc, eq⟩
      exact (asciiDigit_bounds (like c hc)).2 eq
    rw [groupedDigits?, plain]
    simp [some]
  have values : (codes.map asciiDigit).map (fun c => (digitOf? 10 c).getD 0) =
      codes.map fun c => (decimalValue? c).getD 0 := by
    rw [List.map_map]
    refine List.map_congr_left fun c hc => ?_
    rw [Function.comp_apply, digitOf_asciiDigit (h c hc)]
  unfold readInteger
  simp only [body_digitLike like, dropMark_ten, whole, ungrouped, List.length_map, true_and,
    List.all_eq_true.2 parts, if_true, values]
  rfl

end Reading

end Numeral

/-! ## Indices -/

namespace Value

open Text

/-- Whether a key names an index: it is an integer that is not negative, or a text of decimal digits that is short
enough to be read. -/
inductive Names : Value → Nat → Prop
  | integer (i : Nat) : Names (.number (.int i)) i
  | digits {codes : List Nat} (some : codes ≠ []) (decimal : ∀ c ∈ codes, Numeral.isDecimal c = true)
      (short : codes.length ≤ Numeral.maxDigits) : Names (.text ⟨codes⟩) (Numeral.decimals codes)

theorem indexOf_digits {codes : List Nat} (h : ∀ c ∈ codes, Numeral.isDecimal c = true) (some : codes ≠ [])
    (short : codes.length ≤ Numeral.maxDigits) :
    (Value.text ⟨codes⟩).indexOf = .ok (.some (Numeral.decimals codes)) := by
  have like : (Text.mk codes).allDigitLike = true := by
    simp only [allDigitLike, Text.isEmpty, Bool.and_eq_true, Bool.not_eq_true', List.isEmpty_eq_false_iff]
    exact ⟨some, List.all_eq_true.2 fun c hc => isDigitLike_of_isDecimal (h c hc)⟩
  simp only [indexOf, like, if_true, digitIndex, Numeral.readInteger_digits h some, if_neg (Nat.not_lt.2 short)]
  rfl

/-- The only fault of a key is that its digits cannot be read. -/
theorem exists_badIndex {key : Value} {fault : Fault} (h : key.indexOf = .error fault) : ∃ b, fault = .badIndex b := by
  unfold indexOf at h
  split at h
  · cases h
  · split at h
    · unfold digitIndex at h
      split at h <;> cases h
      exact ⟨_, rfl⟩
    · cases h
  · cases h

theorem indexOf_eq_some_iff {key : Value} {i : Nat} : key.indexOf = .ok (some i) ↔ key.Names i := by
  constructor
  · intro h
    unfold indexOf at h
    split at h
    · rename_i n
      split at h
      · rename_i nonneg
        obtain ⟨i, rfl⟩ := Int.eq_ofNat_of_zero_le nonneg
        cases h
        exact .integer i
      · cases h
    · rename_i t
      split at h
      · rename_i like
        obtain ⟨some, like⟩ : t.codes ≠ [] ∧ ∀ c ∈ t.codes, isDigitLike c = true := by
          simpa [allDigitLike, Text.isEmpty] using like
        unfold digitIndex at h
        split at h
        · rename_i n read
          have decimal := Numeral.isDecimal_of_readInteger like read
          rw [Numeral.readInteger_digits decimal some] at read
          split at read
          · cases read
          · cases read
            cases h
            exact .digits some decimal (by omega)
        · cases h
      · cases h
    · cases h
  · rintro (i | ⟨some, decimal, short⟩)
    · rfl
    · exact indexOf_digits decimal some short

end Value

/-! ## The key of the length -/

namespace Number

open Binary64

/-- Whether a text does without the first letter of `length`. -/
def Lacking (t : Text) : Prop :=
  108 ∉ t.codes

instance (t : Text) : Decidable (Lacking t) := inferInstanceAs (Decidable (108 ∉ t.codes))

namespace Lacking

theorem append {s t : Text} (hs : Lacking s) (ht : Lacking t) : Lacking (s ++ t) := by
  unfold Lacking
  rw [Text.codes_append, List.mem_append]
  exact not_or.2 ⟨hs, ht⟩

theorem digits {ds : List Nat} (h : ∀ d ∈ ds, d < 10) : Lacking (digitText ds) := by
  intro mem
  obtain ⟨d, hd, eq⟩ := List.mem_map.1 mem
  have := h d hd
  omega

theorem zeros (n : Nat) : Lacking (zeros n) := by
  rw [zeros_eq]
  exact digits (forall_mem_zeros n)

theorem ofNat (n : Nat) : Lacking (Text.ofNat n) := by
  rw [ofNat_eq]
  exact digits (decimalDigits_lt n)

theorem ofInt (n : Int) : Lacking (Text.ofInt n) := by
  unfold Text.ofInt
  split
  · exact append (by decide) (ofNat _)
  · exact ofNat _

theorem positional {d : Digits} (h : ∀ c ∈ d.digits, c < 10) (pointZero : Bool) : Lacking (positional pointZero d) := by
  unfold Number.positional
  split
  · exact append (append (by decide) (zeros _)) (digits h)
  · rename_i e _
    have whole : Lacking (digitText (d.digits.take (e + 1)) ++ Number.zeros (e + 1 - d.digits.length)) :=
      append (digits fun c hc => h c (List.mem_of_mem_take hc)) (zeros _)
    dsimp only
    split
    · split
      · exact append whole (by decide)
      · exact whole
    · exact append (append whole (by decide)) (digits fun c hc => h c (List.mem_of_mem_drop hc))

theorem exponential {d : Digits} (h : ∀ c ∈ d.digits, c < 10) (width : Nat) : Lacking (exponential width d) := by
  unfold Number.exponential
  refine append (append (append (append ?_ (by decide)) ?_) (zeros _)) (ofNat _)
  · split
    · exact zeros 1
    · rename_i c eq
      exact digits fun d hd => h d (eq ▸ hd)
    · rename_i c rest _ eq
      obtain ⟨first, others⟩ := List.forall_mem_cons.1 (eq ▸ h)
      exact append (append (digits (List.forall_mem_singleton.2 first)) (by decide)) (digits others)
  · split <;> decide

end Lacking

theorem lacking_lay_display (n : Number) : Lacking (n.lay .display) := by
  cases n with
  | int n => exact .ofInt n
  | float x =>
    rw [lay, layFloat]
    cases parts x with
    | nan => exact (by decide : Lacking Layout.display.nan)
    | infinite negative =>
      cases negative with
      | true => exact (by decide : Lacking Layout.display.negativeInfinity)
      | false => exact (by decide : Lacking Layout.display.infinity)
    | finite negative m e =>
      dsimp only
      split
      · exact .ofInt _
      · refine .append (by cases negative <;> decide) ?_
        split
        · decide
        · unfold layDigits
          split
          · exact .positional (shortest_digits_lt m e) _
          · exact .exponential (shortest_digits_lt m e) _

end Number

namespace Value

variable {key : Value}

/-- What a value that is no container is shown as does not depend on the heap. -/
theorem render_primitive (primitive : key.isContainer = false) (h h' : Heap) : key.render h = key.render h' := by
  cases key with
  | array | object => cases primitive
  | undefined | null | bool | number | text | function => rfl

theorem render_eq_lengthKey_iff (primitive : key.isContainer = false) (h : Heap) :
    key.render h = lengthKey ↔ key = .text lengthKey := by
  constructor
  · intro eq
    have l : 108 ∈ (key.render h).codes := by
      rw [eq]
      decide
    cases key with
    | array | object => cases primitive
    | undefined | null => cases eq
    | bool b => cases b <;> cases eq
    | number n => exact absurd l (Number.lacking_lay_display n)
    | text t => rw [← eq]; rfl
    | function name => cases eq
  · rintro rfl
    rfl

end Value

end ScriptTrace
