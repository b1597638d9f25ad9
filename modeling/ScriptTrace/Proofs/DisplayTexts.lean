import ScriptTrace.Proofs.MinimalDigits
/-!
# Numbers as a script shows them

The standard of the script language says how a number is written by its shortest digits: in full up to 21 digits before
the point, with up to six zeros behind the point, and with an exponent beyond. The display layout follows it, with two
exceptions. Numbers that begin at the fifth or sixth place behind the point have an exponent already, and whole numbers
from `2 ^ 53` on have all the digits of their exact value where the standard fills up the shortest ones with zeros.

* `standardText`: the text by the rules of the standard.
* `standardText_eq_ofNat_iff`: it is the row of digits of a natural number exactly if the shortest digits spell it.
* `display_text_standard_unless_tiny_or_large`: what the display layout writes, for every finite number but zero.
-/
namespace ScriptTrace.Number

open Binary64

/-! ## The standard -/

/-- Digits with a point after the first, and an exponent. -/
def exponentForm (d : Digits) : Text :=
  digitText (d.digits.take 1) ++
    (if d.digits.length = 1 then ("" : Text) else ("." : Text) ++ digitText (d.digits.drop 1)) ++
    ("e" : Text) ++ (if 0 ≤ d.exponent then ("+" : Text) else "-") ++ Text.ofNat d.exponent.natAbs

/-- The text of a positive number with the given shortest digits, `k` of them and `e` before the point. -/
def standardText (d : Digits) : Text :=
  let k : Int := d.digits.length
  let e : Int := d.exponent + 1
  if k ≤ e ∧ e ≤ 21 then digitText d.digits ++ zeros (e - k).toNat
  else if 0 < e ∧ e ≤ 21 then digitText (d.digits.take e.toNat) ++ ("." : Text) ++ digitText (d.digits.drop e.toNat)
  else if -6 < e ∧ e ≤ 0 then ("0." : Text) ++ zeros (-e).toNat ++ digitText d.digits
  else exponentForm d

/-- A text behind the sign of a number. -/
def signed (negative : Bool) (t : Text) : Text :=
  (if negative then ("-" : Text) else "") ++ t

theorem signed_injective {negative : Bool} {t t' : Text} (h : signed negative t = signed negative t') : t = t' := by
  have codes := congrArg Text.codes h
  simp only [signed, Text.codes_append] at codes
  exact congrArg Text.mk (List.append_cancel_left codes)

variable {d : Digits}

/-! ## Digits laid out -/

theorem length_ofNat_pos (n : Nat) : 0 < (Text.ofNat n).length := by
  rw [ofNat_eq]
  simpa [digitText, Text.length, List.length_pos_iff] using decimalDigits_ne_nil n

theorem exponential_eq (nonempty : d.digits ≠ []) : exponential 1 d = exponentForm d := by
  obtain ⟨ds, e⟩ := d
  obtain ⟨c, rest, rfl⟩ := List.exists_cons_of_ne_nil nonempty
  have width : zeros (1 - (Text.ofNat e.natAbs).length) = ⟨[]⟩ := by
    rw [Nat.sub_eq_zero_of_le (length_ofNat_pos _)]
    rfl
  have sign : (if e < 0 then ("-" : Text) else "+") = if 0 ≤ e then ("+" : Text) else "-" := by
    by_cases negative : e < 0
    · rw [if_pos negative, if_neg (by omega)]
    · rw [if_neg negative, if_pos (by omega)]
  have unpadded (t u : Text) : t ++ (⟨[]⟩ : Text) ++ u = t ++ u := congrArg Text.mk (by simp)
  cases rest with
  | nil =>
    simp only [exponential, width, sign, unpadded]
    exact congrArg Text.mk (by simp [digitText, Text.ofString])
  | cons c' rest =>
    simp only [exponential, width, sign, unpadded]
    exact congrArg Text.mk (by simp [digitText, Text.ofString])

/-- Digits with the point at its place, for the exponents where the standard has it there. -/
theorem positional_eq (nonempty : d.digits ≠ []) (least : -6 ≤ d.exponent) (most : d.exponent < 21) :
    positional false d = standardText d := by
  obtain ⟨ds, e⟩ := d
  have length : 0 < ds.length := List.length_pos_of_ne_nil nonempty
  simp only at least most
  cases e with
  | negSucc e =>
    have inside : ¬((ds.length : Int) ≤ Int.negSucc e + 1 ∧ Int.negSucc e + 1 ≤ 21) := by omega
    have before : ¬(0 < Int.negSucc e + 1 ∧ Int.negSucc e + 1 ≤ 21) := by omega
    have behind : -6 < Int.negSucc e + 1 ∧ Int.negSucc e + 1 ≤ 0 := by omega
    simp only [positional, standardText, if_neg inside, if_neg before, if_pos behind]
    rw [show (-(Int.negSucc e + 1)).toNat = e by omega]
  | ofNat e =>
    simp only [positional, standardText, Int.ofNat_eq_natCast] at least most ⊢
    rcases Nat.lt_or_ge (e + 1) ds.length with more | all
    · have inside : ¬((ds.length : Int) ≤ (e : Int) + 1 ∧ (e : Int) + 1 ≤ 21) := by omega
      have before : 0 < (e : Int) + 1 ∧ (e : Int) + 1 ≤ 21 := by omega
      have fraction : (ds.drop (e + 1)).isEmpty = false := by
        rw [List.isEmpty_eq_false_iff, ← List.length_pos_iff, List.length_drop]
        omega
      rw [if_neg inside, if_pos before, fraction, Nat.sub_eq_zero_of_le more.le,
        show ((e : Int) + 1).toNat = e + 1 from rfl]
      exact congrArg Text.mk (by simp [digitText, zeros, Text.ofString])
    · have inside : (ds.length : Int) ≤ (e : Int) + 1 ∧ (e : Int) + 1 ≤ 21 := by omega
      rw [if_pos inside, List.drop_eq_nil_of_le all, List.take_of_length_le all,
        show ((e : Int) + 1 - ds.length).toNat = e + 1 - ds.length by omega]
      rfl

theorem standardText_of_far (nonempty : d.digits ≠ []) (far : d.exponent < -6 ∨ 21 ≤ d.exponent) :
    standardText d = exponentForm d := by
  have length : 0 < d.digits.length := List.length_pos_of_ne_nil nonempty
  have inside : ¬((d.digits.length : Int) ≤ d.exponent + 1 ∧ d.exponent + 1 ≤ 21) := by omega
  have before : ¬(0 < d.exponent + 1 ∧ d.exponent + 1 ≤ 21) := by omega
  have behind : ¬(-6 < d.exponent + 1 ∧ d.exponent + 1 ≤ 0) := by omega
  simp only [standardText, if_neg inside, if_neg before, if_neg behind]

/-! ## Texts that differ -/

theorem mark_mem_exponentForm (d : Digits) : 101 ∈ (exponentForm d).codes := by
  simp [exponentForm, Text.ofString]

theorem codes_digitText {ds : List Nat} (lt : ∀ c ∈ ds, c < 10) : ∀ c ∈ (digitText ds).codes, 48 ≤ c ∧ c ≤ 57 := by
  intro c hc
  obtain ⟨d, hd, rfl⟩ := List.mem_map.1 hc
  have := lt d hd
  omega

theorem digitText_injective {as bs : List Nat} (h : digitText as = digitText bs) : as = bs := by
  have codes := congrArg (fun t => digitsOf t.codes) h
  simpa only [digitsOf_codes] using codes

/-- Numbers that begin right behind the point have no exponent in the standard. -/
theorem standardText_ne_exponentForm (h : d.WellFormed) (least : -6 ≤ d.exponent) (most : d.exponent < 0) :
    standardText d ≠ exponentForm d := by
  intro same
  have length : 0 < d.digits.length := List.length_pos_of_ne_nil h.nonempty
  have inside : ¬((d.digits.length : Int) ≤ d.exponent + 1 ∧ d.exponent + 1 ≤ 21) := by omega
  have before : ¬(0 < d.exponent + 1 ∧ d.exponent + 1 ≤ 21) := by omega
  have behind : -6 < d.exponent + 1 ∧ d.exponent + 1 ≤ 0 := by omega
  have mark := mark_mem_exponentForm d
  rw [← same] at mark
  simp only [standardText, if_neg inside, if_neg before, if_pos behind, zeros_eq, Text.codes_append,
    List.mem_append] at mark
  rcases mark with (mark | mark) | mark
  · exact absurd mark (by decide)
  · have := codes_digitText (forall_mem_zeros _) _ mark
    omega
  · have := codes_digitText h.lt _ mark
    omega

/-- Digits that spell a whole number end before the point. -/
theorem length_le_of_value {n : Nat} (h : d.WellFormed) (value : d.value = n) :
    (d.digits.length : Int) ≤ d.exponent + 1 := by
  by_contra beyond
  obtain ⟨j, hj⟩ := Int.eq_ofNat_of_zero_le (a := d.digits.length - (d.exponent + 1) - 1) (by omega)
  obtain ⟨front, last, split⟩ := (List.eq_nil_or_concat' d.digits).resolve_left h.nonempty
  have spelled : Digits.inOrder 10 d.digits = n * 10 ^ j * 10 := by
    rw [Digits.value_eq, show d.exponent + 1 - (d.digits.length : Int) = -(j + 1 : Nat) by omega, zpow_neg,
      zpow_natCast, ← div_eq_mul_inv, div_eq_iff (by positivity), pow_succ, ← mul_assoc] at value
    exact_mod_cast value
  have small : last < 10 := h.lt last (by simp [split])
  have nonzero : last ≠ 0 := fun zero => h.last (by simp [split, zero])
  rw [split, inOrder_concat] at spelled
  omega

/-- The digits filled up with zeros to the point. -/
theorem value_filled (le : (d.digits.length : Int) ≤ d.exponent + 1) :
    d.value = Digits.inOrder 10 (d.digits ++ List.replicate (d.exponent + 1 - d.digits.length).toNat 0) := by
  obtain ⟨j, hj⟩ := Int.eq_ofNat_of_zero_le (Int.sub_nonneg.2 le)
  have zero := inOrder_padded j []
  rw [List.append_nil] at zero
  rw [Digits.value_eq, hj, Digits.inOrder_append, zpow_natCast, Int.toNat_natCast, zero, List.length_replicate]
  push_cast
  simp [Digits.inOrder]

/-- Where the standard does not write digits alone, it writes a point or an exponent. -/
theorem standardText_marked (h : ¬((d.digits.length : Int) ≤ d.exponent + 1 ∧ d.exponent + 1 ≤ 21)) :
    46 ∈ (standardText d).codes ∨ 101 ∈ (standardText d).codes := by
  simp only [standardText, if_neg h]
  split
  · exact .inl (by simp [Text.ofString])
  · split
    · exact .inl (by simp [Text.ofString])
    · exact .inr (mark_mem_exponentForm d)

/-- The text by the standard is a row of digits exactly if the shortest digits spell the number. -/
theorem standardText_eq_ofNat_iff (h : d.WellFormed) {n : Nat} (bound : n < 10 ^ 21) :
    standardText d = Text.ofNat n ↔ d.value = n := by
  constructor
  · intro same
    by_cases inside : (d.digits.length : Int) ≤ d.exponent + 1 ∧ d.exponent + 1 ≤ 21
    · simp only [standardText, if_pos inside] at same
      rw [zeros_eq, digitText_append, ofNat_eq] at same
      rw [value_filled inside.1, digitText_injective same, inOrder_decimalDigits]
    · have marked := standardText_marked inside
      rw [same] at marked
      rcases marked with marked | marked
      · have := codes_ofNat n _ marked
        omega
      · have := codes_ofNat n _ marked
        omega
  · intro value
    have whole := length_le_of_value h value
    have few : d.exponent < 21 := by
      have lt := lt_of_le_of_lt (value ▸ h.value_bounds.1) (by exact_mod_cast bound : (n : ℚ) < 10 ^ (21 : Int))
      exact (zpow_lt_zpow_iff_right₀ (by norm_num)).1 lt
    have inside : (d.digits.length : Int) ≤ d.exponent + 1 ∧ d.exponent + 1 ≤ 21 := ⟨whole, by omega⟩
    have spelled : n = Digits.inOrder 10 (d.digits ++ List.replicate (d.exponent + 1 - d.digits.length).toNat 0) := by
      exact_mod_cast value ▸ value_filled whole
    simp only [standardText, if_pos inside]
    rw [zeros_eq, digitText_append, ofNat_eq, spelled, ← eq_decimalDigits]
    · exact List.forall_mem_append.2 ⟨h.lt, forall_mem_zeros _⟩
    · exact List.append_ne_nil_of_left_ne_nil h.nonempty _
    · rw [List.head?_append_of_ne_nil _ h.nonempty]
      exact h.first

/-! ## Numbers -/

section Carriers

variable {m : Nat} {e : Int}

theorem mul_zpow_of_isWhole (h : isWhole m e = true) : (m : ℚ) * 2 ^ e = wholePart m e := by
  cases e with
  | ofNat e =>
    rw [wholePart, Int.ofNat_eq_natCast, zpow_natCast, Nat.pow_eq]
    push_cast
    rfl
  | negSucc e =>
    rw [isWhole, beq_iff_eq] at h
    rw [wholePart, zpow_negSucc, ← div_eq_mul_inv, div_eq_iff (by positivity)]
    exact_mod_cast (Nat.div_mul_cancel (Nat.dvd_of_mod_eq_zero h)).symm

theorem exponent_neg_of_not_isWhole (h : isWhole m e = false) : e < 0 := by
  cases e with
  | ofNat e => cases h
  | negSucc e => exact Int.negSucc_lt_zero e

/-- Numbers that are not whole have fewer than sixteen digits before the point. -/
theorem exponent_shortest_lt (h : Legal m e) (hm : 0 < m) (fraction : isWhole m e = false) :
    (shortest m e).exponent < 16 := by
  have short := shortest_isShortest h hm
  have negative := exponent_neg_of_not_isWhole fraction
  have small : (m : ℚ) ≤ 2 ^ 53 := by exact_mod_cast h.small.le
  have scale : (2 : ℚ) ^ e ≤ 2 ^ (-1 : Int) := zpow_le_zpow_right₀ (by norm_num) (by omega)
  have half : (2 : ℚ) ^ (e - 1) ≤ 1 := zpow_le_one_of_nonpos₀ (by norm_num) (by omega)
  have size : (m : ℚ) * 2 ^ e ≤ 2 ^ 53 * 2 ^ (-1 : Int) := by gcongr
  have bound : (2 : ℚ) ^ 53 * 2 ^ (-1 : Int) + 1 < 10 ^ (16 : Int) := by norm_num
  have near := (abs_le.1 (abs_sub_le_of_holds short.readsBack)).2
  have lt : (10 : ℚ) ^ (shortest m e).exponent < 10 ^ (16 : Int) := lt_of_le_of_lt short.value_bounds.1 (by linarith)
  exact (zpow_lt_zpow_iff_right₀ (by norm_num)).1 lt

/-- Whether a number is carried as the double `± m * 2 ^ e`, or as the integer equal to it. -/
inductive Carries : Number → Bool → Nat → Int → Prop
  | float {x : Float} {negative : Bool} {m : Nat} {e : Int} : parts x = .finite negative m e →
      Carries (.float x) negative m e
  | int {negative : Bool} {m : Nat} {e : Int} : Legal m e → isWhole m e = true →
      Carries (.int (withSign negative (wholePart m e))) negative m e

theorem Carries.legal {n : Number} {negative : Bool} (h : n.Carries negative m e) : Legal m e := by
  cases h with
  | float finite => exact (legal_of_parts finite).1
  | int legal _ => exact legal

theorem ofInt_withSign {w : Nat} (hw : 0 < w) (negative : Bool) :
    Text.ofInt (withSign negative w) = signed negative (Text.ofNat w) := by
  cases negative with
  | true =>
    rw [withSign, if_pos rfl, Text.ofInt, if_pos (by omega), Int.natAbs_neg, Int.natAbs_natCast]
    rfl
  | false =>
    rw [withSign, if_neg (by decide), Text.ofInt, if_neg (by omega), Int.natAbs_natCast]
    rfl

theorem wholePart_pos (hm : 0 < m) (whole : isWhole m e = true) : 0 < wholePart m e := by
  have pos : (0 : ℚ) < m * 2 ^ e := by positivity
  rw [mul_zpow_of_isWhole whole] at pos
  exact_mod_cast pos

theorem layDigits_display (d : Digits) (nonempty : d.digits ≠ []) (near : d.exponent < 16 ∨ 21 ≤ d.exponent)
    (outside : d.exponent ≠ -5 ∧ d.exponent ≠ -6) : layDigits .display d = standardText d := by
  unfold layDigits
  split
  · exact positional_eq nonempty (by omega) (by omega)
  · exact (exponential_eq nonempty).trans (standardText_of_far nonempty (by omega)).symm

variable {negative : Bool}

theorem exponent_of_whole (h : Legal m e) (hm : 0 < m) (whole : isWhole m e = true) {j : Nat}
    (large : 10 ^ j ≤ wholePart m e) : (j : Int) ≤ (shortest m e).exponent := by
  refine le_exponent_shortest h hm ?_
  rw [mul_zpow_of_isWhole whole, zpow_natCast]
  exact_mod_cast large

/-- Floats that are written by their shortest digits. -/
theorem lay_float_digits {x : Float} (finite : parts x = .finite negative m e) (hm : 0 < m)
    (digits : isWhole m e = true → 10 ^ 21 ≤ wholePart m e) :
    lay .display (.float x) = signed negative (layDigits .display (shortest m e)) := by
  have test : ¬(Layout.display.wholeInFull && isWhole m e && decide (wholePart m e < Nat.pow 10 21)) = true := by
    simp only [Bool.and_eq_true, decide_eq_true_eq]
    rintro ⟨⟨-, whole⟩, small⟩
    exact absurd small (not_lt.2 (digits whole))
  rw [lay, layFloat, finite]
  simp only [if_neg test, if_neg hm.ne']
  rfl

namespace Carries

variable {n : Number} (carried : n.Carries negative m e) (hm : 0 < m)

include carried hm

/-- Numbers that are written by all their digits. -/
theorem lay_whole (whole : isWhole m e = true) (small : ∀ x, n = .float x → wholePart m e < 10 ^ 21) :
    n.lay .display = signed negative (Text.ofNat (wholePart m e)) := by
  rw [← ofInt_withSign (wholePart_pos hm whole)]
  cases carried with
  | float finite =>
    have test : (Layout.display.wholeInFull && isWhole m e && decide (wholePart m e < Nat.pow 10 21)) = true := by
      simp only [Bool.and_eq_true, decide_eq_true_eq]
      exact ⟨⟨rfl, whole⟩, small _ rfl⟩
    rw [lay, layFloat, finite]
    simp only [if_pos test]
  | int _ _ => rfl

theorem lay_fraction (fraction : isWhole m e = false)
    (outside : (shortest m e).exponent ≠ -5 ∧ (shortest m e).exponent ≠ -6) :
    n.lay .display = signed negative (standardText (shortest m e)) := by
  have short := shortest_isShortest carried.legal hm
  have near := exponent_shortest_lt carried.legal hm fraction
  cases carried with
  | float finite =>
    rw [lay_float_digits finite hm (by simp [fraction]), layDigits_display _ short.nonempty (.inl near) outside]
  | int _ whole => exact absurd whole (by simp [fraction])

/-- Numbers that begin at the fifth or sixth place behind the point. -/
theorem lay_tiny (place : (shortest m e).exponent = -5 ∨ (shortest m e).exponent = -6) :
    n.lay .display = signed negative (exponentForm (shortest m e)) ∧
      n.lay .display ≠ signed negative (standardText (shortest m e)) := by
  have short := shortest_isShortest carried.legal hm
  have fraction : isWhole m e ≠ true := by
    intro whole
    have := exponent_of_whole carried.legal hm whole (j := 0) (wholePart_pos hm whole)
    omega
  have text : n.lay .display = signed negative (exponentForm (shortest m e)) := by
    cases carried with
    | float finite =>
      rw [lay_float_digits finite hm fun whole => absurd whole fraction, layDigits, if_neg (by omega)]
      exact congrArg (signed negative) (exponential_eq short.nonempty)
    | int _ whole => exact absurd whole fraction
  refine ⟨text, fun same => ?_⟩
  exact standardText_ne_exponentForm short.toWellFormed (by omega) (by omega) (signed_injective (same.symm.trans text))

theorem lay_below (whole : isWhole m e = true) (small : wholePart m e < 10 ^ 21) :
    n.lay .display = signed negative (Text.ofNat (wholePart m e)) ∧
      (n.lay .display = signed negative (standardText (shortest m e)) ↔
        (shortest m e).value = wholePart m e) := by
  have short := shortest_isShortest carried.legal hm
  have text := carried.lay_whole hm whole fun _ _ => small
  refine ⟨text, ?_⟩
  rw [text, ← standardText_eq_ofNat_iff short.toWellFormed small]
  exact ⟨fun same => (signed_injective same).symm, fun same => congrArg (signed negative) same.symm⟩

/-- Whole numbers that the standard writes with an exponent. -/
theorem lay_beyond (whole : isWhole m e = true) (large : 10 ^ 21 ≤ wholePart m e) :
    (∀ x, n = .float x → n.lay .display = signed negative (standardText (shortest m e))) ∧
      ∀ i, n = .int i → n.lay .display = signed negative (Text.ofNat (wholePart m e)) ∧
        n.lay .display ≠ signed negative (standardText (shortest m e)) := by
  have short := shortest_isShortest carried.legal hm
  have far := exponent_of_whole carried.legal hm whole large
  constructor
  · rintro x rfl
    cases carried with
    | float finite =>
      rw [lay_float_digits finite hm fun _ => large,
        layDigits_display _ short.nonempty (.inr far) ⟨by omega, by omega⟩]
  · rintro i rfl
    have text := carried.lay_whole hm whole (by simp)
    refine ⟨text, fun same => ?_⟩
    have mark := mark_mem_exponentForm (shortest m e)
    rw [← standardText_of_far short.nonempty (.inr far), ← signed_injective (text.symm.trans same)] at mark
    have := codes_ofNat _ _ mark
    omega

end Carries

end Carriers

/-- The text of a finite number other than zero, `± m * 2 ^ e`, with its shortest digits: it is the text of the
standard, except that numbers that begin at the fifth or sixth place behind the point have an exponent, and that whole
numbers have all digits of their exact value, below `10 ^ 21` as floats and of any size as integers. Below `2 ^ 53`
these are the shortest digits. -/
theorem display_text_standard_unless_tiny_or_large {n : Number} {negative : Bool} {m : Nat} {e : Int}
    (carried : n.Carries negative m e) (hm : 0 < m) :
    let d := shortest m e
    let w := wholePart m e
    let standard := signed negative (standardText d)
    d.IsShortest m e ∧
    (isWhole m e = false → d.exponent ≠ -5 → d.exponent ≠ -6 → n.lay .display = standard) ∧
    (d.exponent = -5 ∨ d.exponent = -6 →
      n.lay .display = signed negative (exponentForm d) ∧ n.lay .display ≠ standard) ∧
    (isWhole m e = true → w < 2 ^ 53 → n.lay .display = standard) ∧
    (isWhole m e = true → w < 10 ^ 21 →
      n.lay .display = signed negative (Text.ofNat w) ∧ (n.lay .display = standard ↔ d.value = w)) ∧
    (isWhole m e = true → 10 ^ 21 ≤ w →
      (∀ x, n = .float x → n.lay .display = standard) ∧
      ∀ i, n = .int i → n.lay .display = signed negative (Text.ofNat w) ∧ n.lay .display ≠ standard) := by
  intro d w standard
  refine ⟨shortest_isShortest carried.legal hm, ?_, carried.lay_tiny hm, ?_, carried.lay_below hm,
    carried.lay_beyond hm⟩
  · intro fraction notFifth notSixth
    exact carried.lay_fraction hm fraction ⟨notFifth, notSixth⟩
  · intro whole small
    have value : d.value = w := value_shortest_whole carried.legal hm (mul_zpow_of_isWhole whole) small
    exact (carried.lay_below hm whole (small.trans (by norm_num))).2.2 value

/-- `-2 ^ 60`, carried as an integer, has all its digits, which are not the shortest ones. -/
theorem display_text_standard_unless_tiny_or_large_power :
    let n : Number := .int (-1152921504606846976)
    n.Carries true (2 ^ 52) 8 ∧ 0 < 2 ^ 52 ∧ (shortest (2 ^ 52) 8).IsShortest (2 ^ 52) 8 ∧
      n.lay .display = ("-1152921504606846976" : Text) ∧
      signed true (standardText (shortest (2 ^ 52) 8)) = ("-1152921504606847000" : Text) ∧
      (shortest (2 ^ 52) 8).value ≠ wholePart (2 ^ 52) 8 := by
  intro n
  have legal : Legal (2 ^ 52) 8 := ⟨by decide, by decide, by decide, .inl (by decide)⟩
  have value : n = .int (withSign true (wholePart (2 ^ 52) 8)) := by decide +kernel
  have carried : n.Carries true (2 ^ 52) 8 := value ▸ .int legal rfl
  have text : n.lay .display = ("-1152921504606846976" : Text) := by decide +kernel
  have standard : signed true (standardText (shortest (2 ^ 52) 8)) = ("-1152921504606847000" : Text) := by
    decide +kernel
  obtain ⟨short, -, -, -, below, -⟩ := display_text_standard_unless_tiny_or_large carried (by decide)
  refine ⟨carried, by decide, short, text, standard, fun value => ?_⟩
  have same := (below rfl (by decide)).2.2 value
  rw [text, standard] at same
  exact absurd same (by decide +kernel)

/-- The hundred-thousandth has an exponent, and none by the standard. -/
theorem hundred_thousandth_has_exponent :
    let x := Float.ofBits 0x3EE4F8B588E368F1
    parts x = .finite false 5902958103587057 (-69) ∧
      lay .display (.float x) = ("1e-5" : Text) ∧
      signed false (standardText (shortest 5902958103587057 (-69))) = ("0.00001" : Text) := by
  decide +kernel

end ScriptTrace.Number
