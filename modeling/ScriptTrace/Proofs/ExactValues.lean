import ScriptTrace.Proofs.DisplayTexts
import ScriptTrace.Proofs.NumeralDoubles
/-!
# Exact values of doubles

A finite double has an exact **value**, a rational number; a NaN and the infinities have none. What the operations on
doubles decide is stated here in terms of values: whether a double is an integer and which one, and how two doubles
compare. Doubles are compared by their exponents first and then by their mantissas. This is the order of the values,
since a mantissa has all its bits unless the exponent is the least one.

* `value?_eq_int_iff`: a double is an integer exactly if its value is.
* `compare_unpack`, `lt_iff`, `beq_iff`: the order of finite doubles is the order of their values.
* `eq_of_value?`: a double is known by its value, but for the sign of zero.
-/
namespace ScriptTrace.Binary64

open Float.Model Float.Model.UnpackedFloat

/-- The rational number `± m * 2 ^ e`. -/
def dyadic (negative : Bool) (m : Nat) (e : Int) : ℚ :=
  if negative then -(m * 2 ^ e) else m * 2 ^ e

/-- The exact value of a double, if it is finite. -/
def value? (x : Float) : Option ℚ :=
  match parts x with
  | .finite negative m e => some (dyadic negative m e)
  | .nan | .infinite _ => none

variable {x y : Float} {p q : ℚ} {m m' : Nat} {e e' : Int} {negative : Bool} {k : Int}

theorem value?_of_finite (h : parts x = .finite negative m e) : value? x = some (dyadic negative m e) := by
  rw [value?, h]

theorem exists_parts (h : value? x = some p) :
    ∃ negative m e, parts x = .finite negative m e ∧ dyadic negative m e = p := by
  unfold value? at h
  split at h
  case h_1 negative m e finite => exact ⟨negative, m, e, finite, Option.some.inj h⟩
  all_goals cases h

/-! ## Integers -/

theorem isWhole_of_value {n : Nat} (h : (m : ℚ) * 2 ^ e = n) : isWhole m e = true := by
  cases e with
  | ofNat e => rfl
  | negSucc e =>
    rw [zpow_negSucc, ← div_eq_mul_inv, div_eq_iff (by positivity)] at h
    have multiple : m = n * 2 ^ (e + 1) := by exact_mod_cast h
    rw [isWhole, beq_iff_eq, multiple]
    exact Nat.mul_mod_left n _

theorem dyadic_of_isWhole (h : isWhole m e = true) : dyadic negative m e = withSign negative (wholePart m e) := by
  rw [dyadic, Number.mul_zpow_of_isWhole h]
  cases negative <;> simp [withSign]

theorem isWhole_of_dyadic (h : dyadic negative m e = k) : isWhole m e = true := by
  have magnitude : (m : ℚ) * 2 ^ e = k.natAbs := by
    rw [Nat.cast_natAbs, Int.cast_abs, ← h, dyadic]
    have nonneg : (0 : ℚ) ≤ m * 2 ^ e := by positivity
    cases negative with
    | true => simp only [if_true, abs_neg, abs_of_nonneg nonneg]
    | false => simp only [Bool.false_eq_true, if_false, abs_of_nonneg nonneg]
  exact isWhole_of_value magnitude

/-- A double is an integer exactly if its value is, and then it is the integer that is left without a fraction. -/
theorem value?_eq_int_iff : value? x = some (k : ℚ) ↔ isInteger x = true ∧ truncate x = k := by
  cases h : parts x with
  | nan | infinite _ => simp [value?, isInteger, h]
  | finite negative m e =>
    rw [value?_of_finite h, isInteger, truncate, h, Option.some_inj]
    dsimp only
    constructor
    · intro value
      have whole := isWhole_of_dyadic value
      rw [dyadic_of_isWhole whole] at value
      exact ⟨whole, by exact_mod_cast value⟩
    · rintro ⟨whole, rfl⟩
      exact dyadic_of_isWhole whole

/-! ## Order -/

theorem dyadic_lt_of_exponent_lt (legal : Legal m e) (legal' : Legal m' e') (lt : e < e') :
    (m : ℚ) * 2 ^ e < m' * 2 ^ e' := by
  have small : (m : ℚ) < 2 ^ 53 := by exact_mod_cast legal.small
  have full : (2 : ℚ) ^ 52 ≤ m' := by
    rcases legal'.full with full | least
    · exact_mod_cast full
    · have := legal.least
      omega
  calc (m : ℚ) * 2 ^ e < 2 ^ 53 * 2 ^ e := by gcongr
    _ = 2 ^ 52 * 2 ^ (e + 1) := by
      rw [zpow_add_one₀ (by norm_num)]
      ring
    _ ≤ m' * 2 ^ e' := by
      gcongr
      · norm_num
      · omega

/-- The order by exponents and then by mantissas is the order of values. -/
theorem cmp_of_legal (legal : Legal m e) (legal' : Legal m' e') :
    (compare e e').then (compare m m') = cmp ((m : ℚ) * 2 ^ e) (m' * 2 ^ e') := by
  rcases lt_trichotomy e e' with lt | rfl | gt
  · rw [compare_lt_iff_lt.2 lt, (cmp_eq_lt_iff _ _).2 (dyadic_lt_of_exponent_lt legal legal' lt)]
    rfl
  · have unit : (0 : ℚ) < 2 ^ e := by positivity
    rw [compare_eq_iff_eq.2 rfl, cmp_mul_pos_right unit, Nat.strictMono_cast.cmp_map_eq, cmp_eq_compare]
    rfl
  · rw [compare_gt_iff_gt.2 gt, (cmp_eq_gt_iff _ _).2 (dyadic_lt_of_exponent_lt legal' legal gt)]
    rfl

/-- What an unpacked double stands for. -/
def Parts.ofUnpacked : UnpackedFloat → Parts
  | .notANumber => .nan
  | .infinity sign => .infinite (isMinus sign)
  | .zero sign => .finite (isMinus sign) 0 (-1074)
  | .finite sign m e _ => .finite (isMinus sign) m e

theorem parts_eq_ofUnpacked (x : Float) : parts x = .ofUnpacked x.toModel.unpack := by
  obtain ⟨sign, exponent, fraction, word⟩ : ∃ sign, ∃ exponent : BitVec 11, ∃ fraction : BitVec 52,
      x.toBits.toBitVec = packComponents Format.binary64 sign exponent fraction :=
    ⟨_, _, _, (@packComponents_unpackSign_unpackExponent_unpackMantissa Format.binary64 x.toModel.toBits.toBitVec).symm⟩
  have model : x.toModel.toBits.toBitVec = packComponents Format.binary64 sign exponent fraction := word
  have largest : exponent.toNat = 2047 ↔ exponent = -1#11 := BitVec.toNat_inj (y := -1#11)
  have least : exponent.toNat = 0 ↔ exponent = 0#11 := BitVec.toNat_inj (y := 0#11)
  have none : fraction.toNat = 0 ↔ fraction = 0#52 := BitVec.toNat_inj (y := 0#52)
  have full : (1#1 ++ fraction).toNat = 2 ^ 52 + fraction.toNat := by
    have one : (1#1).toNat = 1 := rfl
    rw [BitVec.toNat_append, ← Nat.shiftLeft_add_eq_or_of_lt fraction.isLt, one, Nat.shiftLeft_eq, Nat.one_mul]
  rw [parts_packComponents word, Float.Model.unpack, model, UnpackedFloat.unpack]
  simp only [unpackExponent_packComponents, unpackMantissa_packComponents, unpackSign_packComponents,
    Sign.ofBitVec_toBitVec, largest, least, none, full]
  by_cases infinite : exponent = -1#11
  · simp only [if_pos infinite]
    split <;> rfl
  simp only [if_neg infinite]
  by_cases subnormal : exponent = 0#11
  · simp only [if_pos subnormal]
    by_cases zero : fraction = 0#52
    · rw [dif_pos zero, zero]
      rfl
    · rw [dif_neg zero, subnormal]
      rfl
  · simp only [if_neg subnormal]
    rfl

theorem dyadic_pos (pos : 0 < m) : 0 < dyadic false m e := by
  simp only [dyadic, Bool.false_eq_true, if_false]
  positivity

theorem dyadic_neg (pos : 0 < m) : dyadic true m e < 0 := by
  simp only [dyadic, if_true, neg_lt_zero]
  positivity

/-- A finite double is unpacked as a zero, or as what has its value. -/
theorem unpack_of_value? (h : value? x = some p) : (∃ sign, x.toModel.unpack = .zero sign ∧ p = 0) ∨
    ∃ sign m e pos, x.toModel.unpack = .finite sign m e pos ∧ Legal m e ∧ p = dyadic (isMinus sign) m e := by
  obtain ⟨negative, m, e, finite, rfl⟩ := exists_parts h
  have legal := (legal_of_parts finite).1
  rw [parts_eq_ofUnpacked] at finite
  cases unpacked : x.toModel.unpack with
  | zero sign =>
    rw [unpacked] at finite
    cases finite
    refine .inl ⟨sign, rfl, ?_⟩
    cases sign <;> simp [dyadic]
  | finite sign m e pos =>
    rw [unpacked] at finite
    cases finite
    exact .inr ⟨sign, m, e, pos, rfl, legal, rfl⟩
  | infinity | notANumber =>
    rw [unpacked] at finite
    cases finite

theorem compare_unpack (hx : value? x = some p) (hy : value? y = some q) :
    x.toModel.unpack.compare y.toModel.unpack = some (cmp p q) := by
  rcases unpack_of_value? hx with ⟨sign, ux, rfl⟩ | ⟨sign, m, e, pos, ux, legal, rfl⟩ <;>
    rcases unpack_of_value? hy with ⟨sign', uy, rfl⟩ | ⟨sign', m', e', pos', uy, legal', rfl⟩ <;> rw [ux, uy]
  · rw [(cmp_eq_eq_iff _ _).2 rfl]
    rfl
  · cases sign' with
    | positive => rw [isMinus, (cmp_eq_lt_iff _ _).2 (dyadic_pos pos')]; rfl
    | negative => rw [isMinus, (cmp_eq_gt_iff _ _).2 (dyadic_neg pos')]; rfl
  · cases sign with
    | positive => rw [isMinus, (cmp_eq_gt_iff _ _).2 (dyadic_pos pos)]; rfl
    | negative => rw [isMinus, (cmp_eq_lt_iff _ _).2 (dyadic_neg pos)]; rfl
  · cases sign <;> cases sign'
    · have reversed : cmp (dyadic true m e) (dyadic true m' e') = (cmp ((m : ℚ) * 2 ^ e) (m' * 2 ^ e')).swap :=
        (StrictAnti.cmp_map_eq (fun _ _ lt => neg_lt_neg lt) _ _).trans (cmp_swap _ _).symm
      rw [isMinus, reversed, ← cmp_of_legal legal legal']
      rfl
    · rw [isMinus, isMinus, (cmp_eq_lt_iff _ _).2 ((dyadic_neg pos).trans (dyadic_pos pos'))]; rfl
    · rw [isMinus, isMinus, (cmp_eq_gt_iff _ _).2 ((dyadic_neg pos').trans (dyadic_pos pos))]; rfl
    · exact congrArg some (cmp_of_legal legal legal')

theorem lt_iff (hx : value? x = some p) (hy : value? y = some q) : x < y ↔ p < q := by
  have unfolded : x < y ↔ (x.toModel.unpack.compare y.toModel.unpack == some .lt) = true := by
    show decide _ = true ↔ _
    rw [decide_eq_true_iff]
    rfl
  rw [unfolded, compare_unpack hx hy, beq_iff_eq, Option.some_inj, cmp_eq_lt_iff]

theorem beq_iff (hx : value? x = some p) (hy : value? y = some q) : (x == y) = true ↔ p = q := by
  have unfolded : (x == y) = (x.toModel.unpack.compare y.toModel.unpack == some .eq) := rfl
  rw [unfolded, compare_unpack hx hy, beq_iff_eq, Option.some_inj, cmp_eq_eq_iff]

/-- Mantissa, exponent and sign are known by a value that is not zero. -/
theorem dyadic_injective {negative' : Bool} (legal : Legal m e) (legal' : Legal m' e') (nonzero : p ≠ 0)
    (h : dyadic negative m e = p) (h' : dyadic negative' m' e' = p) : negative = negative' ∧ m = m' ∧ e = e' := by
  have positive {n : Bool} {m : Nat} {e : Int} (h : dyadic n m e = p) : (m : ℚ) * 2 ^ e = |p| ∧ (n = true ↔ p < 0) := by
    have nonneg : (0 : ℚ) ≤ m * 2 ^ e := by positivity
    subst h
    cases n with
    | true =>
      have pos : (0 : ℚ) < m * 2 ^ e := lt_of_le_of_ne nonneg fun zero => nonzero (by simp [dyadic, ← zero])
      simp [dyadic, abs_of_nonneg nonneg, pos]
    | false => simp [dyadic, abs_of_nonneg nonneg, nonneg]
  obtain ⟨size, sign⟩ := positive h
  obtain ⟨size', sign'⟩ := positive h'
  have same := size.trans size'.symm
  have exponent : e = e' := by
    rcases lt_trichotomy e e' with lt | eq | gt
    · exact absurd same (dyadic_lt_of_exponent_lt legal legal' lt).ne
    · exact eq
    · exact absurd same (dyadic_lt_of_exponent_lt legal' legal gt).ne'
  subst exponent
  refine ⟨Bool.eq_iff_iff.2 (sign.trans sign'.symm), ?_, rfl⟩
  exact_mod_cast mul_right_cancel₀ (by positivity : (2 : ℚ) ^ e ≠ 0) same

/-- A double that is not zero is known by its value. -/
theorem eq_of_value? (nonzero : p ≠ 0) (hx : value? x = some p) (hy : value? y = some p) : x = y := by
  obtain ⟨negative, m, e, finite, value⟩ := exists_parts hx
  obtain ⟨negative', m', e', finite', value'⟩ := exists_parts hy
  obtain ⟨rfl, rfl, rfl⟩ :=
    dyadic_injective (legal_of_parts finite).1 (legal_of_parts finite').1 nonzero value value'
  exact parts_injective (finite.trans finite'.symm)

end ScriptTrace.Binary64

/-- The exact value of a number, if it is finite. -/
def ScriptTrace.Number.value? : Number → Option ℚ
  | .int n => some n
  | .float x => Binary64.value? x
