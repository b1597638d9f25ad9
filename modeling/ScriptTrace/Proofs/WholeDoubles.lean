import Mathlib
import ScriptTrace.Number.Numeral
/-!
# Integers as doubles

A natural number below `2 ^ 53` is a double, and the number that is carried for this double is that integer. The double
nearest to a larger one, or the infinity in its place, is not below `2 ^ 53` and stays a double.

Doubles are computed by rounding a mantissa to 53 bits. The shift that makes room for it loses nothing if only zeros are
shifted out; in any case it leaves 53 bits, or one more after the rounding, which is shifted out in turn.

* `roundWithAccuracy_wide`: what rounding makes of a mantissa of at least 53 bits.
* `parts_pack`, `unpack_pack`: taking a double apart gives back what it was made of.
* `ofFloat_scaled`, `ofFloat_scaled_large`: the numbers that decimal integers are carried as.
-/
namespace ScriptTrace.Binary64

open Float.Model Float.Model.UnpackedFloat

/-! ## Rounding -/

theorem shiftRight_mantissa (em : ExtendedMantissa) (k : Nat) : (em >>> k).mantissa = em.mantissa / 2 ^ k := by
  induction k with
  | zero => simp [HShiftRight.hShiftRight, Nat.repeat]
  | succ k ih =>
    have step : (em >>> (k + 1)).mantissa = (em >>> k).mantissa / 2 := rfl
    rw [step, ih, Nat.div_div_eq_div_mul, Nat.pow_succ]

/-- Zeros can be shifted out without a trace. -/
theorem shiftRight_exact (m k : Nat) :
    (ExtendedMantissa.mk (m * 2 ^ k) false false) >>> k = ExtendedMantissa.mk m false false := by
  induction k generalizing m with
  | zero => simp [HShiftRight.hShiftRight, Nat.repeat]
  | succ k ih =>
    have step (em : ExtendedMantissa) : em >>> (k + 1) = (em >>> k).shiftRightOne := rfl
    rw [step, Nat.pow_succ, Nat.mul_comm (2 ^ k), ← Nat.mul_assoc, ih]
    simp [ExtendedMantissa.shiftRightOne]

theorem roundedMantissa_bounds (em : ExtendedMantissa) :
    em.mantissa ≤ em.roundedMantissa ∧ em.roundedMantissa ≤ em.mantissa + 1 := by
  obtain ⟨m, roundBit, stickyBit⟩ := em
  cases roundBit <;> cases stickyBit <;>
    simp only [ExtendedMantissa.roundedMantissa, ExtendedMantissa.accuracy, Accuracy.roundToNearestEven] <;> omega

/-- Rounding off `k` bits makes one bit more of the 53 that are left if at least half a unit is missing to it. -/
theorem roundedMantissa_eq_iff {m k : Nat} (high : m / 2 ^ k < 2 ^ 53) :
    (ExtendedMantissa.mk m false false >>> k).roundedMantissa = 2 ^ 53 ↔ 2 ^ (k + 54) ≤ 2 * m + 2 ^ k := by
  cases k with
  | zero =>
    rw [Nat.pow_zero, Nat.div_one] at high
    have same : (ExtendedMantissa.mk m false false >>> 0).roundedMantissa = m := rfl
    rw [same]
    omega
  | succ j =>
    have step : ExtendedMantissa.mk m false false >>> (j + 1) =
        (ExtendedMantissa.mk m false false >>> j).shiftRightOne := rfl
    have kept := shiftRight_mantissa (ExtendedMantissa.mk m false false) j
    generalize ExtendedMantissa.mk m false false >>> j = em at step kept
    obtain ⟨d, roundBit, stickyBit⟩ := em
    dsimp only at kept
    rw [Nat.pow_succ, ← Nat.div_div_eq_div_mul, ← kept] at high
    -- the largest mantissa is odd, so that a tie goes up as well
    have up : (ExtendedMantissa.mk d roundBit stickyBit).shiftRightOne.roundedMantissa = 2 ^ 53 ↔ 2 ^ 54 - 1 ≤ d := by
      rcases Nat.mod_two_eq_zero_or_one d with parity | parity <;> cases roundBit <;> cases stickyBit <;>
        simp [ExtendedMantissa.shiftRightOne, ExtendedMantissa.roundedMantissa, ExtendedMantissa.accuracy,
          Accuracy.roundToNearestEven, parity] <;> omega
    rw [step, up, kept, Nat.le_div_iff_mul_le (Nat.two_pow_pos j), Nat.pow_add _ (j + 1), Nat.pow_succ 2 j]
    generalize 2 ^ j = unit
    omega

theorem shiftToTargetExponent_eq (m : Nat) (e : Int) {k : Nat} (bits : m.log2 = 52 + k) (least : -1074 ≤ e + k) :
    shiftToTargetExponent Format.binary64 m e .exact = (ExtendedMantissa.mk m false false >>> k, e + k) := by
  have target : Format.binary64.targetExponent (totalExponent m e) = e + k := by
    simp only [Format.targetExponent, totalExponent, Format.mantissaBits, Format.minExponent, bits]
    norm_num
    omega
  have shift : (e + k - e).toNat = k := by omega
  simp only [shiftToTargetExponent, shiftToExponent, target, shift, ExtendedMantissa.ofMantissaAndAccuracy]

theorem log2_mul_two_pow {n : Nat} (nonzero : n ≠ 0) (k : Nat) : (n * 2 ^ k).log2 = n.log2 + k := by
  have pos : 0 < 2 ^ k := Nat.two_pow_pos k
  have least := Nat.log2_self_le nonzero
  have most : n < 2 ^ (n.log2 + 1) := Nat.lt_log2_self
  rw [Nat.log2_eq_iff (Nat.mul_ne_zero nonzero pos.ne'), Nat.add_right_comm, Nat.pow_add, Nat.pow_add _ (n.log2 + 1)]
  exact ⟨Nat.mul_le_mul_right _ least, Nat.mul_lt_mul_of_pos_right most pos⟩

theorem log2_eq {q : Nat} (low : 2 ^ 52 ≤ q) (high : q < 2 ^ 53) : q.log2 = 52 :=
  (Nat.log2_eq_iff (by omega)).2 ⟨low, high⟩

section Round

variable (sign : Sign) {m q k : Nat} {e : Int}

/-- Rounding does nothing to a mantissa of 53 bits, up to zeros behind them. -/
theorem roundWithAccuracy_exact (low : 2 ^ 52 ≤ q) (high : q < 2 ^ 53) (least : -1074 ≤ e + k) (pos : 0 < q) :
    roundWithAccuracy Format.binary64 sign (q * 2 ^ k) e .exact = .finite sign q (e + k) pos := by
  have bits : (q * 2 ^ k).log2 = 52 + k := by
    rw [log2_mul_two_pow pos.ne', log2_eq low high]
  have first := shiftToTargetExponent_eq (q * 2 ^ k) e bits least
  have second := shiftToTargetExponent_eq (k := 0) q (e + k) (log2_eq low high) (by omega)
  have rounded : (ExtendedMantissa.mk q false false).roundedMantissa = q := rfl
  have shifted : ExtendedMantissa.mk q false false >>> 0 = ExtendedMantissa.mk q false false := rfl
  rw [shiftRight_exact] at first
  rw [roundWithAccuracy, first]
  simp only [rounded, second, shifted]
  simp [pos.ne']

/-- Rounding leaves 53 bits of a mantissa that has them; the exponent that goes with them is one more if one bit more
came of the rounding. -/
theorem roundWithAccuracy_wide (bits : m.log2 = 52 + k) (least : -1074 ≤ e + k) :
    ∃ (q : Nat) (pos : 0 < q),
      roundWithAccuracy Format.binary64 sign m e .exact =
          .finite sign q (if 2 ^ (k + 54) ≤ 2 * m + 2 ^ k then e + k + 1 else e + k) pos ∧
        2 ^ 52 ≤ q ∧ q < 2 ^ 53 := by
  have nonzero : m ≠ 0 := by
    rintro rfl
    rw [Nat.log2_zero] at bits
    omega
  have low : 2 ^ 52 ≤ m / 2 ^ k := by
    rw [Nat.le_div_iff_mul_le (Nat.two_pow_pos k), ← Nat.pow_add, ← bits]
    exact Nat.log2_self_le nonzero
  have high : m / 2 ^ k < 2 ^ 53 := by
    rw [Nat.div_lt_iff_lt_mul (Nat.two_pow_pos k), ← Nat.pow_add, Nat.add_right_comm 52 1 k, ← bits]
    exact Nat.lt_log2_self
  have first := shiftToTargetExponent_eq m e bits least
  have kept : (ExtendedMantissa.mk m false false >>> k).mantissa = m / 2 ^ k := shiftRight_mantissa _ k
  have bounds := roundedMantissa_bounds (ExtendedMantissa.mk m false false >>> k)
  rw [kept] at bounds
  rw [roundWithAccuracy, first]
  simp only [← roundedMantissa_eq_iff high]
  generalize (ExtendedMantissa.mk m false false >>> k).roundedMantissa = r at bounds
  by_cases small : r < 2 ^ 53
  · have large : 2 ^ 52 ≤ r := by omega
    have second := shiftToTargetExponent_eq (k := 0) r (e + k) (log2_eq large small) (by omega)
    refine ⟨r, by omega, ?_, large, small⟩
    have shifted : ExtendedMantissa.mk r false false >>> 0 = ExtendedMantissa.mk r false false := rfl
    rw [second, shifted, if_neg (by omega)]
    simp [show r ≠ 0 by omega]
  · -- one more bit came of the rounding
    obtain rfl : r = 2 ^ 53 := by omega
    have second := shiftToTargetExponent_eq (k := 1) (2 ^ 53) (e + k) Nat.log2_two_pow (by omega)
    refine ⟨2 ^ 52, by decide, ?_, by decide, by decide⟩
    rw [second, if_pos rfl]
    rfl

end Round

/-! ## Packing -/

/-- Whether a sign is the minus. -/
def isMinus : Sign → Bool
  | .negative => true
  | .positive => false

/-- The word of a double, by its fields. -/
theorem toNat_packComponents (sign : Sign) (exponent : BitVec 11) (fraction : BitVec 52) :
    (packComponents Format.binary64 sign exponent fraction).toNat =
      (isMinus sign).toNat * 2 ^ 63 + exponent.toNat * 2 ^ 52 + fraction.toNat := by
  have bit : sign.toBitVec.toNat = (isMinus sign).toNat := by cases sign <;> rfl
  unfold packComponents
  rw [BitVec.toNat_append, BitVec.toNat_append, bit, ← Nat.shiftLeft_add_eq_or_of_lt fraction.isLt,
    ← Nat.shiftLeft_add_eq_or_of_lt exponent.isLt, Nat.shiftLeft_eq, Nat.shiftLeft_eq]
  norm_num
  omega

/-- What a double is, by the fields of its word. -/
theorem parts_packComponents {x : Float} {sign : Sign} {exponent : BitVec 11} {fraction : BitVec 52}
    (word : x.toBits.toBitVec = packComponents Format.binary64 sign exponent fraction) :
    parts x =
      if exponent.toNat = 2047 then if fraction.toNat = 0 then .infinite (isMinus sign) else .nan
      else if exponent.toNat = 0 then .finite (isMinus sign) fraction.toNat (-1074)
      else .finite (isMinus sign) (2 ^ 52 + fraction.toNat) ((exponent.toNat : Int) - 1075) := by
  have value : x.toBits.toNat = (isMinus sign).toNat * 2 ^ 63 + exponent.toNat * 2 ^ 52 + fraction.toNat := by
    rw [← toNat_packComponents, ← word]
    rfl
  have low : fraction.toNat < 2 ^ 52 := fraction.isLt
  have high : exponent.toNat < 2 ^ 11 := exponent.isLt
  have negative : decide (Nat.pow 2 63 ≤ x.toBits.toNat) = isMinus sign := by
    rw [value]
    show decide (2 ^ 63 ≤ _) = _
    cases isMinus sign <;> simp only [Bool.toNat_true, Bool.toNat_false, decide_eq_true_eq, decide_eq_false_iff_not] <;>
      omega
  have field : x.toBits.toNat / Nat.pow 2 52 % Nat.pow 2 11 = exponent.toNat := by
    rw [value]
    show (_ / 2 ^ 52) % 2 ^ 11 = _
    omega
  have rest : x.toBits.toNat % Nat.pow 2 52 = fraction.toNat := by
    rw [value]
    show _ % 2 ^ 52 = _
    omega
  simp only [parts, negative, field, rest]
  rfl

section Pack

variable (sign : Sign) {q : Nat} {e : Int} (low : 2 ^ 52 ≤ q) (high : q < 2 ^ 53) (least : -1074 ≤ e) (pos : 0 < q)

include low high least

theorem pack_eq (most : e ≤ 971) : UnpackedFloat.pack Format.binary64 (.finite sign q e pos) =
    packComponents Format.binary64 sign (BitVec.ofNat 11 (e + 1075).toNat) (BitVec.ofNat 52 q) := by
  have biased : (e + Format.binary64.exponentBias + Format.binary64.mantissaBitsWithoutImplicit).toNat =
      (e + 1075).toNat := by
    simp only [Format.exponentBias]
    norm_num
    omega
  have length : q.log2 + 1 = Format.binary64.mantissaBits := by
    rw [log2_eq low high]
    rfl
  have finite : ¬2 ^ Format.binary64.exponentBits ≤ (e + 1075).toNat + 1 := by
    norm_num
    omega
  simp only [UnpackedFloat.pack, biased, if_neg finite, if_pos length]

theorem toNat_fields (most : e ≤ 971) : (BitVec.ofNat 11 (e + 1075).toNat).toNat = (e + 1075).toNat ∧
    (BitVec.ofNat 52 q).toNat = q - 2 ^ 52 := by
  rw [BitVec.toNat_ofNat, BitVec.toNat_ofNat]
  omega

theorem parts_pack (most : e ≤ 971) :
    parts (.ofModel (Float.Model.pack (.finite sign q e pos))) = .finite (isMinus sign) q e := by
  obtain ⟨exponent, fraction⟩ := toNat_fields low high least most
  have word : (Float.ofModel (Float.Model.pack (.finite sign q e pos))).toBits.toBitVec =
      packComponents Format.binary64 sign _ _ := pack_eq sign low high least pos most
  have unbiased : ((e + 1075).toNat : Int) - 1075 = e := by omega
  rw [parts_packComponents word, exponent, fraction, if_neg (by omega), if_neg (by omega), Nat.add_sub_cancel' low,
    unbiased]

omit low high least in
/-- Too large an exponent overflows. -/
theorem pack_large (most : 971 < e) :
    UnpackedFloat.pack Format.binary64 (.finite sign q e pos) = packedInfinity Format.binary64 sign := by
  have beyond : 2 ^ Format.binary64.exponentBits ≤
      (e + Format.binary64.exponentBias + Format.binary64.mantissaBitsWithoutImplicit).toNat + 1 := by
    simp only [Format.exponentBias]
    norm_num
    omega
  exact if_pos beyond

omit low high least in
theorem parts_pack_large (most : 971 < e) :
    parts (.ofModel (Float.Model.pack (.finite sign q e pos))) = .infinite (isMinus sign) := by
  have word : (Float.ofModel (Float.Model.pack (.finite sign q e pos))).toBits.toBitVec =
      packComponents Format.binary64 sign (-1#11) 0#52 := pack_large sign pos most
  rw [parts_packComponents word]
  rfl

theorem unpack_pack (most : e ≤ 971) :
    (Float.Model.pack (.finite sign q e pos)).unpack = .finite sign q e pos := by
  obtain ⟨exponent, fraction⟩ := toNat_fields low high least most
  have word : (Float.Model.pack (.finite sign q e pos)).toBits.toBitVec =
      packComponents Format.binary64 sign _ _ := pack_eq sign low high least pos most
  have some : BitVec.ofNat 11 (e + 1075).toNat ≠ 0#11 := by
    intro eq
    have zero : (e + 1075).toNat = 0 := by rw [← exponent, eq]; rfl
    omega
  have finite : BitVec.ofNat 11 (e + 1075).toNat ≠ -1#11 := by
    intro eq
    have all : (e + 1075).toNat = 2047 := by rw [← exponent, eq]; rfl
    omega
  have mantissa : (1#1 ++ BitVec.ofNat 52 q).toNat = q := by
    have one : (1#1).toNat = 1 := rfl
    rw [BitVec.toNat_append, ← Nat.shiftLeft_add_eq_or_of_lt (BitVec.isLt _), fraction, one, Nat.shiftLeft_eq,
      Nat.one_mul, Nat.add_sub_cancel' low]
  rw [Float.Model.unpack, word, UnpackedFloat.unpack]
  simp only [unpackExponent_packComponents, unpackMantissa_packComponents, unpackSign_packComponents,
    Sign.ofBitVec_toBitVec, if_neg some, if_neg finite, mantissa, exponent]
  congr 1
  simp only [Format.exponentBias]
  norm_num
  omega

end Pack

/-! ## Integers below the bound -/

section Whole

variable {n : Nat}

/-- The exponent of a natural number below the bound, as a double. -/
def wholeShift (n : Nat) : Nat :=
  52 - n.log2

theorem wholeShift_bounds (pos : 0 < n) (small : n < 2 ^ 53) :
    2 ^ 52 ≤ n * 2 ^ wholeShift n ∧ n * 2 ^ wholeShift n < 2 ^ 53 := by
  have length : n.log2 < 53 := (Nat.log2_lt pos.ne').2 small
  obtain ⟨k, hk⟩ : ∃ k, n.log2 + k = 52 := ⟨52 - n.log2, by omega⟩
  have shift : wholeShift n = k := by
    unfold wholeShift
    omega
  have least := Nat.log2_self_le pos.ne'
  have most : n < 2 ^ (n.log2 + 1) := Nat.lt_log2_self
  rw [shift, show (53 : Nat) = n.log2 + 1 + k by omega, ← hk, Nat.pow_add, Nat.pow_add]
  exact ⟨Nat.mul_le_mul_right _ least, Nat.mul_lt_mul_of_pos_right most (Nat.two_pow_pos k)⟩

theorem ofUInt64_eq (pos : 0 < n) (small : n < 2 ^ 53) : ∃ pos',
    Float.Model.ofUInt64 n.toUInt64 =
      Float.Model.pack (.finite .positive (n * 2 ^ wholeShift n) (-wholeShift n) pos') := by
  obtain ⟨low, high⟩ := wholeShift_bounds pos small
  have length : n.log2 < 53 := (Nat.log2_lt pos.ne').2 small
  have word : n.toUInt64.toNat = n := by
    rw [Nat.toUInt64_eq, UInt64.toNat_ofNat']
    omega
  have target : Format.binary64.targetExponent (totalExponent n 0) = -wholeShift n := by
    simp only [Format.targetExponent, totalExponent, Format.mantissaBits, Format.minExponent, wholeShift]
    norm_num
    omega
  have pos' : 0 < n * 2 ^ wholeShift n := by omega
  have rounded :=
    roundWithAccuracy_exact (k := 0) (e := -wholeShift n) .positive low high (by unfold wholeShift; omega) pos'
  refine ⟨pos', congrArg Float.Model.pack ?_⟩
  have order : compare (n : Int) 0 = .gt := by
    rw [Std.compare_eq_gt]
    omega
  have shift : (- -(wholeShift n : Int)).toNat = wholeShift n := by omega
  rw [Nat.pow_zero, Nat.mul_one, Int.natCast_zero, Int.add_zero] at rounded
  simp only [UnpackedFloat.ofUInt64, UnpackedFloat.ofNat, UnpackedFloat.ofInt, UnpackedFloat.normalize, word, order,
    UnpackedFloat.round, Int.toNat_natCast, target, decreaseExponent, Int.zero_sub, shift, Nat.shiftLeft_eq, rounded]

/-- The factor by which a decimal integer is multiplied is one. -/
theorem unpack_one : ∃ pos, (Float.ofBits 0x3FF0000000000000).toModel.unpack = .finite .positive (2 ^ 52) (-52) pos :=
  ⟨by decide, rfl⟩

/-- The double of a natural number below the bound. -/
theorem ofScientific_eq (pos : 0 < n) (small : n < 2 ^ 53) : ∃ pos', Float.ofScientific n false 0 =
    .ofModel (Float.Model.pack (.finite .positive (n * 2 ^ wholeShift n) (-wholeShift n) pos')) := by
  obtain ⟨low, high⟩ := wholeShift_bounds pos small
  obtain ⟨pos', converted⟩ := ofUInt64_eq pos small
  obtain ⟨_, one⟩ := unpack_one
  have least : -1074 ≤ -(wholeShift n : Int) := by
    unfold wholeShift
    omega
  have product : Float.ofScientific n false 0 = n.toUInt64.toFloat * Float.ofBits 0x3FF0000000000000 := by
    rw [Float.ofScientific, dif_pos ⟨small, by decide⟩]
    rfl
  have multiplied : n.toUInt64.toFloat * Float.ofBits 0x3FF0000000000000 =
      .ofModel (Float.Model.pack (UnpackedFloat.mul Format.binary64 (Float.Model.ofUInt64 n.toUInt64).unpack
        (Float.ofBits 0x3FF0000000000000).toModel.unpack)) := rfl
  have rounded := roundWithAccuracy_exact (k := 52) (e := -wholeShift n + -52) (.positive * .positive) low high
    (by omega) pos'
  refine ⟨pos', ?_⟩
  rw [product, multiplied, converted, unpack_pack .positive low high least pos' (by omega), one, UnpackedFloat.mul,
    rounded, show -(wholeShift n : Int) + -52 + (52 : Nat) = -wholeShift n by omega]
  rfl

theorem parts_ofScientific (pos : 0 < n) (small : n < 2 ^ 53) :
    parts (Float.ofScientific n false 0) = .finite false (n * 2 ^ wholeShift n) (-wholeShift n) := by
  obtain ⟨low, high⟩ := wholeShift_bounds pos small
  obtain ⟨pos', packed⟩ := ofScientific_eq pos small
  rw [packed]
  exact parts_pack .positive low high (by unfold wholeShift; omega) pos' (by omega)

/-! ## Integers beyond the bound -/

/-- The exponent of a natural number from the bound on, as a double: rounding may take it to the next power of two. -/
def largeExponent (n : Nat) : Nat :=
  if 2 ^ (n.log2 + 55) ≤ n * 2 ^ 54 + 2 ^ (n.log2 + 1) then n.log2 - 51 else n.log2 - 52

/-- The double of a natural number from the bound on, or what overflows in its place. -/
theorem ofScientific_large_eq (large : 2 ^ 53 ≤ n) : ∃ (q : Nat) (pos : 0 < q),
    Float.ofScientific n false 0 = .ofModel (Float.Model.pack (.finite .positive q (largeExponent n) pos)) ∧
      2 ^ 52 ≤ q ∧ q < 2 ^ 53 := by
  have nonzero : n ≠ 0 := by omega
  have length : 53 ≤ n.log2 := (Nat.le_log2 nonzero).2 large
  have bits : (n <<< 53 * 10 ^ 0).log2 = 52 + (n.log2 + 1) := by
    rw [Nat.pow_zero, Nat.mul_one, Nat.shiftLeft_eq, log2_mul_two_pow nonzero]
    omega
  obtain ⟨q, pos, rounded, low, high⟩ :=
    roundWithAccuracy_wide (e := -53 + 0) (.positive * .positive) bits (by omega)
  have exponent : (if 2 ^ (n.log2 + 1 + 54) ≤ 2 * (n <<< 53 * 10 ^ 0) + 2 ^ (n.log2 + 1)
      then -53 + 0 + ((n.log2 + 1 : Nat) : Int) + 1 else -53 + 0 + ((n.log2 + 1 : Nat) : Int)) = largeExponent n := by
    have twice : 2 * (n <<< 53 * 10 ^ 0) = n * 2 ^ 54 := by
      rw [Nat.pow_zero, Nat.mul_one, Nat.shiftLeft_eq]
      omega
    rw [twice, Nat.add_assoc n.log2, largeExponent]
    split <;> omega
  simp only [exponent] at rounded
  refine ⟨q, pos, ?_, low, high⟩
  have slow : ¬(n < 2 ^ 53 ∧ 0 ≤ 22) := by omega
  have unscaled : UnpackedFloat.ofScientific Format.binary64 n 0 = .finite .positive q (largeExponent n) pos := by
    have near : ¬(0 : Int) < -((2 ^ Format.binary64.exponentBits : Int) + n.log2) := by norm_num
    rw [UnpackedFloat.ofScientific, dif_neg nonzero, if_neg (by decide), if_neg near, if_pos (by decide)]
    exact rounded
  rw [Float.ofScientific, dif_neg slow]
  exact congrArg (fun u => Float.ofModel (Float.Model.pack u)) unscaled

theorem parts_ofScientific_large (large : 2 ^ 53 ≤ n) :
    parts (Float.ofScientific n false 0) = .infinite false ∨
      ∃ (q : Nat) (e : Nat), parts (Float.ofScientific n false 0) = .finite false q e ∧ 2 ^ 53 ≤ q * 2 ^ e := by
  have length : 53 ≤ n.log2 := (Nat.le_log2 (by omega)).2 large
  have least : 1 ≤ largeExponent n := by
    unfold largeExponent
    split <;> omega
  obtain ⟨q, pos, packed, low, high⟩ := ofScientific_large_eq large
  rw [packed]
  by_cases most : (largeExponent n : Int) ≤ 971
  · refine .inr ⟨q, largeExponent n, parts_pack .positive low high (by omega) pos most, ?_⟩
    calc 2 ^ 53 = 2 ^ 52 * 2 ^ 1 := rfl
      _ ≤ q * 2 ^ largeExponent n := Nat.mul_le_mul low (Nat.pow_le_pow_right (by decide) least)
  · exact .inl (parts_pack_large .positive pos (by omega))

end Whole

end ScriptTrace.Binary64

/-! ## Decimal integers -/

namespace ScriptTrace.Number

open Binary64

variable {n : Nat}

theorem ofFloat_whole {x : Float} {negative : Bool} {k : Nat} (small : n < 2 ^ 53) (zero : n = 0 → negative = false)
    (h : parts x = .finite negative (n * 2 ^ k) (-k)) : ofFloat x = .int (withSign negative n) := by
  have value : wholePart (n * 2 ^ k) (-k) = n ∧ isWhole (n * 2 ^ k) (-k) = true := by
    cases k with
    | zero => exact ⟨by simp [wholePart], rfl⟩
    | succ k =>
      have exponent : -((k + 1 : Nat) : Int) = .negSucc k := rfl
      rw [exponent]
      exact ⟨Nat.mul_div_cancel _ (Nat.two_pow_pos _), beq_iff_eq.2 (Nat.mul_mod_left _ _)⟩
  have safe : n < safeBound := small
  have signed : (negative && n == 0) = false := by
    by_cases none : n = 0
    · rw [zero none, Bool.false_and]
    · rw [beq_false_of_ne none, Bool.and_false]
  rw [ofFloat, h]
  simp [value.1, value.2, safe, signed]

theorem ofFloat_large {x : Float} {q e : Nat} (large : 2 ^ 53 ≤ q * 2 ^ e) (h : parts x = .finite false q e) :
    ofFloat x = .float x := by
  have beyond : ¬wholePart q e < safeBound := Nat.not_lt.2 large
  rw [ofFloat, h]
  simp [beyond]

theorem ofFloat_infinite {x : Float} {negative : Bool} (h : parts x = .infinite negative) : ofFloat x = .float x := by
  rw [ofFloat, h]

/-- A decimal integer below the bound is carried as that integer. -/
theorem ofFloat_scaled (small : n < 2 ^ 53) : ofFloat (Numeral.scaled n 0) = .int n := by
  rcases Nat.eq_zero_or_pos n with rfl | pos
  · decide +kernel
  · have length : n.log2 < 53 := (Nat.log2_lt pos.ne').2 small
    have scaled : Numeral.scaled n 0 = Float.ofScientific n false 0 := by
      unfold Numeral.scaled Numeral.exponentBound
      rw [if_neg pos.ne', if_neg (by omega), if_neg (by omega)]
      rfl
    rw [scaled]
    exact ofFloat_whole small (fun _ => rfl) (parts_ofScientific pos small)

/-- A decimal integer from the bound on is carried as a double. -/
theorem ofFloat_scaled_large (large : 2 ^ 53 ≤ n) : ofFloat (Numeral.scaled n 0) = .float (Numeral.scaled n 0) := by
  have nonzero : n ≠ 0 := by omega
  unfold Numeral.scaled
  rw [if_neg nonzero]
  split
  · have infinite : parts (Binary64.infinity false) = .infinite false := rfl
    exact ofFloat_infinite infinite
  · rw [if_neg (by unfold Numeral.exponentBound; omega)]
    rcases parts_ofScientific_large large with h | ⟨q, e, h, large⟩
    · exact ofFloat_infinite h
    · exact ofFloat_large large h

end ScriptTrace.Number
