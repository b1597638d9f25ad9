import ScriptTrace.Proofs.WholeDoubles
/-!
# The doubles of numerals

A numeral is read as the double nearest to it. No decimal numeral is read as NaN: rounding, and products and quotients
of finite doubles, give none. An integer numeral has no double if rounding takes it to `2 ^ 1024` or beyond, that is
from `2 ^ 1024 - 2 ^ 970` on; such an integer is NaN.

* `isNaN_scaled`, `Numeral.Decimal.isNaN_toFloat`: decimal numerals are not NaN.
* `ofInt_roundsTo`: the double of an integer, or what overflows in its place.
* `Numeral.ofInteger_isNaN`, `Numeral.ofInteger_small`: the numbers of integer numerals.
-/
namespace ScriptTrace.Binary64

open Float.Model Float.Model.UnpackedFloat

/-! ## NaN -/

/-- A word whose exponent is not the largest one is no NaN. -/
theorem isNaN_unpack {word : BitVec Format.binary64.numBits} (finite : unpackExponent word ≠ -1#11) :
    (UnpackedFloat.unpack Format.binary64 word).isNaN = false := by
  rw [UnpackedFloat.unpack, if_neg finite]
  split
  · split <;> rfl
  · rfl

theorem unpack_infinity (sign : Sign) :
    UnpackedFloat.unpack Format.binary64 (packedInfinity Format.binary64 sign) = .infinity sign := by
  cases sign <;> rfl

/-- Packing neither makes a NaN nor loses one. -/
theorem isNaN_pack (u : UnpackedFloat) : (Float.ofModel (Float.Model.pack u)).isNaN = u.isNaN := by
  show (UnpackedFloat.unpack Format.binary64 (UnpackedFloat.pack Format.binary64 u)).isNaN = u.isNaN
  cases u with
  | notANumber => decide +kernel
  | infinity sign => cases sign <;> decide +kernel
  | zero sign => cases sign <;> decide +kernel
  | finite sign m e pos =>
    simp only [UnpackedFloat.pack]
    generalize (e + Format.binary64.exponentBias + Format.binary64.mantissaBitsWithoutImplicit).toNat = biased
    split
    · rw [unpack_infinity]
      rfl
    rename_i small
    split
    · -- the exponent is below the largest one, which stands for what is not finite
      refine isNaN_unpack ?_
      rw [unpackExponent_packComponents]
      intro all
      have field : biased % 2 ^ 11 = 2047 := (BitVec.toNat_ofNat biased 11).symm.trans (congrArg BitVec.toNat all)
      have bound : ¬2 ^ 11 ≤ biased + 1 := small
      omega
    · refine isNaN_unpack ?_
      rw [unpackExponent_packComponents]
      decide

theorem isNaN_neg (x : Float) : (-x).isNaN = x.isNaN := by
  have packed : -x = .ofModel (Float.Model.pack x.toModel.unpack.neg) := rfl
  have model : x.isNaN = x.toModel.unpack.isNaN := rfl
  rw [packed, isNaN_pack, model]
  cases x.toModel.unpack <;> rfl

theorem isNaN_of_parts {x : Float} {negative : Bool} {m : Nat} {e : Int} (h : parts x = .finite negative m e) :
    x.isNaN = false := by
  have field : (@unpackExponent Format.binary64 x.toModel.toBits.toBitVec).toNat =
      x.toBits.toNat / Nat.pow 2 52 % Nat.pow 2 11 := by
    simp [unpackExponent, Nat.shiftRight_eq_div_pow]
    rfl
  refine isNaN_unpack fun all => ?_
  have largest : x.toBits.toNat / Nat.pow 2 52 % Nat.pow 2 11 = 2047 := field.symm.trans (congrArg BitVec.toNat all)
  simp only [parts, if_pos largest] at h
  split at h <;> cases h

/-- Rounding gives no NaN. -/
theorem isNaN_roundWithAccuracy (sign : Sign) (m : Nat) (e : Int) (accuracy : Accuracy) :
    (roundWithAccuracy Format.binary64 sign m e accuracy).isNaN = false := by
  unfold roundWithAccuracy
  dsimp only
  split <;> rfl

/-- Whether an unpacked double is finite and not zero. -/
def isNonzero : UnpackedFloat → Bool
  | .finite .. => true
  | _ => false

theorem isNaN_mul {u v : UnpackedFloat} (hu : u.isFinite = true) (hv : isNonzero v = true) :
    (UnpackedFloat.mul Format.binary64 u v).isNaN = false := by
  cases v with
  | finite sign m e pos =>
    cases u with
    | zero => rfl
    | finite => exact isNaN_roundWithAccuracy ..
    | infinity | notANumber => cases hu
  | zero | infinity | notANumber => cases hv

theorem isNaN_div {u v : UnpackedFloat} (hu : u.isFinite = true) (hv : isNonzero v = true) :
    (UnpackedFloat.div Format.binary64 u v).isNaN = false := by
  cases v with
  | finite sign m e pos =>
    cases u with
    | zero => rfl
    | finite => exact isNaN_roundWithAccuracy ..
    | infinity | notANumber => cases hu
  | zero | infinity | notANumber => cases hv

/-- The powers of ten that are doubles. -/
theorem isNonzero_powers : ∀ x ∈ Float.exactlyRepresentablePowersOfTen, isNonzero x.toModel.unpack = true := by
  decide +kernel

theorem isFinite_ofUInt64 {n : Nat} (small : n < 2 ^ 53) : n.toUInt64.toFloat.toModel.unpack.isFinite = true := by
  rcases Nat.eq_zero_or_pos n with rfl | pos
  · decide +kernel
  · obtain ⟨low, high⟩ := wholeShift_bounds pos small
    obtain ⟨pos', converted⟩ := ofUInt64_eq pos small
    show (Float.Model.ofUInt64 n.toUInt64).unpack.isFinite = true
    rw [converted, unpack_pack .positive low high (by unfold wholeShift; omega) pos' (by omega)]
    rfl

theorem isNaN_unpacked_ofScientific (m : Nat) (e : Int) :
    (UnpackedFloat.ofScientific Format.binary64 m e).isNaN = false := by
  unfold UnpackedFloat.ofScientific
  split
  · rfl
  split
  · rfl
  split
  · rfl
  split
  · exact isNaN_mul rfl rfl
  · exact isNaN_div rfl rfl

theorem isNaN_ofScientific (m : Nat) (negative : Bool) (e : Nat) :
    (Float.ofScientific m negative e).isNaN = false := by
  unfold Float.ofScientific
  split
  case isTrue h =>
    have inside : e < Float.exactlyRepresentablePowersOfTen.size := Nat.lt_succ_of_le h.2
    have power := isNonzero_powers _ (Array.getElem_mem inside)
    have finite := isFinite_ofUInt64 h.1
    cases negative with
    | true => exact (isNaN_pack _).trans (isNaN_div finite power)
    | false => exact (isNaN_pack _).trans (isNaN_mul finite power)
  case isFalse => exact (isNaN_pack _).trans (isNaN_unpacked_ofScientific m _)

theorem isNaN_scaled (n : Nat) (e : Int) : (Numeral.scaled n e).isNaN = false := by
  unfold Numeral.scaled
  split
  · decide +kernel
  split
  · decide +kernel
  split
  · decide +kernel
  · exact isNaN_ofScientific ..

/-! ## Integers -/

/-- The least natural number that rounding takes to `2 ^ 1024`, beyond the doubles. -/
def overflow : Nat :=
  2 ^ 1024 - 2 ^ 970

theorem lt_two_pow_sub {n a b c : Nat} (le : a ≤ b) (succ : c = b + 1) (short : n.log2 < b) : n < 2 ^ c - 2 ^ a := by
  have less : n < 2 ^ b := Nat.lt_of_lt_of_le Nat.lt_log2_self (Nat.pow_le_pow_right (by decide) short)
  have smaller : 2 ^ a ≤ 2 ^ b := Nat.pow_le_pow_right (by decide) le
  have twice : 2 ^ c = 2 ^ b + 2 ^ b := by rw [succ, Nat.two_pow_succ]
  omega

theorem two_pow_sub_le {n a c : Nat} (nonzero : n ≠ 0) (long : c ≤ n.log2) : 2 ^ c - 2 ^ a ≤ n :=
  (Nat.sub_le _ _).trans ((Nat.le_log2 nonzero).1 long)

theorem lt_overflow {n : Nat} (short : n.log2 < 1023) : n < overflow := by
  unfold overflow
  exact lt_two_pow_sub (by decide) rfl short

theorem overflow_le {n : Nat} (long : 1024 ≤ n.log2) : overflow ≤ n := by
  have nonzero : n ≠ 0 := by
    rintro rfl
    exact absurd long (by decide)
  unfold overflow
  exact two_pow_sub_le nonzero long

theorem small_lt_overflow {n : Nat} (small : n < 2 ^ 53) : n < overflow := by
  refine lt_overflow ?_
  rcases Nat.eq_zero_or_pos n with rfl | pos
  · decide
  · exact ((Nat.log2_lt pos.ne').2 small).trans (by decide)

/-- Rounding takes a number to the next power of two if it is at most half a unit short of it. -/
theorem largeExponent_eq {n j : Nat} (log : n.log2 = j + 53) :
    largeExponent n = if 2 ^ (j + 54) ≤ n + 2 ^ j then j + 2 else j + 1 := by
  have reaches : 2 ^ (j + 53 + 55) ≤ n * 2 ^ 54 + 2 ^ (j + 53 + 1) ↔ 2 ^ (j + 54) ≤ n + 2 ^ j := by
    simp only [Nat.pow_add]
    generalize 2 ^ j = unit
    omega
  rw [largeExponent, log, if_congr reaches rfl rfl]
  split <;> omega

/-- Overflow, in terms of the exponent that rounding leaves. -/
theorem largeExponent_iff {n : Nat} (large : 2 ^ 53 ≤ n) : 971 < largeExponent n ↔ overflow ≤ n := by
  have nonzero : n ≠ 0 := by omega
  obtain ⟨j, log⟩ : ∃ j, n.log2 = j + 53 := ⟨n.log2 - 53, by have := (Nat.le_log2 nonzero).2 large; omega⟩
  rw [largeExponent_eq log]
  -- only between the last two powers of two does it depend on the rounding
  rcases Nat.lt_trichotomy j 970 with less | rfl | more
  · have below : n < overflow := lt_overflow (by omega)
    split <;> omega
  · rw [overflow, Nat.sub_le_iff_le_add]
    simp only [Nat.reduceAdd]
    split
    case isTrue reaches => exact iff_of_true (by decide) reaches
    case isFalse short => exact iff_of_false (by decide) short
  · have above : overflow ≤ n := overflow_le (by omega)
    split <;> omega

section Pack

variable {q : Nat} {e : Int} (low : 2 ^ 52 ≤ q) (high : q < 2 ^ 53) (least : -1074 ≤ e) (pos : 0 < q)

omit low high least in
theorem pack_infinite (sign : Sign) (most : 971 < e) :
    Float.Model.pack (.finite sign q e pos) = Float.Model.pack (.infinity sign) := by
  simp only [Float.Model.pack, pack_large sign pos most]
  rfl

include low high least

theorem neg_pack (sign : Sign) : -Float.ofModel (Float.Model.pack (.finite sign q e pos)) =
    .ofModel (Float.Model.pack (.finite (-sign) q e pos)) := by
  have negated : -Float.ofModel (Float.Model.pack (.finite sign q e pos)) =
      .ofModel (Float.Model.pack (Float.Model.pack (.finite sign q e pos)).unpack.neg) := rfl
  rw [negated]
  by_cases most : e ≤ 971
  · rw [unpack_pack sign low high least pos most]
    rfl
  · -- what overflows is not unpacked as it was, but both sides are infinities
    rw [pack_infinite pos sign (by omega), pack_infinite pos (-sign) (by omega)]
    cases sign <;> decide +kernel

theorem isInf_pack (sign : Sign) :
    (Float.ofModel (Float.Model.pack (.finite sign q e pos))).isInf = decide (971 < e) := by
  have model : (Float.ofModel (Float.Model.pack (.finite sign q e pos))).isInf =
      (Float.Model.pack (.finite sign q e pos)).unpack.isInf := rfl
  rw [model]
  by_cases most : e ≤ 971
  · rw [unpack_pack sign low high least pos most, decide_eq_false (by omega)]
    rfl
  · rw [pack_infinite pos sign (by omega), decide_eq_true (by omega)]
    cases sign <;> decide +kernel

end Pack

/-- A mantissa of 53 bits and an exponent that a natural number is rounded to; the exponent is too large for a double
if the number overflows. -/
structure RoundsTo (n q : Nat) (e : Int) : Prop where
  low : 2 ^ 52 ≤ q
  high : q < 2 ^ 53
  least : -1074 ≤ e
  overflows : 971 < e ↔ overflow ≤ n
  whole : n < 2 ^ 53 → ∃ k : Nat, q = n * 2 ^ k ∧ e = -k

theorem ofScientific_roundsTo {n : Nat} (pos : 0 < n) : ∃ (q : Nat) (e : Int) (pos' : 0 < q), RoundsTo n q e ∧
    Float.ofScientific n false 0 = .ofModel (Float.Model.pack (.finite .positive q e pos')) := by
  rcases Nat.lt_or_ge n (2 ^ 53) with small | large
  · obtain ⟨low, high⟩ := wholeShift_bounds pos small
    obtain ⟨pos', packed⟩ := ofScientific_eq pos small
    have below : ¬overflow ≤ n := Nat.not_le.2 (small_lt_overflow small)
    refine ⟨_, _, pos', ⟨low, high, ?_, ?_, fun _ => ⟨_, rfl, rfl⟩⟩, packed⟩
    · unfold wholeShift
      omega
    · simp only [below, iff_false]
      omega
  · obtain ⟨q, pos', packed, low, high⟩ := ofScientific_large_eq large
    refine ⟨q, largeExponent n, pos', ⟨low, high, by omega, ?_, fun small => by omega⟩, packed⟩
    rw [← largeExponent_iff large]
    omega

/-- The double of an integer that is not zero, or what overflows in its place. -/
theorem ofInt_roundsTo (sign : Sign) {n : Nat} (pos : 0 < n) : ∃ (q : Nat) (e : Int) (pos' : 0 < q), RoundsTo n q e ∧
    Float.ofInt (withSign (isMinus sign) n) = .ofModel (Float.Model.pack (.finite sign q e pos')) := by
  obtain ⟨q, e, pos', rounded, packed⟩ := ofScientific_roundsTo pos
  refine ⟨q, e, pos', rounded, ?_⟩
  obtain ⟨m, rfl⟩ : ∃ m, n = m + 1 := ⟨n - 1, by omega⟩
  cases sign with
  | positive => exact packed
  | negative =>
    have negated : Float.ofInt (withSign true (m + 1)) = -Float.ofScientific (m + 1) false 0 := rfl
    rw [packed, neg_pack rounded.low rounded.high rounded.least] at negated
    exact negated

/-- Every integer is a sign and a magnitude. -/
theorem exists_withSign (n : Int) : ∃ sign, n = withSign (isMinus sign) n.natAbs := by
  by_cases negative : n < 0
  · refine ⟨.negative, ?_⟩
    show n = -(n.natAbs : Int)
    omega
  · refine ⟨.positive, ?_⟩
    show n = (n.natAbs : Int)
    omega

theorem isInf_ofInt (n : Int) : (Float.ofInt n).isInf = decide (overflow ≤ n.natAbs) := by
  rcases Nat.eq_zero_or_pos n.natAbs with zero | pos
  · rw [Int.natAbs_eq_zero.1 zero]
    decide +kernel
  · obtain ⟨sign, signed⟩ := exists_withSign n
    obtain ⟨q, e, pos', rounded, packed⟩ := ofInt_roundsTo sign pos
    rw [← signed] at packed
    rw [packed, isInf_pack rounded.low rounded.high rounded.least, decide_eq_decide]
    exact rounded.overflows

theorem isNaN_ofInt (n : Int) : (Float.ofInt n).isNaN = false := by
  rcases Nat.eq_zero_or_pos n.natAbs with zero | pos
  · rw [Int.natAbs_eq_zero.1 zero]
    decide +kernel
  · obtain ⟨sign, signed⟩ := exists_withSign n
    obtain ⟨q, e, pos', -, packed⟩ := ofInt_roundsTo sign pos
    rw [← signed] at packed
    rw [packed, isNaN_pack]
    rfl

end ScriptTrace.Binary64

namespace ScriptTrace

open Binary64

theorem Number.isNaN_ofFloat (x : Float) : (Number.ofFloat x).isNaN = x.isNaN := by
  unfold Number.ofFloat
  split
  case h_1 negative m e h =>
    dsimp only
    split
    · exact (isNaN_of_parts h).symm
    · rfl
  case h_2 => rfl

/-- An integer below the bound is carried as itself. -/
theorem Number.ofFloat_ofInt {n : Int} (small : n.natAbs < 2 ^ 53) : Number.ofFloat (Float.ofInt n) = .int n := by
  rcases Nat.eq_zero_or_pos n.natAbs with zero | pos
  · rw [Int.natAbs_eq_zero.1 zero]
    decide +kernel
  · obtain ⟨sign, signed⟩ := exists_withSign n
    obtain ⟨q, e, pos', rounded, packed⟩ := ofInt_roundsTo sign pos
    obtain ⟨k, rfl, rfl⟩ := rounded.whole small
    have known := parts_pack sign rounded.low rounded.high rounded.least pos' (by omega)
    rw [← packed, ← signed] at known
    rw [Number.ofFloat_whole small (by omega) known, ← signed]

namespace Numeral

/-- No decimal numeral is NaN. -/
theorem Decimal.isNaN_toFloat (d : Decimal) : d.toFloat.isNaN = false := by
  unfold Decimal.toFloat
  dsimp only
  split
  · rw [isNaN_neg, isNaN_scaled]
  · exact isNaN_scaled ..

/-- An integer numeral is NaN from the overflow on. -/
theorem ofInteger_isNaN (n : Int) : (ofInteger? (some n)).isNaN = decide (overflow ≤ n.natAbs) := by
  unfold ofInteger?
  dsimp only
  rw [isInf_ofInt]
  split
  case isTrue long =>
    rw [decide_eq_true (overflow_le long)]
    decide +kernel
  case isFalse =>
    split
    case isTrue beyond =>
      rw [beyond]
      decide +kernel
    case isFalse below => rw [Number.isNaN_ofFloat, isNaN_ofInt, Bool.eq_false_iff.2 below]

/-- An integer numeral below the bound is that integer. -/
theorem ofInteger_small {n : Int} (small : n.natAbs < 2 ^ 53) : ofInteger? (some n) = .int n := by
  have below : ¬overflow ≤ n.natAbs := Nat.not_le.2 (small_lt_overflow small)
  have short : ¬integerBits ≤ n.natAbs.log2 := fun long => below (overflow_le long)
  have finite : (Float.ofInt n).isInf = false := by rw [isInf_ofInt, decide_eq_false below]
  unfold ofInteger?
  dsimp only
  rw [if_neg short, finite, if_neg (by decide), Number.ofFloat_ofInt small]

end Numeral

end ScriptTrace
