import Mathlib.Algebra.Order.Field.Power
import Mathlib.Data.List.Induction
import Mathlib.Data.Rat.Floor
import Mathlib.Tactic.FieldSimp
import Mathlib.Tactic.Linarith
import Mathlib.Tactic.NormNum
import ScriptTrace.Number.Digits
import ScriptTrace.Number.Shortest
/-!
# Shortest digits read back

A double is written by the fewest digits that lie between the midpoints to its neighbours. `Neighbourhood.Holds` says
this of rational numbers, where the search for the digits works with natural numbers only.

* `shortest_holds`: the search finds digits, and they lie in the neighbourhood of the double. Seventeen always suffice:
  a neighbourhood is wider than the unit of the seventeenth digit (`neighbourhood_wide`), and the estimate of the first
  exponent is never too large (`Ratio.ten_zpow_decimalExponent_le`).
* `Legal.unique`: a rational number lies in the neighbourhood of one double only. Where two neighbourhoods meet, one of
  the two mantissas is odd, and its neighbourhood is open.
* `parts_injective`: a double is known by its parts, since there is one NaN.
-/
namespace ScriptTrace

namespace Binary64

/-! ## Ratios -/

namespace Ratio

variable {r : Ratio} {base : Nat}

/-- The number that a ratio stands for. -/
def toRat (r : Ratio) : ℚ := r.num / r.den

theorem toRat_mulPow (r : Ratio) (h : 0 < base) (e : Int) : (r.mulPow base e).toRat = r.toRat * (base : ℚ) ^ e := by
  have hb : (base : ℚ) ≠ 0 := by exact_mod_cast h.ne'
  cases e with
  | ofNat e =>
    simp only [mulPow, toRat, Nat.pow_eq, Int.ofNat_eq_natCast, zpow_natCast]
    push_cast
    ring
  | negSucc e =>
    simp only [mulPow, toRat, Nat.pow_eq, zpow_negSucc]
    push_cast
    field_simp

theorem den_mulPow_pos (hr : 0 < r.den) (h : 0 < base) (e : Int) : 0 < (r.mulPow base e).den := by
  cases e with
  | ofNat e => exact hr
  | negSucc e => exact Nat.mul_pos hr (Nat.pow_pos h)

theorem mul_num_le_iff (hr : 0 < r.den) (a b : Nat) : a * r.num ≤ b * r.den ↔ (a : ℚ) * r.toRat ≤ b := by
  have hd : (0 : ℚ) < r.den := by exact_mod_cast hr
  rw [toRat, ← mul_div_assoc, div_le_iff₀ hd]
  exact_mod_cast Iff.rfl

theorem le_mul_num_iff (hr : 0 < r.den) (a b : Nat) : b * r.den ≤ a * r.num ↔ (b : ℚ) ≤ a * r.toRat := by
  have hd : (0 : ℚ) < r.den := by exact_mod_cast hr
  rw [toRat, ← mul_div_assoc, le_div_iff₀ hd]
  exact_mod_cast Iff.rfl

theorem reaches_iff (hr : 0 < r.den) (e : Int) : r.reaches e = true ↔ (10 : ℚ) ^ e ≤ r.toRat := by
  have hd : 0 < (r.mulPow 10 (-e)).den := den_mulPow_pos hr (by decide) (-e)
  have scaled := le_mul_num_iff hd 1 1
  rw [Nat.one_mul, Nat.one_mul, Nat.cast_one, one_mul, toRat_mulPow r (by decide), zpow_neg] at scaled
  have hp : (0 : ℚ) < 10 ^ e := by positivity
  rw [reaches, decide_eq_true_iff, scaled]
  push_cast
  rw [← div_eq_mul_inv, le_div_iff₀ hp, one_mul]

end Ratio

/-! ## Neighbourhoods -/

namespace Neighbourhood

variable {n : Neighbourhood} {x y z : ℚ}

/-- Whether a decimal reads back as the middle. -/
def Holds (n : Neighbourhood) (x : ℚ) : Prop :=
  if n.closed then n.low * n.unit.toRat ≤ x ∧ x ≤ n.high * n.unit.toRat
  else n.low * n.unit.toRat < x ∧ x < n.high * n.unit.toRat

theorem Holds.le (h : n.Holds x) : n.low * n.unit.toRat ≤ x ∧ x ≤ n.high * n.unit.toRat := by
  unfold Holds at h
  split at h
  · exact h
  · exact ⟨h.1.le, h.2.le⟩

theorem holds_of_lt (low : n.low * n.unit.toRat < x) (high : x < n.high * n.unit.toRat) : n.Holds x := by
  unfold Holds
  split
  · exact ⟨low.le, high.le⟩
  · exact ⟨low, high⟩

theorem Holds.between (hx : n.Holds x) (hz : n.Holds z) (hxy : x ≤ y) (hyz : y ≤ z) : n.Holds y := by
  unfold Holds at *
  split at hx
  · rename_i c
    rw [if_pos c] at *
    exact ⟨hx.1.trans hxy, hyz.trans hz.2⟩
  · rename_i c
    rw [if_neg c] at *
    exact ⟨hx.1.trans_le hxy, hyz.trans_lt hz.2⟩

theorem admits_iff (hu : 0 < n.unit.den) (p : Int) (c : Nat) :
    n.admits (n.unit.mulPow 10 (-p)) c = true ↔ n.Holds (c * 10 ^ p) := by
  have hd : 0 < (n.unit.mulPow 10 (-p)).den := Ratio.den_mulPow_pos hu (by decide) (-p)
  have hp : (0 : ℚ) < 10 ^ p := by positivity
  have scale (a : Nat) : (a : ℚ) * (n.unit.mulPow 10 (-p)).toRat = a * n.unit.toRat / 10 ^ p := by
    rw [Ratio.toRat_mulPow _ (by decide), zpow_neg]
    push_cast
    field_simp
  have low := Ratio.mul_num_le_iff hd n.low c
  have high := Ratio.le_mul_num_iff hd n.high c
  have low' := Ratio.le_mul_num_iff hd n.low c
  have high' := Ratio.mul_num_le_iff hd n.high c
  rw [scale] at low high low' high'
  rw [div_le_iff₀ hp] at low high'
  rw [le_div_iff₀ hp] at high low'
  unfold admits Holds
  split
  · rw [Bool.and_eq_true, decide_eq_true_iff, decide_eq_true_iff, low, high]
  · rw [Bool.and_eq_true, decide_eq_true_iff, decide_eq_true_iff, ← not_le, ← not_le, low', high', not_le, not_le]

/-- What is found on a grid reads back. -/
theorem holds_of_onGrid (hu : 0 < n.unit.den) {p : Int} {c : Nat} (h : n.onGrid? p = some c) :
    n.Holds (c * 10 ^ p) := by
  rw [← admits_iff hu]
  unfold onGrid? at h
  simp only at h
  split at h
  · cases h
  · rename_i below _
    cases h
    exact below
  · rename_i _ above
    cases h
    exact above
  · rename_i below above
    simp only [Option.some.injEq] at h
    subst h
    split
    · exact below
    · split
      · exact above
      · split
        · exact below
        · exact above

/-- A grid that has a decimal that reads back has one next to the middle. -/
theorem onGrid_isSome (hu : 0 < n.unit.den) (middle : n.Holds (n.middle * n.unit.toRat)) {p : Int} {c : Nat}
    (h : n.Holds (c * 10 ^ p)) : n.onGrid? p ≠ none := by
  intro none
  have hd : 0 < (n.unit.mulPow 10 (-p)).den := Ratio.den_mulPow_pos hu (by decide) (-p)
  have hp : (0 : ℚ) < 10 ^ p := by positivity
  have exact : (n.middle : ℚ) * (n.unit.mulPow 10 (-p)).toRat * 10 ^ p = n.middle * n.unit.toRat := by
    rw [Ratio.toRat_mulPow _ (by decide), zpow_neg]
    push_cast
    field_simp
  set scale := n.unit.mulPow 10 (-p) with hscale
  set below := n.middle * scale.num / scale.den with hbelow
  have under : (below : ℚ) * 10 ^ p ≤ n.middle * n.unit.toRat := by
    rw [← exact]
    gcongr
    exact (Ratio.le_mul_num_iff hd _ _).1 (Nat.div_mul_le_self _ _)
  have beyond : n.middle * n.unit.toRat ≤ ((below + 1 : Nat) : ℚ) * 10 ^ p := by
    rw [← exact]
    gcongr
    exact (Ratio.mul_num_le_iff hd _ _).1 (Nat.lt_mul_of_div_lt (Nat.lt_succ_self _) hd).le
  have found : n.admits scale below = true ∨ n.admits scale (below + 1) = true := by
    rw [hscale, admits_iff hu, admits_iff hu]
    rcases Nat.lt_or_ge below c with hc | hc
    · exact .inr (middle.between h beyond (by gcongr; exact hc))
    · exact .inl (h.between middle (by gcongr) under)
  unfold onGrid? at none
  simp only [← hscale, ← hbelow] at none
  rcases found with f | f
  · simp only [f] at none
    split at none <;> simp_all
  · simp only [f] at none
    split at none <;> simp_all

/-- A grid finer than the neighbourhood has a decimal in it. -/
theorem exists_on_grid {p : Int} (low : 0 ≤ n.low * n.unit.toRat)
    (fine : n.low * n.unit.toRat + 10 ^ p < n.high * n.unit.toRat) : ∃ c : Nat, n.Holds (c * 10 ^ p) := by
  have hp : (0 : ℚ) < 10 ^ p := by positivity
  refine ⟨⌊n.low * n.unit.toRat / 10 ^ p⌋₊ + 1, holds_of_lt ?_ (lt_of_le_of_lt ?_ fine)⟩
  · rw [← div_lt_iff₀ hp]
    exact_mod_cast Nat.lt_floor_add_one (n.low * n.unit.toRat / 10 ^ p)
  · have floor := Nat.floor_le (div_nonneg low hp.le)
    rw [le_div_iff₀ hp] at floor
    push_cast
    linarith

end Neighbourhood

/-! ## Powers of ten and two -/

/-- Ten to a power is below two to another, if the exponents are far enough apart. -/
theorem ten_zpow_le_two_zpow {a b : Int} (h : 0 ≤ b ∧ 196 * a ≤ 59 * b ∨ b ≤ 0 ∧ 93 * a ≤ 28 * b) :
    (10 : ℚ) ^ a ≤ 2 ^ b := by
  -- both sides are raised to a power that makes a whole number of the exponent of ten
  have root {k : Nat} (hk : k ≠ 0) (le : ((10 : ℚ) ^ a) ^ k ≤ (2 ^ b) ^ k) : (10 : ℚ) ^ a ≤ 2 ^ b :=
    le_of_pow_le_pow_left₀ hk (by positivity) le
  rcases h with ⟨hb, h⟩ | ⟨hb, h⟩
  · refine root (k := 196) (by decide) ?_
    calc ((10 : ℚ) ^ a) ^ 196 = 10 ^ (196 * a) := by rw [← zpow_natCast, ← zpow_mul, mul_comm]; rfl
      _ ≤ 10 ^ (59 * b) := zpow_le_zpow_right₀ (by norm_num) h
      _ = (10 ^ 59) ^ b := by rw [zpow_mul]; rfl
      _ ≤ (2 ^ 196) ^ b := by
        obtain ⟨k, rfl⟩ := Int.eq_ofNat_of_zero_le hb
        rw [zpow_natCast, zpow_natCast]
        exact pow_le_pow_left₀ (by norm_num) (by norm_num) k
      _ = (2 ^ b) ^ 196 := by rw [← zpow_natCast, ← zpow_natCast, ← zpow_mul, ← zpow_mul, mul_comm]
  · refine root (k := 93) (by decide) ?_
    calc ((10 : ℚ) ^ a) ^ 93 = 10 ^ (93 * a) := by rw [← zpow_natCast, ← zpow_mul, mul_comm]; rfl
      _ ≤ 10 ^ (28 * b) := zpow_le_zpow_right₀ (by norm_num) h
      _ = (10 ^ 28) ^ b := by rw [zpow_mul]; rfl
      _ ≤ (2 ^ 93) ^ b := by
        obtain ⟨k, hk⟩ := Int.eq_ofNat_of_zero_le (Int.neg_nonneg.2 hb)
        obtain rfl : b = -k := by omega
        rw [zpow_neg, zpow_neg, zpow_natCast, zpow_natCast]
        exact inv_anti₀ (by positivity) (pow_le_pow_left₀ (by norm_num) (by norm_num) k)
      _ = (2 ^ b) ^ 93 := by rw [← zpow_natCast, ← zpow_natCast, ← zpow_mul, ← zpow_mul, mul_comm]

/-- A ratio is no less than the power of two that its logarithms give. -/
theorem Ratio.two_zpow_le {r : Ratio} (hn : r.num ≠ 0) (hd : 0 < r.den) :
    (2 : ℚ) ^ ((r.num.log2 : Int) - r.den.log2 - 1) ≤ r.toRat := by
  have num : ((2 ^ r.num.log2 : Nat) : ℚ) ≤ r.num := by exact_mod_cast Nat.log2_self_le hn
  have den : (r.den : ℚ) ≤ ((2 ^ (r.den.log2 + 1) : Nat) : ℚ) := by exact_mod_cast Nat.lt_log2_self.le
  have pos : (0 : ℚ) < r.den := by exact_mod_cast hd
  calc (2 : ℚ) ^ ((r.num.log2 : Int) - r.den.log2 - 1)
      = ((2 ^ r.num.log2 : Nat) : ℚ) / ((2 ^ (r.den.log2 + 1) : Nat) : ℚ) := by
        rw [sub_sub, zpow_sub₀ two_ne_zero]
        push_cast
        norm_cast
    _ ≤ r.toRat := by
      unfold toRat
      gcongr

/-- The exponent of the first digit is not too large. -/
theorem Ratio.ten_zpow_decimalExponent_le {r : Ratio} (hn : r.num ≠ 0) (hd : 0 < r.den)
    (small : r.num.log2 ≤ 10000) (large : r.den.log2 ≤ 10000) : (10 : ℚ) ^ r.decimalExponent ≤ r.toRat := by
  unfold decimalExponent
  set guess := (((r.num.log2 : Int) - r.den.log2) * 30103).fdiv 100000 with hg
  simp only
  split
  · rename_i h
    exact (reaches_iff hd _).1 h
  · split
    · rename_i h
      exact (reaches_iff hd _).1 h
    · refine le_trans (ten_zpow_le_two_zpow ?_) (two_zpow_le hn hd)
      rw [Int.fdiv_eq_ediv_of_nonneg _ (by decide)] at hg
      omega

/-! ## Values of digits -/

/-- What digits stand for, the first of them at a power of ten. -/
def leading : List Nat → Int → ℚ
  | [], _ => 0
  | d :: ds, e => d * 10 ^ e + leading ds (e - 1)

theorem leading_append (as bs : List Nat) (e : Int) :
    leading (as ++ bs) e = leading as e + leading bs (e - as.length) := by
  induction as generalizing e with
  | nil => simp [leading]
  | cons d as ih =>
    rw [List.cons_append, leading, leading, ih, List.length_cons]
    push_cast
    rw [show e - 1 - (as.length : Int) = e - (as.length + 1) by omega, add_assoc]

theorem leading_shift (ds : List Nat) (e k : Int) : leading ds (e + k) = leading ds e * 10 ^ k := by
  induction ds generalizing e with
  | nil => simp [leading]
  | cons d ds ih =>
    rw [leading, leading, show e + k - 1 = e - 1 + k by omega, ih, zpow_add₀ (by norm_num : (10 : ℚ) ≠ 0)]
    ring

@[simp] theorem leading_replicate_zero (n : Nat) (e : Int) : leading (List.replicate n 0) e = 0 := by
  induction n generalizing e with
  | zero => rfl
  | succ n ih => simp [List.replicate_succ, leading, ih]

theorem leading_eq_inOrder (ds : List Nat) : leading ds (ds.length - 1) = Digits.inOrder 10 ds := by
  induction ds using List.reverseRecOn with
  | nil => simp [leading, Digits.inOrder]
  | append_singleton ds d ih =>
    have shift := leading_shift ds (ds.length - 1) 1
    rw [ih, Int.sub_add_cancel] at shift
    rw [leading_append, Digits.inOrder_append, List.length_append]
    simp only [List.length_singleton, Nat.cast_add, Nat.cast_one, Int.add_sub_cancel, shift, Int.sub_self]
    simp [leading, Digits.inOrder]

/-- The number that digits spell with their exponent. -/
def Digits.value (d : Digits) : ℚ := leading d.digits d.exponent

theorem inOrder_decimalDigits (n : Nat) : Digits.inOrder 10 (decimalDigits n) = n := by
  rw [Digits.inOrder, decimalDigits, List.foldl_map]
  exact Nat.ofDigitChars_eq_foldl.symm.trans Nat.ofDigitChars_ten_toDigits

theorem dropZeros_append (ds : List Nat) : ∃ k, ds = dropZeros ds ++ List.replicate k 0 := by
  have zeros : ds.reverse.takeWhile (· == 0) = List.replicate (ds.reverse.takeWhile (· == 0)).length 0 :=
    List.eq_replicate_of_mem fun d hd => by
      simpa using List.all_eq_true.1 List.all_takeWhile d hd
  refine ⟨(ds.reverse.takeWhile (· == 0)).length, ?_⟩
  rw [dropZeros, ← List.reverse_replicate, ← zeros, ← List.reverse_append, List.takeWhile_append_dropWhile,
    List.reverse_reverse]

theorem leading_dropZeros (ds : List Nat) (e : Int) : leading (dropZeros ds) e = leading ds e := by
  obtain ⟨k, split⟩ := dropZeros_append ds
  conv_rhs => rw [split, leading_append, leading_replicate_zero, add_zero]

/-! ## The shortest digits read back -/

/-- The mantissas and exponents of finite doubles. -/
structure Legal (m : Nat) (e : Int) : Prop where
  small : m < Nat.pow 2 53
  least : -1074 ≤ e
  most : e ≤ 971
  full : Nat.pow 2 52 ≤ m ∨ e = -1074

variable {m m' : Nat} {e e' : Int}

theorem neighbourhood_unit (m : Nat) (e : Int) : (neighbourhood m e).unit.toRat = 2 ^ (e - 2) := by
  rw [neighbourhood, Ratio.toRat_mulPow _ (by decide)]
  simp [Ratio.toRat]

theorem neighbourhood_den_pos (m : Nat) (e : Int) : 0 < (neighbourhood m e).unit.den :=
  Ratio.den_mulPow_pos (by decide) (by decide) _

theorem neighbourhood_low (m : Nat) (e : Int) :
    4 * m ≤ (neighbourhood m e).low + 2 ∧ (neighbourhood m e).low ≤ 4 * m := by
  simp only [neighbourhood]
  split <;> omega

/-- The neighbourhood of a double is wider than the unit of its seventeenth digit. -/
theorem neighbourhood_wide (h : Legal m e) :
    4 * m < ((neighbourhood m e).high - (neighbourhood m e).low) * Nat.pow 10 16 := by
  have small : m < 2 ^ 53 := h.small
  simp only [neighbourhood, Nat.pow_eq]
  split <;> omega

/-- The double itself as a ratio. -/
theorem neighbourhood_ratio (h : Legal m e) (hm : 0 < m) :
    let r := (neighbourhood m e).unit.mul (neighbourhood m e).middle
    r.num ≠ 0 ∧ 0 < r.den ∧ r.num.log2 ≤ 10000 ∧ r.den.log2 ≤ 10000 ∧ r.toRat = (4 * m : Nat) * 2 ^ (e - 2) := by
  intro r
  have value : r.toRat = (4 * m : Nat) * 2 ^ (e - 2) := by
    rw [← neighbourhood_unit m]
    simp only [r, Ratio.toRat, Ratio.mul, neighbourhood]
    push_cast
    ring
  have log {n k : Nat} (hn : 0 < n) (lt : n < 2 ^ k) (hk : k ≤ 10001) : n.log2 ≤ 10000 := by
    have := (Nat.log2_lt hn.ne').2 lt
    omega
  have small : 4 * m < 2 ^ 55 := by
    have := h.small
    simp only [Nat.pow_eq] at this
    omega
  obtain ⟨least, most⟩ := And.intro h.least h.most
  rcases hu : e - 2 with k | k
  · have num : r.num = 2 ^ k * (4 * m) := by simp [r, Ratio.mul, neighbourhood, Ratio.mulPow, hu]
    have den : r.den = 1 := by simp [r, Ratio.mul, neighbourhood, Ratio.mulPow, hu]
    have pos : 0 < r.num := by rw [num]; positivity
    have bound : r.num < 2 ^ (k + 55) := by
      rw [num, pow_add]
      exact Nat.mul_lt_mul_of_pos_left small (by positivity)
    have exponent : e - 2 = (k : Int) := hu
    refine ⟨pos.ne', by omega, log pos bound (by omega), ?_, hu ▸ value⟩
    rw [den]
    decide
  · have num : r.num = 4 * m := by simp [r, Ratio.mul, neighbourhood, Ratio.mulPow, hu]
    have den : r.den = 2 ^ (k + 1) := by simp [r, Ratio.mul, neighbourhood, Ratio.mulPow, hu]
    have pos : 0 < r.num := by omega
    refine ⟨pos.ne', by rw [den]; positivity, log pos (num ▸ small) (by decide), ?_, hu ▸ value⟩
    rw [den, Nat.log2_two_pow]
    omega

theorem neighbourhood_holds_middle (hm : 0 < m) (e : Int) :
    (neighbourhood m e).Holds ((neighbourhood m e).middle * (neighbourhood m e).unit.toRat) := by
  have hu : (0 : ℚ) < (neighbourhood m e).unit.toRat := by rw [neighbourhood_unit]; positivity
  have low : (neighbourhood m e).low < (neighbourhood m e).middle := by
    simp only [neighbourhood]
    split <;> omega
  have high : (neighbourhood m e).middle < (neighbourhood m e).high := by simp [neighbourhood]
  refine Neighbourhood.holds_of_lt ?_ ?_ <;> gcongr

/-- Seventeen digits suffice. -/
theorem onGrid_seventeen (h : Legal m e) (hm : 0 < m) :
    let n := neighbourhood m e
    n.onGrid? ((n.unit.mul n.middle).decimalExponent - 16) ≠ none := by
  intro n
  obtain ⟨hn, hd, small, large, value⟩ := neighbourhood_ratio h hm
  have first := Ratio.ten_zpow_decimalExponent_le hn hd small large
  set p := (n.unit.mul n.middle).decimalExponent with hp
  rw [value] at first
  have wide := neighbourhood_wide h
  have hu : (0 : ℚ) < 2 ^ (e - 2) := by positivity
  have fine : (n.low : ℚ) * n.unit.toRat + 10 ^ (p - 16) < n.high * n.unit.toRat := by
    have step : (10 : ℚ) ^ (p - 16) = 10 ^ p / 10 ^ 16 := by rw [zpow_sub₀ (by norm_num)]; rfl
    have wider : ((4 * m : Nat) : ℚ) < ((n.high : ℚ) - n.low) * 10 ^ 16 := by
      have le : n.low ≤ n.high := by
        have := (neighbourhood_low m e).2
        simp only [n, neighbourhood] at this ⊢
        omega
      rw [← Nat.cast_sub le]
      exact_mod_cast wide
    have unit : n.unit.toRat = 2 ^ (e - 2) := neighbourhood_unit m e
    rw [step, unit, ← lt_sub_iff_add_lt', ← sub_mul, div_lt_iff₀ (by positivity)]
    calc (10 : ℚ) ^ p ≤ (4 * m : Nat) * 2 ^ (e - 2) := first
      _ < ((n.high : ℚ) - n.low) * 10 ^ 16 * 2 ^ (e - 2) := by gcongr
      _ = ((n.high : ℚ) - n.low) * 2 ^ (e - 2) * 10 ^ 16 := by ring
  have low : 0 ≤ (n.low : ℚ) * n.unit.toRat := by rw [neighbourhood_unit]; positivity
  obtain ⟨c, hc⟩ := Neighbourhood.exists_on_grid low fine
  exact Neighbourhood.onGrid_isSome (neighbourhood_den_pos m e) (neighbourhood_holds_middle hm e) hc

theorem value_of_grid (c : Nat) (p : Int) :
    leading (dropZeros (decimalDigits c)) (p + (decimalDigits c).length - 1) = c * 10 ^ p := by
  rw [leading_dropZeros, show p + ((decimalDigits c).length : Int) - 1 = (decimalDigits c).length - 1 + p by omega,
    leading_shift, leading_eq_inOrder, inOrder_decimalDigits]

/-- The shortest digits read back. -/
theorem shortest_holds (h : Legal m e) (hm : 0 < m) : (neighbourhood m e).Holds (shortest m e).value := by
  unfold shortest
  simp only
  have seventeen := onGrid_seventeen h hm
  set n := neighbourhood m e with hn
  set first := (n.unit.mul n.middle).decimalExponent with hfirst
  generalize found : (List.range 17).findSome? _ = digits?
  cases digits? with
  | none =>
    have last := List.findSome?_eq_none_iff.1 found 16 (by decide)
    simp only [Option.map_eq_none_iff] at last
    exact absurd last seventeen
  | some d =>
    obtain ⟨k, -, attempt⟩ := List.exists_of_findSome?_eq_some found
    obtain ⟨c, grid, rfl⟩ := Option.map_eq_some_iff.1 attempt
    have holds := Neighbourhood.holds_of_onGrid (neighbourhood_den_pos m e) grid
    rw [← value_of_grid] at holds
    exact holds

/-! ## Neighbourhoods are apart -/

/-- Of two neighbourhoods, one after the other, at most one holds the point where they meet. -/
theorem Neighbourhood.Holds.apart {n n' : Neighbourhood} {x : ℚ} (h : n.Holds x) (h' : n'.Holds x)
    (order : n.high * n.unit.toRat ≤ n'.low * n'.unit.toRat)
    (sharp : n.high * n.unit.toRat < n'.low * n'.unit.toRat ∨ n.closed = false ∨ n'.closed = false) : False := by
  rcases sharp with lt | odd | odd
  · linarith [h.le.2, h'.le.1]
  · simp only [Holds, odd, Bool.false_eq_true, if_false] at h
    linarith [h.2, h'.le.1]
  · simp only [Holds, odd, Bool.false_eq_true, if_false] at h'
    linarith [h.le.2, h'.1]

theorem neighbourhood_pos (hm : 0 < m) {x : ℚ} (h : (neighbourhood m e).Holds x) : 0 < x := by
  have low : 0 < (neighbourhood m e).low := by
    have := (neighbourhood_low m e).1
    omega
  have hu : (0 : ℚ) < (neighbourhood m e).unit.toRat := by rw [neighbourhood_unit]; positivity
  exact lt_of_lt_of_le (by positivity) h.le.1

/-- The doubles of one exponent: of two mantissas in a row one is odd. -/
theorem not_holds_of_mantissa_lt (lt : m < m') {x : ℚ} (h : (neighbourhood m e).Holds x)
    (h' : (neighbourhood m' e).Holds x) : False := by
  have hu : (0 : ℚ) < 2 ^ (e - 2) := by positivity
  have low := (neighbourhood_low m' e).1
  have high : (neighbourhood m e).high = 4 * m + 2 := rfl
  refine h.apart h' ?_ ?_
  · rw [neighbourhood_unit, neighbourhood_unit]
    gcongr
    omega
  · rw [neighbourhood_unit, neighbourhood_unit]
    rcases Nat.lt_or_ge (m + 1) m' with far | near
    · left
      gcongr
      omega
    · right
      simp only [neighbourhood, beq_eq_false_iff_ne]
      omega

/-- The doubles of different exponents: the last mantissa of the lower one is odd. -/
theorem not_holds_of_exponent_lt (hl : Legal m e) (hl' : Legal m' e') (lt : e < e') {x : ℚ}
    (h : (neighbourhood m e).Holds x) (h' : (neighbourhood m' e').Holds x) : False := by
  have hu : (0 : ℚ) < 2 ^ (e - 2) := by positivity
  have small : m < 2 ^ 53 := hl.small
  have least := hl.least
  have full : 2 ^ 52 ≤ m' := by
    rcases hl'.full with full | bottom
    · exact full
    · omega
  have low : 2 ^ 54 - 1 ≤ (neighbourhood m' e').low := by
    simp only [neighbourhood, Nat.pow_eq]
    split <;> omega
  have double : (2 : ℚ) * 2 ^ (e - 2) ≤ 2 ^ (e' - 2) := by
    rw [← zpow_one_add₀ two_ne_zero]
    exact zpow_le_zpow_right₀ (by norm_num) (by omega)
  have next : ((2 ^ 55 - 2 : Nat) : ℚ) * 2 ^ (e - 2) ≤
      (neighbourhood m' e').low * (neighbourhood m' e').unit.toRat := by
    rw [neighbourhood_unit]
    calc ((2 ^ 55 - 2 : Nat) : ℚ) * 2 ^ (e - 2) = ((2 ^ 54 - 1 : Nat) : ℚ) * (2 * 2 ^ (e - 2)) := by
          rw [← mul_assoc]
          norm_num
      _ ≤ (neighbourhood m' e').low * 2 ^ (e' - 2) := by gcongr
  have high : (neighbourhood m e).high = 4 * m + 2 := rfl
  refine h.apart h' (le_trans ?_ next) ?_
  · rw [neighbourhood_unit]
    gcongr
    omega
  · rcases Nat.lt_or_ge (m + 1) (2 ^ 53) with far | last
    · refine .inl (lt_of_lt_of_le ?_ next)
      rw [neighbourhood_unit]
      gcongr
      omega
    · right; left
      simp only [neighbourhood, beq_eq_false_iff_ne]
      omega

/-- A decimal reads back as one double only. -/
theorem Legal.unique (hl : Legal m e) (hl' : Legal m' e') {x : ℚ} (h : (neighbourhood m e).Holds x)
    (h' : (neighbourhood m' e').Holds x) : m = m' ∧ e = e' := by
  rcases lt_trichotomy e e' with lt | rfl | gt
  · exact (not_holds_of_exponent_lt hl hl' lt h h').elim
  · rcases lt_trichotomy m m' with lt | rfl | gt
    · exact (not_holds_of_mantissa_lt lt h h').elim
    · exact ⟨rfl, rfl⟩
    · exact (not_holds_of_mantissa_lt gt h' h).elim
  · exact (not_holds_of_exponent_lt hl' hl gt h' h).elim

/-! ## Doubles and their parts -/

/-- What the fields of a word stand for. -/
def Parts.ofFields (negative : Bool) (exponent fraction : Nat) : Parts :=
  if exponent = 2047 then if fraction = 0 then .infinite negative else .nan
  else if exponent = 0 then .finite negative fraction (-1074)
  else .finite negative (2 ^ 52 + fraction) ((exponent : Int) - 1075)

/-- Fields that stand for the same are the same, but for a NaN. -/
theorem Parts.ofFields_inj {negative negative' : Bool} {exponent exponent' fraction fraction' : Nat}
    (hf : fraction < 2 ^ 52) (hf' : fraction' < 2 ^ 52) (nan : ofFields negative exponent fraction ≠ .nan)
    (h : ofFields negative exponent fraction = ofFields negative' exponent' fraction') :
    negative = negative' ∧ exponent = exponent' ∧ fraction = fraction' := by
  unfold ofFields at h nan
  -- The exponents 0 and 1 stand for one power of two; the size of the mantissa tells them apart.
  grind

theorem word_fields (x : Float) : ∃ negative exponent fraction, exponent < 2048 ∧ fraction < 2 ^ 52 ∧
    x.toBits.toNat = 2 ^ 63 * negative.toNat + 2 ^ 52 * exponent + fraction ∧
    parts x = .ofFields negative exponent fraction := by
  have word : x.toBits.toNat < 2 ^ 64 := x.toBits.toNat_lt
  refine ⟨decide (2 ^ 63 ≤ x.toBits.toNat), x.toBits.toNat / 2 ^ 52 % 2 ^ 11, x.toBits.toNat % 2 ^ 52,
    Nat.mod_lt _ (by decide), Nat.mod_lt _ (by decide), ?_, rfl⟩
  by_cases h : 2 ^ 63 ≤ x.toBits.toNat
  · rw [decide_eq_true h, Bool.toNat_true]
    omega
  · rw [decide_eq_false h, Bool.toNat_false]
    omega

theorem legal_of_parts {x : Float} {negative : Bool} (h : parts x = .finite negative m e) :
    Legal m e ∧ (m = 0 → e = -1074) := by
  obtain ⟨sign, exponent, fraction, he, hf, -, hp⟩ := word_fields x
  rw [hp, Parts.ofFields] at h
  split at h
  · split at h <;> cases h
  split at h
  · cases h
    exact ⟨⟨hf.trans (by decide), le_refl _, by decide, .inr rfl⟩, fun _ => rfl⟩
  · cases h
    have small : 2 ^ 52 + fraction < 2 ^ 53 := by omega
    exact ⟨⟨small, by omega, by omega, .inl (Nat.le_add_right _ _)⟩, fun zero => by omega⟩

/-- There is one NaN. -/
theorem toBits_of_nan {x : Float} (h : parts x = .nan) :
    x.toBits.toBitVec = Float.Model.UnpackedFloat.packedNaN .binary64 := by
  have model : x.toBits = x.toModel.toBits := rfl
  obtain ⟨sign, exponent, fraction, he, hf, word, hp⟩ := word_fields x
  rw [hp, Parts.ofFields] at h
  split at h
  · rename_i all
    split at h
    · cases h
    · rename_i some
      refine x.toModel.valid.eq_packedNaN ?_ fun zero => ?_
      · apply BitVec.eq_of_toNat_eq
        have field : x.toModel.toBits.toNat / 2 ^ 52 % 2048 = 2047 := by
          rw [← model]
          omega
        simpa [Float.Model.UnpackedFloat.unpackExponent, Nat.shiftRight_eq_div_pow] using field
      · have field : x.toModel.toBits.toNat % 2 ^ 52 = 0 := by
          simpa [Float.Model.UnpackedFloat.unpackMantissa] using congrArg BitVec.toNat zero
        rw [← model] at field
        omega
  · split at h <;> cases h

/-- A double is known by its parts. -/
theorem parts_injective {x y : Float} (h : parts x = parts y) : x = y := by
  have bits : x.toBits = y.toBits := by
    by_cases nan : parts x = .nan
    · exact UInt64.toBitVec_inj.1 ((toBits_of_nan nan).trans (toBits_of_nan (h ▸ nan)).symm)
    obtain ⟨sign, exponent, fraction, -, hf, word, hp⟩ := word_fields x
    obtain ⟨sign', exponent', fraction', -, hf', word', hp'⟩ := word_fields y
    obtain ⟨rfl, rfl, rfl⟩ := Parts.ofFields_inj hf hf' (hp ▸ nan) (hp ▸ hp' ▸ h)
    exact UInt64.toNat_inj.1 (word.trans word'.symm)
  obtain ⟨⟨b, valid⟩⟩ := x
  obtain ⟨⟨b', valid'⟩⟩ := y
  obtain rfl : b = b' := bits
  rfl

end Binary64

end ScriptTrace
