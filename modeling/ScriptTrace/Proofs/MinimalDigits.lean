import ScriptTrace.Proofs.NumberTexts
/-!
# Shortest digits are shortest

The search for the digits of a double goes from coarse grids of decimals to fine ones and stops at the first that has a
decimal in the neighbourhood of the double. The digits it finds are the **shortest**: no fewer digits read back, and no
others of their number are nearer.

* `Neighbourhood.onGrid_nearest`: what is found on a grid is the nearest decimal on it.
* `Ratio.lt_ten_zpow_decimalExponent`: the estimate of the first exponent is never too small.
* `shortest_isShortest`: no digits do better, also with the first digit at another power of ten.
* `value_shortest_whole`: the digits of a whole number below `2 ^ 53` spell it.
-/
namespace ScriptTrace.Binary64

/-! ## Grids -/

namespace Neighbourhood

variable {n : Neighbourhood} {p : Int} {c : Nat}

/-- There is a unit in terms of which the middle and the decimals on a grid are natural numbers. -/
theorem exists_grid_unit (hu : 0 < n.unit.den) (p : Int) : ∃ u : ℚ, 0 < u ∧
    n.middle * n.unit.toRat = (n.middle * (n.unit.mulPow 10 (-p)).num : Nat) * u ∧
      ∀ k : Nat, (k : ℚ) * 10 ^ p = (k * (n.unit.mulPow 10 (-p)).den : Nat) * u := by
  have scaled : (n.unit.mulPow 10 (-p)).toRat * 10 ^ p = n.unit.toRat := by
    rw [Ratio.toRat_mulPow _ (by decide), zpow_neg]
    push_cast
    field_simp
  have hden : (0 : ℚ) < (n.unit.mulPow 10 (-p)).den := by
    exact_mod_cast Ratio.den_mulPow_pos hu (by decide) (-p)
  refine ⟨10 ^ p / (n.unit.mulPow 10 (-p)).den, by positivity, ?_, fun k => ?_⟩
  · rw [← scaled, Ratio.toRat]
    push_cast
    field_simp
  · push_cast
    field_simp

/-- What is found on a grid is one of the two decimals around the middle, the nearer one if both read back. -/
theorem onGrid_cases (hu : 0 < n.unit.den) (h : n.onGrid? p = some c) :
    let x : ℚ := n.middle * n.unit.toRat
    ∃ b : Nat, b * 10 ^ p ≤ x ∧ x < (b + 1 : Nat) * 10 ^ p ∧
      (c = b ∧ (n.Holds ((b + 1 : Nat) * 10 ^ p) → x - b * 10 ^ p ≤ (b + 1 : Nat) * 10 ^ p - x) ∨
        c = b + 1 ∧ (n.Holds (b * 10 ^ p) → (b + 1 : Nat) * 10 ^ p - x ≤ x - b * 10 ^ p)) := by
  intro x
  have hd : 0 < (n.unit.mulPow 10 (-p)).den := Ratio.den_mulPow_pos hu (by decide) (-p)
  have admits (c : Nat) := n.admits_iff hu p c
  obtain ⟨u, pos, exact, point⟩ := n.exists_grid_unit hu p
  change x = _ at exact
  set scale := n.unit.mulPow 10 (-p) with hscale
  set b := n.middle * scale.num / scale.den with hb
  have below : b * scale.den ≤ n.middle * scale.num := Nat.div_mul_le_self _ _
  have above : n.middle * scale.num < (b + 1) * scale.den := Nat.lt_mul_of_div_lt (Nat.lt_succ_self _) hd
  have down (le : n.middle * scale.num - b * scale.den ≤ (b + 1) * scale.den - n.middle * scale.num) :
      x - b * 10 ^ p ≤ (b + 1 : Nat) * 10 ^ p - x := by
    rw [point, point, exact, ← sub_mul, ← sub_mul, ← Nat.cast_sub below, ← Nat.cast_sub above.le]
    gcongr
  have up (le : (b + 1) * scale.den - n.middle * scale.num ≤ n.middle * scale.num - b * scale.den) :
      (b + 1 : Nat) * 10 ^ p - x ≤ x - b * 10 ^ p := by
    rw [point, point, exact, ← sub_mul, ← sub_mul, ← Nat.cast_sub below, ← Nat.cast_sub above.le]
    gcongr
  refine ⟨b, ?_, ?_, ?_⟩
  · rw [point, exact]
    gcongr
  · rw [point, exact]
    gcongr
  unfold onGrid? at h
  simp only [← hscale, ← hb] at h
  split at h
  · cases h
  · rename_i only
    obtain rfl : b = c := Option.some.inj h
    refine .inl ⟨rfl, fun holds => ?_⟩
    rw [← admits, only] at holds
    cases holds
  · rename_i only _
    obtain rfl : b + 1 = c := Option.some.inj h
    refine .inr ⟨rfl, fun holds => ?_⟩
    rw [← admits, only] at holds
    cases holds
  · simp only [Option.some.injEq] at h
    subst h
    split
    · exact .inl ⟨rfl, fun _ => down (by omega)⟩
    · split
      · exact .inr ⟨rfl, fun _ => up (by omega)⟩
      · split
        · exact .inl ⟨rfl, fun _ => down (by omega)⟩
        · exact .inr ⟨rfl, fun _ => up (by omega)⟩

/-- What is found on a grid is the nearest of the decimals on it that read back. -/
theorem onGrid_nearest (hu : 0 < n.unit.den) (middle : n.Holds (n.middle * n.unit.toRat)) (h : n.onGrid? p = some c)
    (c' : Nat) (holds : n.Holds (c' * 10 ^ p)) :
    |c * 10 ^ p - n.middle * n.unit.toRat| ≤ |c' * 10 ^ p - n.middle * n.unit.toRat| := by
  obtain ⟨b, below, above, found⟩ := onGrid_cases hu h
  set x : ℚ := n.middle * n.unit.toRat
  have hp : (0 : ℚ) < 10 ^ p := by positivity
  have lower : |(b : ℚ) * 10 ^ p - x| = x - b * 10 ^ p := by
    rw [abs_sub_comm, abs_of_nonneg (by linarith)]
  have upper : |((b + 1 : Nat) : ℚ) * 10 ^ p - x| = (b + 1 : Nat) * 10 ^ p - x := abs_of_nonneg (by linarith)
  rcases Nat.lt_or_ge b c' with hc | hc
  · have le : ((b + 1 : Nat) : ℚ) * 10 ^ p ≤ c' * 10 ^ p := by gcongr; exact hc
    rw [abs_of_nonneg (a := (c' : ℚ) * 10 ^ p - x) (by linarith)]
    rcases found with ⟨rfl, nearer⟩ | ⟨rfl, -⟩
    · rw [lower]
      linarith [nearer (middle.between holds above.le le)]
    · rw [upper]
      linarith
  · have le : (c' : ℚ) * 10 ^ p ≤ b * 10 ^ p := by gcongr
    rw [abs_sub_comm (c' * 10 ^ p : ℚ), abs_of_nonneg (a := x - (c' : ℚ) * 10 ^ p) (by linarith)]
    rcases found with ⟨rfl, -⟩ | ⟨rfl, nearer⟩
    · rw [lower]
      linarith
    · rw [upper]
      linarith [nearer (holds.between middle le below)]

end Neighbourhood

/-! ## The first exponent -/

theorem two_zpow_le_ten_zpow {a b : Int} (h : b ≤ 0 ∧ 59 * b ≤ 196 * a ∨ 0 ≤ b ∧ 28 * b ≤ 93 * a) :
    (2 : ℚ) ^ b ≤ 10 ^ a := by
  have inverse : (10 : ℚ) ^ (-a) ≤ 2 ^ (-b) := ten_zpow_le_two_zpow (by omega)
  rw [zpow_neg, zpow_neg] at inverse
  exact (inv_le_inv₀ (by positivity) (by positivity)).1 inverse

theorem Ratio.lt_two_zpow {r : Ratio} (hd : 0 < r.den) :
    r.toRat < 2 ^ ((r.num.log2 : Int) - r.den.log2 + 1) := by
  have num : (r.num : ℚ) < ((2 ^ (r.num.log2 + 1) : Nat) : ℚ) := by exact_mod_cast Nat.lt_log2_self
  have den : ((2 ^ r.den.log2 : Nat) : ℚ) ≤ r.den := by exact_mod_cast Nat.log2_self_le hd.ne'
  have pos : (0 : ℚ) < ((2 ^ r.den.log2 : Nat) : ℚ) := by positivity
  calc r.toRat ≤ r.num / ((2 ^ r.den.log2 : Nat) : ℚ) := by
        unfold toRat
        gcongr
    _ < ((2 ^ (r.num.log2 + 1) : Nat) : ℚ) / ((2 ^ r.den.log2 : Nat) : ℚ) := by gcongr
    _ = 2 ^ ((r.num.log2 : Int) - r.den.log2 + 1) := by
      rw [sub_add_eq_add_sub, zpow_sub₀ two_ne_zero]
      push_cast
      norm_cast

/-- The exponent of the first digit is not too small. -/
theorem Ratio.lt_ten_zpow_decimalExponent {r : Ratio} (hd : 0 < r.den) (small : r.num.log2 ≤ 10000)
    (large : r.den.log2 ≤ 10000) : r.toRat < 10 ^ (r.decimalExponent + 1) := by
  unfold decimalExponent
  set guess := (((r.num.log2 : Int) - r.den.log2) * 30103).fdiv 100000 with hg
  have above (e : Int) (h : ¬r.reaches e = true) : r.toRat < 10 ^ e := by
    rw [reaches_iff hd, not_le] at h
    exact h
  simp only
  split
  · refine lt_of_lt_of_le (lt_two_zpow hd) (two_zpow_le_ten_zpow ?_)
    rw [Int.fdiv_eq_ediv_of_nonneg _ (by decide)] at hg
    omega
  · rename_i next
    split
    · exact above _ next
    · rename_i this
      rw [Int.sub_add_cancel]
      exact above _ this

/-! ## Digits of natural numbers -/

theorem decimalDigits_eq (n : Nat) :
    decimalDigits n = if n < 10 then [n] else decimalDigits (n / 10) ++ [n % 10] := by
  have digit : ∀ d < 10, (Nat.digitChar d).toNat - 48 = d := by decide
  unfold decimalDigits
  rw [Nat.toDigits_eq_if (by decide)]
  split
  · rename_i small
    rw [List.map_singleton, digit n small]
  · rw [List.map_append, List.map_singleton, digit _ (Nat.mod_lt _ (by decide))]

theorem decimalDigits_ne_nil (n : Nat) : decimalDigits n ≠ [] := by
  rw [decimalDigits_eq]
  split <;> simp

theorem length_decimalDigits_le_iff {n k : Nat} (hk : 0 < k) : (decimalDigits n).length ≤ k ↔ n < 10 ^ k := by
  rw [decimalDigits, List.length_map]
  exact Nat.length_toDigits_le_iff (by decide) hk

theorem head?_decimalDigits {n : Nat} (hn : 0 < n) : (decimalDigits n).head? ≠ some 0 := by
  induction n using Nat.strongRecOn with
  | ind n ih =>
    rw [decimalDigits_eq]
    split
    · simp only [List.head?_cons, ne_eq, Option.some.injEq]
      omega
    · rw [List.head?_append_of_ne_nil _ (decimalDigits_ne_nil _)]
      exact ih (n / 10) (by omega) (by omega)

theorem dropZeros_decimalDigits_pow (k : Nat) : dropZeros (decimalDigits (10 ^ k)) = [1] := by
  have digits : decimalDigits (10 ^ k) = 1 :: List.replicate k 0 := by
    induction k with
    | zero => rfl
    | succ k ih =>
      have pos : 0 < 10 ^ k := by positivity
      rw [decimalDigits_eq, pow_succ, if_neg (by omega), Nat.mul_div_cancel _ (by decide), Nat.mul_mod_left, ih,
        List.replicate_succ', List.cons_append]
  rw [digits, dropZeros, List.reverse_cons, List.reverse_replicate, List.dropWhile_append_of_pos (by simp)]
  rfl

theorem inOrder_concat (ds : List Nat) (d : Nat) : Digits.inOrder 10 (ds ++ [d]) = Digits.inOrder 10 ds * 10 + d := by
  rw [Digits.inOrder_append]
  simp [Digits.inOrder]

theorem inOrder_pos {ds : List Nat} (nonempty : ds ≠ []) (first : ds.head? ≠ some 0) : 0 < Digits.inOrder 10 ds := by
  induction ds using List.reverseRecOn with
  | nil => exact absurd rfl nonempty
  | append_singleton ds d ih =>
    rw [inOrder_concat]
    by_cases none : ds = []
    · subst none
      simp only [List.nil_append, List.head?_cons, ne_eq, Option.some.injEq] at first
      omega
    · rw [List.head?_append_of_ne_nil _ none] at first
      have := ih none first
      omega

/-- A natural number has one row of digits without a zero in front. -/
theorem eq_decimalDigits {ds : List Nat} (lt : ∀ d ∈ ds, d < 10) (nonempty : ds ≠ []) (first : ds.head? ≠ some 0) :
    ds = decimalDigits (Digits.inOrder 10 ds) := by
  induction ds using List.reverseRecOn with
  | nil => exact absurd rfl nonempty
  | append_singleton ds d ih =>
    have last : d < 10 := lt d (by simp)
    rw [inOrder_concat, decimalDigits_eq]
    by_cases none : ds = []
    · subst none
      simp [Digits.inOrder, last]
    · rw [List.head?_append_of_ne_nil _ none] at first
      have pos := inOrder_pos none first
      rw [if_neg (by omega), show (Digits.inOrder 10 ds * 10 + d) / 10 = Digits.inOrder 10 ds by omega,
        show (Digits.inOrder 10 ds * 10 + d) % 10 = d by omega, ← ih (fun c hc => lt c (by simp [hc])) none first]

/-! ## Well-formed digits -/

/-- Whether digits are those of a positive number, without zeros in front or behind. -/
structure Digits.WellFormed (d : Digits) : Prop where
  lt : ∀ c ∈ d.digits, c < 10
  nonempty : d.digits ≠ []
  first : d.digits.head? ≠ some 0
  last : d.digits.getLast? ≠ some 0

theorem leading_bounds {ds : List Nat} (lt : ∀ d ∈ ds, d < 10) (e : Int) :
    0 ≤ leading ds e ∧ leading ds e < 10 ^ (e + 1) := by
  induction ds generalizing e with
  | nil => exact ⟨le_refl _, by simp only [leading]; positivity⟩
  | cons d ds ih =>
    obtain ⟨nonneg, below⟩ := ih (fun c hc => lt c (List.mem_cons_of_mem _ hc)) (e - 1)
    rw [Int.sub_add_cancel] at below
    have digit : (d : ℚ) ≤ 9 := by exact_mod_cast Nat.le_of_lt_succ (lt d List.mem_cons_self)
    have hp : (0 : ℚ) < 10 ^ e := by positivity
    rw [leading, zpow_add₀ (by norm_num), zpow_one]
    constructor
    · positivity
    · nlinarith

theorem Digits.value_eq (d : Digits) :
    d.value = Digits.inOrder 10 d.digits * 10 ^ (d.exponent + 1 - d.digits.length) := by
  rw [Digits.value, ← leading_eq_inOrder, ← leading_shift]
  congr 1
  omega

theorem Digits.WellFormed.value_bounds {d : Digits} (h : d.WellFormed) :
    10 ^ d.exponent ≤ d.value ∧ d.value < 10 ^ (d.exponent + 1) := by
  refine ⟨?_, (leading_bounds h.lt _).2⟩
  obtain ⟨ds, e⟩ := d
  obtain ⟨c, rest, rfl⟩ := List.exists_cons_of_ne_nil h.nonempty
  have first : (1 : ℚ) ≤ c := by
    have nonzero : c ≠ 0 := fun zero => h.first (by rw [zero]; rfl)
    exact_mod_cast Nat.one_le_iff_ne_zero.2 nonzero
  have others := (leading_bounds (fun c hc => h.lt c (List.mem_cons_of_mem _ hc)) (e - 1)).1
  have hp : (0 : ℚ) < 10 ^ e := by positivity
  rw [Digits.value, leading]
  nlinarith

/-- The digits of a natural number, without the zeros behind. -/
theorem wellFormed_dropZeros {c : Nat} (hc : 0 < c) (e : Int) : Digits.WellFormed ⟨dropZeros (decimalDigits c), e⟩ := by
  obtain ⟨k, split⟩ := dropZeros_append (decimalDigits c)
  have nonempty : dropZeros (decimalDigits c) ≠ [] := by
    intro none
    have zero := inOrder_decimalDigits c
    rw [split, none, List.nil_append, ← List.append_nil (List.replicate k 0), Number.inOrder_padded] at zero
    exact hc.ne zero
  refine ⟨fun d hd => ?_, nonempty, ?_, ?_⟩
  · refine Number.decimalDigits_lt c d ?_
    rw [split]
    exact List.mem_append_left _ hd
  · have first := head?_decimalDigits hc
    rw [split, List.head?_append_of_ne_nil _ nonempty] at first
    exact first
  · intro zero
    have stop := List.head?_dropWhile_not (· == 0) (decimalDigits c).reverse
    rw [dropZeros, List.getLast?_reverse] at zero
    rw [zero] at stop
    cases stop

/-! ## The search -/

section Search

variable {m : Nat} {e : Int}

/-- The first grid on which the search finds a decimal. -/
theorem shortest_found (h : Legal m e) (hm : 0 < m) :
    let n := neighbourhood m e
    let first := (n.unit.mul n.middle).decimalExponent
    ∃ k c : Nat, (∀ j < k, n.onGrid? (first - j) = none) ∧ n.onGrid? (first - k) = some c ∧
      shortest m e = ⟨dropZeros (decimalDigits c), first - k + (decimalDigits c).length - 1⟩ := by
  intro n first
  have seventeen := onGrid_seventeen h hm
  unfold shortest
  simp only
  generalize found : (List.range 17).findSome? _ = digits?
  cases digits? with
  | none =>
    have last := List.findSome?_eq_none_iff.1 found 16 (by decide)
    simp only [Option.map_eq_none_iff] at last
    exact absurd last seventeen
  | some d =>
    obtain ⟨before, k, after, range, attempt, failed⟩ := List.findSome?_eq_some_iff.1 found
    obtain ⟨c, grid, rfl⟩ := Option.map_eq_some_iff.1 attempt
    refine ⟨k, c, fun j hj => ?_, grid, rfl⟩
    have mem : j ∈ before := by
      rw [List.range_eq_range', List.range'_eq_append_iff] at range
      obtain ⟨i, hi, rfl, rest⟩ := range
      have here : k = 0 + i * 1 := by
        have head := congrArg List.head? rest
        rw [List.head?_cons, List.head?_range'] at head
        split at head
        · cases head
        · exact Option.some.inj head
      simp only [List.mem_range'_1]
      omega
    simpa using failed j mem

theorem neighbourhood_middle (m : Nat) (e : Int) :
    ((neighbourhood m e).middle : ℚ) * (neighbourhood m e).unit.toRat = m * 2 ^ e := by
  rw [neighbourhood_unit, zpow_sub₀ two_ne_zero]
  simp only [neighbourhood]
  push_cast
  ring

/-- What reads back is within half a unit in the last place. -/
theorem abs_sub_le_of_holds {x : ℚ} (holds : (neighbourhood m e).Holds x) : |x - m * 2 ^ e| ≤ 2 ^ (e - 1) := by
  obtain ⟨low, high⟩ := holds.le
  have hu : (0 : ℚ) < 2 ^ (e - 2) := by positivity
  have half : (2 : ℚ) ^ (e - 1) = 2 * 2 ^ (e - 2) := by
    rw [show e - 1 = 1 + (e - 2) by omega, zpow_add₀ two_ne_zero, zpow_one]
  have least : (4 * m : ℚ) ≤ (neighbourhood m e).low + 2 := by exact_mod_cast (neighbourhood_low m e).1
  have most : ((neighbourhood m e).high : ℚ) = 4 * m + 2 := by simp [neighbourhood]
  rw [neighbourhood_unit] at low high
  rw [most] at high
  rw [← neighbourhood_middle, neighbourhood_unit, half, abs_le]
  simp only [neighbourhood] at *
  push_cast
  constructor <;> nlinarith

/-- What the search has found, in terms of the double: the power of ten at its first digit, the number of digits behind
that one, and the digits as a natural number. -/
structure Found (m : Nat) (e first : Int) (k c : Nat) : Prop where
  least : 10 ^ first ≤ (m : ℚ) * 2 ^ e
  most : (m : ℚ) * 2 ^ e < 10 ^ (first + 1)
  middle : (neighbourhood m e).Holds (m * 2 ^ e)
  coarser : ∀ j < k, ∀ c' : Nat, ¬(neighbourhood m e).Holds (c' * 10 ^ (first - j))
  holds : (neighbourhood m e).Holds (c * 10 ^ (first - k))
  nearest : ∀ c' : Nat, (neighbourhood m e).Holds (c' * 10 ^ (first - k)) →
    |c * 10 ^ (first - k) - (m : ℚ) * 2 ^ e| ≤ |c' * 10 ^ (first - k) - (m : ℚ) * 2 ^ e|
  enough : 10 ^ k ≤ c
  few : c ≤ 10 ^ (k + 1)
  digits : shortest m e = ⟨dropZeros (decimalDigits c), first - k + (decimalDigits c).length - 1⟩

theorem exists_found (h : Legal m e) (hm : 0 < m) : ∃ first k c, Found m e first k c := by
  obtain ⟨hn, hd, small, large, value⟩ := neighbourhood_ratio h hm
  obtain ⟨k, c, coarser, found, digits⟩ := shortest_found h hm
  have least := Ratio.ten_zpow_decimalExponent_le hn hd small large
  have most := Ratio.lt_ten_zpow_decimalExponent hd small large
  have hu := neighbourhood_den_pos m e
  have middle := neighbourhood_holds_middle hm e
  have exact := neighbourhood_middle m e
  obtain ⟨b, below, above, choice⟩ := Neighbourhood.onGrid_cases hu found
  have nearest := Neighbourhood.onGrid_nearest hu middle found
  rw [exact] at below above nearest
  have same : ((4 * m : Nat) : ℚ) * 2 ^ (e - 2) = m * 2 ^ e := by
    rw [← exact, neighbourhood_unit]
    rfl
  rw [value, same] at least most
  set first := ((neighbourhood m e).unit.mul (neighbourhood m e).middle).decimalExponent
  have hp : (0 : ℚ) < 10 ^ (first - k) := by positivity
  have scale {i : Int} (j : Nat) (hi : i = first - k + j) : (10 : ℚ) ^ i = (10 ^ j : Nat) * 10 ^ (first - k) := by
    rw [hi, zpow_add₀ (by norm_num), zpow_natCast, mul_comm]
    push_cast
    rfl
  have low : 10 ^ k < b + 1 := by
    have lt := lt_of_le_of_lt least above
    rw [scale (i := first) k (by omega), mul_lt_mul_iff_left₀ hp] at lt
    exact_mod_cast lt
  have high : b < 10 ^ (k + 1) := by
    have lt := lt_of_le_of_lt below most
    rw [scale (i := first + 1) (k + 1) (by omega), mul_lt_mul_iff_left₀ hp] at lt
    exact_mod_cast lt
  refine ⟨first, k, c, least, most, exact ▸ middle, fun j hj c' holds => ?_, Neighbourhood.holds_of_onGrid hu found,
    nearest, ?_, ?_, digits⟩
  · exact Neighbourhood.onGrid_isSome hu middle holds (coarser j hj)
  · rcases choice with ⟨rfl, -⟩ | ⟨rfl, -⟩ <;> omega
  · rcases choice with ⟨rfl, -⟩ | ⟨rfl, -⟩ <;> omega

/-- Whether digits are the shortest that read back as a double, and of these the nearest to it. -/
structure Digits.IsShortest (d : Digits) (m : Nat) (e : Int) : Prop extends d.WellFormed where
  readsBack : (neighbourhood m e).Holds d.value
  fewest (d' : Digits) : d'.WellFormed → (neighbourhood m e).Holds d'.value → d.digits.length ≤ d'.digits.length
  nearest (d' : Digits) : d'.WellFormed → (neighbourhood m e).Holds d'.value →
    d'.digits.length = d.digits.length → |d.value - m * 2 ^ e| ≤ |d'.value - m * 2 ^ e|

namespace Found

variable {first : Int} {k c : Nat} (f : Found m e first k c)

include f

theorem pos : 0 < c :=
  lt_of_lt_of_le (by positivity) f.enough

theorem value_eq : (shortest m e).value = c * 10 ^ (first - k) := by
  rw [f.digits]
  exact value_of_grid c _

theorem wellFormed : (shortest m e).WellFormed := by
  rw [f.digits]
  exact wellFormed_dropZeros f.pos _

/-- Rounding moves the first digit up, if at all. -/
theorem first_le_exponent : first ≤ (shortest m e).exponent := by
  have long : ¬(decimalDigits c).length ≤ k := by
    intro short
    rcases Nat.eq_zero_or_pos k with rfl | hk
    · exact decimalDigits_ne_nil c (List.eq_nil_of_length_eq_zero (Nat.le_zero.1 short))
    · exact absurd ((length_decimalDigits_le_iff hk).1 short) (not_lt.2 f.enough)
  rw [f.digits]
  simp only
  omega

theorem length_le : (shortest m e).digits.length ≤ k + 1 := by
  rw [f.digits]
  show (dropZeros (decimalDigits c)).length ≤ k + 1
  rcases Nat.lt_or_eq_of_le f.few with lt | eq
  · obtain ⟨j, split⟩ := dropZeros_append (decimalDigits c)
    have all := (length_decimalDigits_le_iff (Nat.succ_pos k)).2 lt
    rw [split, List.length_append] at all
    omega
  · rw [eq, dropZeros_decimalDigits_pow]
    exact Nat.succ_le_succ (Nat.zero_le k)

/-- Digits that read back lie on the grid of the search, or the power of ten at the first digit does and is nearer. -/
theorem competitor {d : Digits} (hd : d.WellFormed) (holds : (neighbourhood m e).Holds d.value) :
    k + 1 ≤ d.digits.length ∧
      (d.digits.length = k + 1 → |c * 10 ^ (first - k) - (m : ℚ) * 2 ^ e| ≤ |d.value - m * 2 ^ e|) := by
  have length : 0 < d.digits.length := List.length_pos_of_ne_nil hd.nonempty
  rcases lt_or_ge d.exponent first with below | above
  · -- the power of ten lies between the digits and the double
    have under : d.value ≤ 10 ^ first :=
      hd.value_bounds.2.le.trans (zpow_le_zpow_right₀ (by norm_num) (by omega))
    have power : (neighbourhood m e).Holds ((1 : Nat) * 10 ^ (first - (0 : Nat))) := by
      simpa using holds.between f.middle under f.least
    obtain rfl : k = 0 := by
      by_contra some
      exact f.coarser 0 (Nat.pos_of_ne_zero some) 1 power
    refine ⟨length, fun _ => (f.nearest 1 power).trans ?_⟩
    simp only [Nat.cast_one, one_mul, Nat.cast_zero, Int.sub_zero]
    rw [abs_sub_comm, abs_of_nonneg (sub_nonneg.2 f.least), abs_sub_comm,
      abs_of_nonneg (sub_nonneg.2 (under.trans f.least))]
    linarith
  · have grid {j : Nat} (hj : d.digits.length = j + 1) : ∃ c' : Nat, d.value = c' * 10 ^ (first - j) := by
      obtain ⟨i, hi⟩ := Int.eq_ofNat_of_zero_le (Int.sub_nonneg.2 above)
      refine ⟨Digits.inOrder 10 d.digits * 10 ^ i, ?_⟩
      rw [Digits.value_eq, show d.exponent + 1 - (d.digits.length : Int) = i + (first - j) by omega,
        zpow_add₀ (by norm_num), zpow_natCast]
      push_cast
      ring
    constructor
    · by_contra short
      obtain ⟨c', value⟩ := grid (j := d.digits.length - 1) (by omega)
      rw [value] at holds
      exact f.coarser _ (by omega) c' holds
    · intro same
      obtain ⟨c', value⟩ := grid same
      rw [value] at holds ⊢
      exact f.nearest c' holds

end Found

/-- The search finds the shortest digits. -/
theorem shortest_isShortest (h : Legal m e) (hm : 0 < m) : (shortest m e).IsShortest m e := by
  obtain ⟨first, k, c, f⟩ := exists_found h hm
  refine ⟨f.wellFormed, shortest_holds h hm, fun d hd holds => ?_, fun d hd holds same => ?_⟩
  · exact f.length_le.trans (f.competitor hd holds).1
  · have long := (f.competitor hd holds).1
    rw [f.value_eq]
    exact (f.competitor hd holds).2 (le_antisymm (same ▸ f.length_le) long)

theorem le_exponent_shortest (h : Legal m e) (hm : 0 < m) {j : Int} (le : 10 ^ j ≤ (m : ℚ) * 2 ^ e) :
    j ≤ (shortest m e).exponent := by
  obtain ⟨first, k, c, f⟩ := exists_found h hm
  have lt : j < first + 1 := (zpow_lt_zpow_iff_right₀ (by norm_num)).1 (lt_of_le_of_lt le f.most)
  have := f.first_le_exponent
  omega

/-- The digits of a whole number below `2 ^ 53` spell it. -/
theorem value_shortest_whole (h : Legal m e) (hm : 0 < m) {w : Nat} (whole : (m : ℚ) * 2 ^ e = w) (small : w < 2 ^ 53) :
    (shortest m e).value = w := by
  obtain ⟨first, k, c, f⟩ := exists_found h hm
  have hw : 0 < w := by
    have pos : (0 : ℚ) < m * 2 ^ e := by positivity
    rw [whole] at pos
    exact_mod_cast pos
  -- the grid of the whole numbers has the number itself, so the search does not go beyond it
  have reached : (k : Int) ≤ first := by
    have power : (10 : ℚ) ^ (0 : Int) < 10 ^ (first + 1) := by
      rw [zpow_zero]
      refine lt_of_le_of_lt ?_ f.most
      rw [whole]
      exact_mod_cast hw
    have nonneg : 0 < first + 1 := (zpow_lt_zpow_iff_right₀ (by norm_num)).1 power
    obtain ⟨j, rfl⟩ := Int.eq_ofNat_of_zero_le (Int.lt_add_one_iff.1 nonneg)
    by_contra beyond
    refine f.coarser j (by omega) w ?_
    rw [Int.sub_self, zpow_zero, mul_one, ← whole]
    exact f.middle
  obtain ⟨i, hi⟩ := Int.eq_ofNat_of_zero_le (Int.sub_nonneg.2 reached)
  -- both are whole and less than one apart
  have close := abs_sub_le_of_holds f.holds
  have half : (2 : ℚ) ^ (e - 1) < 1 := by
    refine zpow_lt_one_of_neg₀ (by norm_num) ?_
    by_contra large
    have full : 2 ^ 52 ≤ m := by
      rcases h.full with full | bottom
      · exact full
      · omega
    have big : (2 : ℚ) ^ 53 ≤ m * 2 ^ e := by
      calc (2 : ℚ) ^ 53 = (2 ^ 52 : Nat) * 2 ^ (1 : Int) := by norm_num
        _ ≤ m * 2 ^ e := by
          gcongr
          · norm_num
          · omega
    rw [whole] at big
    exact absurd (by exact_mod_cast big : 2 ^ 53 ≤ w) (not_le.2 small)
  have near := lt_of_le_of_lt close half
  have value : (c : ℚ) * 10 ^ (first - k) = (c * 10 ^ i : Nat) := by
    rw [hi, zpow_natCast]
    push_cast
    rfl
  rw [value, whole] at near
  have apart : ((c * 10 ^ i : Nat) : Int) - w = 0 := Int.abs_lt_one_iff.1 (by exact_mod_cast near)
  rw [f.value_eq, value, Int.ofNat.inj (Int.sub_eq_zero.1 apart)]

end Search

end ScriptTrace.Binary64
