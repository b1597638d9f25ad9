import ScriptTrace.Proofs.ExactValues
/-!
# Powers

The powers of finite doubles come from a function that is given. What stands around it decides the special cases: an
operand that is not finite, a zero to a negative power, and a power that overflows. A unit has the power one also if the
exponent is NaN or infinite, a zero has an infinite power only if the exponent is infinite, and a power that overflows
is positive infinity also if it is an odd power of a negative number.

* `beq_iff_value?`: which doubles are equal to a finite one.
* `value?_ofFloat`: the number that a double is carried as has the value of the double.
* `powBy_nan`, `powBy_unit`, `powBy_zero_infinite`, `powBy_zero`, `powBy_negative`: the special cases, one by one.
* `special_powers`: all of them, of a function that gives odd powers of negative numbers their sign.
-/
namespace ScriptTrace.Binary64

open Float.Model

variable {x y : Float} {q : ℚ} {negative : Bool}

/-! ## Doubles known by what they stand for -/

theorem eq_nan (h : parts x = .nan) : x = nan :=
  parts_injective (h.trans (by decide))

theorem eq_infinity (h : parts x = .infinite negative) : x = infinity negative := by
  refine parts_injective (h.trans ?_)
  cases negative <;> decide

theorem eq_zero (h : value? x = some 0) : x = 0 ∨ x = -0 := by
  obtain ⟨negative, m, e, finite, value⟩ := exists_parts h
  obtain rfl : m = 0 := by
    refine Nat.eq_zero_of_not_pos fun pos => ?_
    cases negative with
    | true => exact (dyadic_neg pos).ne value
    | false => exact (dyadic_pos pos).ne' value
  rw [(legal_of_parts finite).2 rfl] at finite
  cases negative with
  | true => exact .inr (parts_injective (finite.trans (by decide)))
  | false => exact .inl (parts_injective (finite.trans (by decide)))

theorem value?_zero : value? 0 = some 0 := by
  have finite : parts 0 = .finite false 0 (-1074) := by decide
  rw [value?_of_finite finite]
  simp [dyadic]

theorem value?_one : value? 1 = some 1 := by
  exact_mod_cast value?_eq_int_iff (k := 1).2 (by decide)

theorem value?_negOne : value? (-1) = some (-1) := by
  exact_mod_cast value?_eq_int_iff (k := -1).2 (by decide)

theorem isNaN_iff : x.isNaN = true ↔ parts x = .nan := by
  have model : x.isNaN = x.toModel.unpack.isNaN := rfl
  rw [model, parts_eq_ofUnpacked]
  cases x.toModel.unpack <;> simp [Parts.ofUnpacked, UnpackedFloat.isNaN]

theorem isInf_of_parts (h : parts x = .infinite negative) : x.isInf = true := by
  rw [eq_infinity h]
  cases negative <;> decide

theorem isFinite_of_value? (h : value? x = some q) : isFinite x = true := by
  obtain ⟨negative, m, e, finite, -⟩ := exists_parts h
  rw [isFinite, finite]

/-- The doubles that are equal to a finite one are those of its value. -/
theorem beq_iff_value? (hy : value? y = some q) : (x == y) = true ↔ value? x = some q := by
  cases hx : value? x with
  | some p => rw [beq_iff hx hy, Option.some_inj]
  | none =>
    have unfolded : (x == y) = (x.toModel.unpack.compare y.toModel.unpack == some .eq) := rfl
    rw [unfolded]
    rw [value?, parts_eq_ofUnpacked] at hx
    rcases unpack_of_value? hy with ⟨sign, uy, -⟩ | ⟨sign, m, e, pos, uy, -, -⟩ <;> rw [uy] <;>
      cases ux : x.toModel.unpack with
      | notANumber => simp [UnpackedFloat.compare]
      | infinity sign' => cases sign' <;> simp [UnpackedFloat.compare]
      | zero | finite =>
        rw [ux] at hx
        cases hx

end ScriptTrace.Binary64

namespace ScriptTrace.Number

open Binary64

variable {power : Float → Float → Float} {a b : Number}

/-- The number that a double is carried as has the value of the double. -/
theorem value?_ofFloat (x : Float) : (ofFloat x).value? = Binary64.value? x := by
  unfold ofFloat
  split
  case h_2 => rfl
  case h_1 negative m e finite =>
    dsimp only
    split
    case isFalse => rfl
    case isTrue carried =>
      have whole : isWhole m e = true := by
        simp only [Bool.and_eq_true] at carried
        exact carried.1.1
      rw [value?_of_finite finite, dyadic_of_isWhole whole]
      rfl

/-! ## Operands that are not finite -/

theorem powBy_of_not_finite (h : isFinite a.toFloat = false ∨ isFinite b.toFloat = false) :
    powBy power a b = ofFloat (powSpecial a.toFloat b.toFloat) := by
  have special : (!isFinite a.toFloat || !isFinite b.toFloat) = true := by
    rcases h with h | h <;> simp [h]
  exact if_pos special

theorem powBy_of_finite (ha : isFinite a.toFloat = true) (hb : isFinite b.toFloat = true) : powBy power a b =
    if a.toFloat == 0 && b.toFloat < 0 then nan
    else if a.toFloat < 0 && !isInteger b.toFloat then nan
    else if (power a.toFloat b.toFloat).isInf then infinity false
    else ofFloat (power a.toFloat b.toFloat) := by
  have ordinary : (!isFinite a.toFloat || !isFinite b.toFloat) = false := by simp [ha, hb]
  exact if_neg (Bool.eq_false_iff.1 ordinary)

theorem powSpecial_nan (x : Float) :
    powSpecial x Binary64.nan = if Binary64.value? x = some 1 then 1 else Binary64.nan := by
  by_cases isNaN : x.isNaN = true
  · have valueless : Binary64.value? Binary64.nan = none := rfl
    rw [eq_nan (isNaN_iff.1 isNaN), valueless, if_neg nofun]
    decide
  rw [powSpecial, if_neg isNaN, if_pos (by decide)]
  exact if_congr (beq_iff_value? value?_one) rfl rfl

/-- The power with a NaN for an exponent. -/
theorem powBy_nan (h : parts b.toFloat = .nan) :
    powBy power a b = if Binary64.value? a.toFloat = some 1 then 1 else nan := by
  rw [powBy_of_not_finite (.inr (by rw [isFinite, h])), eq_nan h, powSpecial_nan]
  split <;> decide

/-- The power of a unit with an infinite exponent. -/
theorem powBy_unit {negative : Bool} (ha : Binary64.value? a.toFloat = some 1 ∨ Binary64.value? a.toFloat = some (-1))
    (hb : parts b.toFloat = .infinite negative) : powBy power a b = 1 := by
  rw [powBy_of_not_finite (.inr (by rw [isFinite, hb])), eq_infinity hb]
  rcases ha with one | negOne
  · rw [eq_of_value? one_ne_zero one value?_one]
    cases negative <;> decide
  · rw [eq_of_value? (neg_ne_zero.2 one_ne_zero) negOne value?_negOne]
    cases negative <;> decide

/-! ## Zeros -/

/-- The power of a zero with the least of all exponents. -/
theorem powBy_zero_infinite (ha : Binary64.value? a.toFloat = some 0) (hb : parts b.toFloat = .infinite true) :
    powBy power a b = infinity false := by
  rw [powBy_of_not_finite (.inr (by rw [isFinite, hb])), eq_infinity hb]
  rcases eq_zero ha with zero | zero <;> rw [zero] <;> decide

/-- The other negative powers of a zero. -/
theorem powBy_zero {q : ℚ} (ha : Binary64.value? a.toFloat = some 0) (hb : Binary64.value? b.toFloat = some q)
    (below : q < 0) : powBy power a b = nan := by
  have zero : (a.toFloat == 0) = true := (beq_iff_value? value?_zero).2 ha
  have lt : b.toFloat < 0 := (lt_iff hb value?_zero).2 below
  rw [powBy_of_finite (isFinite_of_value? ha) (isFinite_of_value? hb), zero, decide_eq_true lt]
  rfl

/-! ## Odd powers -/

/-- An odd power of a negative number has a minus sign, also if it is a zero or overflows. -/
def SignsOddPowers (power : Float → Float → Float) : Prop :=
  ∀ (x y : Float) (p : ℚ) (k : Int), Binary64.value? x = some p → p < 0 → Binary64.value? y = some (k : ℚ) → Odd k →
    isNegative (power x y) = true

/-- An integer power of a negative number is the given one, unless it overflows. -/
theorem powBy_negative {p : ℚ} {k : Int} (ha : Binary64.value? a.toFloat = some p) (below : p < 0)
    (hb : Binary64.value? b.toFloat = some (k : ℚ)) : powBy power a b =
      if (power a.toFloat b.toFloat).isInf then infinity false else ofFloat (power a.toFloat b.toFloat) := by
  have nonzero : (a.toFloat == 0) = false := by
    rw [Bool.eq_false_iff, ne_eq, beq_iff ha value?_zero]
    exact below.ne
  have integer : isInteger b.toFloat = true := (value?_eq_int_iff.1 hb).1
  rw [powBy_of_finite (isFinite_of_value? ha) (isFinite_of_value? hb), nonzero, integer, Bool.not_true, Bool.and_false,
    Bool.false_and]
  rfl

theorem value?_of_isNegative {r : Float} (sign : isNegative r = true) (small : r.isInf = false) :
    ∃ v ≤ 0, (ofFloat r).value? = some v := by
  cases hr : parts r with
  | nan => simp [isNegative, hr] at sign
  | infinite negative => simp [isInf_of_parts hr] at small
  | finite negative m e =>
    obtain rfl : negative = true := by simpa [isNegative, hr] using sign
    refine ⟨dyadic true m e, ?_, (value?_ofFloat r).trans (value?_of_finite hr)⟩
    have nonneg : (0 : ℚ) ≤ m * 2 ^ e := by positivity
    simpa [dyadic] using nonneg

/-- The special cases of powers. The power is one if the base is one and the exponent is NaN, or if the base is a unit
and the exponent is infinite; otherwise an exponent NaN gives NaN. A zero has an infinite power for the exponent minus
infinity, and no other negative powers. An odd power of a negative number is not positive unless it overflows, and then
it is positive infinity. -/
theorem special_powers (power : Float → Float → Float) (signed : SignsOddPowers power) (a b : Number) :
    (parts b.toFloat = .nan → powBy power a b = if Binary64.value? a.toFloat = some 1 then 1 else nan) ∧
      (∀ negative, Binary64.value? a.toFloat = some 1 ∨ Binary64.value? a.toFloat = some (-1) →
        parts b.toFloat = .infinite negative → powBy power a b = 1) ∧
      (Binary64.value? a.toFloat = some 0 →
        (parts b.toFloat = .infinite true → powBy power a b = infinity false) ∧
          ∀ q < 0, Binary64.value? b.toFloat = some q → powBy power a b = nan) ∧
      ∀ (p : ℚ) (k : Int), Binary64.value? a.toFloat = some p → p < 0 → Binary64.value? b.toFloat = some (k : ℚ) →
        Odd k → if (power a.toFloat b.toFloat).isInf then powBy power a b = infinity false
          else ∃ v ≤ 0, (powBy power a b).value? = some v := by
  refine ⟨powBy_nan, fun _ => powBy_unit, fun zero => ⟨powBy_zero_infinite zero, fun q below hb => ?_⟩,
    fun p k ha below hb odd => ?_⟩
  · exact powBy_zero zero hb below
  have sign := signed _ _ p k ha below hb odd
  rw [powBy_negative ha below hb]
  by_cases large : (power a.toFloat b.toFloat).isInf = true
  · rw [if_pos large, if_pos large]
  · rw [if_neg large, if_neg large]
    exact value?_of_isNegative sign (Bool.eq_false_iff.2 large)

/-- Powers of ten and their signs, of a function that has two values. -/
theorem special_powers_of_ten :
    let power := fun _ y : Float => if y == 3 then -1000 else Binary64.infinity true
    SignsOddPowers power ∧ (∃ v ≤ 0, (powBy power (.int (-10)) 3).value? = some v) ∧
      powBy power (.int (-10)) 309 = infinity false ∧ powBy power 1 nan = 1 ∧ powBy power 10 nan = nan ∧
      powBy power (.int (-1)) (infinity true) = 1 ∧ powBy power 0 (infinity true) = infinity false ∧
      powBy power 0 (.int (-1)) = nan := by
  intro power
  have signed : SignsOddPowers power := by
    intro x y p k _ _ _ _
    show isNegative (if y == 3 then _ else _) = true
    split <;> decide
  have value (n : Int) (h : isInteger (Float.ofInt n) = true ∧ truncate (Float.ofInt n) = n) :
      Binary64.value? (Number.int n).toFloat = some (n : ℚ) := value?_eq_int_iff.2 h
  have zero : Binary64.value? (toFloat 0) = some 0 := value?_zero
  have one : Binary64.value? (toFloat 1) = some 1 := by exact_mod_cast value 1 (by decide)
  have negOne : Binary64.value? (Number.int (-1)).toFloat = some (-1) := by
    exact_mod_cast value (-1) (by decide)
  have ten : Binary64.value? (toFloat 10) ≠ some 1 := by
    rw [show Binary64.value? (toFloat 10) = some ((10 : Int) : ℚ) from value 10 (by decide)]
    norm_num
  have negTen := value (-10) (by decide)
  have cube := (special_powers power signed (.int (-10)) 3).2.2.2 (-10 : Int) 3 negTen (by norm_num)
    (value 3 (by decide)) (by decide)
  have large := (special_powers power signed (.int (-10)) 309).2.2.2 (-10 : Int) 309 negTen (by norm_num)
    (value 309 (by decide)) (by decide)
  rw [if_neg (by decide)] at cube
  rw [if_pos (by decide)] at large
  refine ⟨signed, cube, large, ?_, ?_, ?_, ?_, ?_⟩
  · exact ((special_powers power signed 1 nan).1 (by decide)).trans (if_pos one)
  · exact ((special_powers power signed 10 nan).1 (by decide)).trans (if_neg ten)
  · exact (special_powers power signed (.int (-1)) (infinity true)).2.1 true (.inr negOne) (by decide)
  · exact ((special_powers power signed 0 (infinity true)).2.2.1 zero).1 (by decide)
  · exact ((special_powers power signed 0 (.int (-1))).2.2.1 zero).2 (-1) (by norm_num) negOne

/-- Units with an exponent that is NaN or infinite, and a zero with a finite negative exponent. -/
theorem powers_of_units_and_zero :
    pow 1 nan = 1 ∧ pow 1 (infinity false) = 1 ∧ pow (.int (-1)) (infinity true) = 1 ∧ pow 0 (.int (-1)) = nan := by
  decide

end ScriptTrace.Number
