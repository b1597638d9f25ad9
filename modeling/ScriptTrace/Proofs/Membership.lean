import ScriptTrace.Proofs.Properties
import ScriptTrace.Proofs.WholeDoubles
/-!
# Membership and property access

The operator `in` and the read of a property classify keys in two ways. A read takes a key for an index if it **names**
one. The operator takes the number that the key stands for in arithmetic, so it also finds elements under keys that are
**coerced** to an index: null, the two truth values, and numerals of another form than a short run of digits. On keys
that name an index, on `length` and on all others the two agree; a coerced key is said to be in the array, but reading
it selects no element.

* `Numeral.ofText_digits`: the number of a text of decimal digits.
* `Value.containsKey_array`: when a key is in an array.
* `membership_as_coerced`: how membership and reads compare, for arrays and for objects.
-/
namespace ScriptTrace

/-! ## Numbers of digit texts -/

namespace Numeral

open Text

variable {codes : List Nat}

/-- Decimal digits are none of the codes that mark a word, a base, a sign or a point. -/
theorem isDecimal_range {c : Nat} (h : isDecimal c = true) : 48 ≤ c ∧ (c ≤ 57 ∨ 0x660 ≤ c) := by
  unfold isDecimal decimalValue? at h
  split at h
  · omega
  · split at h
    · cases h
    · omega

section Digits

variable (decimal : ∀ c ∈ codes, isDecimal c = true)

include decimal

theorem hasMark_digits : hasMark (Text.mk codes).toLower.codes = false := by
  have same : (Text.mk codes).toLower.codes = codes := by
    refine (List.map_congr_left fun c hc => if_neg ?_).trans (List.map_id _)
    have := isDecimal_range (decimal c hc)
    omega
  rw [same]
  unfold hasMark
  split
  · rename_i c rest
    have range := isDecimal_range (decimal c (List.mem_cons_of_mem _ List.mem_cons_self))
    simp only [Bool.or_eq_false_iff, beq_eq_false_iff_ne]
    omega
  · rfl

theorem scan_digits (some : codes ≠ []) : scan? codes = .some ⟨false, codes, false, [], none⟩ := by
  have unsigned : sign codes = (false, codes) := sign_of_le fun c hc => (isDecimal_range (decimal c hc)).1
  have whole : codes.takeWhile isDecimal = codes := List.takeWhile_eq_self_iff.2 decimal
  have rest : codes.dropWhile isDecimal = [] := List.dropWhile_eq_nil_iff.2 decimal
  simp [scan?, unsigned, whole, rest, exponent?, some]

theorem ofText_digits (some : codes ≠ []) : ofText ⟨codes⟩ = .ofFloat (scaled (decimals codes) 0) := by
  have bare : (Text.mk codes).strip = ⟨codes⟩ :=
    stripOf_eq_self fun c hc => isBlank_of_isDigitLike (isDigitLike_of_isDecimal (decimal c hc))
  have filled : (Text.mk codes).isEmpty = false := List.isEmpty_eq_false_iff.2 some
  have other {word : Text} (letter : 110 ∈ word.codes) : Text.mk codes ≠ word := by
    rintro rfl
    exact absurd (decimal 110 letter) (by decide)
  have infinity : ¬(Text.mk codes = "Infinity" ∨ Text.mk codes = "+Infinity") :=
    not_or.2 ⟨other (by decide), other (by decide)⟩
  have negative : Text.mk codes ≠ "-Infinity" := other (by decide)
  simp only [ofText, bare, filled, Bool.false_eq_true, if_false, if_neg infinity, if_neg negative,
    hasMark_digits decimal, scan_digits decimal some]
  simp [Decimal.toFloat]

end Digits

end Numeral

/-! ## Keys that stand for an index -/

namespace Value

open Text

variable {h : Heap} {key : Value} {ref i j : Nat}

/-- Whether a key that names no index is an index in arithmetic. -/
inductive Coerced : Value → Nat → Prop
  | null : Coerced .null 0
  | bool (b : Bool) : Coerced (.bool b) b.toNat
  | text {t : Text} {i : Nat} (numeral : Numeral.ofText t = .int i) (unnamed : ∀ j, ¬(Value.text t).Names j) :
      Coerced (.text t) i

theorem Coerced.not_names (coerced : key.Coerced i) : ¬key.Names j := by
  intro names
  cases coerced with
  | null | bool => cases names
  | text numeral unnamed => exact unnamed j names

theorem Coerced.ne_length (coerced : key.Coerced i) : key ≠ .text lengthKey := by
  rintro rfl
  cases coerced with
  | text numeral unnamed =>
    have word : Numeral.ofText lengthKey = .nan := rfl
    rw [word] at numeral
    cases numeral

/-- A key that names an index below the bound has it as its number. -/
theorem Names.toNumber (names : key.Names i) (small : i < 2 ^ 53) : key.toNumber h = .ok (.int i) := by
  cases names with
  | integer => rfl
  | digits some decimal short =>
    rw [Value.toNumber, Numeral.ofText_digits decimal some, Number.ofFloat_scaled small]

/-- A text that names an index has no other number. -/
theorem Names.eq_of_ofText {t : Text} (names : (Value.text t).Names j) (number : Numeral.ofText t = .int i) :
    j = i := by
  cases names with
  | @digits codes some decimal short =>
    rw [Numeral.ofText_digits decimal some] at number
    by_cases small : Numeral.decimals codes < 2 ^ 53
    · rw [Number.ofFloat_scaled small] at number
      cases number
      rfl
    · rw [Number.ofFloat_scaled_large (Nat.not_lt.1 small)] at number
      cases number

/-- The keys whose number is an index. -/
theorem toNumber_eq_index_iff (primitive : key.isContainer = false) (small : i < 2 ^ 53) :
    key.toNumber h = .ok (.int i) ↔ key.Names i ∨ key.Coerced i := by
  constructor
  · intro number
    cases key with
    | array | object => cases primitive
    | undefined | function => cases number
    | null =>
      cases number
      exact .inr .null
    | bool b =>
      cases b <;> cases number
      · exact .inr (.bool false)
      · exact .inr (.bool true)
    | number n =>
      cases number
      exact .inl (.integer i)
    | text t =>
      have numeral : Numeral.ofText t = .int i := Except.ok.inj number
      by_cases named : ∃ j, (Value.text t).Names j
      · obtain ⟨j, names⟩ := named
        exact .inl (names.eq_of_ofText numeral ▸ names)
      · exact .inr (.text numeral fun j names => named ⟨j, names⟩)
  · rintro (names | coerced)
    · exact names.toNumber small
    · cases coerced with
      | null => rfl
      | bool b => cases b <;> rfl
      | text numeral _ => rw [Value.toNumber, numeral]

/-! ## Membership -/

theorem exists_toNumber (primitive : key.isContainer = false) (h : Heap) : ∃ number, key.toNumber h = .ok number := by
  cases key with
  | array | object => cases primitive
  | undefined | null | bool | number | text | function => exact ⟨_, rfl⟩

/-- A key is in an array if it is `length` or its number is an index of the array. -/
theorem containsKey_array (primitive : key.isContainer = false) (h : Heap) (ref : Nat) :
    ∃ b, containsKey h (.array ref) key = .ok b ∧
      (b = true ↔ key = .text lengthKey ∨ ∃ i < (h.array ref).length, key.toNumber h = .ok (.int i)) := by
  by_cases shown : key.render h = lengthKey
  · exact ⟨true, if_pos shown, by simp [(render_eq_lengthKey_iff primitive h).1 shown]⟩
  · have other : key ≠ .text lengthKey := fun eq => shown ((render_eq_lengthKey_iff primitive h).2 eq)
    obtain ⟨number, value⟩ := exists_toNumber primitive h
    have unfolded : containsKey h (.array ref) key = _ := if_neg shown
    rw [value] at unfolded
    cases number with
    | int n =>
      refine ⟨decide (0 ≤ n ∧ n < (h.array ref).length), unfolded, ?_⟩
      rw [decide_eq_true_eq, value]
      constructor
      · rintro ⟨nonneg, lt⟩
        refine .inr ⟨n.toNat, by omega, ?_⟩
        rw [Int.toNat_of_nonneg nonneg]
      · rintro (length | ⟨i, lt, eq⟩)
        · exact absurd length other
        · cases eq
          omega
    | float x =>
      refine ⟨false, unfolded, ?_⟩
      simp [other, value]

/-- What is read under a key that names no index and is not `length`. -/
theorem getProperty_unnamed (primitive : key.isContainer = false) (other : key ≠ .text lengthKey)
    (unnamed : ∀ i, ¬key.Names i) (h : Heap) (ref : Nat) :
    getProperty h (.array ref) key = .ok .undefined ∨ ∃ b, getProperty h (.array ref) key = .error (.badIndex b) := by
  have shown : key.render h ≠ lengthKey := fun eq => other ((render_eq_lengthKey_iff primitive h).1 eq)
  rw [getProperty, if_neg shown]
  cases index : key.indexOf with
  | ok found =>
    cases found with
    | none => exact .inl rfl
    | some i => exact absurd (indexOf_eq_some_iff.1 index) (unnamed i)
  | error fault =>
    obtain ⟨b, rfl⟩ := exists_badIndex index
    exact .inr ⟨b, rfl⟩

/-- What is read under a key that names an index. -/
theorem Names.getProperty (names : key.Names i) (h : Heap) (ref : Nat) :
    getProperty h (.array ref) key = .ok ((h.array ref)[i]?.getD .undefined) := by
  rw [Value.getProperty, if_neg (names.render_ne h), indexOf_eq_some_iff.2 names]
  rfl

end Value

/-- A key that is no container is in an array exactly if it is `length` or names an index of the array, or else is
coerced to one. Reading a key that names an index selects the element there, if there is one; reading a coerced key
selects nothing. A key is in an object exactly if reading it finds an entry. -/
theorem membership_as_coerced (h : Heap) (key : Value) (primitive : key.isContainer = false) (ref : Nat) :
    ((h.array ref).length ≤ 2 ^ 53 → ∃ b, Value.containsKey h (.array ref) key = .ok b ∧
      (b = true ↔ key = .text "length" ∨ (∃ i < (h.array ref).length, key.Names i) ∨
        ∃ i < (h.array ref).length, key.Coerced i)) ∧
    (∀ i, key.Names i → Value.getProperty h (.array ref) key = .ok ((h.array ref)[i]?.getD .undefined)) ∧
    (∀ i, key.Coerced i → key ≠ .text "length" ∧ (∀ j, ¬key.Names j) ∧
      (Value.getProperty h (.array ref) key = .ok .undefined ∨
        ∃ b, Value.getProperty h (.array ref) key = .error (.badIndex b))) ∧
    ∃ found, (h.object ref).get? (.text (key.render h)) = found ∧
      Value.containsKey h (.object ref) key = .ok found.isSome ∧
      Value.getProperty h (.object ref) key = .ok (found.getD .undefined) := by
  refine ⟨fun bounded => ?_, fun i names => names.getProperty h ref, fun i coerced => ?_, _, rfl, ?_, rfl⟩
  · obtain ⟨b, result, iff⟩ := Value.containsKey_array primitive h ref
    refine ⟨b, result, iff.trans (or_congr_right ?_)⟩
    rw [← exists_or]
    refine exists_congr fun i => ?_
    rw [← and_or_left]
    refine and_congr_right fun lt => ?_
    exact Value.toNumber_eq_index_iff primitive (Nat.lt_of_lt_of_le lt bounded)
  · have unnamed (j : Nat) : ¬key.Names j := coerced.not_names
    exact ⟨coerced.ne_length, unnamed, Value.getProperty_unnamed primitive coerced.ne_length unnamed h ref⟩
  · exact congrArg Except.ok (Assoc.contains_eq_isSome _ _)

/-- An array of two elements has a text of digits with a leading zero in it, and null, under which nothing is read. -/
theorem membership_as_coerced_leading_zero :
    let h : Heap := ⟨#[[.null, .bool true]], #[], 1000⟩
    (Value.text "01").Names 1 ∧ Value.containsKey h (.array 0) (.text "01") = .ok true ∧
      Value.getProperty h (.array 0) (.text "01") = .ok (.bool true) ∧
    Value.null.Coerced 0 ∧ Value.containsKey h (.array 0) .null = .ok true ∧ ∀ j, ¬Value.null.Names j := by
  intro h
  have bounded : (h.array 0).length ≤ 2 ^ 53 := by decide
  have names : (Value.text "01").Names 1 := Value.indexOf_eq_some_iff.1 rfl
  obtain ⟨present, read, -⟩ := membership_as_coerced h (.text "01") rfl 0
  obtain ⟨b, result, iff⟩ := present bounded
  obtain rfl := iff.2 (.inr (.inl ⟨1, by decide, names⟩))
  obtain ⟨present', -, unread, -⟩ := membership_as_coerced h .null rfl 0
  obtain ⟨b', result', iff'⟩ := present' bounded
  obtain rfl := iff'.2 (.inr (.inr ⟨0, by decide, .null⟩))
  exact ⟨names, result, read 1 names, .null, result', (unread 0 .null).2.1⟩

/-- `true` is in an array of two elements, but it is not `length` and names no index, so nothing is read under it. -/
theorem truth_value_in_array :
    let h : Heap := ⟨#[[.ofNat 10, .ofNat 20]], #[], 1000⟩
    Value.containsKey h (.array 0) (.bool true) = .ok true ∧
      ¬((Value.bool true) = .text "length" ∨ ∃ i < (h.array 0).length, (Value.bool true).indexOf = .ok (some i)) ∧
      Value.getProperty h (.array 0) (.bool true) = .ok .undefined := by
  intro h
  refine ⟨rfl, ?_, rfl⟩
  rintro (length | ⟨i, -, index⟩)
  · cases length
  · cases index

end ScriptTrace
