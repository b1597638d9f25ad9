import Mathlib.Data.List.TakeWhile
import ScriptTrace.Number.Layout
import ScriptTrace.Proofs.ShortestDigits
/-!
# Numbers and their texts

The JSON text of a number says which number it is: an integer has digits only, a finite float has a point or an
exponent, and the rest are words. `readNumber` reads such a text.

* `Decimal`: what the texts of finite floats have in common, with what is read from them. Both layouts of digits make
  such texts (`decimal_positional`, `decimal_exponential`).
* `readNumber_lay`: from the text of a number is read what the number is, up to the digits of a float.
* `lay_injective`: different numbers have different texts.
-/
namespace ScriptTrace

/-! ## Reading written numbers -/

namespace Number

open Binary64

/-- The digits behind their codes. -/
def digitsOf (cs : List Nat) : List Nat := cs.map (· - 48)

/-- What a decimal with a point stands for. -/
def readMantissa (cs : List Nat) : ℚ :=
  let whole := cs.takeWhile (· != 46)
  leading (digitsOf whole) (whole.length - 1) + leading (digitsOf ((cs.dropWhile (· != 46)).drop 1)) (-1)

def readExponent : List Nat → Int
  | 101 :: 45 :: ds => -Digits.inOrder 10 (digitsOf ds)
  | 101 :: _ :: ds => Digits.inOrder 10 (digitsOf ds)
  | _ => 0

/-- What a decimal with or without an exponent stands for. -/
def readDecimal (cs : List Nat) : ℚ :=
  readMantissa (cs.takeWhile (· != 101)) * 10 ^ readExponent (cs.dropWhile (· != 101))

section Decimals

variable {as bs : List Nat} (ha : ∀ d ∈ as, d < 10) (hb : ∀ d ∈ bs, d < 10)

theorem digitsOf_codes (ds : List Nat) : digitsOf (digitText ds).codes = ds := by
  simp [digitsOf, digitText, Function.comp_def]

theorem zeros_eq (n : Nat) : zeros n = digitText (List.replicate n 0) := by
  simp [zeros, digitText]

theorem digitText_append (as bs : List Nat) : digitText as ++ digitText bs = digitText (as ++ bs) :=
  congrArg Text.mk List.map_append.symm

include ha in
theorem span_digits (mark : Nat) (hm : mark < 48 ∨ 57 < mark) (rest : List Nat) :
    ((digitText as).codes ++ mark :: rest).takeWhile (· != mark) = (digitText as).codes ∧
      ((digitText as).codes ++ mark :: rest).dropWhile (· != mark) = mark :: rest ∧
      (digitText as).codes.takeWhile (· != mark) = (digitText as).codes ∧
      (digitText as).codes.dropWhile (· != mark) = [] := by
  have other : ∀ c ∈ (digitText as).codes, (c != mark) = true := by
    intro c hc
    obtain ⟨d, hd, rfl⟩ := List.mem_map.1 hc
    have := ha d hd
    simp only [bne_iff_ne]
    omega
  refine ⟨?_, ?_, List.takeWhile_eq_self_iff.2 other, List.dropWhile_eq_nil_iff.2 other⟩
  · rw [List.takeWhile_append_of_pos other]
    simp
  · rw [List.dropWhile_append_of_pos other]
    simp

include ha in
theorem readMantissa_whole : readMantissa (digitText as).codes = leading as (as.length - 1) := by
  obtain ⟨-, -, take, drop⟩ := span_digits ha 46 (by decide) []
  rw [readMantissa, take, drop, digitsOf_codes]
  simp [digitsOf, leading, digitText]

include ha in
theorem readMantissa_point : readMantissa ((digitText as).codes ++ 46 :: (digitText bs).codes) =
    leading as (as.length - 1) + leading bs (-1) := by
  obtain ⟨take, drop, -⟩ := span_digits ha 46 (by decide) (digitText bs).codes
  rw [readMantissa, take, drop, List.drop_one, List.tail_cons, digitsOf_codes, digitsOf_codes]
  simp [digitText]

include ha hb in
theorem readDecimal_point : readDecimal ((digitText as).codes ++ 46 :: (digitText bs).codes) =
    leading as (as.length - 1) + leading bs (-1) := by
  have plain : ∀ c ∈ (digitText as).codes ++ 46 :: (digitText bs).codes, (c != 101) = true := by
    intro c hc
    simp only [digitText, List.mem_append, List.mem_cons, List.mem_map] at hc
    simp only [bne_iff_ne]
    rcases hc with ⟨d, hd, rfl⟩ | rfl | ⟨d, hd, rfl⟩
    · have := ha d hd
      omega
    · decide
    · have := hb d hd
      omega
  rw [readDecimal, List.takeWhile_eq_self_iff.2 plain, List.dropWhile_eq_nil_iff.2 plain, readMantissa_point ha]
  simp [readExponent]

/-- A mantissa with an exponent. -/
theorem readDecimal_exponent {mantissa : List Nat} (plain : ∀ c ∈ mantissa, c ≠ 101) (negative : Bool)
    (ds : List Nat) :
    readDecimal (mantissa ++ 101 :: (if negative then 45 else 43) :: (digitText ds).codes) =
      readMantissa mantissa * 10 ^ withSign negative (Digits.inOrder 10 ds) := by
  have other : ∀ c ∈ mantissa, (c != 101) = true := fun c hc => by simpa using plain c hc
  rw [readDecimal, List.takeWhile_append_of_pos other, List.dropWhile_append_of_pos other]
  cases negative <;> simp [readExponent, withSign, digitsOf_codes]

end Decimals

/-! ## Layouts read back -/

/-- Whether a code is none of those that can follow a number in JSON: a comma or a closing bracket. -/
def Unbroken (c : Nat) : Prop :=
  c ≠ 44 ∧ c ≠ 93 ∧ c ≠ 125

instance (c : Nat) : Decidable (Unbroken c) := inferInstanceAs (Decidable (_ ∧ _))

theorem unbroken_digits {ds : List Nat} (hd : ∀ d ∈ ds, d < 10) : ∀ c ∈ (digitText ds).codes, Unbroken c := by
  intro c hc
  obtain ⟨d, mem, rfl⟩ := List.mem_map.1 hc
  have := hd d mem
  unfold Unbroken
  omega

/-- Whether a text begins with a digit and shows by a point or an exponent that it is a decimal, and what it is. -/
structure Decimal (cs : List Nat) (x : ℚ) : Prop where
  digit : ∃ c rest, cs = c :: rest ∧ 48 ≤ c ∧ c ≤ 57
  marked : 46 ∈ cs ∨ 101 ∈ cs
  unbroken : ∀ c ∈ cs, Unbroken c
  value : readDecimal cs = x

theorem decimal_point {as bs : List Nat} (ha : ∀ d ∈ as, d < 10) (hb : ∀ d ∈ bs, d < 10) (some : as ≠ []) :
    Decimal ((digitText as).codes ++ 46 :: (digitText bs).codes) (leading as (as.length - 1) + leading bs (-1)) where
  digit := by
    obtain ⟨d, as, rfl⟩ := List.exists_cons_of_ne_nil some
    have := ha d (by simp)
    exact ⟨48 + d, _, rfl, by omega, by omega⟩
  marked := .inl (by simp)
  unbroken := List.forall_mem_append.2 ⟨unbroken_digits ha, List.forall_mem_cons.2 ⟨by decide, unbroken_digits hb⟩⟩
  value := readDecimal_point ha hb

theorem forall_mem_zeros (n : Nat) : ∀ c ∈ List.replicate n 0, c < 10 := by
  intro c hc
  simp [List.eq_of_mem_replicate hc]

theorem decimal_positional {d : Digits} (hd : ∀ c ∈ d.digits, c < 10) : Decimal (positional true d).codes d.value := by
  obtain ⟨ds, e⟩ := d
  cases e with
  | negSucc e =>
    have text : (positional true ⟨ds, .negSucc e⟩).codes =
        (digitText [0]).codes ++ 46 :: (digitText (List.replicate e 0 ++ ds)).codes := by
      simp [positional, digitText, zeros, Text.ofString]
    have value : leading [0] (([0] : List Nat).length - 1) + leading (List.replicate e 0 ++ ds) (-1) =
        leading ds (.negSucc e) := by
      rw [leading_append, leading_replicate_zero, List.length_replicate, Int.negSucc_eq]
      simp only [leading, Nat.cast_zero, zero_mul, add_zero, zero_add]
      congr 1
      omega
    rw [text, Digits.value, ← value]
    exact decimal_point (by decide) (List.forall_mem_append.2 ⟨forall_mem_zeros e, hd⟩) (by simp)
  | ofNat e =>
    -- the digits before the point are filled up with zeros, and so is an empty fraction
    set whole := ds.take (e + 1) ++ List.replicate (e + 1 - ds.length) 0 with hw
    have length : whole.length = e + 1 := by simp [hw]; omega
    have below : leading ds e = leading whole e + leading (ds.drop (e + 1)) (-1) := by
      rw [hw, leading_append, leading_replicate_zero, add_zero]
      conv_lhs => rw [← List.take_append_drop (e + 1) ds, leading_append]
      rcases Nat.lt_or_ge (e + 1) ds.length with more | all
      · rw [List.length_take_of_le more.le]
        congr 2
        omega
      · rw [List.drop_eq_nil_of_le all]
        rfl
    have decimal (fraction : List Nat) (hf : ∀ c ∈ fraction, c < 10)
        (same : leading fraction (-1) = leading (ds.drop (e + 1)) (-1)) :
        Decimal ((digitText whole).codes ++ 46 :: (digitText fraction).codes) (leading ds e) := by
      have hwhole : ∀ c ∈ whole, c < 10 :=
        List.forall_mem_append.2 ⟨fun c hc => hd c (List.mem_of_mem_take hc), forall_mem_zeros _⟩
      have point := decimal_point hwhole hf (List.ne_nil_of_length_pos (by omega))
      rw [length, same] at point
      rw [below]
      simpa using point
    have text : digitText (ds.take (e + 1)) ++ zeros (e + 1 - ds.length) = digitText whole := by
      rw [zeros_eq, digitText_append]
    simp only [positional, text, Digits.value]
    split
    · rename_i none
      rw [List.isEmpty_iff] at none
      exact decimal [0] (by decide) (by simp [none, leading])
    · rw [Text.codes_append, Text.codes_append, List.append_assoc]
      exact decimal (ds.drop (e + 1)) (fun c hc => hd c (List.mem_of_mem_drop hc)) rfl

theorem ofNat_eq (n : Nat) : Text.ofNat n = digitText (decimalDigits n) := by
  unfold Text.ofNat digitText decimalDigits
  rw [List.map_map]
  refine congrArg Text.mk (List.map_congr_left fun c hc => ?_)
  have digit := Nat.isDigit_of_mem_toDigits (by decide) (by decide) hc
  have least : 48 ≤ c.toNat := (Char.isDigit_iff_toNat.1 digit).1
  simp only [Function.comp_apply]
  omega

theorem decimalDigits_lt (n : Nat) : ∀ d ∈ decimalDigits n, d < 10 := by
  intro d hd
  obtain ⟨c, hc, rfl⟩ := List.mem_map.1 hd
  have digit := Nat.isDigit_of_mem_toDigits (by decide) (by decide) hc
  have most : c.toNat ≤ 57 := (Char.isDigit_iff_toNat.1 digit).2
  omega

theorem codes_ofNat (n : Nat) : ∀ c ∈ (Text.ofNat n).codes, 48 ≤ c ∧ c ≤ 57 := by
  rw [ofNat_eq]
  intro c hc
  obtain ⟨d, hd, rfl⟩ := List.mem_map.1 hc
  have := decimalDigits_lt n d hd
  omega

theorem inOrder_padded (k : Nat) (ds : List Nat) :
    Digits.inOrder 10 (List.replicate k 0 ++ ds) = Digits.inOrder 10 ds := by
  have zero : Digits.inOrder 10 (List.replicate k 0) = 0 := by
    induction k with
    | zero => rfl
    | succ k ih => simpa [Digits.inOrder, List.replicate_succ] using ih
  rw [Digits.inOrder_append, zero, Nat.zero_mul, Nat.zero_add]

theorem withSign_natAbs (n : Int) : withSign (decide (n < 0)) n.natAbs = n := by
  rcases Int.lt_or_le n 0 with h | h
  · rw [decide_eq_true h, withSign, if_pos rfl]
    omega
  · rw [decide_eq_false (by omega), withSign, if_neg (by decide)]
    omega

/-- A mantissa that has the digits behind its first behind a point, with an exponent. -/
theorem decimal_with_exponent {mantissa : Text} {ds : List Nat}
    (digit : ∃ c rest, mantissa.codes = c :: rest ∧ 48 ≤ c ∧ c ≤ 57)
    (plain : ∀ c ∈ mantissa.codes, c ≠ 101 ∧ Unbroken c)
    (value : readMantissa mantissa.codes = leading ds 0) (e : Int) (k : Nat) :
    Decimal (mantissa ++ ("e" : Text) ++ (if e < 0 then ("-" : Text) else "+") ++ zeros k ++ Text.ofNat e.natAbs).codes
      (leading ds e) := by
  have text : (mantissa ++ ("e" : Text) ++ (if e < 0 then ("-" : Text) else "+") ++ zeros k ++
      Text.ofNat e.natAbs).codes = mantissa.codes ++ 101 :: (if decide (e < 0) then 45 else 43) ::
        (digitText (List.replicate k 0 ++ decimalDigits e.natAbs)).codes := by
    rw [← digitText_append, ← zeros_eq, ← ofNat_eq]
    have sign : (if e < 0 then ("-" : Text) else "+").codes = [if decide (e < 0) then 45 else 43] := by
      by_cases h : e < 0
      · simp only [h, if_true, decide_true]
        rfl
      · simp only [h, if_false, decide_false, Bool.false_eq_true]
        rfl
    have mark : ("e" : Text).codes = [101] := rfl
    simp only [Text.codes_append, sign, mark, List.append_assoc, List.cons_append, List.nil_append]
  obtain ⟨c, rest, first, least, most⟩ := digit
  rw [text]
  have unbroken : ∀ c ∈ (digitText (List.replicate k 0 ++ decimalDigits e.natAbs)).codes, Unbroken c :=
    unbroken_digits (List.forall_mem_append.2 ⟨forall_mem_zeros k, decimalDigits_lt _⟩)
  refine ⟨⟨c, _, by rw [first]; rfl, least, most⟩, .inr (by simp), ?_, ?_⟩
  · refine List.forall_mem_append.2 ⟨fun c hc => (plain c hc).2, ?_⟩
    refine List.forall_mem_cons.2 ⟨by decide, List.forall_mem_cons.2 ⟨?_, unbroken⟩⟩
    split <;> decide
  rw [readDecimal_exponent fun c hc => (plain c hc).1, value, inOrder_padded, inOrder_decimalDigits, withSign_natAbs,
    ← leading_shift, zero_add]

theorem decimal_exponential {d : Digits} (hd : ∀ c ∈ d.digits, c < 10) (width : Nat) :
    Decimal (exponential width d).codes d.value := by
  obtain ⟨ds, e⟩ := d
  have plain {as : List Nat} (ha : ∀ c ∈ as, c < 10) : ∀ c ∈ (digitText as).codes, c ≠ 101 ∧ Unbroken c := by
    intro c hc
    refine ⟨?_, unbroken_digits ha c hc⟩
    obtain ⟨d, hd, rfl⟩ := List.mem_map.1 hc
    have := ha d hd
    omega
  rcases ds with _ | ⟨c, _ | ⟨c', rest⟩⟩
  · have zero : ∀ d ∈ [0], d < 10 := by decide
    have value : readMantissa (digitText [0]).codes = leading [] 0 := by
      rw [readMantissa_whole zero]
      simp [leading]
    exact decimal_with_exponent ⟨48, [], rfl, by decide, by decide⟩ (plain zero) value e _
  · have lt : c < 10 := hd c (by simp)
    exact decimal_with_exponent ⟨48 + c, [], rfl, by omega, by omega⟩ (plain hd) (readMantissa_whole hd) e _
  · obtain ⟨first, others⟩ := List.forall_mem_cons.1 hd
    have all : ∀ d ∈ [c], d < 10 := by simpa using first
    have text : (digitText [c] ++ ("." : Text) ++ digitText (c' :: rest)).codes =
        (digitText [c]).codes ++ 46 :: (digitText (c' :: rest)).codes := rfl
    have value : readMantissa (digitText [c] ++ ("." : Text) ++ digitText (c' :: rest)).codes =
        leading (c :: c' :: rest) 0 := by
      rw [text, readMantissa_point all]
      simp [leading]
    refine decimal_with_exponent ⟨48 + c, _, text, by omega, by omega⟩ ?_ value e _
    rw [text]
    exact List.forall_mem_append.2 ⟨plain all, List.forall_mem_cons.2 ⟨by decide, plain others⟩⟩

theorem decimal_layDigits {d : Digits} (hd : ∀ c ∈ d.digits, c < 10) : Decimal (layDigits .json d).codes d.value := by
  unfold layDigits
  split
  · exact decimal_positional hd
  · exact decimal_exponential hd _

/-! ## Numbers are known by their texts -/

/-- What can be read from the text of a number. -/
inductive Reading
  | nan
  | infinite (negative : Bool)
  | decimal (negative : Bool) (x : ℚ)
  | whole (negative : Bool) (n : Nat)

/-- What stands behind the sign. -/
def readUnsigned (negative : Bool) (cs : List Nat) : Reading :=
  if cs.head? = some 78 then .nan
  else if cs.head? = some 73 then .infinite negative
  else if 46 ∈ cs ∨ 101 ∈ cs then .decimal negative (readDecimal cs)
  else .whole negative (Digits.inOrder 10 (digitsOf cs))

def readNumber (cs : List Nat) : Reading :=
  if cs.head? = some 45 then readUnsigned true cs.tail else readUnsigned false cs

/-- The written value of a finite double. -/
def written (m : Nat) (e : Int) : ℚ :=
  if m = 0 then 0 else (shortest m e).value

/-- What should be read from the text of a number. -/
def reading : Number → Reading
  | .int n => .whole (decide (n < 0)) n.natAbs
  | .float x =>
    match parts x with
    | .nan => .nan
    | .infinite negative => .infinite negative
    | .finite negative m e => .decimal negative (written m e)

theorem readNumber_sign (negative : Bool) {cs : List Nat} (h : cs.head? ≠ some 45) :
    readNumber ((if negative then ("-" : Text) else "").codes ++ cs) = readUnsigned negative cs := by
  cases negative with
  | true => rfl
  | false => exact if_neg h

theorem readUnsigned_decimal (negative : Bool) {cs : List Nat} {x : ℚ} (h : Decimal cs x) :
    cs.head? ≠ some 45 ∧ readUnsigned negative cs = .decimal negative x := by
  obtain ⟨c, rest, rfl, least, most⟩ := h.digit
  have head (k : Nat) (hk : k < 48 ∨ 57 < k) : (c :: rest).head? ≠ some k := by
    simp only [List.head?_cons, ne_eq, Option.some.injEq]
    omega
  refine ⟨head 45 (by decide), ?_⟩
  rw [readUnsigned, if_neg (head 78 (by decide)), if_neg (head 73 (by decide)), if_pos h.marked, h.value]

theorem readUnsigned_whole (negative : Bool) (n : Nat) :
    (Text.ofNat n).codes.head? ≠ some 45 ∧ readUnsigned negative (Text.ofNat n).codes = .whole negative n := by
  have digits := codes_ofNat n
  have head (k : Nat) (hk : k < 48 ∨ 57 < k) : (Text.ofNat n).codes.head? ≠ some k := by
    intro first
    have := digits k (List.mem_of_mem_head? first)
    omega
  have plain : ¬(46 ∈ (Text.ofNat n).codes ∨ 101 ∈ (Text.ofNat n).codes) := by
    rintro (h | h)
    · have := digits _ h
      omega
    · have := digits _ h
      omega
  refine ⟨head 45 (by decide), ?_⟩
  rw [readUnsigned, if_neg (head 78 (by decide)), if_neg (head 73 (by decide)), if_neg plain, ofNat_eq, digitsOf_codes,
    inOrder_decimalDigits]

theorem shortest_digits_lt (m : Nat) (e : Int) : ∀ c ∈ (shortest m e).digits, c < 10 := by
  unfold shortest
  simp only
  generalize found : (List.range 17).findSome? _ = digits?
  cases digits? with
  | none => exact decimalDigits_lt m
  | some d =>
    obtain ⟨k, -, attempt⟩ := List.exists_of_findSome?_eq_some found
    obtain ⟨c, -, rfl⟩ := Option.map_eq_some_iff.1 attempt
    intro d hd
    have kept : d ∈ decimalDigits c := by
      simp only [dropZeros, Option.getD_some, List.mem_reverse] at hd
      exact List.mem_reverse.1 (List.dropWhile_sublist _ |>.mem hd)
    exact decimalDigits_lt c d kept

theorem decimal_finite (m : Nat) (e : Int) :
    Decimal (if m = 0 then positional true ⟨[0], 0⟩ else layDigits .json (shortest m e)).codes (written m e) := by
  unfold written
  split
  · have zero : Digits.value ⟨[0], 0⟩ = 0 := by simp [Digits.value, leading]
    exact zero ▸ decimal_positional (by decide)
  · exact decimal_layDigits (shortest_digits_lt m e)

/-- The text of an integer, and of a finite float, behind its sign. -/
theorem codes_lay_int (n : Int) : (lay .json (.int n)).codes =
    (if decide (n < 0) then ("-" : Text) else "").codes ++ (Text.ofNat n.natAbs).codes := by
  rw [lay, Text.ofInt]
  by_cases h : n < 0
  · rw [if_pos h, decide_eq_true h]
    rfl
  · rw [if_neg h, decide_eq_false h]
    rfl

theorem codes_lay_finite {x : Float} {negative : Bool} {m : Nat} {e : Int} (hx : parts x = .finite negative m e) :
    (lay .json (.float x)).codes = (if negative then ("-" : Text) else "").codes ++
      (if m = 0 then positional true ⟨[0], 0⟩ else layDigits .json (shortest m e)).codes := by
  rw [lay, layFloat, hx]
  rfl

/-- The text of a number says what the number is. -/
theorem readNumber_lay (n : Number) : readNumber (n.lay .json).codes = n.reading := by
  cases n with
  | int n =>
    obtain ⟨head, value⟩ := readUnsigned_whole (decide (n < 0)) n.natAbs
    rw [codes_lay_int, readNumber_sign _ head, value, reading]
  | float x =>
    cases hx : parts x with
    | nan =>
      rw [lay, layFloat, reading, hx]
      rfl
    | infinite negative =>
      rw [lay, layFloat, reading, hx]
      cases negative <;> rfl
    | finite negative m e =>
      obtain ⟨head, value⟩ := readUnsigned_decimal negative (decimal_finite m e)
      rw [codes_lay_finite hx, readNumber_sign _ head, value, reading, hx]

/-- Nothing in the text of a number ends it, and it begins with a sign, a digit or a capital letter. -/
theorem lay_unbroken (n : Number) : (∀ c ∈ (n.lay .json).codes, Unbroken c) ∧
    ∃ c rest, (n.lay .json).codes = c :: rest ∧ (c = 45 ∨ 48 ≤ c ∧ c ≤ 57 ∨ c = 73 ∨ c = 78) := by
  -- a sign in front changes neither
  have signed (negative : Bool) {cs : List Nat} (unbroken : ∀ c ∈ cs, Unbroken c)
      (digit : ∃ c rest, cs = c :: rest ∧ 48 ≤ c ∧ c ≤ 57) :
      (∀ c ∈ (if negative then ("-" : Text) else "").codes ++ cs, Unbroken c) ∧
        ∃ c rest, (if negative then ("-" : Text) else "").codes ++ cs = c :: rest ∧
          (c = 45 ∨ 48 ≤ c ∧ c ≤ 57 ∨ c = 73 ∨ c = 78) := by
    cases negative with
    | true => exact ⟨List.forall_mem_cons.2 ⟨by decide, unbroken⟩, 45, cs, rfl, .inl rfl⟩
    | false =>
      obtain ⟨c, rest, rfl, range⟩ := digit
      exact ⟨unbroken, c, rest, rfl, .inr (.inl range)⟩
  cases n with
  | int n =>
    rw [codes_lay_int, ofNat_eq]
    refine signed _ (unbroken_digits (decimalDigits_lt _)) ?_
    obtain ⟨d, ds, digits⟩ := List.exists_cons_of_ne_nil (l := decimalDigits n.natAbs) (by
      simp [decimalDigits, Nat.toDigits_ne_nil])
    have lt := decimalDigits_lt n.natAbs d (by simp [digits])
    exact ⟨48 + d, _, by rw [digits]; rfl, by omega, by omega⟩
  | float x =>
    cases hx : parts x with
    | nan =>
      rw [lay, layFloat, hx]
      exact ⟨by decide, 78, _, rfl, by decide⟩
    | infinite negative =>
      rw [lay, layFloat, hx]
      cases negative with
      | true => exact ⟨by decide, 45, _, rfl, by decide⟩
      | false => exact ⟨by decide, 73, _, rfl, by decide⟩
    | finite negative m e =>
      rw [codes_lay_finite hx]
      exact signed negative (decimal_finite m e).unbroken (decimal_finite m e).digit

theorem written_pos {m : Nat} {e : Int} (h : Legal m e) (hm : 0 < m) : 0 < written m e := by
  rw [written, if_neg hm.ne']
  exact neighbourhood_pos hm (shortest_holds h hm)

/-- Finite doubles are known by their written values. -/
theorem written_injective {m m' : Nat} {e e' : Int} (h : Legal m e ∧ (m = 0 → e = -1074))
    (h' : Legal m' e' ∧ (m' = 0 → e' = -1074)) (same : written m e = written m' e') : m = m' ∧ e = e' := by
  rcases Nat.eq_zero_or_pos m with rfl | hm <;> rcases Nat.eq_zero_or_pos m' with rfl | hm'
  · exact ⟨rfl, (h.2 rfl).trans (h'.2 rfl).symm⟩
  · exact absurd same (written_pos h'.1 hm').ne
  · exact absurd same (written_pos h.1 hm).ne'
  · have holds := shortest_holds h.1 hm
    rw [written, written, if_neg hm.ne', if_neg hm'.ne'] at same
    exact h.1.unique h'.1 holds (same ▸ shortest_holds h'.1 hm')

/-- Two numbers of which the same is to be read are the same. -/
theorem reading_injective {a b : Number} (h : a.reading = b.reading) : a = b := by
  have apart (n : Int) (x : Float) : reading (.int n) ≠ reading (.float x) := by
    rw [reading, reading]
    cases parts x <;> exact Reading.noConfusion
  cases a with
  | int n =>
    cases b with
    | int n' =>
      simp only [reading, Reading.whole.injEq] at h
      rw [← withSign_natAbs n, ← withSign_natAbs n', h.1, h.2]
    | float y => exact absurd h (apart n y)
  | float x =>
    cases b with
    | int n => exact absurd h.symm (apart n x)
    | float y =>
      refine congrArg Number.float (parts_injective ?_)
      rw [reading, reading] at h
      cases hx : parts x with
      | nan => cases hy : parts y <;> simp [hx, hy] at h ⊢
      | infinite negative => cases hy : parts y <;> simp [hx, hy] at h ⊢; exact h
      | finite negative m e =>
        cases hy : parts y with
        | nan | infinite => simp [hx, hy] at h
        | finite negative' m' e' =>
          simp only [hx, hy, Reading.decimal.injEq] at h
          obtain ⟨rfl, same⟩ := h
          obtain ⟨rfl, rfl⟩ := written_injective (legal_of_parts hx) (legal_of_parts hy) same
          rfl

/-- The JSON text of a number is that of no other. -/
theorem lay_injective {a b : Number} (h : a.lay .json = b.lay .json) : a = b :=
  reading_injective (by rw [← readNumber_lay, ← readNumber_lay, h])

end Number

end ScriptTrace
