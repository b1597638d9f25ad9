import Mathlib.Data.Int.Bitwise
import ScriptTrace.Proofs.ExactValues
import ScriptTrace.Script.Expr
/-!
# Bitwise operators on words

A bitwise operator takes its operands for integers, cuts these to signed integers of 32 bits, and works on them as on
integers of any size. The result is cut again. All of this is arithmetic on words of 32 bits in two's complement: to cut
an integer is to take its word, and the operators do to the words what their spelling says. The result is read with a
sign; `>>>` alone reads it without one. A shift is by the low five bits of the other word.

Integers of any size are meant, whichever way they are carried: a large integer is carried as a float. What has no
value, a NaN or an infinity, acts as zero.

* `Bits.getLsbD_ofInt`: the bits of the word of an integer.
* `signed32_eq`, `and_ones`: cutting an integer.
* `wordTable`: the operators by their spellings.
* `bitwise_on_words`: what they give.
-/
namespace ScriptTrace

/-! ## Bits of integers -/

namespace Bits

theorem bitwise_eq_int (f : Bool → Bool → Bool) (a b : Int) : bitwise f a b = Int.bitwise f a b := by
  have ofNats_eq (f : Bool → Bool → Bool) (m n : Nat) : ofNats f m n = Int.natBitwise f m n := by
    unfold ofNats Int.natBitwise
    cases f false false <;> rfl
  cases a <;> cases b <;> simp only [bitwise, Int.bitwise, ofNats_eq]

/-- The word of an integer has its low bits. -/
theorem getLsbD_ofInt (w : Nat) (a : Int) (i : Nat) :
    (BitVec.ofInt w a).getLsbD i = (decide (i < w) && a.testBit i) := by
  cases a with
  | ofNat m => exact BitVec.getLsbD_ofNat ..
  | negSucc m =>
    rw [BitVec.ofInt_negSucc_eq_not_ofNat, BitVec.getLsbD_not, BitVec.getLsbD_ofNat, Int.testBit]
    cases decide (i < w) <;> rfl

theorem getLsbD_bitwise {w i : Nat} (f : Bool → Bool → Bool) (a b : Int) (hi : i < w) :
    (BitVec.ofInt w (bitwise f a b)).getLsbD i = f ((BitVec.ofInt w a).getLsbD i) ((BitVec.ofInt w b).getLsbD i) := by
  simp only [getLsbD_ofInt, bitwise_eq_int, Int.testBit_bitwise, hi, decide_true, Bool.true_and]

variable (w : Nat) (a b : Int)

theorem ofInt_and : BitVec.ofInt w (and a b) = BitVec.ofInt w a &&& BitVec.ofInt w b := by
  refine BitVec.eq_of_getLsbD_eq fun i hi => ?_
  rw [and, getLsbD_bitwise _ _ _ hi, BitVec.getLsbD_and]

theorem ofInt_or : BitVec.ofInt w (or a b) = BitVec.ofInt w a ||| BitVec.ofInt w b := by
  refine BitVec.eq_of_getLsbD_eq fun i hi => ?_
  rw [or, getLsbD_bitwise _ _ _ hi, BitVec.getLsbD_or]

theorem ofInt_xor : BitVec.ofInt w (xor a b) = BitVec.ofInt w a ^^^ BitVec.ofInt w b := by
  refine BitVec.eq_of_getLsbD_eq fun i hi => ?_
  rw [xor, getLsbD_bitwise _ _ _ hi, BitVec.getLsbD_xor]

theorem ofInt_not : BitVec.ofInt w (~~~a) = ~~~BitVec.ofInt w a := by
  cases a with
  | ofNat m => exact BitVec.ofInt_negSucc_eq_not_ofNat
  | negSucc m =>
    rw [BitVec.ofInt_negSucc_eq_not_ofNat, BitVec.not_not]
    rfl

theorem ofInt_shiftLeft (count : Nat) : BitVec.ofInt w (a <<< count) = BitVec.ofInt w a <<< count := by
  have power : BitVec.ofInt w (2 ^ count) = BitVec.twoPow w count := by
    refine BitVec.eq_of_toNat_eq ?_
    rw [BitVec.toNat_twoPow, ← Nat.cast_ofNat, ← Nat.cast_pow, BitVec.ofInt_natCast, BitVec.toNat_ofNat]
  rw [Int.shiftLeft_eq, BitVec.ofInt_mul, power, BitVec.shiftLeft_eq_mul_twoPow]

/-- A mask of ones leaves the word of an integer, read without a sign. -/
theorem and_ones : and a (2 ^ w - 1 : Nat) = (BitVec.ofInt w a).toNat := by
  obtain ⟨low, same⟩ : ∃ low : Nat, and a (2 ^ w - 1 : Nat) = low := by
    cases a <;> exact ⟨_, rfl⟩
  rw [same]
  refine congrArg Int.ofNat (Nat.eq_of_testBit_eq fun i => ?_)
  have bits := Int.testBit_bitwise (· && ·) a (2 ^ w - 1 : Nat) i
  rw [← bitwise_eq_int, show bitwise _ a _ = low from same] at bits
  rw [BitVec.testBit_toNat, getLsbD_ofInt, Bool.and_comm, ← Nat.testBit_two_pow_sub_one]
  exact bits

end Bits

/-! ## The word of a number -/

/-- Whether a number acts as an integer: it is that integer, or it is not finite and acts as zero. -/
def Number.ActsAs (n : Number) (a : Int) : Prop :=
  n.value?.getD 0 = a

namespace Value

/-- Whether a value acts as an integer when it is taken for a number. -/
def ActsAs (h : Heap) (v : Value) (a : Int) : Prop :=
  ∃ n, v.toNumber h = .ok n ∧ n.ActsAs a

variable {h : Heap} {l r v : Value} {n : Number} {a b : Int}

theorem truncate_of_actsAs {x : Float} (acts : (Number.float x).ActsAs a) : Binary64.truncate x = a := by
  have value : (Binary64.value? x).getD 0 = a := acts
  cases known : Binary64.value? x with
  | some q =>
    rw [known, Option.getD_some] at value
    exact (Binary64.value?_eq_int_iff.1 (known.trans (congrArg some value))).2
  | none =>
    rw [known, Option.getD_none] at value
    obtain rfl : 0 = a := by exact_mod_cast value
    unfold Binary64.value? at known
    unfold Binary64.truncate
    split at known <;> simp_all

theorem wholeOf_eq (acts : n.ActsAs a) : wholeOf n = a := by
  cases n with
  | int n => exact Int.cast_injective (α := ℚ) acts
  | float x => exact truncate_of_actsAs acts

/-! ## Operations on words -/

theorem and_wordMask (n : Int) : Bits.and n wordMask = (BitVec.ofInt 32 n).toNat :=
  Bits.and_ones 32 n

/-- Cutting an integer to 32 bits is reading its word with a sign. -/
theorem signed32_eq (n : Int) : signed32 n = (BitVec.ofInt 32 n).toInt := by
  rw [signed32, and_wordMask, BitVec.toInt_eq_toNat_cond]
  split <;> split <;> omega

theorem toInt32_eq (hv : v.ActsAs h a) : v.toInt32 h = .ok (BitVec.ofInt 32 a).toInt := by
  obtain ⟨n, number, acts⟩ := hv
  rw [toInt32, number, ← signed32_eq, ← wholeOf_eq acts]
  rfl

theorem toUInt32_eq (hv : v.ActsAs h a) : v.toUInt32 h = .ok ((BitVec.ofInt 32 a).toNat : Int) := by
  rw [toUInt32, toInt32_eq hv]
  show Except.ok (Bits.and _ wordMask) = _
  rw [and_wordMask, BitVec.ofInt_toInt]

theorem shiftCount_eq (hv : v.ActsAs h a) : v.shiftCount h = .ok ((BitVec.ofInt 32 a).toNat % 32) := by
  rw [shiftCount, toUInt32_eq hv]
  show Except.ok (Bits.and _ (2 ^ 5 - 1 : Nat)).toNat = _
  rw [Bits.and_ones, BitVec.ofInt_natCast, BitVec.toNat_ofNat]
  rfl

/-- The bitwise operators with two operands by their spellings. -/
def wordTable : List (String × (BitVec 32 → BitVec 32 → Int)) :=
  [("&", fun a b => (a &&& b).toInt),
    ("|", fun a b => (a ||| b).toInt),
    ("^", fun a b => (a ^^^ b).toInt),
    ("<<", fun a b => (a <<< (b.toNat % 32)).toInt),
    (">>", fun a b => (a.sshiftRight (b.toNat % 32)).toInt),
    (">>>", fun a b => (a >>> (b.toNat % 32)).toNat)]

/-- An operation on signed integers that agrees with one on words. -/
theorem bitwise_eq {op : Int → Int → Int} (f : BitVec 32 → BitVec 32 → BitVec 32)
    (agree : ∀ a b, BitVec.ofInt 32 (op a b) = f (.ofInt 32 a) (.ofInt 32 b)) (hl : l.ActsAs h a) (hr : r.ActsAs h b) :
    bitwise h op l r = .ok (.number (.int (f (.ofInt 32 a) (.ofInt 32 b)).toInt)) := by
  rw [bitwise, toInt32_eq hl, toInt32_eq hr]
  show Except.ok (number (.int (signed32 (op _ _)))) = _
  rw [signed32_eq, agree, BitVec.ofInt_toInt, BitVec.ofInt_toInt]

/-- A shift of what is read of a word that agrees with one of the word. -/
theorem shift_eq {read : Heap → Value → Except Fault Int} {op : Int → Nat → Int} (first : BitVec 32 → Int)
    (f : BitVec 32 → Nat → Int) (hread : read h l = .ok (first (.ofInt 32 a)))
    (agree : ∀ v count, op (first v) count = f v count) (hr : r.ActsAs h b) :
    shift h read op l r = .ok (.number (.int (f (.ofInt 32 a) ((BitVec.ofInt 32 b).toNat % 32)))) := by
  rw [shift, hread, shiftCount_eq hr, ← agree]
  rfl

theorem apply_wordTable (hl : l.ActsAs h a) (hr : r.ActsAs h b) : ∀ entry ∈ wordTable, ∃ op,
    BinaryOp.ofText? entry.1 = some op ∧
      apply h op l r = .ok (.number (.int (entry.2 (.ofInt 32 a) (.ofInt 32 b)))) := by
  rintro _ (_ | ⟨_, _ | ⟨_, _ | ⟨_, _ | ⟨_, _ | ⟨_, _ | ⟨_, ⟨⟩⟩⟩⟩⟩⟩⟩)
  · exact ⟨.bitAnd, rfl, bitwise_eq (· &&& ·) (Bits.ofInt_and 32) hl hr⟩
  · exact ⟨.bitOr, rfl, bitwise_eq (· ||| ·) (Bits.ofInt_or 32) hl hr⟩
  · exact ⟨.bitXor, rfl, bitwise_eq (· ^^^ ·) (Bits.ofInt_xor 32) hl hr⟩
  · refine ⟨.shiftLeft, rfl, shift_eq (·.toInt) (fun v n => (v <<< n).toInt) (toInt32_eq hl) (fun v n => ?_) hr⟩
    rw [signed32_eq, Bits.ofInt_shiftLeft, BitVec.ofInt_toInt]
  · refine ⟨.shiftRight, rfl, shift_eq (·.toInt) (fun v n => (v.sshiftRight n).toInt) (toInt32_eq hl) ?_ hr⟩
    exact fun v n => BitVec.toInt_sshiftRight.symm
  · refine ⟨.shiftRightZero, rfl, shift_eq (·.toNat) (fun v n => (v >>> n).toNat) (toUInt32_eq hl) ?_ hr⟩
    exact fun v n => congrArg Int.ofNat (BitVec.toNat_ushiftRight v n).symm

theorem wordTable_range (v w : BitVec 32) : ∀ entry ∈ wordTable,
    if entry.1 = ">>>" then 0 ≤ entry.2 v w ∧ entry.2 v w < 2 ^ 32
    else -2 ^ 31 ≤ entry.2 v w ∧ entry.2 v w < 2 ^ 31 := by
  have signed (u : BitVec 32) : -2 ^ 31 ≤ u.toInt ∧ u.toInt < 2 ^ 31 := ⟨u.le_toInt, u.toInt_lt⟩
  have unsigned (u : BitVec 32) : 0 ≤ (u.toNat : Int) ∧ (u.toNat : Int) < 2 ^ 32 :=
    ⟨Int.natCast_nonneg _, by exact_mod_cast u.isLt⟩
  simp only [wordTable, List.forall_mem_cons]
  exact ⟨signed _, signed _, signed _, signed _, signed _, unsigned _, List.forall_mem_nil _⟩

theorem bitNot_eq (hv : v.ActsAs h a) : bitNot h v = .ok (.number (.int (~~~BitVec.ofInt 32 a).toInt)) := by
  rw [bitNot, toInt32_eq hv]
  show Except.ok (number (.int (signed32 (~~~_)))) = _
  rw [signed32_eq, Bits.ofInt_not, BitVec.ofInt_toInt]

end Value

/-- For operands that act as integers, of any size and sign, the bitwise operators give what the operations on words of
32 bits give, within the range of signed words, and `>>>` within that of words without a sign. -/
theorem bitwise_on_words {h : Heap} {l r : Value} {a b : Int} (hl : l.ActsAs h a) (hr : r.ActsAs h b) :
    (∀ entry ∈ Value.wordTable, ∃ op result, BinaryOp.ofText? entry.1 = some op ∧
      Value.apply h op l r = .ok (.number (.int result)) ∧
      result = entry.2 (.ofInt 32 a) (.ofInt 32 b) ∧
      if entry.1 = ">>>" then 0 ≤ result ∧ result < 2 ^ 32 else -2 ^ 31 ≤ result ∧ result < 2 ^ 31) ∧
    ∃ result, UnaryOp.ofText "~" = .complement ∧ Value.bitNot h l = .ok (.number (.int result)) ∧
      result = (~~~BitVec.ofInt 32 a).toInt ∧ -2 ^ 31 ≤ result ∧ result < 2 ^ 31 := by
  constructor
  · intro entry mem
    obtain ⟨op, spelled, result⟩ := Value.apply_wordTable hl hr entry mem
    exact ⟨op, _, spelled, result, rfl, Value.wordTable_range _ _ entry mem⟩
  · exact ⟨_, rfl, Value.bitNot_eq hl, rfl, BitVec.le_toInt _, BitVec.toInt_lt⟩

/-- An array of one large integer, carried as a float, and an infinity: the first is the word `2 ^ 31 + 2048`, the
second acts as zero. -/
theorem bitwise_on_words_large_and_infinite :
    let h : Heap := ⟨#[[.number (.float 9223372039002261504)]], #[], 1000⟩
    (Value.array 0).ActsAs h 9223372039002261504 ∧ (Value.number (.infinity true)).ActsAs h 0 ∧
      Value.apply h .bitOr (.array 0) (.number (.infinity true)) = .ok (.number (.int (-2147481600))) ∧
      Value.apply h .shiftRightZero (.array 0) (.number (.infinity true)) = .ok (.number (.int 2147485696)) ∧
      Value.bitNot h (.array 0) = .ok (.number (.int 2147481599)) := by
  intro h
  have large : (Value.array 0).ActsAs h 9223372039002261504 := by
    refine ⟨.float 9223372039002261504, by decide +kernel, ?_⟩
    have value : Binary64.value? 9223372039002261504 = some ((9223372039002261504 : Int) : ℚ) :=
      Binary64.value?_eq_int_iff.2 (by decide +kernel)
    rw [Number.ActsAs, Number.value?, value, Option.getD_some]
  have infinite : (Value.number (.infinity true)).ActsAs h 0 := ⟨.infinity true, rfl, rfl⟩
  obtain ⟨binary, not, -, result, rfl, -⟩ := bitwise_on_words large infinite
  obtain ⟨_, _, spelled, disjunction, rfl, -⟩ := binary ("|", _) (.tail _ (.head _))
  obtain ⟨_, _, spelled', shifted, rfl, -⟩ :=
    binary (">>>", _) (.tail _ (.tail _ (.tail _ (.tail _ (.tail _ (.head _))))))
  cases spelled
  cases spelled'
  exact ⟨large, infinite, disjunction, shifted, result⟩

end ScriptTrace
