/-!
# Bits of integers

An integer of any size is an endless word of bits in two's complement. A natural number has zeros without end, and
the negative integer `-1 - n` has the bits of `n` turned around.
-/
namespace ScriptTrace.Bits

/-- The integer with the bits that an operation gives for those of two natural numbers. -/
def ofNats (f : Bool → Bool → Bool) (m n : Nat) : Int :=
  if f false false then .negSucc (Nat.bitwise (fun p q => !f p q) m n) else .ofNat (Nat.bitwise f m n)

/-- Applies an operation on bits to two integers. -/
def bitwise (f : Bool → Bool → Bool) : Int → Int → Int
  | .ofNat m, .ofNat n => ofNats f m n
  | .ofNat m, .negSucc n => ofNats (fun p q => f p !q) m n
  | .negSucc m, .ofNat n => ofNats (fun p q => f (!p) q) m n
  | .negSucc m, .negSucc n => ofNats (fun p q => f (!p) !q) m n

def and : Int → Int → Int := bitwise (· && ·)

def or : Int → Int → Int := bitwise (· || ·)

def xor : Int → Int → Int := bitwise (· ^^ ·)

end ScriptTrace.Bits
