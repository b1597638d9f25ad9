import ScriptTrace.Text.Basic
/-!
# Texts from bytes

Reading a text from its UTF-8 form, byte by byte. A sequence in progress says which bytes may come next, so
overlong forms, surrogates and code points past the last one are refused at the first byte that makes them
wrong. What is refused is described by the bytes of the sequence up to there.
-/
namespace ScriptTrace.Utf8

/-- Why bytes are no UTF-8. -/
inductive Reason
  | noStart
  | noContinuation
  | unfinished
deriving DecidableEq, Repr

def Reason.text : Reason → Text
  | .noStart => "invalid start byte"
  | .noContinuation => "invalid continuation byte"
  | .unfinished => "unexpected end of data"

/-- Where bytes stop being UTF-8: the position and the number of the bytes at fault, and the first of them. -/
structure Malformed where
  position : Nat
  count : Nat
  byte : Nat
  reason : Reason
deriving DecidableEq, Repr

/-- The two hexadecimal digits of a byte. -/
def hexByte (b : Nat) : Text :=
  let digits := (Nat.toDigits 16 b).map Char.toNat
  ⟨List.replicate (2 - digits.length) 48 ++ digits⟩

def Malformed.message (m : Malformed) : Text :=
  let place :=
    if m.count = 1 then Text.concat ["byte 0x", hexByte m.byte, " in position ", (m.position : Text)]
    else Text.concat ["bytes in position ", (m.position : Text), "-", (m.position + m.count - 1 : Nat)]
  Text.concat ["'utf-8' codec can't decode ", place, ": ", m.reason.text]

/-- A sequence in progress. -/
structure Sequence where
  position : Nat
  first : Nat
  /-- How many bytes have been read, and how many are missing. -/
  seen : Nat
  missing : Nat
  /-- The bits read so far. -/
  code : Nat
  /-- The least and the greatest byte that may come next. -/
  low : Nat
  high : Nat

/-- The sequence that a byte beyond ASCII starts. -/
def start? (position b : Nat) : Option Sequence :=
  if b < 0xC2 then none
  else if b < 0xE0 then some ⟨position, b, 1, 1, b % 0x20, 0x80, 0xBF⟩
  else if b < 0xF0 then
    some ⟨position, b, 1, 2, b % 0x10, if b = 0xE0 then 0xA0 else 0x80, if b = 0xED then 0x9F else 0xBF⟩
  else if b < 0xF5 then
    some ⟨position, b, 1, 3, b % 0x08, if b = 0xF0 then 0x90 else 0x80, if b = 0xF4 then 0x8F else 0xBF⟩
  else none

def Sequence.malformed (s : Sequence) (reason : Reason) : Malformed :=
  ⟨s.position, s.seen, s.first, reason⟩

/-- The code points of bytes, the first of which has the given position. -/
def decodeFrom : Nat → Option Sequence → List Nat → Except Malformed (List Nat)
  | _, none, [] => .ok []
  | _, some s, [] => .error (s.malformed .unfinished)
  | position, none, b :: rest =>
    if b < 0x80 then (decodeFrom (position + 1) none rest).map (b :: ·)
    else
      match start? position b with
      | none => .error ⟨position, 1, b, .noStart⟩
      | some s => decodeFrom (position + 1) (some s) rest
  | position, some s, b :: rest =>
    if s.low ≤ b ∧ b ≤ s.high then
      let code := s.code * 0x40 + b % 0x40
      if s.missing = 1 then (decodeFrom (position + 1) none rest).map (code :: ·)
      else
        decodeFrom (position + 1)
          (some { s with seen := s.seen + 1, missing := s.missing - 1, code := code, low := 0x80, high := 0xBF })
          rest
    else .error (s.malformed .noContinuation)

/-- The text of bytes. -/
def decode (bytes : List Nat) : Except Malformed Text :=
  (decodeFrom 0 none bytes).map Text.mk

end ScriptTrace.Utf8
