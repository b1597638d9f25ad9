import ScriptTrace.Text.Digit
/-!
# Escapes in literals

What a string literal or a template stands for, given the raw text between its delimiters. A backslash
starts an **escape**; the sequences are tried in this order:

* `\u` and a braced run of hexadecimal digits, if the code point exists (else it stands for itself);
* `\u` and four hexadecimal digits; `\x` and two;
* a backslash before a carriage return and a line feed stands for nothing;
* a backslash before any other code point: the usual control letters, nothing for a line break,
  and else that code point itself.

A backslash at the very end stands for itself.
-/
namespace ScriptTrace.Text

/-- The number that a run of hexadecimal digits spells. -/
def hexNumber (digits : List Nat) : Nat :=
  digits.foldl (fun n c => 16 * n + (hexValue? c).getD 0) 0

def isHex (c : Nat) : Bool :=
  (hexValue? c).isSome

/-- What one code point after a backslash stands for. -/
def simpleEscape (c : Nat) : List Nat :=
  match c with
  | 110 => [10]
  | 116 => [9]
  | 114 => [13]
  | 98 => [8]
  | 102 => [12]
  | 118 => [11]
  | 48 => [0]
  | 10 | 0x2028 | 0x2029 => []
  | c => [c]

/-- A braced code point: its digits, if they are non-empty and the brace closes. -/
def bracedDigits? (rest : List Nat) : Option (List Nat) :=
  let digits := rest.takeWhile isHex
  if digits.isEmpty then none
  else if (rest.drop digits.length).head? = some 125 then some digits else none

/-- The replacement of the escape whose backslash stands before `rest`, and how much of `rest` it
takes. -/
def escape? (rest : List Nat) : Option (List Nat × Nat) :=
  match rest with
  | [] => none
  | 117 :: 123 :: more =>
    match bracedDigits? more with
    | some digits =>
      let code := hexNumber digits
      some (if code ≤ 0x10FFFF then [code] else 92 :: 117 :: 123 :: digits ++ [125], digits.length + 3)
    | none => some ([117], 1)
  | 117 :: a :: b :: c :: d :: _ =>
    if isHex a && isHex b && isHex c && isHex d then some ([hexNumber [a, b, c, d]], 5)
    else some ([117], 1)
  | 120 :: a :: b :: _ =>
    if isHex a && isHex b then some ([hexNumber [a, b]], 3) else some ([120], 1)
  | 13 :: 10 :: _ => some ([], 2)
  | c :: _ => some (simpleEscape c, 1)

/-- `unescapeFrom n cs` resolves the escapes of `cs` after its first `n` code points, which an escape
before it has taken. -/
def unescapeFrom : Nat → List Nat → List Nat
  | _, [] => []
  | taken + 1, _ :: rest => unescapeFrom taken rest
  | 0, c :: rest =>
    if c = 92 then
      match escape? rest with
      | some (out, taken) => out ++ unescapeFrom taken rest
      | none => 92 :: unescapeFrom 0 rest
    else c :: unescapeFrom 0 rest

/-- What the raw text of a literal stands for. -/
def unescape (raw : Text) : Text :=
  ⟨unescapeFrom 0 raw.codes⟩

end ScriptTrace.Text
