import ScriptTrace.Text.Escape
import ScriptTrace.Value.Render
/-!
# Quoted texts read back

A message quotes the texts in it, and a script spells texts as literals. The two are written by rules of their own:
quoting escapes the quote, the backslash and the control codes, and a literal knows more escapes than that, with
longer and shorter forms that begin alike. Still a quoted text is a literal of that text. What stands between the quotes
ends at the first quote that no backslash stands before, and resolving its escapes gives the text back.

* `StandsFor`: raw text that stands for the same codes whatever follows it.
* `standsFor_quoteCode`: how one code is quoted stands for that code.
* `quoted_text_reads_back`: quoted texts, and texts without a backslash.
-/
namespace ScriptTrace.Text

/-! ## Pieces of raw text -/

/-- Whether a piece of raw text stands for the given codes, whatever follows it. -/
def StandsFor (raw codes : List Nat) : Prop :=
  ∀ rest, unescapeFrom 0 (raw ++ rest) = codes ++ unescapeFrom 0 rest

variable {c : Nat} {raw raw' codes codes' : List Nat}

theorem StandsFor.append (h : StandsFor raw codes) (h' : StandsFor raw' codes') :
    StandsFor (raw ++ raw') (codes ++ codes') := by
  intro rest
  rw [List.append_assoc, h, h', List.append_assoc]

theorem StandsFor.flatMap {spell : Nat → List Nat} (h : ∀ c ∈ codes, StandsFor (spell c) [c]) :
    StandsFor (codes.flatMap spell) codes := by
  induction codes with
  | nil => exact fun rest => rfl
  | cons c codes ih =>
    have first := h c List.mem_cons_self
    have others := ih fun d mem => h d (List.mem_cons_of_mem c mem)
    exact first.append others

theorem StandsFor.unescapeFrom (h : StandsFor raw codes) : unescapeFrom 0 raw = codes := by
  have alone := h []
  rwa [List.append_nil, Text.unescapeFrom, List.append_nil] at alone

theorem standsFor_self (h : c ≠ 92) : StandsFor [c] [c] := by
  intro rest
  rw [List.singleton_append, Text.unescapeFrom, if_neg h]
  rfl

/-- A backslash and a code that begins no longer escape. -/
theorem standsFor_simpleEscape (h : c ≠ 117 ∧ c ≠ 120 ∧ c ≠ 13) : StandsFor [92, c] (simpleEscape c) := by
  intro rest
  have escape : escape? (c :: rest) = some (simpleEscape c, 1) := by
    unfold escape?
    split <;> simp_all
  show Text.unescapeFrom 0 (92 :: c :: rest) = _
  rw [Text.unescapeFrom, if_pos rfl, escape]
  rfl

/-- A backslash, a `u` and four hexadecimal digits. -/
theorem standsFor_hexNumber {a b c d : Nat} (ha : isHex a = true) (hb : isHex b = true) (hc : isHex c = true)
    (hd : isHex d = true) : StandsFor [92, 117, a, b, c, d] [hexNumber [a, b, c, d]] := by
  intro rest
  -- the braced form is tried first
  have unbraced : a ≠ 123 := by
    rintro rfl
    cases ha
  have escape : escape? (117 :: a :: b :: c :: d :: rest) = some ([hexNumber [a, b, c, d]], 5) := by
    rw [escape?]
    · simp only [ha, hb, hc, hd, Bool.and_self, if_true]
    · exact unbraced
  show Text.unescapeFrom 0 (92 :: 117 :: a :: b :: c :: d :: rest) = _
  rw [Text.unescapeFrom, if_pos rfl, escape]
  rfl

/-! ## Quoting -/

theorem hexValue?_hexDigit {n : Nat} (h : n < 16) : hexValue? (hexDigit n) = some n := by
  unfold hexValue? hexDigit
  grind

/-- How a code is quoted stands for that code. -/
theorem standsFor_quoteCode (c : Nat) : StandsFor (quoteCode c) [c] := by
  unfold quoteCode
  split
  case h_8 backslash _ _ _ _ _ =>
    split
    case isTrue control =>
      have high := hexValue?_hexDigit (n := c / 16) (by omega)
      have low := hexValue?_hexDigit (n := c % 16) (Nat.mod_lt _ (by decide))
      have number : hexNumber [48, 48, hexDigit (c / 16), hexDigit (c % 16)] = c := by
        have zero : hexValue? 48 = some 0 := rfl
        simp only [hexNumber, List.foldl_cons, List.foldl_nil, zero, high, low, Option.getD_some]
        omega
      have spelled := standsFor_hexNumber (a := 48) (b := 48) rfl rfl (congrArg Option.isSome high)
        (congrArg Option.isSome low)
      rwa [number] at spelled
    case isFalse => exact standsFor_self (by simpa using backslash)
  all_goals exact standsFor_simpleEscape (by decide)

theorem standsFor_quoteBody (t : Text) : StandsFor t.quoteBody.codes t.codes :=
  StandsFor.flatMap fun c _ => standsFor_quoteCode c

/-- What can stand between the quotes of a literal: every quote has a backslash of its own before it, a code follows
every backslash, and there are no control codes. -/
inductive LiteralBody : List Nat → Prop
  | nil : LiteralBody []
  | plain {c : Nat} {rest : List Nat} (printed : 32 ≤ c) (quote : c ≠ 34) (backslash : c ≠ 92) :
      LiteralBody rest → LiteralBody (c :: rest)
  | escape {c : Nat} {rest : List Nat} (printed : 32 ≤ c) : LiteralBody rest → LiteralBody (92 :: c :: rest)

theorem LiteralBody.append {body rest : List Nat} (h : LiteralBody body) (h' : LiteralBody rest) :
    LiteralBody (body ++ rest) := by
  induction h with
  | nil => exact h'
  | plain printed quote backslash _ ih => exact .plain printed quote backslash ih
  | escape printed _ ih => exact .escape printed ih

theorem hexDigit_plain (n : Nat) : 32 ≤ hexDigit n ∧ hexDigit n ≠ 34 ∧ hexDigit n ≠ 92 := by
  unfold hexDigit
  split <;> omega

theorem literalBody_quoteCode (c : Nat) : LiteralBody (quoteCode c) := by
  unfold quoteCode
  split
  case h_8 quote backslash _ _ _ _ _ =>
    split
    case isTrue control =>
      obtain ⟨printed, quote, backslash⟩ := hexDigit_plain (c / 16)
      obtain ⟨printed', quote', backslash'⟩ := hexDigit_plain (c % 16)
      refine .escape (by decide) (.plain (by decide) (by decide) (by decide) ?_)
      exact .plain (by decide) (by decide) (by decide)
        (.plain printed quote backslash (.plain printed' quote' backslash' .nil))
    case isFalse printed =>
      exact .plain (Nat.not_lt.1 printed) (by simpa using quote) (by simpa using backslash) .nil
  all_goals exact .escape (by decide) .nil

theorem literalBody_quoteBody (t : Text) : LiteralBody t.quoteBody.codes := by
  obtain ⟨codes⟩ := t
  induction codes with
  | nil => exact .nil
  | cons c codes ih => exact (literalBody_quoteCode c).append ih

end ScriptTrace.Text

namespace ScriptTrace

open Text

/-- A text that is shown in a message stands between quotes, in the form of a literal, and resolving the escapes of this
literal gives the text back. A text without a backslash stands for itself. -/
theorem quoted_text_reads_back (h : Heap) (t : Text) :
    (∃ body : Text, (Value.text t).describe h = single 34 ++ body ++ single 34 ∧ LiteralBody body.codes ∧
      body = ⟨((Value.text t).describe h).codes.tail.dropLast⟩ ∧ body.unescape = t) ∧
    (92 ∉ t.codes → t.unescape = t) := by
  refine ⟨⟨t.quoteBody, rfl, literalBody_quoteBody t, ?_, ?_⟩, fun plain => ?_⟩
  · show t.quoteBody = ⟨(t.quoteBody.codes ++ [34]).dropLast⟩
    rw [List.dropLast_concat]
  · exact congrArg Text.mk (standsFor_quoteBody t).unescapeFrom
  · have each : StandsFor (t.codes.flatMap fun c => [c]) t.codes :=
      StandsFor.flatMap fun c mem => standsFor_self fun backslash => plain (backslash ▸ mem)
    rw [List.flatMap_singleton'] at each
    exact congrArg Text.mk each.unescapeFrom

/-- A text that itself looks like an escape, with a control code and half of a surrogate pair, and what is written for
it; and a text of plain codes, the half of a pair among them. -/
theorem quoted_text_reads_back_escape_alike :
    let t : Text := ⟨[92, 117, 48, 48, 52, 49, 34, 31, 13, 10, 0xD83D]⟩
    let plain : Text := ⟨[117, 48, 48, 52, 49, 13, 10, 0xD83D]⟩
    (Value.text t).describe (.empty 1000) =
        ⟨[34, 92, 92, 117, 48, 48, 52, 49, 92, 34, 92, 117, 48, 48, 49, 102, 92, 114, 92, 110, 0xD83D, 34]⟩ ∧
      Text.unescape ⟨((Value.text t).describe (.empty 1000)).codes.tail.dropLast⟩ = t ∧
      92 ∉ plain.codes ∧ plain.unescape = plain := by
  intro t plain
  obtain ⟨body, -, -, rfl, same⟩ := (quoted_text_reads_back (.empty 1000) t).1
  exact ⟨rfl, same, by decide, (quoted_text_reads_back (.empty 1000) plain).2 (by decide)⟩

end ScriptTrace
