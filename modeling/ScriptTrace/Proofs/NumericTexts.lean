import ScriptTrace.Proofs.NumericLiterals
/-!
# Texts in arithmetic

What number a text stands for in arithmetic. Without the blanks around it, it may be empty, one of the words for an
infinity, a decimal numeral, or a numeral with the mark of a base. Behind the mark of a base more is let pass than in a
literal: separators may stand anywhere, marks of big integers at the end, padding and a sign in front of the digits, and
the mark of the base once more. Digits may be of any script.

* `MarkedNumeral`: the numerals with the mark of a base that are read.
* `integer_cleaned_iff`: what follows the mark is read exactly if it makes such a numeral.
* `ofText_isNaN_iff`: the texts that are numbers.
-/
namespace ScriptTrace.Numeral

open Text Binary64

/-! ## The grammar -/

/-- The numerals with the mark of a base in front that are read, in small letters, and their values. -/
inductive MarkedNumeral : List Nat → Int → Prop
  | mk {base m : Nat} {rest codes : List Nat} {k : Nat} {n : Int} (hm : mark? base = some m)
    (kept : bare rest = codes ++ List.replicate k 110) (numeral : Lenient base codes n) :
    MarkedNumeral (48 :: m :: rest) n

/-- A numeral with the mark of a base in front and nothing else but digits of this base behind it, and its value. -/
inductive PlainNumeral : List Nat → Nat → Prop
  | mk {base m : Nat} {digits ds : List Nat} (hm : IsMark base m) (hd : List.Forall₂ (IsDigit base) digits ds)
    (nonempty : ds ≠ []) : PlainNumeral (48 :: m :: digits) (Digits.inOrder base ds)

section Grammar

variable {base m : Nat} {codes rest : List Nat} {n : Int}

theorem mem_cleaned {t : Text} {c : Nat} (h : c ∈ (cleaned t).codes) : c ∈ t.codes ∧ c ≠ 95 := by
  have kept := (List.dropWhile_sublist _).subset (List.mem_reverse.1 h)
  simpa using List.mem_filter.1 (List.mem_reverse.1 kept)

theorem exists_cleaned (codes : List Nat) : ∃ k, bare codes = (cleaned ⟨codes⟩).codes ++ List.replicate k 110 := by
  have marks : (bare codes).reverse.takeWhile (· == 110) = List.replicate _ 110 :=
    List.eq_replicate_iff.2 ⟨rfl, fun c hc => by simpa using List.mem_takeWhile_imp hc⟩
  have split := List.takeWhile_append_dropWhile (p := (· == 110)) (l := (bare codes).reverse)
  rw [marks, ← List.reverse_inj, List.reverse_reverse, List.reverse_append, List.reverse_replicate] at split
  exact ⟨_, split.symm⟩

/-- The mark of a big integer is in no numeral. -/
theorem Lenient.not_mem_big (hm : mark? base = some m) (h : Lenient base codes n) : 110 ∉ codes := by
  obtain ⟨hb, hs, marks, hd, -, ha⟩ := h
  simp only [List.mem_append, not_or]
  refine ⟨⟨fun hc => absurd (hb 110 hc) (by decide), ?_, ?_, ?_⟩, fun hc => absurd (ha 110 hc) (by decide)⟩
  · cases hs <;> decide
  · cases marks with
    | none => exact List.not_mem_nil
    | zero hz mark =>
      have letter := mark.cases
      intro hc
      rcases List.mem_cons.1 hc with rfl | hc
      · cases hz
      · have := List.mem_singleton.1 hc
        omega
  · intro hc
    obtain ⟨d, digit⟩ := hd.exists_digit hc
    rcases IsMark.cases (.inl hm) with ⟨rfl, -⟩ | ⟨rfl, -⟩ | ⟨rfl, -⟩ <;> cases digit

theorem Lenient.ne_nil (h : Lenient base codes n) : codes ≠ [] := by
  obtain ⟨-, -, -, hd, nonempty, -⟩ := h
  cases hd with
  | nil => exact absurd rfl nonempty
  | cons => simp

/-- Separators and the marks of a big integer apart, a numeral is read as an integer. -/
theorem integer_cleaned_iff (hm : mark? base = some m) : integer? base (cleaned ⟨rest⟩) = some n ↔
    MarkedNumeral (48 :: m :: rest) n := by
  have based := IsMark.cases (.inl hm)
  have plain : 95 ∉ (cleaned ⟨rest⟩).codes := fun separator => (mem_cleaned separator).2 rfl
  rw [show cleaned ⟨rest⟩ = ⟨(cleaned ⟨rest⟩).codes⟩ from rfl, integer_eq_some_iff (by omega) plain]
  constructor
  · intro numeral
    obtain ⟨k, kept⟩ := exists_cleaned rest
    exact .mk hm kept numeral
  · rintro (⟨hm', kept, numeral⟩)
    rename_i base' codes k
    obtain rfl : base' = base := by
      have := IsMark.cases (.inl hm')
      omega
    -- no numeral ends in the mark of a big integer, so just these marks are taken off its end
    rw [cleaned_of_bare kept numeral.ne_nil (numeral.not_mem_big hm) fun c hc => List.eq_of_mem_replicate hc]
    exact numeral

/-- Digits of a base alone are among the numerals that are read. -/
theorem PlainNumeral.marked {v : Nat} (h : PlainNumeral codes v) : MarkedNumeral (Text.mk codes).toLower.codes v := by
  obtain ⟨hm, hd, nonempty⟩ := h
  rename_i base m digits ds
  have plain : 95 ∉ (Text.mk digits).toLower.codes := fun separator =>
    (spelled_lower hd).not_mem_separator (List.mem_map.2 ⟨95, separator, rfl⟩)
  refine .mk (k := 0) hm.lower ?_ (lenient_lower hd nonempty)
  rw [List.replicate_zero, List.append_nil]
  exact bare_eq_self plain

end Grammar

/-! ## Reading -/

section Reading

variable {t : Text} {base m : Nat} {rest : List Nat} {n : Int}

/-- The texts that have a number without a numeral. -/
def words : List Text :=
  ["", "Infinity", "+Infinity", "-Infinity"]

theorem words_head : ∀ w ∈ words, w.toLower.codes.head? ≠ some 48 := by
  decide

theorem ofText_other (other : t.strip ∉ words) : ofText t =
    if hasMark t.strip.toLower.codes then literal t.strip.toLower
    else ((scan? t.strip.codes).map fun d => Number.ofFloat d.toFloat).getD .nan := by
  have filled : t.strip.isEmpty = false := by
    refine List.isEmpty_eq_false_iff.2 fun empty => other ?_
    rw [show t.strip = ⟨[]⟩ from congrArg Text.mk empty]
    decide
  have positive : ¬(t.strip = "Infinity" ∨ t.strip = "+Infinity") := by
    rintro (eq | eq) <;> exact other (eq ▸ by decide)
  have negative : t.strip ≠ "-Infinity" := fun eq => other (eq ▸ by decide)
  simp only [ofText, filled, if_neg positive, if_neg negative, Bool.false_eq_true, if_false]
  split
  · rfl
  · cases scan? t.strip.codes <;> rfl

theorem hasMark_of_mark (hm : mark? base = some m) : hasMark (48 :: m :: rest) = true := by
  rcases IsMark.cases (.inl hm) with ⟨rfl, -⟩ | ⟨rfl, -⟩ | ⟨rfl, -⟩ <;> cases hm <;> rfl

/-- The mark of a base stays in front when separators and marks of big integers are taken out. -/
theorem cleaned_marked (hm : mark? base = some m) :
    cleaned ⟨48 :: m :: rest⟩ = ⟨48 :: m :: (cleaned ⟨rest⟩).codes⟩ := by
  have letter := IsMark.cases (.inl hm)
  have kept : bare (48 :: m :: rest) = [48, m] ++ bare rest := by
    have front : bare [48, m] = [48, m] := bare_eq_self (by simp; omega)
    rw [← front, ← bare_append]
    rfl
  have stops : [m, 48].dropWhile (· == 110) = [m, 48] := by
    rw [List.dropWhile_cons_of_neg (by simp; omega)]
  have dropped : ((bare rest).reverse ++ [m, 48]).dropWhile (· == 110) =
      (bare rest).reverse.dropWhile (· == 110) ++ [m, 48] := by
    rw [List.dropWhile_append, stops]
    split
    · rename_i empty
      rw [List.isEmpty_iff.1 empty, List.nil_append]
    · rfl
  have filtered : (48 :: m :: rest).filter (· ≠ 95) = [48, m] ++ bare rest := kept
  rw [cleaned, filtered, List.reverse_append]
  exact congrArg Text.mk ((congrArg List.reverse dropped).trans (List.reverse_append ..))

theorem ofText_marked (lower : t.strip.toLower.codes = 48 :: m :: rest) (hm : mark? base = some m) :
    ofText t = ofInteger? (integer? base (cleaned ⟨rest⟩)) := by
  have other : t.strip ∉ words := by
    intro word
    refine words_head _ word ?_
    rw [lower]
    rfl
  have marked : hasMark t.strip.toLower.codes = true := by
    rw [lower]
    exact hasMark_of_mark hm
  have clean : cleaned t.strip.toLower = ⟨48 :: m :: (cleaned ⟨rest⟩).codes⟩ := by
    rw [show t.strip.toLower = ⟨48 :: m :: rest⟩ from congrArg Text.mk lower, cleaned_marked hm]
  have small : (cleaned t.strip.toLower).toLower = cleaned t.strip.toLower := by
    refine toLower_eq_self fun c hc => ?_
    obtain ⟨c, -, rfl⟩ := List.mem_map.1 (mem_cleaned hc).1
    split <;> omega
  rw [ofText_other other, if_pos marked, literal_marked (small ▸ congrArg Text.codes clean) hm]

theorem exists_mark {codes : List Nat} (h : hasMark codes = true) :
    ∃ base m rest, mark? base = some m ∧ codes = 48 :: m :: rest := by
  unfold hasMark at h
  split at h
  · rename_i m rest
    simp only [Bool.or_eq_true, beq_iff_eq] at h
    rcases h with (rfl | rfl) | rfl
    · exact ⟨16, 120, rest, rfl, rfl⟩
    · exact ⟨8, 111, rest, rfl, rfl⟩
    · exact ⟨2, 98, rest, rfl, rfl⟩
  · cases h

theorem MarkedNumeral.ofText (h : MarkedNumeral t.strip.toLower.codes n) : ofText t = ofInteger? (some n) := by
  generalize lower : t.strip.toLower.codes = codes at h
  cases h with
  | mk hm kept numeral => rw [ofText_marked lower hm, (integer_cleaned_iff hm).2 (.mk hm kept numeral)]

theorem MarkedNumeral.hasMark {codes : List Nat} (h : MarkedNumeral codes n) : hasMark codes = true := by
  cases h with
  | mk hm => exact hasMark_of_mark hm

/-- Which texts are numbers, besides those that are words for one. -/
theorem ofText_isNaN_iff (other : t.strip ∉ words) : (ofText t).isNaN = false ↔
    DecimalNumeral t.strip.codes ∨ ∃ n, MarkedNumeral t.strip.toLower.codes n ∧ n.natAbs < overflow := by
  have nan : Number.nan.isNaN = true := by decide +kernel
  -- the mark of a base decides which way a text is read, and no decimal numeral has one
  by_cases marked : hasMark t.strip.toLower.codes = true
  · obtain ⟨base, m, rest, hm, lower⟩ := exists_mark marked
    have decimal : ¬DecimalNumeral t.strip.codes := fun h => by
      have unmarked : hasMark t.strip.toLower.codes = false := h.hasMark_lower
      rw [marked] at unmarked
      cases unmarked
    rw [ofText_marked lower hm, lower, or_iff_right decimal]
    cases read : integer? base (cleaned ⟨rest⟩) with
    | none =>
      refine iff_of_false (by rw [ofInteger?, nan]; decide) ?_
      rintro ⟨n, numeral, -⟩
      rw [(integer_cleaned_iff hm).2 numeral] at read
      cases read
    | some n =>
      rw [ofInteger_isNaN, decide_eq_false_iff_not, Nat.not_le]
      constructor
      · exact fun small => ⟨n, (integer_cleaned_iff hm).1 read, small⟩
      · rintro ⟨n', numeral, small⟩
        obtain rfl : n = n' := Option.some.inj (read.symm.trans ((integer_cleaned_iff hm).2 numeral))
        exact small
  · have none : ¬∃ n, MarkedNumeral t.strip.toLower.codes n ∧ n.natAbs < overflow := by
      rintro ⟨n, numeral, -⟩
      exact marked numeral.hasMark
    rw [ofText_other other, if_neg marked, or_iff_left none, ← scan_isSome_iff]
    cases scan? t.strip.codes with
    | none => exact iff_of_false (by rw [Option.map_none, Option.getD_none, nan]; decide) (by decide)
    | some d => exact iff_of_true ((Number.isNaN_ofFloat _).trans d.isNaN_toFloat) rfl

end Reading

/-- What a text stands for in arithmetic. If it is blank, it is zero; without the blanks around it, the words for the
infinities stand for them, and any other text is a number exactly if it is a decimal numeral, or a numeral with the mark
of a base that does not overflow. The latter is carried as its value if this is below `2 ^ 53`; numerals that have
nothing but digits of the base behind the mark are among them. -/
theorem ofText_accepts_lenient_numerals (t : Text) :
    ((∀ c ∈ t.codes, isBlank c = true) → ofText t = 0) ∧
    (t.strip = "Infinity" ∨ t.strip = "+Infinity" → ofText t = .infinity false) ∧
    (t.strip = "-Infinity" → ofText t = .infinity true) ∧
    (t.strip ∉ words → ((ofText t).isNaN = false ↔
      DecimalNumeral t.strip.codes ∨ ∃ n, MarkedNumeral t.strip.toLower.codes n ∧ n.natAbs < overflow)) ∧
    (∀ n, MarkedNumeral t.strip.toLower.codes n →
      (n.natAbs < 2 ^ 53 → ofText t = .int n) ∧ ((ofText t).isNaN = true ↔ overflow ≤ n.natAbs)) ∧
    ∀ v, PlainNumeral t.strip.codes v → MarkedNumeral t.strip.toLower.codes v := by
  refine ⟨fun blank => ?_, fun word => ?_, fun word => ?_, ofText_isNaN_iff, fun n numeral => ?_, fun v h => h.marked⟩
  · have empty : t.strip = ⟨[]⟩ := by
      rw [strip, stripOf, List.dropWhile_eq_nil_iff.2 blank]
      rfl
    simp only [ofText, empty]
    rfl
  · rcases word with word | word <;> simp only [ofText, word] <;> rfl
  · simp only [ofText, word]
    rfl
  · rw [numeral.ofText]
    refine ⟨fun small => ofInteger_small small, ?_⟩
    rw [ofInteger_isNaN, decide_eq_true_eq]

/-- A blank text, the words, a numeral in capitals between blanks, and a decimal numeral with all its parts. -/
theorem ofText_accepts_lenient_numerals_each :
    ofText "  " = 0 ∧ ofText " Infinity" = .infinity false ∧ ofText "-Infinity " = .infinity true ∧
      (PlainNumeral (Text.strip " 0X1F ").codes 31 ∧ ofText " 0X1F " = .int 31) ∧
      (DecimalNumeral (Text.strip "-.5e3").codes ∧ (ofText "-.5e3").isNaN = false) := by
  have digits : List.Forall₂ (IsDigit 16) [49, 70] [1, 15] := .cons ⟨rfl, by decide⟩ (.cons ⟨rfl, by decide⟩ .nil)
  have capitals : PlainNumeral (Text.strip " 0X1F ").codes 31 := .mk (.inr rfl) digits (by decide)
  have parts : DecimalNumeral ([45] ++ ([] ++ (46 :: [53] ++ (101 :: ([] ++ [51]))))) :=
    .mk .minus (by decide) (.point (by decide)) (.some (.inl rfl) .none (by decide) (by decide)) (by decide)
  have numeral := (ofText_accepts_lenient_numerals " 0X1F ").2.2.2.2.2 31 capitals
  exact ⟨(ofText_accepts_lenient_numerals "  ").1 (by decide),
    (ofText_accepts_lenient_numerals " Infinity").2.1 (.inl (by decide)),
    (ofText_accepts_lenient_numerals "-Infinity ").2.2.1 (by decide),
    ⟨capitals, ((ofText_accepts_lenient_numerals " 0X1F ").2.2.2.2.1 31 numeral).1 (by decide)⟩,
    parts, ((ofText_accepts_lenient_numerals "-.5e3").2.2.2.1 (by decide)).2 (.inl parts)⟩

/-- A separator does not keep a numeral with a mark from being read. -/
theorem separated_text_is_sixteen : ofText "0x1_0" = .int 16 ∧ ¬DecimalNumeral (Text.codes "0x1_0") ∧
    ¬∃ v, PlainNumeral (Text.codes "0x1_0") v := by
  refine ⟨by decide +kernel, fun h => ?_, ?_⟩
  · exact absurd h.hasMark_lower (by decide)
  · rintro ⟨v, h⟩
    have spelled : Text.codes "0x1_0" = [48, 120, 49, 95, 48] := by decide
    rw [spelled] at h
    cases h with
    | mk hm hd => exact (not_mem_digits hd).1 (by decide)

end ScriptTrace.Numeral
