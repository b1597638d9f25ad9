import ScriptTrace.Proofs.Journal
import ScriptTrace.Proofs.JsonTexts
import ScriptTrace.Proofs.Recording
/-!
# What counts as the same variables

The recorder compares variables by their canonical form, and so by their JSON text. Two differences do not show in it:
that of `undefined` from the text that stands for it, and that of a code point outside the basic plane from its two
halves. Apart from these the comparison is exact.

* `Text.ofUnits16_units16`: texts without halves that belong together can be read off their units.
* `Plain.eq_of_canonical`: data in which these do not occur, or only one of two that are written alike, is known by its
  canonical form.
* `variables_compared_by_text`: what an entry is taken to repeat.
* `text_hides_change`: a change that is not recorded.
-/
namespace ScriptTrace

/-- Two sets of variables count as the same if their texts are the same. -/
theorem Plain.sameFields_iff_text (as bs : List (Text × Plain)) :
    sameFields as bs = true ↔ asciiText (.record as) = asciiText (.record bs) := by
  rw [sameFields_iff]
  constructor
  · intro h
    exact asciiText_congr _ _ (congrArg Plain.record h)
  · intro h
    have nothing : Ends [] := by simp [Ends]
    exact Plain.record.inj (asciiText_cancel (.record as) (.record bs) nothing nothing (by rw [h])).1

/-! ## Texts that are known by their units -/

namespace Text

/-- Whether two codes are the halves of a surrogate pair. -/
def isPair (high low : Nat) : Bool :=
  0xD800 ≤ high && high < 0xDC00 && 0xDC00 ≤ low && low < 0xE000

/-- Whether codes are code points, none of which is spelled as the two halves of a pair. -/
def areWhole : List Nat → Bool
  | [] => true
  | c :: rest => c < 0x110000 && rest.head?.all (!isPair c ·) && areWhole rest

def isWhole (t : Text) : Bool :=
  areWhole t.codes

/-- The code points of UTF-16 units. -/
def ofUnits16 : List Nat → List Nat
  | high :: low :: rest =>
    if isPair high low then (0x10000 + 0x400 * (high - 0xD800) + (low - 0xDC00)) :: ofUnits16 rest
    else high :: ofUnits16 (low :: rest)
  | [unit] => [unit]
  | [] => []

theorem ofUnits16_cons {c : Nat} : ∀ {units : List Nat}, units.head?.all (!isPair c ·) = true →
    ofUnits16 (c :: units) = c :: ofUnits16 units
  | [], _ => by rw [ofUnits16, ofUnits16]
  | d :: rest, h => by
    have apart : isPair c d = false := by simpa using h
    rw [ofUnits16, apart]
    rfl

theorem units16_basic {c : Nat} (basic : c < 0x10000) (rest : List Nat) :
    units16 ⟨c :: rest⟩ = c :: units16 ⟨rest⟩ := by
  simp [units16, basic]

theorem units16_astral {c : Nat} (astral : ¬c < 0x10000) (rest : List Nat) : units16 ⟨c :: rest⟩ =
    (0xD800 + (c - 0x10000) / 0x400) :: (0xDC00 + (c - 0x10000) % 0x400) :: units16 ⟨rest⟩ := by
  simp [units16, astral]

theorem isPair_iff {high low : Nat} :
    isPair high low = true ↔ 0xD800 ≤ high ∧ high < 0xDC00 ∧ 0xDC00 ≤ low ∧ low < 0xE000 := by
  simp [isPair, and_assoc]

/-- The first unit of a text completes a pair only if its first code point does. -/
theorem head_units16 {c : Nat} : ∀ {rest : List Nat}, areWhole rest = true → rest.head?.all (!isPair c ·) = true →
    (units16 ⟨rest⟩).head?.all (!isPair c ·) = true
  | [], _, _ => rfl
  | d :: rest, whole, h => by
    by_cases basic : d < 0x10000
    · rw [units16_basic basic]
      exact h
    · -- The first unit of an astral code point is a high half.
      have point : d < 0x110000 := by simp_all [areWhole]
      have apart : ¬isPair c (0xD800 + (d - 0x10000) / 0x400) = true := by
        rw [isPair_iff]
        omega
      simpa [units16_astral basic] using apart

theorem ofUnits16_units16 : ∀ {codes : List Nat}, areWhole codes = true → ofUnits16 (units16 ⟨codes⟩) = codes
  | [], _ => by simp [units16, ofUnits16]
  | c :: rest, h => by
    obtain ⟨⟨point, apart⟩, whole⟩ : (c < 0x110000 ∧ rest.head?.all (!isPair c ·) = true) ∧ areWhole rest = true := by
      simpa only [areWhole, Bool.and_eq_true, decide_eq_true_eq] using h
    have ih := ofUnits16_units16 whole
    by_cases basic : c < 0x10000
    · rw [units16_basic basic, ofUnits16_cons (head_units16 whole apart), ih]
    · have pair : isPair (0xD800 + (c - 0x10000) / 0x400) (0xDC00 + (c - 0x10000) % 0x400) = true := by
        rw [isPair_iff]
        omega
      have code : 0x10000 + 0x400 * (0xD800 + (c - 0x10000) / 0x400 - 0xD800) +
          (0xDC00 + (c - 0x10000) % 0x400 - 0xDC00) = c := by
        omega
      rw [units16_astral basic, ofUnits16, if_pos pair, ih, code]

/-- A text in which no code point is spelled as the halves of a pair is known by its units. -/
theorem eq_of_units16 {t t' : Text} (ht : t.isWhole = true) (ht' : t'.isWhole = true)
    (h : t.units16 = t'.units16) : t = t' := by
  have codes : t.codes = t'.codes := by
    rw [← ofUnits16_units16 ht, ← ofUnits16_units16 ht']
    exact congrArg ofUnits16 h
  exact congrArg Text.mk codes

end Text

/-! ## Clear data -/

namespace Plain

/-- The two that are written alike. -/
def lookalikes : List Plain :=
  [.undefined, .text undefinedMark]

mutual

/-- Whether no text in data has the halves of a pair in it, and `spare` does not occur. -/
def isClear (spare : Plain) : Plain → Bool
  | .undefined => spare != .undefined
  | .text t => t.isWhole && spare != .text t
  | .list items => areClear spare items
  | .record fields => fieldsClear spare fields
  | _ => true

def areClear (spare : Plain) : List Plain → Bool
  | [] => true
  | a :: rest => isClear spare a && areClear spare rest

def fieldsClear (spare : Plain) : List (Text × Plain) → Bool
  | [] => true
  | (k, a) :: rest => k.isWhole && isClear spare a && fieldsClear spare rest

end

variable {spare : Plain}

/-- A text that is written like `undefined` is one of the two, and then the other one is not there. -/
theorem not_mark (one : spare ∈ lookalikes) {t : Text} (ht : isClear spare (.text t) = true)
    (absent : isClear spare .undefined = true) : canonical (.text t) ≠ canonical .undefined := by
  intro h
  rw [isClear, bne_iff_ne] at absent
  rw [isClear, Bool.and_eq_true, bne_iff_ne] at ht
  have units : t.units16 = undefinedMark.units16 := Text.mk.inj (Plain.text.inj h)
  rw [Text.eq_of_units16 ht.1 (by decide) units] at ht
  simp only [lookalikes, List.mem_cons, List.not_mem_nil, or_false] at one
  exact one.elim absent ht.2

mutual

/-- Clear data is known by its canonical form. -/
theorem eq_of_canonical (one : spare ∈ lookalikes) : ∀ a b : Plain, isClear spare a = true → isClear spare b = true →
    a.canonical = b.canonical → a = b
  | .undefined, b, ha, hb, h => by
    cases b with
    | undefined => rfl
    | text t => exact absurd h.symm (not_mark one hb ha)
    | _ => cases h
  | .text t, b, ha, hb, h => by
    cases b with
    | undefined => exact absurd h (not_mark one ha hb)
    | text t' =>
      rw [isClear, Bool.and_eq_true] at ha hb
      rw [Text.eq_of_units16 ha.1 hb.1 (Text.mk.inj (Plain.text.inj h))]
    | _ => cases h
  | .null, b, _, _, h => by
    cases b with
    | null => rfl
    | _ => cases h
  | .bool x, b, _, _, h => by
    cases b with
    | bool y =>
      cases h
      rfl
    | _ => cases h
  | .number x, b, _, _, h => by
    cases b with
    | number y =>
      cases h
      rfl
    | _ => cases h
  | .list as, b, ha, hb, h => by
    cases b with
    | list bs => rw [eq_of_canonicalItems one as bs ha hb (Plain.list.inj h)]
    | _ => cases h
  | .record as, b, ha, hb, h => by
    cases b with
    | record bs => rw [eq_of_canonicalFields one as bs ha hb (Plain.record.inj h)]
    | _ => cases h

theorem eq_of_canonicalItems (one : spare ∈ lookalikes) : ∀ as bs : List Plain, areClear spare as = true →
    areClear spare bs = true → canonicalItems as = canonicalItems bs → as = bs
  | [], [], _, _, _ => rfl
  | [], b :: bs, _, _, h => by cases h
  | a :: as, [], _, _, h => by cases h
  | a :: as, b :: bs, ha, hb, h => by
    rw [areClear, Bool.and_eq_true] at ha hb
    obtain ⟨first, rest⟩ := List.cons.inj h
    rw [eq_of_canonical one a b ha.1 hb.1 first, eq_of_canonicalItems one as bs ha.2 hb.2 rest]

theorem eq_of_canonicalFields (one : spare ∈ lookalikes) : ∀ as bs : List (Text × Plain), fieldsClear spare as = true →
    fieldsClear spare bs = true → canonicalFields as = canonicalFields bs → as = bs
  | [], [], _, _, _ => rfl
  | [], b :: bs, _, _, h => by cases h
  | a :: as, [], _, _, h => by cases h
  | (k, a) :: as, (l, b) :: bs, ha, hb, h => by
    rw [fieldsClear, Bool.and_eq_true, Bool.and_eq_true] at ha hb
    obtain ⟨first, rest⟩ := List.cons.inj h
    obtain ⟨name, value⟩ := Prod.mk.inj first
    rw [Text.eq_of_units16 ha.1.1 hb.1.1 (Text.mk.inj name), eq_of_canonical one a b ha.1.2 hb.1.2 value,
      eq_of_canonicalFields one as bs ha.2 hb.2 rest]

end

/-- Clear variables count as the same only if they are. -/
theorem sameFields_iff_eq (one : spare ∈ lookalikes) {as bs : List (Text × Plain)} (ha : fieldsClear spare as = true)
    (hb : fieldsClear spare bs = true) : sameFields as bs = true ↔ as = bs := by
  rw [sameFields_iff]
  exact ⟨eq_of_canonicalFields one as bs ha hb, fun h => h ▸ rfl⟩

end Plain

/-! ## What the recorder takes for a repetition -/

/-- Whether an entry repeats the line and the variables of a step, going by their text. -/
def Entry.Repeats (e : Entry) (previous : Step) : Prop :=
  previous.line = e.line ∧ Plain.asciiText (.record previous.vars) = Plain.asciiText (.record e.vars)

namespace Recorder

variable {cfg : Config} {e : Entry} {r : Recorder} {previous : Step}

theorem supersedes_iff_repeats :
    supersedes cfg e previous = true ↔ cfg.deduplicate = true ∧ e.Repeats previous := by
  rw [supersedes, Bool.and_eq_true, Bool.and_eq_true, beq_iff_eq, Plain.sameFields_iff_text, and_assoc, Entry.Repeats]

theorem steps_add_superseding (last : r.steps.back? = some previous) (h : supersedes cfg e previous = true)
    (src : Source) :
    (r.add cfg src e).1.steps = r.steps.pop.push (merge previous (stepOf src e (r.captures ++ e.captures))) := by
  simp only [add, last, h, if_true]

/-- An entry that does not supersede the last step leaves every step as it is. -/
theorem prefix_steps_add (last : r.steps.back? = some previous) (h : ¬supersedes cfg e previous = true)
    (src : Source) : r.steps.toList <+: (r.add cfg src e).1.steps.toList := by
  obtain ⟨other, back, supersedes, -⟩ | ⟨-, -, add⟩ | ⟨-, -, add⟩ := add_cases cfg src e r
  · rw [last, Option.some.injEq] at back
    exact absurd (back ▸ supersedes) h
  · rw [add, grown_steps, Array.toList_push]
    exact List.prefix_append ..
  · simp only [add, List.prefix_refl]

theorem not_supersedes_of_ne {spare : Plain} (one : spare ∈ Plain.lookalikes)
    (hp : Plain.fieldsClear spare previous.vars = true) (he : Plain.fieldsClear spare e.vars = true)
    (differ : previous.vars ≠ e.vars) : ¬supersedes cfg e previous = true := by
  intro h
  rw [supersedes, Bool.and_eq_true, Plain.sameFields_iff_eq one hp he] at h
  exact differ h.2

end Recorder

/-- Variables are compared by their JSON text. It tells clear variables apart, in which `undefined` never occurs, or
never the text that stands for it: they count as the same if and only if they are the same names in the same order with
equal data. So an entry supersedes the last step just when it has its line and the text of its variables, and if the
variables are clear and differ it leaves every step as it is. -/
theorem variables_compared_by_text (cfg : Config) (src : Source) :
    (∀ before after : List (Text × Plain),
      (Plain.sameFields before after = true ↔ Plain.asciiText (.record before) = Plain.asciiText (.record after)) ∧
      ∀ spare ∈ Plain.lookalikes, Plain.fieldsClear spare before = true → Plain.fieldsClear spare after = true →
        (Plain.sameFields before after = true ↔ before = after)) ∧
    ∀ (r : Recorder) (e : Entry), ∀ previous ∈ r.steps.back?,
      let steps := (r.add cfg src e).1.steps
      (cfg.deduplicate = true ∧ e.Repeats previous →
        steps = r.steps.pop.push (Recorder.merge previous (Recorder.stepOf src e (r.captures ++ e.captures)))) ∧
      (¬(cfg.deduplicate = true ∧ e.Repeats previous) → r.steps.toList <+: steps.toList) ∧
      ∀ spare ∈ Plain.lookalikes, Plain.fieldsClear spare previous.vars = true →
        Plain.fieldsClear spare e.vars = true → previous.vars ≠ e.vars → r.steps.toList <+: steps.toList := by
  constructor
  · intro before after
    exact ⟨Plain.sameFields_iff_text before after, fun spare one => Plain.sameFields_iff_eq one⟩
  · intro r e previous last steps
    rw [← Recorder.supersedes_iff_repeats]
    refine ⟨fun repeats => Recorder.steps_add_superseding last repeats src,
      fun fresh => Recorder.prefix_steps_add last fresh src, fun spare one hp he differ => ?_⟩
    exact Recorder.prefix_steps_add last (Recorder.not_supersedes_of_ne one hp he differ) src

/-- One variable takes values in turn, and is recorded with each. -/
def assigningMoves (values : List Value) : List Move :=
  values.flatMap fun v =>
    [.memory { (State.start (.ticking 0)).toMemory with env := Environment.empty.declare "x" v false },
      .record { line := 1 }]

/-- A step is lost when a variable changes from `undefined` to the text that stands for it, or from a code point to
its halves. From `undefined` to `null` none is. -/
theorem text_hides_change :
    let shown (values : List Value) : List (List Plain) :=
      ((State.start (.ticking 0)).afterMoves {} ⟨"a"⟩ (assigningMoves values)).recorder.steps.toList.map
        (·.vars.map Prod.snd)
    shown [.undefined, .text "<undefined>"] = [[.text "<undefined>"]] ∧
    shown [.text ⟨[0x1F600]⟩, .text ⟨[0xD83D, 0xDE00]⟩] = [[.text ⟨[0xD83D, 0xDE00]⟩]] ∧
    shown [.undefined, .null] = [[.undefined], [.null]] := by
  decide +kernel

end ScriptTrace
