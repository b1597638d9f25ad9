import Mathlib.Data.List.Induction
import ScriptTrace.Proofs.Course
/-!
# From the journal to the steps

The recorder of a run is what has become of the moments of its journal, one after the other. As long as none of them
has been dropped, each step stands for a **bunch** of moments that follow each other, and its output is what they
captured.

* `Recorder.add_cases`: what can become of an entry.
* `Course.recorded`: a run records what its journal holds, and nothing else.
* `Recorder.exists_bunches`: the bunches of a recorder that has dropped nothing.
* `Recorder.steps_ofMoments`: if it coalesces nothing either, each moment has a step of its own.
-/
namespace ScriptTrace

variable {cfg : Config} {src : Source} {P : Site → Prop} {p : Scope} {s t : State} {o : Option Fault} {e : Event}

/-! ## Moments -/

def Note.moment? : Note → Option Moment
  | .moment m => some m
  | .printed _ | .refused _ _ => none

/-- The moments among the notes of a journal. -/
def moments (notes : List Note) : List Moment :=
  notes.filterMap Note.moment?

/-- The moment of an event that happens in a state. -/
def Event.momentIn (cfg : Config) (s : State) (e : Event) : Moment :=
  ⟨e, e.entry cfg s, s.loopDepth, s.callStack.length⟩

@[simp] theorem moments_append (notes more : List Note) : moments (notes ++ more) = moments notes ++ moments more :=
  List.filterMap_append

theorem noted_journal (h : e.line ≠ 0) (s : State) :
    (s.noted cfg src e).journal.toList = s.journal.toList ++ [.moment (e.momentIn cfg s)] := by
  simp only [State.noted, if_neg h, Array.toList_push]
  rfl

theorem noted_recorder (h : e.line ≠ 0) (s : State) :
    (s.noted cfg src e).recorder = (s.recorder.add cfg src (e.entry cfg s)).1 := by
  simp only [State.noted, if_neg h]

namespace Recorder

/-- The recorder that is handed the entries of some moments, in order. -/
def ofMoments (cfg : Config) (src : Source) (ms : List Moment) : Recorder :=
  ms.foldl (fun r m => (r.add cfg src m.entry).1) .empty

theorem ofMoments_concat (ms : List Moment) (m : Moment) :
    ofMoments cfg src (ms ++ [m]) = ((ofMoments cfg src ms).add cfg src m.entry).1 := by
  rw [ofMoments, List.foldl_append]
  rfl

end Recorder

/-- Whether a run has recorded what its journal holds. -/
structure State.Recorded (cfg : Config) (src : Source) (s : State) : Prop where
  recorder : s.recorder = .ofMoments cfg src (moments s.journal.toList)
  entries : ∀ m ∈ moments s.journal.toList, ∃ u : State, m = m.event.momentIn cfg u

namespace State.Recorded

theorem start (clock : Clock) (frames : Nat) : (State.start clock frames).Recorded cfg src :=
  ⟨rfl, fun _ h => nomatch h⟩

theorem noted (h : s.Recorded cfg src) (e : Event) : (s.noted cfg src e).Recorded cfg src := by
  by_cases hl : e.line = 0
  · rw [State.noted, if_pos hl]
    exact h
  · have happened : moments (s.noted cfg src e).journal.toList =
        moments s.journal.toList ++ [e.momentIn cfg s] := by
      rw [noted_journal hl, moments_append]
      rfl
    constructor
    · rw [happened, Recorder.ofMoments_concat, noted_recorder hl, ← h.recorder]
      rfl
    · rw [happened, List.forall_mem_append]
      refine ⟨h.entries, ?_⟩
      rw [List.forall_mem_singleton]
      exact ⟨s, rfl⟩

theorem notedOutput (h : s.Recorded cfg src) (e : Event) : (s.notedOutput cfg src e).Recorded cfg src := by
  have emptied : State.Recorded cfg src { s with pending := [] } := ⟨h.recorder, h.entries⟩
  exact emptied.noted _

theorem entered (h : s.Recorded cfg src) (name : Text) (r : Routine Stmt) (line : Nat) :
    (s.enterFrame name r line).Recorded cfg src :=
  ⟨h.recorder, h.entries⟩

theorem left (h : t.Recorded cfg src) (caller : State) : (caller.leaveFrame t).Recorded cfg src :=
  ⟨h.recorder, h.entries⟩

/-- Notes that are no moments leave no trace in the recorder. -/
theorem pushed {n : Note} (h : s.Recorded cfg src) (hn : n.moment? = none) (hj : t.journal = s.journal.push n)
    (hr : t.recorder = s.recorder) : t.Recorded cfg src := by
  have same : moments t.journal.toList = moments s.journal.toList := by
    rw [hj, Array.toList_push, moments_append]
    simp [moments, hn]
  exact ⟨by rw [hr, same, h.recorder], by rw [same]; exact h.entries⟩

end State.Recorded

/-- A run records what its journal holds, and nothing else. -/
theorem Course.recorded (h : Course P cfg src p s o t) (hs : s.Recorded cfg src) : t.Recorded cfg src := by
  induction h with
  | refl | operate | define | tick | tally | stray => exact ⟨hs.recorder, hs.entries⟩
  | trans _ _ first second => exact second (first hs)
  | print v => exact hs.pushed rfl rfl rfl
  | refuse x line => exact hs.pushed rfl rfl rfl
  | note e => exact hs.noted e
  | noteOutput e => exact hs.notedOutput e
  | contain cause line body ih => exact ⟨(ih hs).recorder, (ih hs).entries⟩
  | recover fault passing body ih => exact ih hs
  | within _ _ _ _ ih | loop _ ih | label _ _ ih =>
    have inside := ih ⟨hs.recorder, hs.entries⟩
    exact ⟨inside.recorder, inside.entries⟩
  | call name shown message r line routine site body ih =>
    have inside := ih ((hs.noted (.called name shown line)).entered name r line)
    exact ((inside.notedOutput (.returned message r.span.last)).left _).noted _
  | cutCall name shown r line fault routine site body ih =>
    have inside := ih ((hs.noted (.called name shown line)).entered name r line)
    exact (inside.left _).noted _

/-! ## Bunches -/

namespace Recorder

variable {r : Recorder} {m : Moment}

/-- An entry supersedes the last step, or becomes a new one, or is dropped. -/
theorem add_cases (cfg : Config) (src : Source) (e : Entry) (r : Recorder) :
    (∃ previous, r.steps.back? = some previous ∧ supersedes cfg e previous = true ∧
      (r.add cfg src e).1 = { r with
        steps := r.steps.pop.push (merge previous (stepOf src e (r.captures ++ e.captures)))
        captures := r.captures ++ e.captures }) ∨
    ((∀ previous ∈ r.steps.back?, supersedes cfg e previous = false) ∧ r.isFull cfg = false ∧
      (r.add cfg src e).1 = r.grown src e) ∨
    ((∀ previous ∈ r.steps.back?, supersedes cfg e previous = false) ∧ r.isFull cfg = true ∧
      (r.add cfg src e).1 = { r with truncated := true }) := by
  have appended : (r.isFull cfg = false ∧ (r.append cfg src e).1 = r.grown src e) ∨
      (r.isFull cfg = true ∧ (r.append cfg src e).1 = { r with truncated := true }) := by
    unfold append
    cases full : r.isFull cfg with
    | true => exact .inr ⟨rfl, rfl⟩
    | false => exact .inl ⟨rfl, rfl⟩
  unfold add
  cases hb : r.steps.back? with
  | none =>
    have fresh : ∀ previous ∈ (none : Option Step), supersedes cfg e previous = false := fun _ h => nomatch h
    exact .inr (appended.imp (⟨fresh, ·⟩) (⟨fresh, ·⟩))
  | some previous =>
    cases hs : supersedes cfg e previous with
    | true => exact .inl ⟨previous, rfl, hs, by simp only [hs, if_true]⟩
    | false =>
      have fresh : ∀ before ∈ some previous, supersedes cfg e before = false := by
        rintro before ⟨⟩
        exact hs
      simp only [hs, Bool.false_eq_true, if_false]
      exact .inr (appended.imp (⟨fresh, ·⟩) (⟨fresh, ·⟩))

theorem output_merge (previous step : Step) : (merge previous step).output = step.output := by
  unfold merge
  split
  · rfl
  · split <;> rfl

/-- All that the moments of a bunch captured. -/
def capturesOf (bunch : List Moment) : List Plain :=
  bunch.flatMap fun m => m.entry.captures

/-- Whether the steps of a recorder have the output of these bunches. -/
structure Bunched (r : Recorder) (bunches : List (List Moment)) : Prop where
  outputs : r.steps.toList.map Step.output = bunches.map fun b => pack (capturesOf b)
  captures : r.captures = bunches.getLast?.elim [] capturesOf

namespace Bunched

variable {bunches : List (List Moment)}

theorem appended (h : r.Bunched bunches) (src : Source) (m : Moment) :
    (r.grown src m.entry).Bunched (bunches ++ [[m]]) where
  outputs := by
    rw [grown_steps, Array.toList_push, List.map_append, List.map_append, h.outputs]
    simp [stepOf, capturesOf]
  captures := by simp [capturesOf]

theorem superseded (h : r.Bunched bunches) (src : Source) (m : Moment) {previous : Step}
    (hb : r.steps.back? = some previous) :
    ∃ front last, bunches = front ++ [last] ∧
      Bunched { r with
        steps := r.steps.pop.push (merge previous (stepOf src m.entry (r.captures ++ m.entry.captures)))
        captures := r.captures ++ m.entry.captures } (front ++ [last ++ [m]]) := by
  rcases List.eq_nil_or_concat bunches with rfl | ⟨front, last, rfl⟩
  · have none : r.steps.toList = [] := List.map_eq_nil_iff.1 h.outputs
    rw [Array.back?_eq_getElem?, Array.toList_eq_nil_iff.1 none] at hb
    cases hb
  · have captures : r.captures = capturesOf last := by simpa using h.captures
    have before := congrArg List.dropLast h.outputs
    rw [List.concat_eq_append, List.map_append, List.map_singleton, List.dropLast_concat, ← List.map_dropLast] at before
    refine ⟨front, last, List.concat_eq_append, ?_, ?_⟩
    · rw [Array.toList_push, Array.toList_pop, List.map_append, List.map_append, before, List.map_singleton,
        output_merge, captures]
      simp [stepOf, capturesOf]
    · rw [captures]
      simp [capturesOf]

end Bunched

/-- The steps of a recorder that has dropped nothing, as bunches of moments. -/
theorem exists_bunches {ms : List Moment} (whole : (ofMoments cfg src ms).truncated = false) :
    ∃ bunches : List (List Moment), bunches.flatten = ms ∧ (∀ b ∈ bunches, b ≠ []) ∧
      (ofMoments cfg src ms).Bunched bunches := by
  induction ms using List.reverseRecOn with
  | nil => exact ⟨[], rfl, fun _ h => (nomatch h), rfl, rfl⟩
  | append_singleton ms m ih =>
    rw [ofMoments_concat] at whole ⊢
    rcases add_cases cfg src m.entry (ofMoments cfg src ms) with
      ⟨previous, hb, -, added⟩ | ⟨-, -, added⟩ | ⟨-, -, added⟩ <;> rw [added] at whole ⊢
    · obtain ⟨bunches, flat, full, bunched⟩ := ih whole
      obtain ⟨front, last, rfl, superseded⟩ := bunched.superseded src m hb
      refine ⟨front ++ [last ++ [m]], ?_, ?_, superseded⟩
      · rw [← flat]
        simp
      · rw [List.forall_mem_append] at full ⊢
        exact ⟨full.1, by simp⟩
    · obtain ⟨bunches, flat, full, bunched⟩ := ih whole
      refine ⟨bunches ++ [[m]], ?_, ?_, bunched.appended src m⟩
      · rw [List.flatten_append, flat]
        rfl
      · rw [List.forall_mem_append]
        exact ⟨full, by simp⟩
    · cases whole

/-! ## Without coalescing -/

/-- The step that stands for a moment alone. -/
def stepAt (src : Source) (m : Moment) : Step :=
  stepOf src m.entry m.entry.captures

/-- A recorder that coalesces nothing and has dropped nothing has a step for each moment. -/
theorem steps_ofMoments (off : cfg.deduplicate = false) {ms : List Moment}
    (whole : (ofMoments cfg src ms).truncated = false) :
    (ofMoments cfg src ms).steps.toList = ms.map (stepAt src) := by
  induction ms using List.reverseRecOn with
  | nil => rfl
  | append_singleton ms m ih =>
    rw [ofMoments_concat, add_of_off off, append] at whole ⊢
    cases full : (ofMoments cfg src ms).isFull cfg with
    | true =>
      rw [full] at whole
      cases whole
    | false =>
      rw [full] at whole
      show ((ofMoments cfg src ms).steps.push _).toList = _
      rw [Array.toList_push, ih whole, List.map_append]
      rfl

/-- What has been dropped is not brought back. -/
theorem truncated_ofMoments {ms more : List Moment} (whole : (ofMoments cfg src (ms ++ more)).truncated = false) :
    (ofMoments cfg src ms).truncated = false := by
  induction more using List.reverseRecOn with
  | nil => rwa [List.append_nil] at whole
  | append_singleton more m ih =>
    rw [← List.append_assoc, ofMoments_concat] at whole
    rcases add_cases cfg src m.entry (ofMoments cfg src (ms ++ more)) with
      ⟨previous, -, -, added⟩ | ⟨-, -, added⟩ | ⟨-, -, added⟩ <;> rw [added] at whole
    · exact ih whole
    · exact ih whole
    · cases whole

end Recorder

/-- The steps of the moments among some notes. -/
def stepsOf (src : Source) (notes : List Note) : List Step :=
  (moments notes).map (Recorder.stepAt src)

@[simp] theorem stepsOf_append (notes more : List Note) :
    stepsOf src (notes ++ more) = stepsOf src notes ++ stepsOf src more := by
  simp [stepsOf]

/-- A run whose recorder coalesces nothing and has dropped nothing has added a step for each moment since. -/
theorem State.Recorded.steps_eq (hs : s.Recorded cfg src) (ht : t.Recorded cfg src) (off : cfg.deduplicate = false)
    (whole : t.recorder.truncated = false) {notes : List Note}
    (journal : t.journal.toList = s.journal.toList ++ notes) :
    t.recorder.steps.toList = s.recorder.steps.toList ++ stepsOf src notes := by
  have after := ht.recorder
  rw [journal, moments_append] at after
  rw [after] at whole ⊢
  rw [hs.recorder, Recorder.steps_ofMoments off whole,
    Recorder.steps_ofMoments off (Recorder.truncated_ofMoments whole), List.map_append]
  rfl

end ScriptTrace
