import ScriptTrace.Proofs.Recording
/-!
# What becomes of diagnostics

A diagnostic or an error **reports** its message. A step that reports a message goes on to do so when an entry
supersedes it, unless that entry is a report as well: the message of the newer one is kept then, and that of the older
one is in no step (`diagnostic_lost`). Nothing else removes a report from a recorder that has dropped nothing.

* `Step.Reports.merge`: what one superseding entry does to a report.
* `Recorder.Latest.add`: a report in the last step stays there, or gets out of reach, or is replaced.
* `Recorder.ofMoments_reports`: so it is for all moments that follow.
* `diagnostics_kept_unless_superseded`: what becomes of the reports of any sequence of moves, and of any run.
-/
namespace ScriptTrace

variable {cfg : Config} {src : Source}

/-! ## Reports -/

/-- Whether a step or an entry of that kind, with that message, reports the text. -/
def Reports (kind : StepKind) (message : Option Text) (text : Text) : Prop :=
  kind.isSticky = true ∧ message = some text

instance (kind : StepKind) (message : Option Text) (text : Text) : Decidable (Reports kind message text) :=
  inferInstanceAs (Decidable (_ ∧ _))

def Step.Reports (step : Step) : Text → Prop :=
  ScriptTrace.Reports step.kind step.message

def Entry.Reports (e : Entry) : Text → Prop :=
  ScriptTrace.Reports e.kind e.message

def Entry.view (e : Entry) : Nat × List (Text × Plain) :=
  (e.line, e.vars)

/-- Whether a report comes before anything that has another view. -/
def Superseded (view : Nat × List (Text × Plain)) (after : List Moment) : Prop :=
  ∃ between later rest, after = between ++ later :: rest ∧ (∃ newer, later.entry.Reports newer) ∧
    ∀ m ∈ between ++ [later], sameView view m.entry.view = true

theorem Superseded.append {view : Nat × List (Text × Plain)} {after : List Moment} (h : Superseded view after)
    (more : List Moment) : Superseded view (after ++ more) := by
  obtain ⟨between, later, rest, rfl, reports, same⟩ := h
  exact ⟨between, later, rest ++ more, by simp, reports, same⟩

theorem Superseded.exists_report {view : Nat × List (Text × Plain)} {after : List Moment}
    (h : Superseded view after) : ∃ m ∈ after, m.entry.kind.isSticky = true := by
  obtain ⟨between, later, rest, rfl, ⟨newer, sticky, -⟩, -⟩ := h
  exact ⟨later, by simp, sticky⟩

/-- A report outlasts an entry that is none. -/
theorem Step.Reports.merge {previous : Step} {text : Text} (h : previous.Reports text) (src : Source) (e : Entry)
    (captures : List Plain) :
    (∃ newer, e.Reports newer) ∨ (Recorder.merge previous (Recorder.stepOf src e captures)).Reports text := by
  unfold Recorder.merge
  cases sticky : e.kind.isSticky with
  | false =>
    have kept : (previous.kind.isSticky && !(Recorder.stepOf src e captures).kind.isSticky) = true := by
      simp [Recorder.stepOf, h.1, sticky]
    rw [if_pos kept]
    exact .inr h
  | true =>
    cases message : e.message with
    | some newer => exact .inl ⟨newer, sticky, message⟩
    | none =>
      have newest : (previous.kind.isSticky && !(Recorder.stepOf src e captures).kind.isSticky) = false := by
        simp [Recorder.stepOf, sticky]
      have missing : (Recorder.stepOf src e captures).message.isNone = true := by
        simp [Recorder.stepOf, message]
      rw [newest, if_neg Bool.false_ne_true, if_pos missing]
      exact .inr ⟨sticky, h.2⟩

/-- An entry that is a report leaves its own message. -/
theorem Entry.Reports.merge {e : Entry} {text : Text} (h : e.Reports text) (src : Source) (previous : Step)
    (captures : List Plain) : (Recorder.merge previous (Recorder.stepOf src e captures)).Reports text := by
  simp [Recorder.merge, Recorder.stepOf, Step.Reports, ScriptTrace.Reports, h.1, h.2]

/-! ## One entry -/

namespace Recorder

variable {r : Recorder} {e : Entry} {text : Text} {view : Nat × List (Text × Plain)}

/-- Whether the last step reports a text, and has that view. -/
def Latest (r : Recorder) (text : Text) (view : Nat × List (Text × Plain)) : Prop :=
  ∃ step, r.steps.back? = some step ∧ step.Reports text ∧ sameView view step.view = true

/-- Whether a step that no entry can supersede any more reports a text. -/
def Settled (r : Recorder) (text : Text) : Prop :=
  ∃ step ∈ r.steps.toList.dropLast, step.Reports text

theorem Latest.exists_step (h : r.Latest text view) : ∃ step ∈ r.steps.toList, step.Reports text := by
  obtain ⟨step, hb, reports, -⟩ := h
  exact ⟨step, Array.mem_toList_iff.2 (Array.mem_of_back? hb), reports⟩

theorem Settled.exists_step (h : r.Settled text) : ∃ step ∈ r.steps.toList, step.Reports text := by
  obtain ⟨step, hs, reports⟩ := h
  exact ⟨step, List.dropLast_subset _ hs, reports⟩

theorem latest_add (h : e.Reports text) (whole : (r.add cfg src e).1.truncated = false) :
    (r.add cfg src e).1.Latest text e.view := by
  have same : sameView e.view e.view = true := sameView_iff.2 ⟨rfl, rfl⟩
  rcases add_cases cfg src e r with ⟨previous, -, -, added⟩ | ⟨-, -, added⟩ | ⟨-, -, added⟩ <;> rw [added] at whole ⊢
  · exact ⟨_, Array.back?_push, h.merge src previous _, by rw [view_merge]; exact same⟩
  · exact ⟨_, Array.back?_push, h, same⟩
  · cases whole

theorem Settled.add (h : r.Settled text) (src : Source) (e : Entry) : (r.add cfg src e).1.Settled text := by
  rcases add_cases cfg src e r with ⟨previous, -, -, added⟩ | ⟨-, -, added⟩ | ⟨-, -, added⟩ <;> rw [added]
  · rw [Settled, Array.toList_push, List.dropLast_concat, Array.toList_pop]
    exact h
  · rw [Settled, grown_steps, Array.toList_push, List.dropLast_concat]
    exact h.exists_step
  · exact h

theorem Latest.add (h : r.Latest text view) (whole : (r.add cfg src e).1.truncated = false) :
    (r.add cfg src e).1.Settled text ∨
      cfg.deduplicate = true ∧ sameView view e.view = true ∧
        ((∃ newer, e.Reports newer) ∨ (r.add cfg src e).1.Latest text view) := by
  obtain ⟨step, hb, reports, same⟩ := h
  rcases add_cases cfg src e r with ⟨previous, hp, hs, added⟩ | ⟨-, -, added⟩ | ⟨-, -, added⟩ <;> rw [added] at whole ⊢
  · obtain rfl : step = previous := Option.some.inj (hb.symm.trans hp)
    rw [supersedes_eq, Bool.and_eq_true] at hs
    have viewed : sameView view e.view = true := (sameView_congr hs.2 view).symm.trans same
    refine .inr ⟨hs.1, viewed, ?_⟩
    rcases reports.merge src e (r.captures ++ e.captures) with replaced | kept
    · exact .inl replaced
    · exact .inr ⟨_, Array.back?_push, kept, by rw [view_merge]; exact viewed⟩
  · refine .inl ⟨step, ?_, reports⟩
    rw [grown_steps, Array.toList_push, List.dropLast_concat]
    exact Array.mem_toList_iff.2 (Array.mem_of_back? hb)
  · cases whole

/-! ## All that follows -/

/-- As long as nothing is dropped, a report is settled, or in the last step, or superseded. -/
theorem ofMoments_reports {before after : List Moment} {m : Moment} (h : m.entry.Reports text)
    (whole : (ofMoments cfg src (before ++ m :: after)).truncated = false) :
    (ofMoments cfg src (before ++ m :: after)).Settled text ∨
      (ofMoments cfg src (before ++ m :: after)).Latest text m.entry.view ∧
        (∀ x ∈ after, sameView m.entry.view x.entry.view = true) ∨
      cfg.deduplicate = true ∧ Superseded m.entry.view after := by
  induction after using List.reverseRecOn with
  | nil =>
    rw [ofMoments_concat] at whole ⊢
    exact .inr (.inl ⟨latest_add h whole, List.forall_mem_nil _⟩)
  | append_singleton after x ih =>
    have split : before ++ m :: (after ++ [x]) = (before ++ m :: after) ++ [x] := by simp
    rw [split] at whole ⊢
    have earlier := truncated_ofMoments whole
    rw [ofMoments_concat] at whole ⊢
    rcases ih earlier with settled | ⟨latest, same⟩ | ⟨on, superseded⟩
    · exact .inl (settled.add src x.entry)
    · rcases latest.add whole with settled | ⟨on, viewed, replaced | kept⟩
      · exact .inl settled
      all_goals
        have alike : ∀ y ∈ after ++ [x], sameView m.entry.view y.entry.view = true := by
          rw [List.forall_mem_append, List.forall_mem_singleton]
          exact ⟨same, viewed⟩
      · exact .inr (.inr ⟨on, after, x, [], rfl, replaced, alike⟩)
      · exact .inr (.inl ⟨kept, alike⟩)
    · exact .inr (.inr ⟨on, superseded.append [x]⟩)

end Recorder

/-- Whether each text that one of the moments reports is reported by one of the steps, or its moment superseded. -/
def Kept (cfg : Config) (ms : List Moment) (steps : List Step) : Prop :=
  ∀ before m after text, ms = before ++ m :: after → m.entry.Reports text →
    (∃ step ∈ steps, step.Reports text) ∨ cfg.deduplicate = true ∧ Superseded m.entry.view after

theorem State.Recorded.kept {s : State} (h : s.Recorded cfg src) (whole : s.recorder.truncated = false) :
    Kept cfg (moments s.journal.toList) s.recorder.steps.toList := by
  intro before m after text hm reports
  rw [h.recorder, hm] at whole ⊢
  rcases Recorder.ofMoments_reports reports whole with settled | ⟨latest, -⟩ | superseded
  · exact .inl settled.exists_step
  · exact .inl latest.exists_step
  · exact .inr superseded

/-- If nothing has been dropped, the message of a diagnostic or an error is the message of a step that is a diagnostic
or an error. The only exception is a recorder that coalesces, when the next such report comes on the same line with
the same variables, with nothing between them that has another line or other variables. So it is after any changes of
the memory and of the place in the program with any events among them, and so it is in the trace of any run. -/
theorem diagnostics_kept_unless_superseded (cfg : Config) (src : Source) (clock : Clock) :
    (∀ moves : List Move,
      let s := (State.start clock cfg.frames).afterMoves cfg src moves
      s.recorder.truncated = false → Kept cfg (moments s.journal.toList) s.recorder.steps.toList) ∧
    ∀ (tree : Tree) (t : Trace), (trace cfg src tree clock).1 = .ok t → t.stats.truncated = false →
      Kept cfg (moments (runTree cfg src tree clock).2.journal.toList) t.steps := by
  constructor
  · intro moves s whole
    exact (afterMoves_recorded (.start clock _) moves).kept whole
  · intro tree t ht whole
    obtain ⟨-, rfl⟩ := runTree_of_trace ht
    exact (runTree_recorded cfg src tree clock).kept whole

/-- A diagnostic outlasts the statement it belongs to. -/
theorem diagnostics_kept_unless_superseded_by_statement :
    let moves := [Move.record { line := 1, kind := .diagnostic, message := some "a" }, .record { line := 1 }]
    let s := (State.start (.ticking 0)).afterMoves {} ⟨"a"⟩ moves
    s.recorder.truncated = false ∧ (moments s.journal.toList).map (·.entry.kind) = [.diagnostic, .statement] ∧
      s.recorder.steps.size = 1 ∧ ∃ step ∈ s.recorder.steps.toList, step.Reports "a" := by
  intro moves s
  refine ⟨rfl, by decide +kernel, by decide +kernel, ?_⟩
  rcases (diagnostics_kept_unless_superseded {} ⟨"a"⟩ (.ticking 0)).1 moves rfl [] _ _ "a" rfl ⟨rfl, rfl⟩ with
    shown | ⟨-, superseded⟩
  · exact shown
  · obtain ⟨m, hm, sticky⟩ := superseded.exists_report
    obtain rfl := List.mem_singleton.1 hm
    cases sticky

/-- Two calls of functions that there are not. -/
def twoCallsSource : Source := ⟨"f(); g();\n"⟩

def twoCallsTree : Tree :=
  let node (kind : String) (field : Option String) (start stop : Nat) (children : List Tree) : Tree :=
    .node ⟨true, false, false, false, kind, field, start, stop⟩ children
  let call (start : Nat) : Tree :=
    node "expression_statement" none start (start + 4) [
      node "call_expression" none start (start + 3) [
        node "identifier" "function" start (start + 1) [],
        node "arguments" "arguments" (start + 1) (start + 3) []]]
  node "program" none 0 10 [call 0, call 5]

/-- A diagnostic is lost when another one follows on its line. -/
theorem diagnostic_lost :
    (trace {} twoCallsSource twoCallsTree (.ticking 0)).1.toOption.map
      (fun t => (t.stats.truncated, t.steps.map fun step => (step.kind, step.message))) =
        some (false, [(StepKind.diagnostic, some ("Function 'g' is not defined" : Text))]) ∧
    ∃ m ∈ moments (runTree {} twoCallsSource twoCallsTree (.ticking 0)).2.journal.toList,
      Reports m.entry.kind m.entry.message "Function 'f' is not defined" := by
  decide +kernel

end ScriptTrace
