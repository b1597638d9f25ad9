import ScriptTrace.Proofs.Following
import ScriptTrace.Proofs.Reading
import ScriptTrace.Proofs.Validity
import ScriptTrace.Trace
/-!
# Steps stand in their source

The lines that a run records come from offsets of nodes, by way of the script, the functions that have been
defined and the failures under way; its blocks come from the spans of bodies and branches. All of them are sites
of the program, and in a tree whose nodes do not end before they start, every site lies in the source. What the
recorder makes of them stays placed, also when it merges two steps.

* `Course.placed`: a run records placed steps only.
* `steps_stand_in_source`: so validation never refuses a run.
-/
namespace ScriptTrace

variable {src : Source} {cfg : Config} {p : Scope} {s t : State} {o : Option Fault} {e : Event}

/-! ## Sites -/

def Site.IsIn (src : Source) : Site → Prop
  | .line _ n => src.HasLine n
  | .span s => 1 ≤ s.first ∧ s.first ≤ s.last ∧ s.last ≤ src.lines.length
  | .jump _ _ _ => True

namespace Tree

mutual

/-- Whether no node of a tree ends before it starts. -/
def isOrdered : Tree → Bool
  | .node i cs => i.start ≤ i.stop && areOrdered cs

def areOrdered : List Tree → Bool
  | [] => true
  | c :: rest => isOrdered c && areOrdered rest

end

theorem isOrdered_of_areOrdered {cs : List Tree} (h : areOrdered cs) : ∀ c ∈ cs, c.isOrdered := by
  induction cs with
  | nil => exact List.forall_mem_nil _
  | cons c rest ih =>
    rw [areOrdered, Bool.and_eq_true] at h
    rw [List.forall_mem_cons]
    exact ⟨h.1, ih h.2⟩

/-- The sites of an ordered tree lie in the source. -/
theorem isIn_of_isOrdered {t : Tree} (h : t.isOrdered) (p : Scope) (kind : String) :
    t.Fits src (Site.IsIn src) p kind := by
  have inherits : Inherits src (Site.IsIn src) fun t => t.isOrdered := by
    refine ⟨?_, ?_, ?_, ?_⟩
    · rintro ⟨i, cs⟩ h
      rw [isOrdered, Bool.and_eq_true] at h
      exact isOrdered_of_areOrdered h.2
    · exact fun _ offset => ⟨src.lineAt_pos offset, src.lineAt_le_length offset⟩
    · rintro ⟨i, cs⟩ h
      rw [isOrdered, Bool.and_eq_true, decide_eq_true_eq] at h
      exact ⟨src.lineAt_pos _, src.lineAt_mono h.1, src.lineAt_le_length _⟩
    · exact fun _ _ _ => trivial
  exact inherits.fits t h p kind

end Tree

/-! ## Steps -/

theorem Source.getElem?_lines {n : Nat} (h : src.HasLine n) : src.lines[n - 1]? = some (src.line n) := by
  obtain ⟨pos, le⟩ := h
  have inside : n - 1 < src.lines.length := by omega
  rw [Source.line, if_neg (by omega), List.getD_eq_getElem?_getD, List.getElem?_eq_getElem inside]
  rfl

namespace Recorder

theorem stepOf_placed {e : Entry} (line : src.HasLine e.line) (block : ∀ b ∈ e.block, b.IsIn src)
    (captures : List Plain) : (stepOf src e captures).IsPlaced src :=
  ⟨line, Source.getElem?_lines line, block⟩

/-- A superseding step stays where it is. -/
theorem merge_placed {previous step : Step} (h : step.IsPlaced src) : (merge previous step).IsPlaced src := by
  unfold merge
  split
  · exact ⟨h.line, h.code, h.block⟩
  · split
    · exact ⟨h.line, h.code, h.block⟩
    · exact h

/-- What holds of the step of an entry, also when it supersedes another, holds of all steps that come to be. -/
theorem forall_add {Q : Step → Prop} {r : Recorder} {e : Entry} (made : ∀ captures, Q (stepOf src e captures))
    (merged : ∀ previous step, Q step → Q (merge previous step)) (h : ∀ step ∈ r.steps, Q step) :
    ∀ step ∈ (r.add cfg src e).1.steps, Q step := by
  have appended : ∀ step ∈ (r.append cfg src e).1.steps, Q step := by
    unfold append
    split
    · exact h
    · intro step hs
      rcases Array.mem_push.1 hs with hs | rfl
      · exact h step hs
      · exact made _
  unfold add
  split
  · exact appended
  · split
    · intro step hs
      rcases Array.mem_push.1 hs with hs | rfl
      · rw [Array.mem_def, Array.toList_pop] at hs
        exact h step (Array.mem_def.2 (List.dropLast_subset _ hs))
      · exact merged _ _ (made _)
    · exact appended

theorem add_placed {r : Recorder} {e : Entry} (line : src.HasLine e.line) (block : ∀ b ∈ e.block, b.IsIn src)
    (h : ∀ step ∈ r.steps, step.IsPlaced src) : ∀ step ∈ (r.add cfg src e).1.steps, step.IsPlaced src :=
  forall_add (stepOf_placed line block) (fun _ _ => merge_placed) h

end Recorder

/-! ## Runs -/

/-- Whether a run has recorded placed steps only and is in a block of the source. -/
structure State.IsPlaced (src : Source) (s : State) : Prop where
  block : ∀ b ∈ s.block, b.IsIn src
  steps : ∀ step ∈ s.recorder.steps, step.IsPlaced src

theorem Block.Fits.isIn {b : Block} (h : b.Fits (Site.IsIn src)) : b.IsIn src := by
  obtain ⟨span, ⟨first, ordered, last⟩, hf, hl⟩ := h
  constructor <;> omega

theorem Routine.Fits.block {r : Routine Stmt} (h : r.Fits (Site.IsIn src)) (kind : BlockKind) :
    (⟨kind, r.span.first, r.span.last⟩ : Block).IsIn src :=
  Block.Fits.isIn ⟨r.span, (Routine.fits_iff.1 h).1, rfl, rfl⟩

namespace State.IsPlaced

variable (cfg)

theorem noted (h : s.IsPlaced src) (event : e.Fits (Site.IsIn src) p) : (s.noted cfg src e).IsPlaced src := by
  refine ⟨?_, ?_⟩
  · rw [noted_control]
    exact h.block
  · obtain ⟨_, line⟩ := event.somewhere
    have block : ∀ b ∈ (e.entry cfg s).block, b.IsIn src := by
      intro b hb
      rcases Option.or_eq_some_iff.1 hb with hb | ⟨-, hb⟩
      · exact (event.block b hb).isIn
      · exact h.block b hb
    unfold State.noted
    split
    · exact h.steps
    · exact Recorder.add_placed line block h.steps

theorem notedOutput (h : s.IsPlaced src) (event : e.Fits (Site.IsIn src) p) :
    (s.notedOutput cfg src e).IsPlaced src := by
  have emptied : State.IsPlaced src { s with pending := [] } := ⟨h.block, h.steps⟩
  have carrying : Event.Fits (Site.IsIn src) p { e with captured := s.pending } :=
    ⟨event.line, event.block, event.first⟩
  exact emptied.noted cfg carrying

end State.IsPlaced

/-- A run records placed steps only. -/
theorem Course.placed (h : Course (Site.IsIn src) cfg src p s o t) (hs : s.IsPlaced src) : t.IsPlaced src := by
  induction h with
  | refl | operate | define | print | refuse | tick | tally | stray => exact ⟨hs.block, hs.steps⟩
  | trans _ _ first second => exact second (first hs)
  | note e event => exact hs.noted cfg event
  | noteOutput e event => exact hs.notedOutput cfg event
  | contain cause line body ih => exact ⟨(ih hs).block, (ih hs).steps⟩
  | recover fault passing body ih => exact ih hs
  | within kind span fits body ih =>
    have inside := ih ⟨fun b hb => by cases hb; exact Block.Fits.isIn ⟨span, fits, rfl, rfl⟩, hs.steps⟩
    exact ⟨hs.block, inside.steps⟩
  | loop body ih =>
    have inside := ih ⟨hs.block, hs.steps⟩
    exact ⟨inside.block, inside.steps⟩
  | label name body ih =>
    have inside := ih ⟨hs.block, hs.steps⟩
    exact ⟨inside.block, inside.steps⟩
  | call name shown message r line routine site body ih =>
    have calls : (Event.called name shown line).Fits (Site.IsIn src) _ := Event.fits_of_line site rfl
    have called := hs.noted cfg calls
    have inside := ih ⟨fun b hb => by cases hb; exact routine.block _, called.steps⟩
    have returns : (Event.returned message r.span.last).Fits (Site.IsIn src) _ :=
      Event.fits_of_line (Routine.fits_iff.1 routine).2.1.2 rfl
    have left : State.IsPlaced src (State.leaveFrame _ _) :=
      ⟨called.block, (inside.notedOutput cfg returns).steps⟩
    exact left.noted cfg (Event.fits_of_line site rfl)
  | cutCall name shown r line fault routine site body ih =>
    have calls : (Event.called name shown line).Fits (Site.IsIn src) _ := Event.fits_of_line site rfl
    have called := hs.noted cfg calls
    have inside := ih ⟨fun b hb => by cases hb; exact routine.block _, called.steps⟩
    have left : State.IsPlaced src (State.leaveFrame _ _) := ⟨called.block, inside.steps⟩
    exact left.noted cfg (Event.fits_of_line site rfl)

/-! ## Programs -/

theorem runTree_placed {tree : Tree} (cfg : Config) (clock : Clock) (ordered : tree.isOrdered) :
    (runTree cfg src tree clock).2.IsPlaced src := by
  have course : Course (Site.IsIn src) cfg src [] _ _ _ :=
    runTree_course (fits_program (Tree.isIn_of_isOrdered ordered [] "program")) clock
  exact course.placed ⟨fun _ hb => (nomatch hb), fun _ hs => absurd hs (Array.not_mem_empty _)⟩

/-- In every run of a program whose nodes do not end before they start, each step is on a line of the source and has
that line for its code, and its block is a range of lines of the source. So validation finds no flaw, and no trace is
refused for its steps. -/
theorem steps_stand_in_source (cfg : Config) (src : Source) (tree : Tree) (clock : Clock) (ordered : tree.isOrdered) :
    (∀ step ∈ (runTree cfg src tree clock).2.recorder.steps.toList,
      (1 ≤ step.line ∧ step.line ≤ src.lines.length) ∧ src.lines[step.line - 1]? = some step.code ∧
      ∀ b ∈ step.block, 1 ≤ b.first ∧ b.first ≤ b.last ∧ b.last ≤ src.lines.length) ∧
    validate src ((runTree cfg src tree clock).2.recorder.steps.toList.map Step.loose) = none ∧
    ∀ i, (trace cfg src tree clock).1 ≠ .error (.invalid i) := by
  have placed : ∀ step ∈ (runTree cfg src tree clock).2.recorder.steps.toList, step.IsPlaced src :=
    fun step hs => (runTree_placed cfg clock ordered).steps step (Array.mem_def.2 hs)
  have valid := validate_placed placed
  refine ⟨fun step hs => ?_, valid, fun i refused => ?_⟩
  · obtain ⟨line, code, block⟩ := placed step hs
    exact ⟨line, code, fun b hb => ⟨(block b hb).first, (block b hb).ordered, (block b hb).last⟩⟩
  · rw [validate_of_trace_invalid refused] at valid
    cases valid

/-- A function over three lines, and a call of it. -/
def longFunctionSource : Source := ⟨"const f = () => \x7b\n  return 1\n\x7d\nf()"⟩

def longFunctionTree : Tree :=
  let node (kind : String) (field : Option String) (start stop : Nat) (children : List Tree) : Tree :=
    .node ⟨true, false, false, false, kind, field, start, stop⟩ children
  node "program" none 0 34 [
    node "lexical_declaration" none 0 30 [
      node "variable_declarator" none 6 30 [
        node "identifier" "name" 6 7 [],
        node "arrow_function" "value" 10 30 [
          node "formal_parameters" "parameters" 10 12 [],
          node "statement_block" "body" 16 30 [
            node "return_statement" none 20 28 [node "number" none 27 28 []]]]]],
    node "expression_statement" none 31 34 [
      node "call_expression" none 31 34 [
        node "identifier" "function" 31 32 [],
        node "arguments" "arguments" 32 34 []]]]

theorem steps_stand_in_source_long_function :
    longFunctionTree.isOrdered ∧
    (runTree {} longFunctionSource longFunctionTree (.ticking 0)).2.recorder.steps.toList.map
      (fun step => (step.line, step.block)) =
        [(1, none), (4, none), (1, some ⟨.function, 1, 3⟩), (2, some ⟨.function, 1, 3⟩),
          (3, some ⟨.function, 1, 3⟩), (4, none)] ∧
    validate longFunctionSource
      ((runTree {} longFunctionSource longFunctionTree (.ticking 0)).2.recorder.steps.toList.map Step.loose) = none :=
  ⟨by decide, by decide +kernel,
    (steps_stand_in_source {} longFunctionSource longFunctionTree (.ticking 0) (by decide)).2.1⟩

end ScriptTrace
