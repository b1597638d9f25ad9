import ScriptTrace.Proofs.Console
/-!
# Calls as brackets

A call opens a bracket in the trace with a step that names the function, and closes it with one that names the same
function on the same line. It does so on every way out: the step that closes it is recorded after the frame has been
left, whether the function returned or a fault cut it short, in its body or in the default of a parameter.

`Bracketed` says that the brackets of a list of steps match. `Nesting` reads the steps one by one and counts how many
calls are open; the counts that a run keeps by itself agree with it.

* `Nests.framed`: what a call adds to a journal is bracketed if what its function adds is.
* `Course.nests`: so is what any run adds, and the counts of calls and of their depth agree.
* `calls_bracket_trace`: so are the steps of a whole trace.
-/
namespace ScriptTrace

open Act

/-! ## Brackets -/

/-- Whether the calls and exits among some steps match as brackets do, with the names and lines that they show. -/
inductive Bracketed : List Step → Prop
  | nil : Bracketed []
  | plain {step : Step} (call : step.kind ≠ .call) (exit : step.kind ≠ .functionExit) : Bracketed [step]
  | append {steps more : List Step} (first : Bracketed steps) (second : Bracketed more) : Bracketed (steps ++ more)
  | call {opening closing : Step} {inner : List Step} (name shown : Text)
      (opens : opening.kind = .call)
      (calling : opening.message = some (Text.concat ["Calling ", name, "(", shown, ")"]))
      (closes : closing.kind = .functionExit) (exiting : closing.message = some ("Exiting " ++ name))
      (line : closing.line = opening.line) (inside : Bracketed inner) :
      Bracketed (opening :: (inner ++ [closing]))

/-- How many calls are open, and how many have been at most. -/
structure Nesting where
  calls : Nat
  deepest : Nat
deriving DecidableEq, Repr

namespace Nesting

def read (d : Nesting) (step : Step) : Nesting :=
  match step.kind with
  | .call => ⟨d.calls + 1, max d.deepest (d.calls + 1)⟩
  | .functionExit => { d with calls := d.calls - 1 }
  | _ => d

theorem read_call {step : Step} (h : step.kind = .call) (d : Nesting) :
    d.read step = ⟨d.calls + 1, max d.deepest (d.calls + 1)⟩ := by
  rw [read, h]

theorem read_exit {step : Step} (h : step.kind = .functionExit) (d : Nesting) :
    d.read step = { d with calls := d.calls - 1 } := by
  rw [read, h]

theorem read_plain {step : Step} (call : step.kind ≠ .call) (exit : step.kind ≠ .functionExit) (d : Nesting) :
    d.read step = d := by
  unfold read
  split
  · exact absurd ‹_› call
  · exact absurd ‹_› exit
  · rfl

end Nesting

/-- How many calls are open at once at most, by the steps of a trace. -/
def nestingDepth (steps : List Step) : Nat :=
  (steps.foldl Nesting.read ⟨0, 0⟩).deepest

/-! ## What runs add to a journal -/

/-- Whether the journal of a run goes on from one state to another with notes in which calls are bracketed, and the
counts of the run agree with them. -/
structure Nests (src : Source) (s t : State) (notes : List Note) : Prop where
  journal : t.journal.toList = s.journal.toList ++ notes
  bracketed : Bracketed (stepsOf src notes)
  depth : (stepsOf src notes).foldl Nesting.read ⟨s.callStack.length, s.counts.deepestCall⟩ =
    ⟨s.callStack.length, t.counts.deepestCall⟩
  calls : t.counts.calls = s.counts.calls + (stepsOf src notes).countP fun step => step.kind = .call

namespace Nests

variable {cfg : Config} {src : Source} {s t u : State} {notes more : List Note} {e : Event}

/-- Notes that are no moments. -/
theorem silent (journal : t.journal.toList = s.journal.toList ++ notes) (none : moments notes = [])
    (calls : t.counts.calls = s.counts.calls) (deepest : t.counts.deepestCall = s.counts.deepestCall) :
    Nests src s t notes := by
  have nothing : stepsOf src notes = [] := by rw [stepsOf, none, List.map_nil]
  refine ⟨journal, ?_, ?_, ?_⟩ <;> rw [nothing]
  · exact .nil
  · rw [deepest, List.foldl_nil]
  · rw [calls, List.countP_nil, Nat.add_zero]

theorem still (journal : t.journal = s.journal) (calls : t.counts.calls = s.counts.calls)
    (deepest : t.counts.deepestCall = s.counts.deepestCall) : Nests src s t [] :=
  silent (by rw [journal, List.append_nil]) rfl calls deepest

theorem trans (first : Nests src s t notes) (second : Nests src t u more)
    (returns : t.callStack = s.callStack) : Nests src s u (notes ++ more) where
  journal := by rw [second.journal, first.journal, List.append_assoc]
  bracketed := by
    rw [stepsOf_append]
    exact first.bracketed.append second.bracketed
  depth := by
    have rest := second.depth
    rw [returns] at rest
    rw [stepsOf_append, List.foldl_append, first.depth, rest]
  calls := by
    have before := first.calls
    have after := second.calls
    rw [stepsOf_append, List.countP_append]
    omega

/-- An event that neither opens nor closes a bracket. -/
theorem noted (line : e.line ≠ 0) (call : e.kind ≠ .call) (exit : e.kind ≠ .functionExit) :
    Nests src s (s.noted cfg src e) [.moment (e.momentIn cfg s)] where
  journal := noted_journal line s
  bracketed := .plain call exit
  depth := by
    show (Nesting.read _ _) = _
    rw [Nesting.read_plain call exit, noted_counts]
  calls := by
    have other : (Recorder.stepAt src (e.momentIn cfg s)).kind ≠ .call := call
    simp [stepsOf, moments, Note.moment?, other]

theorem notedOutput (line : e.line ≠ 0) (call : e.kind ≠ .call) (exit : e.kind ≠ .functionExit) :
    ∃ m : Moment, Nests src s (s.notedOutput cfg src e) [.moment m] := by
  let carrying : Event := { e with captured := s.pending }
  have recorded : Nests src { s with pending := [] } (s.notedOutput cfg src e) _ :=
    Nests.noted (e := carrying) line call exit
  exact ⟨_, recorded.journal, recorded.bracketed, recorded.depth, recorded.calls⟩

/-- A call brackets what its function does. -/
theorem framed {name shown : Text} {r : Routine Stmt} {line : Nat} (hl : line ≠ 0)
    (inside : Nests src ((s.noted cfg src (.called name shown line)).enterFrame name r line) t notes) :
    ∃ opening closing : Moment,
      Nests src s (((s.noted cfg src (.called name shown line)).leaveFrame t).noted cfg src (.exited name line))
        (.moment opening :: (notes ++ [.moment closing])) := by
  let caller := s.noted cfg src (.called name shown line)
  have entered : (caller.enterFrame name r line).journal.toList = _ :=
    noted_journal (e := .called name shown line) hl s
  let opening : Moment := (Event.called name shown line).momentIn cfg s
  let closing : Moment := (Event.exited name line).momentIn cfg (caller.leaveFrame t)
  have steps : stepsOf src (.moment opening :: (notes ++ [.moment closing])) =
      Recorder.stepAt src opening :: (stepsOf src notes ++ [Recorder.stepAt src closing]) := by
    rw [← List.singleton_append, stepsOf_append, stepsOf_append]
    rfl
  have stack : caller.callStack = s.callStack := congrArg Control.callStack (noted_control _ s)
  have counts : caller.counts = s.counts := noted_counts _ s
  refine ⟨opening, closing, ?_, ?_, ?_, ?_⟩
  · rw [noted_journal (e := .exited name line) hl]
    show t.journal.toList ++ _ = _
    rw [inside.journal, entered]
    simp only [List.append_assoc, List.cons_append, List.nil_append]
    rfl
  · rw [steps]
    exact .call name shown rfl rfl rfl rfl rfl inside.bracketed
  · have depth := inside.depth
    simp only [State.enterFrame, List.length_cons] at depth
    rw [stack, counts] at depth
    rw [steps, List.foldl_cons, Nesting.read_call rfl, List.foldl_append, depth, List.foldl_cons,
      Nesting.read_exit rfl, noted_counts]
    rfl
  · have calls := inside.calls
    simp only [State.enterFrame] at calls
    rw [counts] at calls
    have opens : (Recorder.stepAt src opening).kind = .call := rfl
    have closes : (Recorder.stepAt src closing).kind = .functionExit := rfl
    rw [steps, noted_counts]
    show t.counts.calls = _
    simp [opens, closes]
    omega

end Nests

/-! ## Runs -/

theorem StepKind.plain_of_not_isOfCall {kind : StepKind} (h : kind.isOfCall = false) :
    kind ≠ .call ∧ kind ≠ .functionExit := by
  constructor <;> (rintro rfl; cases h)

section

variable {cfg : Config} {src : Source} {p : Scope} {s t : State} {o : Option Fault}

/-- Whatever a run does, it brackets its calls and counts them. -/
theorem Course.nests (h : Course Site.IsNumbered cfg src p s o t) : ∃ notes, Nests src s t notes := by
  induction h with
  | refl | define | tick | stray | operate => exact ⟨[], .still rfl rfl rfl⟩
  | tally counts calls deepest => exact ⟨[], .still rfl calls deepest⟩
  | print v => exact ⟨[.printed v], .silent (Array.toList_push ..) rfl rfl rfl⟩
  | refuse x line => exact ⟨[.refused x line], .silent (Array.toList_push ..) rfl rfl rfl⟩
  | trans before _ first second =>
    obtain ⟨notes, nests⟩ := first
    obtain ⟨more, nests'⟩ := second
    exact ⟨_, nests.trans nests' (congrArg Control.callStack before.control)⟩
  | note e event plain =>
    obtain ⟨_, numbered⟩ := event.somewhere
    obtain ⟨call, exit⟩ := StepKind.plain_of_not_isOfCall plain
    exact ⟨_, .noted numbered call exit⟩
  | noteOutput e event plain =>
    obtain ⟨_, numbered⟩ := event.somewhere
    obtain ⟨call, exit⟩ := StepKind.plain_of_not_isOfCall plain
    obtain ⟨m, nests⟩ := Nests.notedOutput (e := e) numbered call exit
    exact ⟨_, nests⟩
  | recover fault passing body ih => exact ih
  | contain _ _ _ ih | within _ _ _ _ ih | loop _ ih | label _ _ ih =>
    obtain ⟨notes, nests⟩ := ih
    exact ⟨notes, nests.journal, nests.bracketed, nests.depth, nests.calls⟩
  | call name shown message r line routine site body ih =>
    obtain ⟨notes, nests⟩ := ih
    have last := (Routine.fits_iff.1 routine).2.1.2
    obtain ⟨m, returns⟩ := Nests.notedOutput (e := .returned message r.span.last) last nofun nofun
    obtain ⟨opening, closing, framed⟩ :=
      Nests.framed site (nests.trans returns (congrArg Control.callStack body.control))
    exact ⟨_, framed⟩
  | cutCall name shown r line fault routine site body ih =>
    obtain ⟨notes, nests⟩ := ih
    obtain ⟨opening, closing, framed⟩ := Nests.framed site nests
    exact ⟨_, framed⟩

end

/-- In a whole trace that coalesces nothing, the calls are bracketed, as many as the run counted, and nested as deep
as it counted. -/
theorem calls_bracket_trace (cfg : Config) (src : Source) (tree : Tree) (clock : Clock) (t : Trace)
    (ht : (trace cfg src tree clock).1 = .ok t) (off : cfg.deduplicate = false) (whole : t.stats.truncated = false) :
    Bracketed t.steps ∧ (t.steps.countP fun step => step.kind = .call) = t.stats.counts.calls ∧
      nestingDepth t.steps = t.stats.counts.deepestCall := by
  obtain ⟨-, rfl⟩ := runTree_of_trace ht
  obtain ⟨notes, nests⟩ := (runTree_numbered cfg src tree clock).nests
  have steps : (runTree cfg src tree clock).2.recorder.steps.toList = stepsOf src notes :=
    (State.Recorded.start clock _).steps_eq (runTree_recorded cfg src tree clock) off whole nests.journal
  have calls : (runTree cfg src tree clock).2.counts.calls = 0 + _ := nests.calls
  show Bracketed (runTree cfg src tree clock).2.recorder.steps.toList ∧
    (runTree cfg src tree clock).2.recorder.steps.toList.countP _ = (runTree cfg src tree clock).2.counts.calls ∧
    nestingDepth (runTree cfg src tree clock).2.recorder.steps.toList = _
  rw [steps, calls, Nat.zero_add]
  exact ⟨nests.bracketed, rfl, congrArg Nesting.deepest nests.depth⟩

/-- A call whose function makes another one, which fails in the default of its parameter. -/
def failingDefaultSource : Source :=
  ⟨"const g = (y = null.x = 1) => y;\nconst f = x => g();\nf(1);\n"⟩

def failingDefaultTree : Tree :=
  let node (kind : String) (field : Option String) (start stop : Nat) (children : List Tree) : Tree :=
    .node ⟨true, false, false, false, kind, field, start, stop⟩ children
  node "program" none 0 59 [
    node "lexical_declaration" none 0 32 [
      node "variable_declarator" none 6 31 [
        node "identifier" "name" 6 7 [],
        node "arrow_function" "value" 10 31 [
          node "formal_parameters" "parameters" 10 26 [
            node "assignment_pattern" none 11 25 [
              node "identifier" "left" 11 12 [],
              node "assignment_expression" "right" 15 25 [
                node "member_expression" "left" 15 21 [
                  node "null" "object" 15 19 [],
                  node "property_identifier" "property" 20 21 []],
                node "number" "right" 24 25 []]]],
          node "identifier" "body" 30 31 []]]],
    node "lexical_declaration" none 33 52 [
      node "variable_declarator" none 39 51 [
        node "identifier" "name" 39 40 [],
        node "arrow_function" "value" 43 51 [
          node "identifier" "parameter" 43 44 [],
          node "call_expression" "body" 48 51 [
            node "identifier" "function" 48 49 [],
            node "arguments" "arguments" 49 51 []]]]],
    node "expression_statement" none 53 58 [
      node "call_expression" none 53 57 [
        node "identifier" "function" 53 54 [],
        node "arguments" "arguments" 54 57 [node "number" none 55 56 []]]]]

theorem calls_bracket_trace_failing_default :
    ∃ t, (trace { deduplicate := false } failingDefaultSource failingDefaultTree (.ticking 0)).1 = .ok t ∧
      t.stats.truncated = false ∧ Bracketed t.steps ∧
      t.steps.map Step.kind = [.statement, .statement, .call, .functionEnter, .call, .functionExit,
        .functionExit, .error] ∧
      nestingDepth t.steps = t.stats.counts.deepestCall ∧ t.stats.counts.deepestCall = 2 := by
  have made : (trace { deduplicate := false } failingDefaultSource failingDefaultTree (.ticking 0)).1.toOption.map
      (fun t => (t.stats.truncated, t.stats.counts.deepestCall, t.steps.map Step.kind)) =
      some (false, 2, [.statement, .statement, .call, .functionEnter, .call, .functionExit, .functionExit,
        .error]) := by
    decide +kernel
  cases ht : (trace { deduplicate := false } failingDefaultSource failingDefaultTree (.ticking 0)).1 with
  | error => rw [ht] at made; cases made
  | ok t =>
    rw [ht] at made
    obtain ⟨whole, rest⟩ := Prod.mk.inj (Option.some.inj made)
    obtain ⟨deepest, kinds⟩ := Prod.mk.inj rest
    obtain ⟨bracketed, -, depth⟩ := calls_bracket_trace _ _ _ _ t ht rfl whole
    exact ⟨t, rfl, whole, bracketed, kinds, depth, deepest⟩

end ScriptTrace
