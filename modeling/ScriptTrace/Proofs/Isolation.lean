import ScriptTrace.Proofs.Congruence
import ScriptTrace.Proofs.Course
/-!
# What a function sees of its caller

A function is run in a frame of its own: with no variables but its parameters, no open loops, no labels and an empty
console queue. What its caller has of these is put aside, so it makes no difference to the function. It shows only in
the steps that the call records before the frame is opened and after it is closed, as the variables of these steps.

Two states are **alike** if a run cannot tell them apart: they have the same memory, place in the program, counts and
clock, and recorders of the same size. What the recorders hold makes no difference as long as nothing is coalesced.
Runs from alike states end alike, and record the same steps. States that are the same **outside** of the
running function become alike when a frame is opened.

* `alike_congruence`: whatever is run from alike states, they stay alike.
* `SameOutside.enterFrame`, `SameOutside.leaveFrame`: what the frame of a call hides, and what it gives back.
* `callee_sees_only_parameters`: two calls from states that are the same outside of the caller.
-/
namespace ScriptTrace

open Act Op Run

variable {cfg : Config} {src : Source}

/-! ## Recorded events -/

section Noted

variable {e : Event} (off : cfg.deduplicate = false) (hl : e.line ≠ 0) (s : State)

include off hl

theorem noted_of_full (full : s.recorder.isFull cfg = true) : s.noted cfg src e = { s with
    recorder := { s.recorder with truncated := true }
    journal := s.journal.push (.moment ⟨e, e.entry cfg s, s.loopDepth, s.callStack.length⟩)
    logs := if s.recorder.truncated then s.logs else s.logs.push ⟨.recorder, .warning, Text.concat
      ["Step cap of ", (cfg.maxSteps.count : Text), " reached; further steps are dropped"]⟩ } := by
  simp only [State.noted, if_neg hl, Recorder.add_of_off off, Recorder.append, full, if_true]
  cases s.recorder.truncated <;> rfl

theorem noted_of_room (room : s.recorder.isFull cfg = false) : s.noted cfg src e = { s with
    recorder := s.recorder.grown src (e.entry cfg s)
    journal := s.journal.push (.moment ⟨e, e.entry cfg s, s.loopDepth, s.callStack.length⟩) } := by
  simp only [State.noted, if_neg hl, Recorder.add_of_off off, Recorder.append, room, Bool.false_eq_true, if_false]

end Noted

/-! ## Alike states -/

/-- Whether a run cannot tell two states apart, which have recorded the same steps since they had recorded `before`
and `before'`. -/
structure State.Alike (before before' : List Step) (s s' : State) : Prop where
  memory : s'.toMemory = s.toMemory
  control : s'.toControl = s.toControl
  counts : s'.counts = s.counts
  clock : s'.clock = s.clock
  truncated : s'.recorder.truncated = s.recorder.truncated
  size : s'.recorder.steps.size = s.recorder.steps.size
  steps : ∃ new, s.recorder.steps.toList = before ++ new ∧ s'.recorder.steps.toList = before' ++ new

namespace State.Alike

variable {before before' : List Step} {s s' t t' : State}

/-- What leaves the recorders alone. -/
theorem of_recorder (h : s.Alike before before' s') (recorder : t.recorder = s.recorder)
    (recorder' : t'.recorder = s'.recorder) (memory : t'.toMemory = t.toMemory) (control : t'.toControl = t.toControl)
    (counts : t'.counts = t.counts) (clock : t'.clock = t.clock) : t.Alike before before' t' := by
  refine ⟨memory, control, counts, clock, ?_, ?_, ?_⟩ <;> rw [recorder, recorder']
  · exact h.truncated
  · exact h.size
  · exact h.steps

theorem isFull_eq (h : s.Alike before before' s') : s'.recorder.isFull cfg = s.recorder.isFull cfg := by
  unfold Recorder.isFull
  rw [h.size]

theorem entry_eq (h : s.Alike before before' s') (e : Event) : e.entry cfg s' = e.entry cfg s := by
  have heap : s'.heap = s.heap := congrArg Memory.heap h.memory
  have env : s'.env = s.env := congrArg Memory.env h.memory
  have block : s'.block = s.block := congrArg Control.block h.control
  unfold Event.entry
  rw [heap, env, block]

theorem noted (off : cfg.deduplicate = false) (h : s.Alike before before' s') (e : Event) :
    (s.noted cfg src e).Alike before before' (s'.noted cfg src e) := by
  by_cases hl : e.line = 0
  · simp only [State.noted, if_pos hl]
    exact h
  obtain ⟨new, steps, steps'⟩ := h.steps
  cases full : s.recorder.isFull cfg with
  | true =>
    have logs : s'.logs = s.logs := congrArg Memory.logs h.memory
    have memory (logs : Array Log) : { s'.toMemory with logs := logs } = { s.toMemory with logs := logs } := by
      rw [h.memory]
    rw [noted_of_full off hl s full, noted_of_full off hl s' (h.isFull_eq.trans full), h.truncated, logs]
    exact ⟨memory _, h.control, h.counts, h.clock, rfl, h.size, new, steps, steps'⟩
  | false =>
    let step := Recorder.stepOf src (e.entry cfg s) (e.entry cfg s).captures
    rw [noted_of_room off hl s full, noted_of_room off hl s' (h.isFull_eq.trans full), h.entry_eq]
    refine ⟨h.memory, h.control, h.counts, h.clock, h.truncated, ?_, new ++ [step], ?_, ?_⟩
    · simp only [Recorder.grown_steps, Array.size_push, h.size]
    · rw [Recorder.grown_steps, Array.toList_push, steps, List.append_assoc]
    · rw [Recorder.grown_steps, Array.toList_push, steps', List.append_assoc]

end State.Alike

/-! ## The frame of a call -/

/-- The counts of a run without those of the running loop. -/
def Counts.settled (c : Counts) : Counts :=
  { c with rounds := 0 }

/-- Whether two states differ in what belongs to the running function only: its variables, its loops and labels, and its
console output that no step carries yet. -/
structure State.SameOutside (s s' : State) : Prop where
  heap : s'.heap = s.heap
  functions : s'.functions = s.functions
  logs : s'.logs = s.logs
  callStack : s'.callStack = s.callStack
  block : s'.block = s.block
  counts : s'.counts.settled = s.counts.settled
  clock : s'.clock = s.clock
  truncated : s'.recorder.truncated = s.recorder.truncated
  size : s'.recorder.steps.size = s.recorder.steps.size

/-- The steps by which a state has gone on from another. -/
def State.Adds (s t : State) (new : List Step) : Prop :=
  t.recorder.steps.toList = s.recorder.steps.toList ++ new

theorem State.Adds.refl (s : State) : s.Adds s [] :=
  (List.append_nil _).symm

theorem State.Adds.trans {s t u : State} {new more : List Step} (first : s.Adds t new) (second : t.Adds u more) :
    s.Adds u (new ++ more) := by
  unfold State.Adds at *
  rw [second, first, List.append_assoc]

/-- A step without the variables it shows. -/
def Step.withoutVars (step : Step) : Step :=
  { step with vars := [] }

/-- Whether two callers have recorded the same steps but for their variables, on the line of the call and of no other
kinds than these. -/
structure CallerSteps (line : Nat) (kinds : List StepKind) (steps steps' : List Step) : Prop where
  same : steps'.map Step.withoutVars = steps.map Step.withoutVars
  kinds : (steps.map Step.kind).Sublist kinds
  line : ∀ step ∈ steps, step.line = line

namespace CallerSteps

variable {line : Nat} {kinds kinds' : List StepKind} {steps steps' more more' : List Step}

theorem none (line : Nat) (kinds : List StepKind) : CallerSteps line kinds [] [] :=
  ⟨rfl, List.nil_sublist _, List.forall_mem_nil _⟩

theorem append (first : CallerSteps line kinds steps steps') (second : CallerSteps line kinds' more more') :
    CallerSteps line (kinds ++ kinds') (steps ++ more) (steps' ++ more') where
  same := by rw [List.map_append, List.map_append, first.same, second.same]
  kinds := by
    rw [List.map_append]
    exact first.kinds.append second.kinds
  line := List.forall_mem_append.2 ⟨first.line, second.line⟩

end CallerSteps

namespace State.SameOutside

variable {s s' t t' : State}

/-- An event that a caller records. -/
theorem noted (src : Source) (off : cfg.deduplicate = false) (h : s.SameOutside s') (e : Event) :
    (s.noted cfg src e).SameOutside (s'.noted cfg src e) ∧
    ∃ new new', s.Adds (s.noted cfg src e) new ∧ s'.Adds (s'.noted cfg src e) new' ∧
      CallerSteps e.line [e.kind] new new' := by
  by_cases hl : e.line = 0
  · simp only [State.noted, if_pos hl]
    exact ⟨h, [], [], .refl s, .refl s', .none _ _⟩
  have full_eq : s'.recorder.isFull cfg = s.recorder.isFull cfg := by
    unfold Recorder.isFull
    rw [h.size]
  cases full : s.recorder.isFull cfg with
  | true =>
    rw [noted_of_full off hl s full, noted_of_full off hl s' (full_eq.trans full), h.truncated, h.logs]
    refine ⟨?_, [], [], .refl s, .refl s', .none _ _⟩
    exact ⟨h.heap, h.functions, rfl, h.callStack, h.block, h.counts, h.clock, rfl, h.size⟩
  | false =>
    rw [noted_of_room off hl s full, noted_of_room off hl s' (full_eq.trans full)]
    refine ⟨?_, [_], [_], Array.toList_push .., Array.toList_push .., ?_, ?_, ?_⟩
    · refine ⟨h.heap, h.functions, h.logs, h.callStack, h.block, h.counts, h.clock, h.truncated, ?_⟩
      simp only [Recorder.grown_steps, Array.size_push, h.size]
    · -- the entries differ in their variables only
      simp only [List.map_cons, List.map_nil, Step.withoutVars, Recorder.stepOf, Event.entry, h.heap, h.block]
    · exact List.Sublist.refl _
    · simp [Recorder.stepOf, Event.entry]

/-- Inside the frame of a call, a run cannot tell the callers apart. -/
theorem enterFrame (h : s.SameOutside s') (name : Text) (r : Routine Stmt) (line : Nat) :
    (s.enterFrame name r line).Alike s.recorder.steps.toList s'.recorder.steps.toList
      (s'.enterFrame name r line) where
  memory := by
    show (⟨s'.heap, .empty, s'.functions, [], s'.logs⟩ : Memory) = ⟨s.heap, .empty, s.functions, [], s.logs⟩
    rw [h.heap, h.functions, h.logs]
  control := by
    simp only [State.enterFrame, h.callStack]
  counts := by
    simp only [State.enterFrame, h.callStack]
    exact congrArg (fun c : Counts => { c with
      calls := c.calls + 1
      deepestCall := max c.deepestCall (s.callStack.length + 1) }) h.counts
  clock := h.clock
  truncated := h.truncated
  size := h.size
  steps := ⟨[], (List.append_nil _).symm, (List.append_nil _).symm⟩

/-- After the frame has been closed, the callers have their own back. -/
theorem leaveFrame {before before' : List Step} (h : s.SameOutside s') (inside : t.Alike before before' t') :
    (s.leaveFrame t).SameOutside (s'.leaveFrame t') := by
  have heap : t'.heap = t.heap := congrArg Memory.heap inside.memory
  have functions : t'.functions = t.functions := congrArg Memory.functions inside.memory
  have logs : t'.logs = t.logs := congrArg Memory.logs inside.memory
  have stack : t'.callStack.tail = t.callStack.tail :=
    congrArg (fun c : Control => c.callStack.tail) inside.control
  have counts : t'.counts.settled = t.counts.settled := congrArg Counts.settled inside.counts
  exact ⟨heap, functions, logs, stack, h.block, counts, inside.clock, inside.truncated, inside.size⟩

end State.SameOutside

namespace State.Alike

variable {before before' : List Step} {s s' t t' : State}

theorem outside (h : s.Alike before before' s') : s.SameOutside s' where
  heap := congrArg Memory.heap h.memory
  functions := congrArg Memory.functions h.memory
  logs := congrArg Memory.logs h.memory
  callStack := congrArg Control.callStack h.control
  block := congrArg Control.block h.control
  counts := congrArg Counts.settled h.counts
  clock := h.clock
  truncated := h.truncated
  size := h.size

theorem rebase (h : s.Alike before before' s')
    (later : t.Alike s.recorder.steps.toList s'.recorder.steps.toList t') : t.Alike before before' t' := by
  obtain ⟨new, steps, steps'⟩ := h.steps
  obtain ⟨more, after, after'⟩ := later.steps
  refine { later with steps := ⟨new ++ more, ?_, ?_⟩ }
  · rw [after, steps, List.append_assoc]
  · rw [after', steps', List.append_assoc]

theorem leaveFrame (h : s.Alike before before' s') (inside : t.Alike before before' t') :
    (s.leaveFrame t).Alike before before' (s'.leaveFrame t') := by
  refine inside.of_recorder rfl rfl ?_ ?_ ?_ inside.clock
  · show { t'.toMemory with env := s'.toMemory.env, pending := s'.toMemory.pending } =
      { t.toMemory with env := s.toMemory.env, pending := s.toMemory.pending }
    rw [inside.memory, h.memory]
  · show { s'.toControl with callStack := t'.toControl.callStack.tail } =
      { s.toControl with callStack := t.toControl.callStack.tail }
    rw [inside.control, h.control]
  · show { t'.counts with rounds := s'.counts.rounds } = { t.counts with rounds := s.counts.rounds }
    rw [inside.counts, h.counts]

theorem leaveLoop (h : s.Alike before before' s') (inside : t.Alike before before' t') :
    (s.leaveLoop t).Alike before before' (s'.leaveLoop t') := by
  refine inside.of_recorder rfl rfl inside.memory ?_ ?_ inside.clock
  · exact congrArg (fun c : Control => { c with loopDepth := c.loopDepth - 1 }) inside.control
  · simp only [State.leaveLoop, inside.counts, h.counts]

end State.Alike

/-! ## Calls -/

/-- Runs from alike states leave alike states, if nothing is coalesced. -/
theorem alike_congruence (src : Source) (off : cfg.deduplicate = false) (before before' : List Step) :
    Congruence cfg src (State.Alike before before') where
  control h := h.control
  clock h := h.clock
  isFull h := h.isFull_eq
  op {_ x} _ s s' h := by
    have same : x.exec s'.toMemory = x.exec s.toMemory := by rw [h.memory]
    refine ⟨?_, h.of_recorder rfl rfl ?_ h.control h.counts h.clock⟩
    · show (x.exec s'.toMemory).1 = (x.exec s.toMemory).1
      rw [same]
    · show (x.exec s'.toMemory).2 = (x.exec s.toMemory).2
      rw [same]
  print v _ _ h := by
    refine ⟨rfl, h.of_recorder rfl rfl ?_ h.control h.counts h.clock⟩
    exact congrArg (fun m : Memory => { m with pending := m.pending ++ [v] }) h.memory
  refuse _ _ _ _ h := ⟨rfl, h.of_recorder rfl rfl h.memory h.control h.counts h.clock⟩
  noted e _ _ h := h.noted off e
  counted g _ _ h := h.of_recorder rfl rfl h.memory h.control (congrArg g h.counts) h.clock
  timed _ _ _ h := h.of_recorder rfl rfl h.memory h.control h.counts rfl
  placed _ _ _ h := h.of_recorder rfl rfl h.memory rfl h.counts h.clock
  enterFrame name r line _ _ h := h.rebase (h.outside.enterFrame name r line)
  leaveFrame hs ht := hs.leaveFrame ht
  leaveLoop hs ht := hs.leaveLoop ht

/-- A call, from the state in which its arguments have been counted. -/
theorem exec_callFunction {ctx : Context} {name : Text} {r : Routine Stmt} {args : List Value} {line : Nat} {s u : State}
    (counted : (checkArity ctx name r args.length line).exec s = (.ok (), u)) :
    let shown := Text.join ", " (args.map (·.describe u.heap))
    let caller := u.noted ctx.config ctx.source (.called name shown line)
    let run := (runFrame ctx name r args).exec (caller.enterFrame name r line)
    (callFunction ctx name r args line).exec s =
      (run.1, (caller.leaveFrame run.2).noted ctx.config ctx.source (.exited name line)) := by
  intro shown caller run
  have describes : (describeAll args : Run Text).exec u = (.ok shown, u) := rfl
  rw [callFunction, exec_bind_ok counted, exec_bind_ok describes, exec_bind_ok (Context.exec_note _ _ _), inFrame,
    ensuring, exec_follow, exec_bracket, exec_bind_ok (Context.exec_note _ _ _)]
  rfl

/-- A call is reported for the number of its arguments or not, in whatever state it is made. -/
theorem checkArity_exec (ctx : Context) (name : Text) (r : Routine Stmt) (count line : Nat) :
    (∀ s, (checkArity ctx name r count line).exec s = (.ok (), s)) ∨
    ∃ (log : Log) (message : Text), ∀ s : State, (checkArity ctx name r count line).exec s =
      (.ok (), State.noted ctx.config ctx.source { line := line, kind := .diagnostic, message := some message }
        { s with logs := s.logs.push log }) := by
  simp only [checkArity]
  split
  · exact .inl fun _ => rfl
  · exact .inr ⟨_, _, fun s => (exec_bind_ok rfl).trans (Context.exec_note _ _ _)⟩

theorem checkArity_outside (src : Source) (n : Nat) (off : cfg.deduplicate = false) (name : Text) (r : Routine Stmt)
    (count line : Nat) {s s' : State} (h : s.SameOutside s') :
    ∃ u u', (checkArity (.within cfg src .idle n) name r count line).exec s = (.ok (), u) ∧
      (checkArity (.within cfg src .idle n) name r count line).exec s' = (.ok (), u') ∧ u.SameOutside u' ∧
      ∃ new new', s.Adds u new ∧ s'.Adds u' new' ∧ CallerSteps line [.diagnostic] new new' := by
  rcases checkArity_exec (.within cfg src .idle n) name r count line with fits | ⟨log, message, reported⟩
  · exact ⟨s, s', fits s, fits s', h, [], [], .refl s, .refl s', .none _ _⟩
  · have logged : State.SameOutside { s with logs := s.logs.push log } { s' with logs := s'.logs.push log } :=
      { h with logs := congrArg (Array.push · log) h.logs }
    exact ⟨_, _, reported s, reported s', logged.noted src off _⟩

/-- Two calls from states that differ in what belongs to the caller only, in every context of a run that coalesces
nothing: they give the same value or are cut short by the same fault, and leave states that differ in the same way, so
with the same heap, functions, counts and clock. They record the same steps, but for the variables of those that belong
to the caller: the report of a wrong number of arguments and the call before the frame is opened, and the exit after it
is closed. -/
theorem callee_sees_only_parameters (cfg : Config) (src : Source) (n : Nat) (off : cfg.deduplicate = false) (name : Text)
    (r : Routine Stmt) (args : List Value) (line : Nat) (s s' : State) (same : s.SameOutside s') :
    let run := (callFunction (.within cfg src .idle n) name r args line).exec s
    let run' := (callFunction (.within cfg src .idle n) name r args line).exec s'
    run'.1 = run.1 ∧ run.2.SameOutside run'.2 ∧
    ∃ before before' inner after after', s.Adds run.2 (before ++ inner ++ after) ∧
      s'.Adds run'.2 (before' ++ inner ++ after') ∧
      CallerSteps line [.diagnostic, .call] before before' ∧ CallerSteps line [.functionExit] after after' := by
  intro run run'
  obtain ⟨u, u', counted, counted', outside, reports, reports', adds, adds', reported⟩ :=
    checkArity_outside src n off name r args.length line same
  have exec : run = _ := exec_callFunction counted
  have exec' : run' = _ := exec_callFunction counted'
  rw [outside.heap] at exec'
  obtain ⟨outside, calls, calls', adds₁, adds₁', called⟩ :=
    outside.noted src off (.called name (Text.join ", " (args.map (·.describe u.heap))) line)
  obtain ⟨outcome, inside⟩ :=
    ((alike_congruence src off _ _).within n).runFrame name r args _ _ (outside.enterFrame name r line)
  obtain ⟨inner, adds₂, adds₂'⟩ := inside.steps
  obtain ⟨outside, exits, exits', adds₃, adds₃', exited⟩ :=
    (outside.leaveFrame inside).noted src off (.exited name line)
  rw [exec, exec']
  refine ⟨outcome, outside, reports ++ calls, reports' ++ calls', inner, exits, exits', ?_, ?_, ?_, exited⟩
  · exact ((adds.trans adds₁).trans adds₂).trans adds₃
  · exact ((adds'.trans adds₁').trans adds₂').trans adds₃'
  · exact reported.append called

/-- A caller with a variable, open loops, a label and queued output. -/
def busyCaller : State :=
  { State.start (.ticking 0) with
    env := Environment.empty.declare "x" (.number (.int 5)) false
    loopDepth := 2
    counts := { rounds := 3 }
    labels := ["a"]
    pending := [.null] }

/-- A function that asks for a variable it has not got. -/
def askingRoutine : Routine Stmt :=
  ⟨[], [], [], [], some ⟨"x", .name 1 "x"⟩, ⟨1, 1⟩⟩

theorem callee_sees_only_parameters_unbound :
    (State.start (.ticking 0)).SameOutside busyCaller ∧
    ((callFunction (.within { deduplicate := false } ⟨.empty⟩ .idle 1) "f" askingRoutine [] 1).exec busyCaller).1 =
      ((callFunction (.within { deduplicate := false } ⟨.empty⟩ .idle 1) "f" askingRoutine [] 1).exec
        (.start (.ticking 0))).1 ∧
    ((callFunction (.within { deduplicate := false } ⟨.empty⟩ .idle 1) "f" askingRoutine [] 1).exec
      busyCaller).1.toOption = some .undefined := by
  have same : (State.start (.ticking 0)).SameOutside busyCaller := ⟨rfl, rfl, rfl, rfl, rfl, rfl, rfl, rfl, rfl⟩
  obtain ⟨outcome, -, -⟩ := callee_sees_only_parameters { deduplicate := false } ⟨.empty⟩ 1 rfl "f" askingRoutine [] 1
    (.start (.ticking 0)) busyCaller same
  exact ⟨same, outcome, by decide +kernel⟩

end ScriptTrace
