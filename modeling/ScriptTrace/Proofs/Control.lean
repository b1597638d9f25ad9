import ScriptTrace.Proofs.Coupling
/-!
# Where a run is

Whatever a run does, it comes back to the place in the program where it began: every loop, label,
block and frame that it opened is closed again, also when a fault cuts it short. This is what bounds
the recursion of the interpreter. A call is refused when as many calls are open as the configuration
allows, so a recursion that may go that deep, counted from the calls that are open already, never
comes to its end.

Two runs are **steady** from a state when they do the same from it, come back to its place in the
program, and nest loops and calls no deeper than the configuration allows. The runs that are compared
belong to two recursions, which may go `n` and `n'` calls deep and have anything at their ends.

* `executes_within`: runs of two recursions that both go deep enough are steady.
* `control_restored`: what every run leaves as it was, and what a call leaves to its caller.
* `interpreter_total_within_depths`: the interpreter satisfies a recursion equation that has no bound,
  and stays within the depths.
-/
namespace ScriptTrace

open Act Op Run

/-! ## Steady runs -/

/-- Loops and calls are nested, and have been, no deeper than the configuration allows. -/
structure State.Shallow (cfg : Config) (s : State) : Prop where
  loops_nonneg : 0 ≤ s.loopDepth
  loops_le : s.loopDepth ≤ cfg.maxLoopDepth.count
  calls_le : s.callStack.length ≤ cfg.maxCallDepth.count
  deepest_le : s.counts.deepestCall ≤ cfg.maxCallDepth.count

theorem State.Shallow.of_control {cfg : Config} {s t : State} (hs : s.Shallow cfg)
    (h : t.toControl = s.toControl) (deepest : t.counts.deepestCall ≤ cfg.maxCallDepth.count) :
    t.Shallow cfg where
  loops_nonneg := h ▸ hs.loops_nonneg
  loops_le := h ▸ hs.loops_le
  calls_le := h ▸ hs.calls_le
  deepest_le := deepest

/-- The two runs do the same from the state on the same way, come back to its place in the program, and
stay within the depths. -/
structure SteadyAt (cfg : Config) {α : Type} (x x' : Run α) (s : State) : Prop where
  same : x'.exec s = x.exec s
  way : x'.passes s = x.passes s
  control : (x.exec s).2.toControl = s.toControl
  shallow : s.Shallow cfg → ∀ t, x.passes s t → t.Shallow cfg

namespace SteadyAt

variable {cfg : Config} {α β : Type} {x x' : Run α} {s : State}

theorem shallow_last (h : SteadyAt cfg x x' s) (hs : s.Shallow cfg) : (x.exec s).2.Shallow cfg :=
  h.shallow hs _ (x.passes_last s)

theorem done (outcome : Except Fault α) : SteadyAt cfg (done outcome) (done outcome) s where
  same := rfl
  way := rfl
  control := rfl
  shallow := by
    rintro hs t rfl
    exact hs

theorem update {g : State → α × State} (control : ∀ s, (g s).2.toControl = s.toControl)
    (deepest : ∀ s, (g s).2.counts.deepestCall = s.counts.deepestCall) :
    SteadyAt cfg (modifyGet g) (modifyGet g) s where
  same := rfl
  way := rfl
  control := control s
  shallow := by
    rintro hs t (rfl | rfl)
    · exact hs
    · exact hs.of_control (control s) (deepest s ▸ hs.deepest_le)

theorem op (x : Op α) : SteadyAt cfg x.asRun x.asRun s where
  same := rfl
  way := rfl
  control := rfl
  shallow := by
    rintro hs _ ⟨m, -, rfl⟩
    exact hs.of_control rfl hs.deepest_le

theorem follow {next next' : Except Fault α → Run β} (hx : SteadyAt cfg x x' s)
    (h : ∀ outcome s', s'.toControl = s.toControl → SteadyAt cfg (next outcome) (next' outcome) s') :
    SteadyAt cfg (x.follow next) (x'.follow next') s := by
  have hn := h (x.exec s).1 (x.exec s).2 hx.control
  refine ⟨?_, ?_, ?_, fun hs t ht => ?_⟩
  · rw [exec_follow, exec_follow, hx.same, hn.same]
  · funext t
    show (x'.passes s t ∨ (next' (x'.exec s).1).passes (x'.exec s).2 t) = (x.passes s t ∨ _)
    rw [hx.way, hx.same, hn.way]
  · rw [exec_follow, hn.control, hx.control]
  · rcases ht with ht | ht
    · exact hx.shallow hs t ht
    · exact hn.shallow (hx.shallow_last hs) t ht

theorem bind {f f' : α → Run β} (hx : SteadyAt cfg x x' s)
    (hf : ∀ a s', s'.toControl = s.toControl → SteadyAt cfg (f a) (f' a) s') :
    SteadyAt cfg (x >>= f) (x' >>= f') s := by
  refine hx.follow fun outcome s' hc => ?_
  cases outcome with
  | ok a => exact hf a s' hc
  | error fault => exact done _

theorem ensuring {cleanup cleanup' : Run Unit} (hx : SteadyAt cfg x x' s)
    (hc : ∀ s', s'.toControl = s.toControl → SteadyAt cfg cleanup cleanup' s') :
    SteadyAt cfg (x.ensuring cleanup) (x'.ensuring cleanup') s :=
  hx.follow fun _ s' h => (hc s' h).bind fun _ _ _ => done _

/-- A call whose exhaustion is answered with a diagnostic. -/
theorem shielded {ctx ctx' : Context} {line : Nat} {name : Text} {x x' : Run Value} (hx : SteadyAt cfg x x' s)
    (h : ∀ s', s'.toControl = s.toControl → SteadyAt cfg (ctx.overflow line name) (ctx'.overflow line name) s') :
    SteadyAt cfg (shielded ctx line name x) (shielded ctx' line name x') s := by
  unfold ScriptTrace.shielded handle
  refine hx.follow fun outcome s' hc => ?_
  cases outcome with
  | ok v => exact done _
  | error fault =>
    cases fault with
    | exhausted => exact h s' hc
    | failure | violation | badIndex | misfit => exact done _

theorem ite {p : Prop} [Decidable p] {y y' : Run α} (hx : p → SteadyAt cfg x x' s)
    (hy : ¬p → SteadyAt cfg y y' s) :
    SteadyAt cfg (if p then x else y) (if p then x' else y') s := by
  split
  · exact hx ‹p›
  · exact hy ‹¬p›

/-- What looks at the state looks at this one. -/
theorem get {f f' : State → Run β} (h : SteadyAt cfg (f s) (f' s) s) :
    SteadyAt cfg (get >>= f) (get >>= f') s where
  same := h.same
  way := by
    funext t
    show (_ ∨ (f' s).passes s t) = (_ ∨ (f s).passes s t)
    rw [h.way]
  control := h.control
  shallow := by
    rintro hs t (ht | ht)
    · exact ht.elim (· ▸ hs) (· ▸ hs)
    · exact h.shallow hs t ht

/-- What the first move opens the second one closes, if the run between them comes back. -/
theorem bracket {enter : State → State} {leave : State → State → State}
    (hx : SteadyAt cfg x x' (enter s)) (entered : s.Shallow cfg → (enter s).Shallow cfg)
    (left : ∀ s', s'.toControl = (enter s).toControl → (leave s s').toControl = s.toControl)
    (deepest : ∀ s', (leave s s').counts.deepestCall = s'.counts.deepestCall) :
    SteadyAt cfg (bracket enter x leave) (bracket enter x' leave) s where
  same := by rw [exec_bracket, exec_bracket, hx.same]
  way := by
    funext t
    rw [passes_bracket, passes_bracket, hx.same, hx.way]
  control := left _ hx.control
  shallow hs t ht := by
    rcases (passes_bracket enter x leave).1 ht with rfl | ht | rfl
    · exact hs
    · exact hx.shallow (entered hs) t ht
    · refine hs.of_control (left _ hx.control) ?_
      rw [deepest]
      exact (hx.shallow_last (entered hs)).deepest_le

end SteadyAt

/-! ## Recursions that go deep enough -/

/-- A recursion that may go `n` calls deeper than the calls that are open goes as deep as the
configuration lets calls nest. -/
def Covers (cfg : Config) (n : Nat) (s : State) : Prop :=
  cfg.maxCallDepth.count ≤ s.callStack.length + n

theorem Covers.of_control {cfg : Config} {n : Nat} {s t : State} (hs : Covers cfg n s)
    (h : t.toControl = s.toControl) : Covers cfg n t := by
  unfold Covers at hs ⊢
  rwa [show t.callStack = s.callStack from congrArg Control.callStack h]

/-- Steadiness from every state that both recursions cover. -/
def steady (cfg : Config) (n n' : Nat) : Coupling where
  rel x x' := ∀ s, Covers cfg n s → Covers cfg n' s → SteadyAt cfg x x' s
  faults _ := True
  violations _ _ := trivial
  done outcome _ _ _ _ := .done outcome
  follow hx h s hs hs' := (hx s hs hs').follow fun outcome t ht =>
    h outcome (fun _ _ => trivial) t (hs.of_control ht) (hs'.of_control ht)

variable {cfg : Config} {src : Source} {last last' : Caller} {n n' : Nat}

theorem steady_update {α : Type} {g : State → α × State}
    (control : ∀ s, (g s).2.toControl = s.toControl := by intro; rfl)
    (deepest : ∀ s, (g s).2.counts.deepestCall = s.counts.deepestCall := by intro; rfl) :
    (steady cfg n n').rel (modifyGet g) (modifyGet g) :=
  fun _ _ _ => .update control deepest

theorem steady_modify {g : State → State}
    (control : ∀ s, (g s).toControl = s.toControl := by intro; rfl)
    (deepest : ∀ s, (g s).counts.deepestCall = s.counts.deepestCall := by intro; rfl) :
    (steady cfg n n').rel (modify g) (modify g) :=
  steady_update control deepest

theorem steady_overrun (start : Float) :
    (steady cfg n n').rel (overrun? cfg start) (overrun? cfg start) := by
  refine Coupling.bind _ steady_update fun now => Coupling.ite _ (Coupling.pure _ _) ?_
  exact Coupling.bind _ steady_update fun _ =>
    Coupling.ite _ (Coupling.pure _ _) (Coupling.pure _ _)

theorem steady_records (m m' : Nat) :
    (steady cfg n n').Records (.within cfg src last m) (.within cfg src last' m') where
  strangers := rfl
  op _ _ _ _ := .op _
  print v := steady_modify
  note e := by
    refine Coupling.discard _ (Coupling.ite _ (Coupling.pure _ _) ?_)
    refine Coupling.bind _ steady_update fun stored => ?_
    cases stored with
    | kept step => exact Coupling.pure _ _
    | dropped first =>
      refine Coupling.ite _ ?_ (Coupling.pure _ _)
      exact Coupling.bind _ (fun _ _ _ => .op _) fun _ => Coupling.pure _ _

/-- What the call of a recursion has to be for runs in its context to be steady. -/
def SteadyCalls (cfg : Config) (n n' : Nat) (call call' : Caller) : Prop :=
  ∀ name r args line s, Covers cfg n s → Covers cfg n' s → s.callStack.length < cfg.maxCallDepth.count →
    SteadyAt cfg (call name r args line) (call' name r args line) s

theorem steady_evaluates
    (h : SteadyCalls cfg n n' (callWithin cfg src last n) (callWithin cfg src last' n')) :
    (steady cfg n n').Evaluates (.within cfg src last n) (.within cfg src last' n') where
  toRecords := steady_records n n'
  invoke line x args args' hargs := by
    have records : (steady cfg n n').Records (.within cfg src last n) (.within cfg src last' n') :=
      steady_records n n'
    have refused : (steady cfg n n').rel (refuse x line) (refuse x line) := steady_modify
    refine Coupling.bind _ (records.op (.resolve x)) fun target => ?_
    cases target with
    | none => exact records.diagnose line _
    | some target =>
      -- the branch depends on how many calls are open, so it is taken from one state
      intro s hs hs'
      refine .get (.ite (fun _ => ?_) fun hlt => (hargs s hs hs').bind fun vs t ht => ?_)
      · exact Coupling.bind _ refused (fun _ => records.diagnose line _) s hs hs'
      · have hs := hs.of_control ht
        have hs' := hs'.of_control ht
        refine .shielded (h _ _ _ _ t hs hs' ?_) fun u hu =>
          records.diagnose line _ u (hs.of_control hu) (hs'.of_control hu)
        rw [show t.callStack = s.callStack from congrArg Control.callStack ht]
        exact Nat.lt_of_not_le hlt

/-! ## What is opened and closed -/

theorem leaveLoop_control {s t : State} (h : t.toControl = s.enterLoop.toControl) :
    (s.leaveLoop t).toControl = s.toControl := by
  show { t.toControl with loopDepth := t.toControl.loopDepth - 1 } = s.toControl
  rw [h]
  show { s.toControl with loopDepth := s.loopDepth + 1 - 1 } = s.toControl
  rw [Int.add_sub_cancel]

theorem popLabel_control {label : Text} {s t : State}
    (h : t.toControl = (s.pushLabel label).toControl) : t.popLabel.toControl = s.toControl := by
  show { t.toControl with labels := t.toControl.labels.tail } = s.toControl
  rw [h]
  rfl

theorem leaveFrame_control {name : Text} {r : Routine Stmt} {line : Nat} {s t : State}
    (h : t.toControl = (s.enterFrame name r line).toControl) :
    (s.leaveFrame t).toControl = s.toControl := by
  show { s.toControl with callStack := t.toControl.callStack.tail } = s.toControl
  rw [h]
  rfl

theorem enterLoop_shallow {s : State} (h : s.Shallow cfg)
    (hlt : ¬(cfg.maxLoopDepth.count : Int) ≤ s.loopDepth) : s.enterLoop.Shallow cfg where
  loops_nonneg := Int.le_add_one h.loops_nonneg
  loops_le := Int.lt_of_not_ge hlt
  calls_le := h.calls_le
  deepest_le := h.deepest_le

theorem enterFrame_shallow {name : Text} {r : Routine Stmt} {line : Nat} {s : State} (h : s.Shallow cfg)
    (hlt : s.callStack.length < cfg.maxCallDepth.count) : (s.enterFrame name r line).Shallow cfg where
  loops_nonneg := Int.le_refl 0
  loops_le := Int.natCast_nonneg _
  calls_le := hlt
  deepest_le := Nat.max_le.mpr ⟨h.deepest_le, hlt⟩

/-! ## Statements -/

theorem steady_runLoop (span : Span) {go go' : Float → Run (Ending × Nat)}
    (hgo : ∀ start, (steady cfg n n').rel (go start) (go' start)) :
    (steady cfg n n').rel (runLoop (.within cfg src last n) span go)
      (runLoop (.within cfg src last' n') span go') := by
  have records : (steady cfg n n').Records (.within cfg src last n) (.within cfg src last' n') :=
    steady_records n n'
  have finish (done : Nat) (trip : Option Trip) (signal : Signal) : (steady cfg n n').rel
      (recordCompletion (.within cfg src last n) span done trip >>= fun _ => pure signal)
      (recordCompletion (.within cfg src last' n') span done trip >>= fun _ => pure signal) :=
    Coupling.bind _ (records.noteOutput _) fun _ => Coupling.pure _ _
  have trip (t : Trip) : (steady cfg n n').rel (noteTrip (.within cfg src last n) span.first t)
      (noteTrip (.within cfg src last' n') span.first t) :=
    Coupling.bind _ steady_modify fun _ => records.op (.log ..)
  refine Coupling.bind _ steady_update fun start s hs hs' => .get (.ite (fun _ => ?_) fun hlt => ?_)
  · exact Coupling.bind _ (trip _) (fun _ => finish _ _ _) s hs hs'
  · have inside := hgo start s.enterLoop hs hs'
    refine .bind (.bracket inside ?_ (fun _ => leaveLoop_control) fun _ => rfl) ?_
    · exact fun hs => enterLoop_shallow hs hlt
    rintro ⟨ending, done⟩ t ht
    have hs := hs.of_control ht
    have hs' := hs'.of_control ht
    cases ending with
    | finished signal => exact finish _ _ _ t hs hs'
    | stopped cause => exact Coupling.bind _ (trip _) (fun _ => finish _ _ _) t hs hs'

theorem steady_executes
    (h : SteadyCalls cfg n n' (callWithin cfg src last n) (callWithin cfg src last' n')) :
    (steady cfg n n').Executes (.within cfg src last n) (.within cfg src last' n') where
  toEvaluates := steady_evaluates h
  countStatement := steady_modify
  countFailure := steady_modify
  get h s hs hs' := .get (h s s rfl s hs hs')
  within _ _ := fun hx s hs hs' => by
    refine .bracket (hx _ hs hs') ?_ (fun t ht => ?_) fun _ => rfl
    · exact fun hs => ⟨hs.loops_nonneg, hs.loops_le, hs.calls_le, hs.deepest_le⟩
    · show { t.toControl with block := s.block } = s.toControl
      rw [ht]
  labeled _ := fun hx s hs hs' => by
    refine .bind (.bracket (hx _ hs hs') ?_ (fun _ => popLabel_control) fun _ => rfl) ?_
    · exact fun hs => ⟨hs.loops_nonneg, hs.loops_le, hs.calls_le, hs.deepest_le⟩
    · exact fun _ _ _ => .done _
  loopTestFirst span _ := fun hopening htest hbody hafter => by
    refine steady_runLoop span fun start => Coupling.bind _ hopening fun _ => ?_
    exact Coupling.testFirst (steady_overrun start) steady_modify htest hbody hafter _ _
  loopBodyFirst span _ := fun htest hbody => by
    refine steady_runLoop span fun start => ?_
    exact Coupling.bodyFirst (steady_overrun start) steady_modify htest hbody _ _

/-! ## Calls -/

/-- A call goes one frame deeper with a recursion that may go one call less deep. -/
theorem steady_callFunction
    (h : (steady cfg n n').Executes (.within cfg src last n) (.within cfg src last' n')) :
    SteadyCalls cfg (n + 1) (n' + 1) (callFunction (.within cfg src last n))
      (callFunction (.within cfg src last' n')) := by
  have records : (steady cfg (n + 1) (n' + 1)).Records (.within cfg src last n)
    (.within cfg src last' n') := steady_records n n'
  intro name r args line s hs hs' hlt
  refine .bind (records.checkArity name r _ line s hs hs') fun _ s₁ h₁ => ?_
  refine .bind (.op _) fun shown s₂ h₂ => ?_
  replace h₂ := h₂.trans h₁
  refine .bind (records.note _ s₂ (hs.of_control h₂) (hs'.of_control h₂)) fun _ s₃ h₃ => ?_
  replace h₃ := h₃.trans h₂
  have stack : s₃.callStack = s.callStack := congrArg Control.callStack h₃
  have covered {m : Nat} (hm : Covers cfg (m + 1) s) : Covers cfg m (s₃.enterFrame name r line) := by
    simp only [Covers, State.enterFrame, List.length_cons, stack] at hm ⊢
    omega
  have inside := h.runFrame name r args _ (covered hs) (covered hs')
  refine .ensuring (.bracket inside ?_ (fun _ => leaveFrame_control) fun _ => rfl) fun s₄ h₄ => ?_
  · exact fun hs => enterFrame_shallow hs (stack ▸ hlt)
  · replace h₄ := h₄.trans h₃
    exact records.note _ s₄ (hs.of_control h₄) (hs'.of_control h₄)

theorem steadyCalls_within : ∀ n n',
    SteadyCalls cfg n n' (callWithin cfg src last n) (callWithin cfg src last' n')
  | 0, _ | _ + 1, 0 => by
    -- as many calls are open as there may be, so there is no call to look at
    intro name r args line s hs hs' hlt
    simp only [Covers] at hs hs'
    omega
  | n + 1, n' + 1 => steady_callFunction (steady_executes (steadyCalls_within n n'))

/-- Runs of any two recursions are steady. -/
theorem executes_within (n n' : Nat) :
    (steady cfg n n').Executes (.within cfg src last n) (.within cfg src last' n') :=
  steady_executes (steadyCalls_within n n')

theorem covers_of_le (h : cfg.maxCallDepth.count ≤ n) (s : State) : Covers cfg n s :=
  Nat.le_add_left_of_le h

/-- Steadiness of runs of the top level, which every state is covered by. -/
abbrev steadyTop (cfg : Config) : Coupling :=
  steady cfg cfg.maxCallDepth.count cfg.maxCallDepth.count

theorem executes_top (cfg : Config) (src : Source) :
    (steadyTop cfg).Executes (.top cfg src) (.top cfg src) :=
  executes_within _ _

theorem steadyAt_top {α : Type} {x x' : Run α} (h : (steadyTop cfg).rel x x') (s : State) :
    SteadyAt cfg x x' s :=
  h s (covers_of_le (Nat.le_refl _) s) (covers_of_le (Nat.le_refl _) s)

/-! ## What comes back -/

/-- What belongs to the running function: its place in the program, its variables, and its console
output that no step carries yet. -/
def State.frame (s : State) : Control × Environment × List Value :=
  (s.toControl, s.env, s.pending)

theorem note_keeps_frame (ctx : Context) (e : Event) : (ctx.note e).Keeps State.frame := by
  refine .bind ?_ fun _ => .done _
  simp only [record]
  split
  · exact .done _
  · refine .bind (fun _ => rfl) fun stored => ?_
    cases stored with
    | kept step => exact .done _
    | dropped first =>
      dsimp only
      split
      · exact .bind (fun _ => rfl) fun _ => .done _
      · exact .done _

theorem checkArity_keeps_frame (ctx : Context) (name : Text) (r : Routine Stmt) (count line : Nat) :
    (checkArity ctx name r count line).Keeps State.frame := by
  simp only [checkArity]
  split
  · exact .done _
  · exact .bind (fun _ => rfl) fun _ => note_keeps_frame ctx _

theorem callFunction_keeps_frame {ctx : Context} {name : Text} {r : Routine Stmt} {args : List Value}
    (h : (runFrame ctx name r args).Keeps State.toControl) (line : Nat) :
    (callFunction ctx name r args line).Keeps State.frame := by
  refine .bind (checkArity_keeps_frame ctx name r _ line) fun _ => .bind (fun _ => rfl) fun _ => ?_
  refine .bind (note_keeps_frame ctx _) fun _ => .ensuring (fun s => ?_) (note_keeps_frame ctx _)
  rw [exec_bracket]
  exact congrArg (·, s.env, s.pending) (leaveFrame_control (h _))

/-- Statements, loops under any label, expressions and calls, however they end, leave the call stack,
the depth of loops, the labels and the block as they were. A call leaves its caller's variables and
queued output too. -/
theorem control_restored (cfg : Config) (src : Source) :
    (∀ stmt : Stmt, (stmt.exec (.top cfg src)).Keeps State.toControl) ∧
    (∀ (label : Option Text) (stmt : Stmt), (stmt.run (.top cfg src) label).Keeps State.toControl) ∧
    (∀ e : Expr, (e.eval (.top cfg src)).Keeps State.toControl) ∧
    ∀ (name : Text) (r : Routine Stmt) (args : List Value) (line : Nat),
      (callFunction (.top cfg src) name r args line).Keeps State.toControl ∧
      (callFunction (.top cfg src) name r args line).Keeps (·.env) ∧
      (callFunction (.top cfg src) name r args line).Keeps (·.pending) := by
  have h := executes_top cfg src
  refine ⟨fun stmt s => ?_, fun label stmt s => ?_, fun e s => ?_, fun name r args line => ?_⟩
  · exact (steadyAt_top (h.exec stmt) s).control
  · exact (steadyAt_top (h.run label stmt) s).control
  · exact (steadyAt_top (h.eval e) s).control
  · have kept : (callFunction (.top cfg src) name r args line).Keeps State.frame :=
      callFunction_keeps_frame (fun s => (steadyAt_top (h.runFrame name r args) s).control) line
    refine ⟨fun s => ?_, fun s => ?_, fun s => ?_⟩
    · exact congrArg (·.1) (kept s)
    · exact congrArg (·.2.1) (kept s)
    · exact congrArg (·.2.2) (kept s)

/-! ## How deep a run goes -/

/-- However deep the recursion may go beyond the bound, and whatever stands at its end, a program does
the same. -/
theorem runProgram_steady (h : cfg.maxCallDepth.count ≤ n) (last : Caller) (program : List Stmt)
    (s : State) :
    SteadyAt cfg (runProgram (.top cfg src) program) (runProgram (.within cfg src last n) program) s := by
  have hx : (steady cfg cfg.maxCallDepth.count n).rel (runProgram (.top cfg src) program)
      (runProgram (.within cfg src last n) program) := (executes_within _ _).runProgram program
  exact hx s (covers_of_le (Nat.le_refl _) s) (covers_of_le h s)

theorem start_shallow (clock : Clock) (frames : Nat) : (State.start clock frames).Shallow cfg where
  loops_nonneg := Int.le_refl 0
  loops_le := Int.natCast_nonneg _
  calls_le := Nat.zero_le _
  deepest_le := Nat.zero_le _

theorem call_top_eq (name : Text) (r : Routine Stmt) (args : List Value) (line : Nat) {s : State}
    (h : s.callStack.length < cfg.maxCallDepth.count) :
    ((Context.top cfg src).call name r args line).exec s =
      (callFunction (.top cfg src) name r args line).exec s := by
  -- the call on the right is that of a recursion that may go one call deeper
  have calls : SteadyCalls cfg _ (cfg.maxCallDepth.count + 1) (Context.top cfg src).call
    (callFunction (.top cfg src)) := steadyCalls_within _ _
  have covered := covers_of_le (Nat.le_refl cfg.maxCallDepth.count) s
  exact (calls name r args line s covered (covers_of_le (Nat.le_succ _) s) h).same.symm

/-- Where a call may be made, it does what a recursion equation without any bound says: it runs the
function in the context of the call itself. No program comes to the end of a recursion that may go as
deep as calls may nest, whatever stands there. At every state that a program passes through, loops and
calls are nested no deeper than the configuration allows. -/
theorem interpreter_total_within_depths (cfg : Config) (src : Source) :
    (∀ name r args line (s : State), s.callStack.length < cfg.maxCallDepth.count →
      ((Context.top cfg src).call name r args line).exec s =
        (callFunction (.top cfg src) name r args line).exec s) ∧
    (∀ last n, cfg.maxCallDepth.count ≤ n → ∀ program s,
      (runProgram (.within cfg src last n) program).exec s =
        (runProgram (.top cfg src) program).exec s) ∧
    ∀ tree clock,
      (∀ t, (runProgram (.top cfg src) (Stmt.program src tree)).passes (.start clock cfg.frames) t →
        0 ≤ t.loopDepth ∧ t.loopDepth ≤ cfg.maxLoopDepth.count ∧
          t.callStack.length ≤ cfg.maxCallDepth.count) ∧
      (runTree cfg src tree clock).2.stats.counts.deepestCall ≤ cfg.maxCallDepth.count := by
  refine ⟨fun name r args line s => call_top_eq name r args line, fun last n h => ?_, ?_⟩
  · exact fun program s => (runProgram_steady h last program s).same
  intro tree clock
  have h := steadyAt_top ((executes_top cfg src).runProgram (Stmt.program src tree))
    (.start clock cfg.frames)
  refine ⟨fun t ht => ?_, (h.shallow_last (start_shallow clock _)).deepest_le⟩
  have ht := h.shallow (start_shallow clock _) t ht
  exact ⟨ht.loops_nonneg, ht.loops_le, ht.calls_le⟩

/-- A function whose body is a call of itself. -/
def recursiveRoutine : Routine Stmt :=
  ⟨[], [], [], [], some ⟨"f()", .call 1 (.name "f") []⟩, ⟨1, 1⟩⟩

/-- Where its body is run for the first time. -/
def insideRecursion : State :=
  (State.start (.ticking 0)).enterFrame "f" recursiveRoutine 1

theorem interpreter_total_within_depths_recursion :
    insideRecursion.callStack = [⟨"f", 1⟩] ∧
    insideRecursion.callStack.length < ({ maxCallDepth := 2 } : Config).maxCallDepth.count ∧
    ((Context.top { maxCallDepth := 2 } ⟨.empty⟩).call "f" recursiveRoutine [] 1).exec insideRecursion =
      (callFunction (.top { maxCallDepth := 2 } ⟨.empty⟩) "f" recursiveRoutine [] 1).exec insideRecursion :=
  ⟨rfl, by decide, (interpreter_total_within_depths { maxCallDepth := 2 } ⟨.empty⟩).1 _ _ _ _ _ (by decide)⟩

end ScriptTrace
