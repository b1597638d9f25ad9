import ScriptTrace.Proofs.Containment
/-!
# The console queue

Console output waits in a queue until a step carries it off. An act **flushes** the queue if it is empty whenever the
act has ended, and **drains** it if it is so after an act that began with an empty queue. Faults are left out: what
is queued when a fault cuts an act short is for whoever answers to the fault.

Evaluation fills the queue, and a jump, a declaration of a function or a parameter does not look at it; but every
statement that evaluates something records a step afterwards that carries the output, and a loop does so when it has
ended, whichever way. So statements drain the queue (`Stmt.run_drains`), and at the end of a program it is empty
(`runProgram_drains`).
-/
namespace ScriptTrace

open Act Op Run

variable {ctx : Context} {α β : Type} {x : Run α} {f : α → Run β} {s t : State}

def Flushes (x : Run α) : Prop :=
  ∀ s a t, x.exec s = (.ok a, t) → t.pending = []

def Drains (x : Run α) : Prop :=
  ∀ s a t, s.pending = [] → x.exec s = (.ok a, t) → t.pending = []

/-! ## Ways of putting acts together -/

namespace Flushes

theorem drains (h : Flushes x) : Drains x :=
  fun s a t _ => h s a t

theorem bind (hx : Flushes x) (hf : ∀ a, Drains (f a)) : Flushes (x >>= f) := by
  intro s b t h
  obtain ⟨a, s', first, second⟩ := exec_bind_eq_ok.1 h
  exact hf a s' b t (hx s a s' first) second

/-- It is the last act that counts. -/
theorem after (hf : ∀ a, Flushes (f a)) : Flushes (x >>= f) := by
  intro s b t h
  obtain ⟨a, s', -, second⟩ := exec_bind_eq_ok.1 h
  exact hf a s' b t second

theorem ite {p : Prop} [Decidable p] {y : Run α} (hx : Flushes x) (hy : Flushes y) :
    Flushes (if p then x else y) := by
  split
  · exact hx
  · exact hy

theorem noteOutput (e : Event) : Flushes (ctx.noteOutput e) := by
  intro s a t h
  rw [Follows.exec_noteOutput] at h
  cases h
  exact notedOutput_pending e s

end Flushes

namespace Drains

theorem pure (a : α) : Drains (pure a) := by
  intro s b t hs h
  cases h
  exact hs

theorem bind (hx : Drains x) (hf : ∀ a, Drains (f a)) : Drains (x >>= f) := by
  intro s b t hs h
  obtain ⟨a, s', first, second⟩ := exec_bind_eq_ok.1 h
  exact hf a s' b t (hx s a s' hs first) second

theorem ite {p : Prop} [Decidable p] {y : Run α} (hx : Drains x) (hy : Drains y) : Drains (if p then x else y) := by
  split
  · exact hx
  · exact hy

/-- An act that does not touch the queue. -/
theorem of_keeps (h : x.Keeps fun s => s.pending) : Drains x := by
  intro s a t hs hx
  exact (h.of_exec hx).trans hs

theorem note (e : Event) : Drains (ctx.note e) := by
  refine of_keeps fun s => ?_
  rw [Context.exec_note]
  exact noted_pending e s

theorem bracket {enter : State → State} {leave : State → State → State} (hx : Drains x)
    (enters : ∀ s, (enter s).pending = s.pending) (leaves : ∀ s t, (leave s t).pending = t.pending) :
    Drains (bracket enter x leave) := by
  intro s a t hs h
  rw [exec_bracket] at h
  rcases hb : x.exec (enter s) with ⟨outcome, u⟩
  rw [hb] at h
  cases h
  rw [leaves]
  exact hx _ _ _ ((enters s).trans hs) hb

end Drains

/-- Ends with a step that carries what is queued. -/
theorem Flushes.recorded (e : Event) (a : α) : Flushes (ctx.noteOutput e >>= fun _ => pure a) :=
  .bind (.noteOutput e) fun _ => .pure a

/-! ## Statements -/

theorem recordFailure_flushes (line : Nat) (cause : Cause) (at? : Option Nat) :
    Flushes (recordFailure ctx line cause at?) :=
  .after fun _ => .after fun _ => .recorded _ _

theorem contain_drains {act : Run Signal} (line : Nat) (h : Drains act) : Drains (contain ctx line act) := by
  intro s signal t hs he
  rcases contain_exec_eq_ok he with ended | ⟨cause, at?, u, -, answered⟩
  · exact h s signal t hs ended
  · exact recordFailure_flushes line cause at? u signal t answered

theorem execute_drains (ctx : Context) (stmt : Stmt) {act : Run Signal} (h : Drains act) :
    Drains (execute ctx stmt act) :=
  .ite (.pure _) (.bind (.of_keeps fun _ => rfl) fun _ => contain_drains _ h)

theorem executeBody_drains (ctx : Context) (stmt : Stmt) {act : Run Signal} (h : Drains act) :
    Drains (executeBody ctx stmt act) :=
  .ite h (execute_drains ctx stmt h)

theorem within_drains {act : Run Signal} (kind : BlockKind) (span : Span) (h : Drains act) :
    Drains (within kind span act) :=
  h.bracket (fun _ => rfl) fun _ _ => rfl

theorem runTest_flushes (line : Nat) (test : Expr) : Flushes (runTest ctx line test) :=
  .after fun _ => .after fun _ => .recorded _ _

/-- However a loop ends, its last step carries what is queued. -/
theorem runLoop_flushes (span : Span) (go : Float → Run (Ending × Nat)) : Flushes (runLoop ctx span go) := by
  refine .after fun _ => .after fun _ => .ite ?_ ?_
  · exact .after fun _ => .recorded _ _
  · refine .after fun (ending, done) => ?_
    cases ending with
    | finished signal => exact .recorded _ _
    | stopped trip => exact .after fun _ => .recorded _ _

theorem register_drains (name : Text) (r : Routine Stmt) : Drains (register name r : Run Unit) := by
  refine .of_keeps fun s => ?_
  obtain ⟨logs, registered⟩ := register_exec name r s.toMemory
  show ((register name r).exec s.toMemory).2.pending = s.pending
  rw [registered]

theorem checkJump_drains (line : Nat) (kind : Jump) (label : Option Text) : Drains (checkJump line kind label) := by
  refine .of_keeps fun s => ?_
  rcases checkJump_exec line kind label s with passed | ⟨why, refused⟩
  · rw [passed]
  · rw [refused]

mutual

/-- A statement leaves no output behind. -/
theorem Stmt.run_drains (ctx : Context) : ∀ (stmt : Stmt) (label : Option Text), Drains (stmt.run ctx label)
  | .skipped _ _, _ => .pure _
  | .unsupported _ _, _ => .bind (.of_keeps fun _ => rfl) fun _ => .bind (.note _) fun _ => .pure _
  | .declare _ _, _ => (Flushes.after fun _ => .recorded _ _).drains
  | .expression _ none, _ => (Flushes.recorded _ _).drains
  | .expression _ (some _), _ => (Flushes.after fun _ => .recorded _ _).drains
  | .block _ body, _ => Stmt.runAll_drains ctx body
  | .ifThen _ _ yesSpan yes, _ => by
    have branch := within_drains .ifBranch yesSpan (executeBody_drains ctx yes (yes.run_drains ctx none))
    exact (Flushes.bind (runTest_flushes _ _) fun _ => .ite branch (.pure _)).drains
  | .ifElse _ _ yesSpan yes noSpan no, _ => by
    have branch := within_drains .ifBranch yesSpan (executeBody_drains ctx yes (yes.run_drains ctx none))
    have otherwise := within_drains .elseBranch noSpan (executeBody_drains ctx no (no.run_drains ctx none))
    exact (Flushes.bind (runTest_flushes _ _) fun _ => .ite branch otherwise).drains
  | .forLoop .., _ | .whileLoop .., _ | .doLoop .., _ => (runLoop_flushes _ _).drains
  | .jump span kind target, _ =>
    (checkJump_drains span.first kind target).bind fun _ => .bind (.note _) fun _ => .pure _
  | .answer _ none, _ | .answer _ (some _), _ => (Flushes.after fun _ => .recorded _ _).drains
  | .function _ _ name r, _ =>
    (register_drains name r).bind fun _ => .bind (.of_keeps fun _ => rfl) fun _ => .bind (.note _) fun _ => .pure _
  | .labeled _ name body, _ => by
    have loop := body.run_drains ctx (some name)
    have other := execute_drains ctx body (body.run_drains ctx none)
    refine .bind (.bracket (.ite loop other) ?_ ?_) fun _ => .pure _
    · exact fun _ => rfl
    · exact fun _ _ => rfl

theorem Stmt.runAll_drains (ctx : Context) : ∀ body : List Stmt, Drains (Stmt.runAll ctx body)
  | [] => .pure _
  | stmt :: rest =>
    (execute_drains ctx stmt (stmt.run_drains ctx none)).bind fun _ => .ite (Stmt.runAll_drains ctx rest) (.pure _)

end

theorem Stmt.exec_drains (ctx : Context) (stmt : Stmt) : Drains (stmt.exec ctx) :=
  execute_drains ctx stmt (stmt.run_drains ctx none)

/-! ## Programs -/

theorem recordCut_flushes (line : Nat) (kind message : Text) : Flushes (recordCut ctx line kind message) :=
  .after fun _ => .recorded _ _

theorem runTopLevel_drains (stmt : Stmt) : Drains (runTopLevel ctx stmt) := by
  intro s signal t hs he
  unfold runTopLevel Act.handle at he
  rw [exec_follow] at he
  rcases ho : (stmt.exec ctx).exec s with ⟨fault | signal', u⟩ <;> rw [ho] at he
  · cases fault with
    | badIndex b => exact recordCut_flushes stmt.line "ValueError" b.message u signal t he
    | misfit m => exact recordCut_flushes stmt.line "TypeError" m.message u signal t he
    | exhausted => exact recordCut_flushes stmt.line "RecursionError" Fault.exhaustedMessage u signal t he
    | failure | violation => cases he
  · cases he
    exact stmt.exec_drains ctx s _ _ hs ho

/-- A program that comes to its end leaves no output behind. -/
theorem runProgram_drains : ∀ program : List Stmt, Drains (runProgram ctx program)
  | [] => .pure _
  | stmt :: rest => by
    refine (runTopLevel_drains stmt).bind fun signal => ?_
    cases signal with
    | normal => exact runProgram_drains rest
    | leave | next => exact .bind (.note _) fun _ => runProgram_drains rest
    | answer v => exact .bind (.of_keeps fun _ => rfl) fun _ => .bind (.note _) fun _ => .of_keeps fun _ => rfl

end ScriptTrace
