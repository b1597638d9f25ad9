import ScriptTrace.Proofs.Control
import ScriptTrace.Proofs.Operations
import ScriptTrace.Proofs.Sites
/-!
# Courses of runs

A **course** is all that a run does to its state, without the expressions and statements that make it do so:
operations on the memory, recorded events, counts, and the openings and closings of blocks, loops, labels and
frames. It says which fault cut the run short, if one did, and it holds only sites of the program that is run.

`Course` has one clause for each thing that a run can do, so an invariant of runs is shown by induction on it.
Acts that **follow** courses make up others that do: `Follows` has one lemma for each way of putting acts together.
-/
namespace ScriptTrace

open Act Op Run

/-! ## The relation -/

/-- Whether a line is one of those that are fit in some scope. -/
def Somewhere (P : Site → Prop) (n : Nat) : Prop :=
  ∃ p, P (.line p n)

/-- Whether a block has the lines of a fitting span. -/
def Block.Fits (P : Site → Prop) (b : Block) : Prop :=
  ∃ span : Span, P (.span span) ∧ b.first = span.first ∧ b.last = span.last

/-- Whether an event is on a fitting line and names no block but a fitting one that begins there. An error may have
come from another scope. -/
structure Event.Fits (P : Site → Prop) (p : Scope) (e : Event) : Prop where
  line : P (.line p e.line) ∨ e.kind = .error ∧ Somewhere P e.line
  block : ∀ b ∈ e.block, b.Fits P
  first : ∀ b ∈ e.block, b.first = e.line

section Events

variable {P : Site → Prop} {p : Scope} {e : Event}

theorem Event.Fits.somewhere (h : e.Fits P p) : Somewhere P e.line := by
  rcases h.line with h | ⟨-, h⟩
  · exact ⟨p, h⟩
  · exact h

theorem Event.fits_of_line (hl : P (.line p e.line)) (hb : e.block = none) : e.Fits P p where
  line := .inl hl
  block := by simp [hb]
  first := by simp [hb]

theorem Event.fits_of_error (hl : Somewhere P e.line) (hk : e.kind = .error) (hb : e.block = none) :
    e.Fits P p where
  line := .inr ⟨hk, hl⟩
  block := by simp [hb]
  first := by simp [hb]

end Events

def State.Fits (P : Site → Prop) (s : State) : Prop :=
  ∀ f ∈ s.functions, f.2.Fits P

/-- The events that only calls of functions record. -/
def StepKind.isOfCall : StepKind → Bool
  | .call | .functionReturn | .functionExit => true
  | _ => false

/-- The state after an event has been recorded with the queued console output. -/
def State.notedOutput (cfg : Config) (src : Source) (e : Event) (s : State) : State :=
  State.noted cfg src { e with captured := s.pending } { s with pending := [] }

def Event.called (name shown : Text) (line : Nat) : Event :=
  { line := line, kind := .call, message := some (Text.concat ["Calling ", name, "(", shown, ")"]) }

def Event.entered (name : Text) (line : Nat) : Event :=
  { line := line, kind := .functionEnter, message := some ("Entering " ++ name) }

def Event.returned (message : Text) (line : Nat) : Event :=
  { line := line, kind := .functionReturn, message := some message }

def Event.exited (name : Text) (line : Nat) : Event :=
  { line := line, kind := .functionExit, message := some ("Exiting " ++ name) }

/-- Faults that a run goes on after without containing them: a bad index and exhaustion. -/
inductive Fault.Passing : Fault → Prop
  | badIndex (b : BadIndex) : Passing (.badIndex b)
  | exhausted : Passing .exhausted

/-- What a run in a scope can do from one state to another, and by which fault it is cut short. -/
inductive Course (P : Site → Prop) (cfg : Config) (src : Source) :
    Scope → State → Option Fault → State → Prop
  | refl {p s} : Course P cfg src p s none s
  | trans {p s t u o} : Course P cfg src p s none t → Course P cfg src p t o u → Course P cfg src p s o u
  /-- An operation that keeps functions and queue. -/
  | operate {p s} (m : Memory) (o : Option Fault) (functions : m.functions = s.functions)
      (pending : m.pending = s.pending) (faults : ∀ f ∈ o, f.Raisable (Somewhere P)) :
      Course P cfg src p s o { s with toMemory := m, raised := s.raised + failuresIn o }
  | define {p s} (name : Text) (r : Routine Stmt) (logs : Array Log) (routine : r.Fits P) :
      Course P cfg src p s none { s with functions := s.functions.insert name r, logs := logs }
  | print {p s} (v : Value) :
      Course P cfg src p s none { s with pending := s.pending ++ [v], journal := s.journal.push (.printed v) }
  | refuse {p s} (x : Text) (line : Nat) :
      Course P cfg src p s none { s with journal := s.journal.push (.refused x line) }
  | note {p s} (e : Event) (event : e.Fits P p) (plain : e.kind.isOfCall = false) (bare : e.captured = []) :
      Course P cfg src p s none (s.noted cfg src e)
  | noteOutput {p s} (e : Event) (event : e.Fits P p) (plain : e.kind.isOfCall = false) :
      Course P cfg src p s none (s.notedOutput cfg src e)
  | tick {p s} (clock : Clock) : Course P cfg src p s none { s with clock := clock }
  /-- Statements, rounds and trips are counted. -/
  | tally {p s} (counts : Counts) (calls : counts.calls = s.counts.calls)
      (deepest : counts.deepestCall = s.counts.deepestCall) (failures : counts.failures = s.counts.failures) :
      Course P cfg src p s none { s with counts := counts }
  /-- A jump that has nowhere to go. -/
  | stray {p s} (line : Nat) (kind : Jump) (label : Option Text) (why : Violation)
      (jump : P (.jump p kind label))
      (refused : (checkJump line kind label).exec s = (.error (.violation why line), s)) :
      Course P cfg src p s (some (.violation why line)) s
  /-- A failure is contained. -/
  | contain {p s t} (cause : Cause) (line : Option Nat) (body : Course P cfg src p s (some (.failure cause line)) t) :
      Course P cfg src p s none { t with counts := { t.counts with failures := t.counts.failures + 1 } }
  /-- The top level goes on after a passing fault, and so does a call that was exhausted. -/
  | recover {p s t} (fault : Fault) (passing : fault.Passing) (body : Course P cfg src p s (some fault) t) :
      Course P cfg src p s none t
  | within {p s t o} (kind : BlockKind) (span : Span) (fits : P (.span span))
      (body : Course P cfg src (.block span :: p) { s with block := some ⟨kind, span.first, span.last⟩ } o t) :
      Course P cfg src p s o { t with block := s.block }
  | loop {p s t o} (body : Course P cfg src (.loop :: p) s.enterLoop o t) : Course P cfg src p s o (s.leaveLoop t)
  | label {p s t o} (name : Text) (body : Course P cfg src (.label name :: p) (s.pushLabel name) o t) :
      Course P cfg src p s o t.popLabel
  /-- A call that returns: it records all the output that the function has left in its queue. -/
  | call {p s t} (name shown message : Text) (r : Routine Stmt) (line : Nat) (routine : r.Fits P)
      (site : P (.line p line))
      (body : Course P cfg src [.body r.span]
        ((s.noted cfg src (.called name shown line)).enterFrame name r line) none t) :
      Course P cfg src p s none
        (((s.noted cfg src (.called name shown line)).leaveFrame
          (t.notedOutput cfg src (.returned message r.span.last))).noted cfg src (.exited name line))
  /-- A call that a fault cuts short. -/
  | cutCall {p s t} (name shown : Text) (r : Routine Stmt) (line : Nat) (fault : Fault) (routine : r.Fits P)
      (site : P (.line p line))
      (body : Course P cfg src [.body r.span]
        ((s.noted cfg src (.called name shown line)).enterFrame name r line) (some fault) t) :
      Course P cfg src p s (some fault)
        (((s.noted cfg src (.called name shown line)).leaveFrame t).noted cfg src (.exited name line))

variable {P : Site → Prop} {cfg : Config} {src : Source} {ctx : Context} {p : Scope} {s t u : State}
  {o : Option Fault} {α β : Type}

/-! ## What a recorded event leaves alone -/

section Noted

variable (e : Event) (s : State)

@[simp] theorem noted_functions : (s.noted cfg src e).functions = s.functions := by
  unfold State.noted
  split <;> rfl

@[simp] theorem noted_pending : (s.noted cfg src e).pending = s.pending := by
  unfold State.noted
  split <;> rfl

@[simp] theorem noted_control : (s.noted cfg src e).toControl = s.toControl := by
  unfold State.noted
  split <;> rfl

@[simp] theorem noted_counts : (s.noted cfg src e).counts = s.counts := by
  unfold State.noted
  split <;> rfl

@[simp] theorem notedOutput_functions : (s.notedOutput cfg src e).functions = s.functions :=
  noted_functions _ _

@[simp] theorem notedOutput_pending : (s.notedOutput cfg src e).pending = [] :=
  noted_pending _ _

@[simp] theorem notedOutput_control : (s.notedOutput cfg src e).toControl = s.toControl :=
  noted_control _ _

@[simp] theorem notedOutput_counts : (s.notedOutput cfg src e).counts = s.counts :=
  noted_counts _ _

end Noted

namespace Course

/-- The callable functions of a run fit. -/
theorem fits (h : Course P cfg src p s o t) (hs : s.Fits P) : t.Fits P := by
  induction h with
  | refl | print | refuse | tick | tally | stray => exact hs
  | trans _ _ first second => exact second (first hs)
  | operate m o functions =>
    unfold State.Fits at *
    rwa [functions]
  | define name r logs routine =>
    intro f hf
    rcases Assoc.mem_insert hf with rfl | hf
    · exact routine
    · exact hs f hf
  | note e | noteOutput e => simpa [State.Fits] using hs
  | contain _ _ _ ih | recover _ _ _ ih | within _ _ _ _ ih | loop _ ih | label _ _ ih => exact ih hs
  | call | cutCall =>
    rename_i ih
    simp only [State.Fits, State.leaveFrame, State.enterFrame, noted_functions, notedOutput_functions] at ih ⊢
    exact ih hs

/-- Whatever a run does, it comes back to where it began. -/
theorem control (h : Course P cfg src p s o t) : t.toControl = s.toControl := by
  induction h with
  | refl | operate | define | print | refuse | tick | tally | stray => rfl
  | trans _ _ first second => exact second.trans first
  | note e => exact noted_control e _
  | noteOutput e => exact notedOutput_control e _
  | contain _ _ _ ih | recover _ _ _ ih => exact ih
  | within kind span fits body ih =>
    rename_i s t _
    show { t.toControl with block := s.block } = s.toControl
    rw [ih]
  | loop body ih => exact leaveLoop_control ih
  | label name body ih => exact popLabel_control ih
  | call _ _ _ _ _ _ _ _ ih =>
    rw [noted_control, leaveFrame_control ((notedOutput_control _ _).trans ih), noted_control]
  | cutCall _ _ _ _ _ _ _ _ ih =>
    rw [noted_control, leaveFrame_control ih, noted_control]

/-- A run is cut short by failures on lines of the program, bad indices, exhaustion and violations. -/
theorem fault {f : Fault} (h : Course P cfg src p s (some f) t) :
    f.Raisable (Somewhere P) ∨ ∃ why line, f = .violation why line := by
  generalize ho : some f = o at h
  induction h with
  | refl | define | print | refuse | note | noteOutput | tick | tally | contain | recover | call => cases ho
  | trans _ _ _ second => exact second ho
  | operate m o functions pending faults => exact .inl (faults f ho.symm)
  | stray line kind label why =>
    cases ho
    exact .inr ⟨why, line, rfl⟩
  | within _ _ _ _ ih | loop _ ih | label _ _ ih | cutCall _ _ _ _ _ _ _ _ ih => exact ih ho

end Course

theorem checkJump_exec (line : Nat) (kind : Jump) (label : Option Text) (s : State) :
    (checkJump line kind label).exec s = (.ok (), s) ∨
      ∃ why, (checkJump line kind label).exec s = (.error (.violation why line), s) := by
  unfold checkJump
  rw [exec_bind_ok exec_get]
  cases label with
  | none =>
    dsimp only
    split
    · exact .inr ⟨_, rfl⟩
    · exact .inl rfl
  | some l =>
    dsimp only
    split
    · exact .inr ⟨_, rfl⟩
    · split
      · exact .inr ⟨_, rfl⟩
      · exact .inl rfl

/-- A statement that is run has a line of its own. -/
theorem Stmt.Fits.line {stmt : Stmt} (h : stmt.Fits P p) (hs : stmt.isSkipped = false) : P (.line p stmt.line) := by
  cases stmt with
  | skipped => cases hs
  | jump | function => exact h _ (by simp [Stmt.sites, Site.ends, Stmt.line, Stmt.span])
  | _ => exact h _ (by simp [Stmt.sites, Site.ends, Stmt.line, Stmt.span])

/-! ## Acts that follow courses -/

/-- Whether an act follows a course in a scope, from every state whose callable functions fit. -/
def Follows (P : Site → Prop) (ctx : Context) (p : Scope) (x : Run α) : Prop :=
  ∀ s, s.Fits P → Course P ctx.config ctx.source p s (cut? (x.exec s).1) (x.exec s).2

namespace Follows

theorem pure (a : α) : Follows P ctx p (pure a) := fun _ _ => .refl

/-- Going on with any result that the first act can give. -/
theorem bind_of {x : Run α} {f : α → Run β} (hx : Follows P ctx p x)
    (hf : ∀ a, (∃ s t, x.exec s = (.ok a, t)) → Follows P ctx p (f a)) : Follows P ctx p (x >>= f) := by
  intro s hs
  have first := hx s hs
  rw [exec_bind]
  rcases he : x.exec s with ⟨fault | a, t⟩ <;> rw [he] at first
  · exact first
  · exact first.trans (hf a ⟨s, t, he⟩ t (first.fits hs))

theorem bind {x : Run α} {f : α → Run β} (hx : Follows P ctx p x) (hf : ∀ a, Follows P ctx p (f a)) :
    Follows P ctx p (x >>= f) :=
  hx.bind_of fun a _ => hf a

theorem discard {x : Run α} (hx : Follows P ctx p x) : Follows P ctx p (discard x) :=
  hx.bind fun _ => pure _

theorem ite {c : Prop} [Decidable c] {x y : Run α} (hx : Follows P ctx p x) (hy : Follows P ctx p y) :
    Follows P ctx p (if c then x else y) := by
  split
  · exact hx
  · exact hy

/-- Going on as the state says. -/
theorem get {f : State → Run α} (hf : ∀ s, Follows P ctx p (f s)) : Follows P ctx p (MonadState.get >>= f) :=
  fun s hs => hf s s hs

theorem forM {f : β → Run Unit} : ∀ {l : List β}, (∀ b ∈ l, Follows P ctx p (f b)) → Follows P ctx p (l.forM f)
  | [], _ => pure _
  | b :: _, h => (h b List.mem_cons_self).bind fun _ => forM fun c hc => h c (List.mem_cons_of_mem b hc)

theorem op {x : Op α} (hx : x.Quiet (Somewhere P)) : Follows P ctx p x.asRun := by
  intro s _
  have keeps := Prod.mk.inj (hx.keeps s.toMemory)
  refine .operate (x.exec s.toMemory).2 (cut? (x.exec s.toMemory).1) keeps.1 keeps.2 fun f hf => ?_
  refine hx.faults s.toMemory f ?_
  generalize (x.exec s.toMemory).1 = outcome at hf
  cases outcome with
  | ok a => cases hf
  | error fault =>
    cases hf
    rfl

theorem register {name : Text} {r : Routine Stmt} (hr : r.Fits P) : Follows P ctx p (register name r).asRun := by
  intro s _
  obtain ⟨logs, exec⟩ := exec_register name r s
  rw [exec]
  exact .define name r logs hr

theorem note {e : Event} (he : e.Fits P p) (plain : e.kind.isOfCall = false) (bare : e.captured = []) :
    Follows P ctx p (ctx.note e) := by
  intro s _
  rw [Context.exec_note]
  exact .note e he plain bare

theorem exec_noteOutput (ctx : Context) (e : Event) (s : State) :
    (ctx.noteOutput e).exec s = (.ok (), s.notedOutput ctx.config ctx.source e) :=
  (exec_bind_ok rfl).trans (Context.exec_note ctx _ _)

theorem noteOutput {e : Event} (he : e.Fits P p) (plain : e.kind.isOfCall = false) :
    Follows P ctx p (ctx.noteOutput e) := by
  intro s _
  rw [exec_noteOutput]
  exact .noteOutput e he plain

theorem print (v : Value) : Follows P ctx p (print v) := fun _ _ => .print v

theorem diagnose {line : Nat} (hl : P (.line p line)) (message : Text) : Follows P ctx p (ctx.diagnose line message) :=
  (op (.warn _ _)).bind fun _ => (note (Event.fits_of_line hl rfl) rfl rfl).bind fun _ => pure _

/-- A call whose exhaustion is answered with a diagnostic. -/
theorem shielded {line : Nat} (hl : P (.line p line)) (name : Text) {x : Run Value} (hx : Follows P ctx p x) :
    Follows P ctx p (shielded ctx line name x) := by
  intro s hs
  have course := hx s hs
  unfold ScriptTrace.shielded Act.handle
  rw [exec_follow]
  rcases he : x.exec s with ⟨fault | v, t⟩ <;> rw [he] at course
  · cases fault with
    | exhausted => exact (course.recover _ .exhausted).trans (diagnose hl _ t (course.fits hs))
    | failure | violation | badIndex | misfit => exact course
  · exact course

theorem queueOutput (args : List Value) : Follows P ctx p (queueOutput args) :=
  (op (.captured args)).bind fun v => (print v).bind fun _ => pure _

theorem checkArity {line : Nat} (hl : P (.line p line)) (name : Text) (r : Routine Stmt) (count : Nat) :
    Follows P ctx p (checkArity ctx name r count line) :=
  ite (pure _) ((op (.warn _ _)).bind fun _ => note (Event.fits_of_line hl rfl) rfl rfl)

theorem tick : Follows P ctx p readClock := fun _ _ => .tick _

theorem overrun (cfg : Config) (start : Float) : Follows P ctx p (overrun? cfg start) :=
  tick.bind fun _ => ite (pure _) (get fun _ => ite (pure _) (pure _))

theorem countStatement : Follows P ctx p countStatement := fun _ _ => .tally _ rfl rfl rfl

theorem countRound : Follows P ctx p countRound := fun _ _ => .tally _ rfl rfl rfl

theorem noteTrip (line : Nat) (trip : Trip) : Follows P ctx p (noteTrip ctx line trip) :=
  bind (fun _ _ => .tally _ rfl rfl rfl) fun _ => op (.warn _ _)

/-! ## Loops -/

section Rounds

variable {r : Rounds} (htest : Follows P ctx p r.test) (hbody : Follows P ctx p r.body)
  (hafter : ∀ s, Follows P ctx p (r.after s))

include hbody

theorem once : Follows P ctx p r.once := by
  refine (overrun _ _).bind fun trip => ?_
  cases trip with
  | some trip => exact pure _
  | none => exact countRound.bind fun _ => hbody.bind fun _ => ite (pure _) (pure _)

include htest

theorem bodyFirst : ∀ left done, Follows P ctx p (r.bodyFirst left done)
  | 0, _ => pure _
  | left + 1, done => by
    refine (once hbody).bind fun end? => ?_
    cases end? with
    | inl ending => exact pure _
    | inr s => exact htest.bind fun _ => ite (bodyFirst left _) (pure _)

include hafter

theorem testFirst : ∀ left done, Follows P ctx p (r.testFirst left done)
  | 0, _ => htest.bind fun _ => ite (pure _) (pure _)
  | left + 1, done => by
    refine htest.bind fun _ => ite ?_ (pure _)
    refine (once hbody).bind fun end? => ?_
    cases end? with
    | inl ending => exact pure _
    | inr s => exact (hafter s).bind fun _ => testFirst left _

end Rounds

theorem runLoop {span : Span} (hl : P (.line p span.last)) {go : Float → Run (Ending × Nat)}
    (hgo : ∀ start, Follows P ctx (.loop :: p) (go start)) : Follows P ctx p (runLoop ctx span go) := by
  have complete (done : Nat) (trip : Option Trip) : Follows P ctx p (recordCompletion ctx span done trip) :=
    noteOutput (Event.fits_of_line hl rfl) rfl
  have rounds (start : Float) : Follows P ctx p (bracket State.enterLoop (go start) State.leaveLoop) :=
    fun s hs => .loop (hgo start s.enterLoop hs)
  refine tick.bind fun start => get fun s => ite ?_ ?_
  · exact (noteTrip _ _).bind fun _ => (complete _ _).bind fun _ => pure _
  · refine (rounds start).bind fun (ending, done) => ?_
    cases ending with
    | finished s => exact (complete _ _).bind fun _ => pure _
    | stopped trip => exact (noteTrip _ _).bind fun _ => (complete _ _).bind fun _ => pure _

theorem within (kind : BlockKind) {span : Span} (hspan : P (.span span)) {x : Run α}
    (hx : Follows P ctx (.block span :: p) x) : Follows P ctx p (within kind span x) :=
  fun s hs => .within kind span hspan (hx { s with block := some ⟨kind, span.first, span.last⟩ } hs)

theorem labeled (name : Text) {x : Run Signal} (hx : Follows P ctx (.label name :: p) x) :
    Follows P ctx p (runLabeled name x) :=
  bind (fun s hs => .label name (hx (s.pushLabel name) hs)) fun _ => pure _

/-! ## Containment -/

theorem contain {line : Nat} (hl : P (.line p line)) {x : Run Signal} (hx : Follows P ctx p x) :
    Follows P ctx p (contain ctx line x) := by
  intro s hs
  have course := hx s hs
  unfold ScriptTrace.contain Act.handle
  rw [exec_follow]
  rcases he : x.exec s with ⟨fault | signal, t⟩ <;> rw [he] at course
  · cases fault with
    | failure cause at? =>
      have place : Somewhere P (if at?.getD line = 0 then line else at?.getD line) := by
        split
        · exact ⟨p, hl⟩
        · cases at? with
          | none => exact ⟨p, hl⟩
          | some n =>
            rcases course.fault with raisable | ⟨_, _, impossible⟩
            · exact raisable n rfl
            · cases impossible
      have answer : Follows P ctx p (do
          warn .statements ["Runtime failure at line ", (line : Text), ": ", cause.message]
          ctx.noteOutput { line := if at?.getD line = 0 then line else at?.getD line, kind := .error,
                           message := some cause.message }
          return Signal.normal) :=
        (op (.warn _ _)).bind fun _ => (noteOutput (Event.fits_of_error place rfl rfl) rfl).bind fun _ => pure _
      exact (course.contain cause at?).trans (answer _ (course.fits hs))
    | violation | badIndex | misfit | exhausted => exact course
  · exact course

theorem execute {stmt : Stmt} (hs : stmt.Fits P p) {x : Run Signal} (hx : Follows P ctx p x) :
    Follows P ctx p (execute ctx stmt x) := by
  unfold ScriptTrace.execute
  split
  · exact pure _
  · rename_i skipped
    exact countStatement.bind fun _ => contain (hs.line (Bool.eq_false_iff.2 skipped)) hx

theorem executeBody {stmt : Stmt} (hs : stmt.Fits P p) {x : Run Signal} (hx : Follows P ctx p x) :
    Follows P ctx p (executeBody ctx stmt x) :=
  ite hx (execute hs hx)

end Follows

end ScriptTrace
