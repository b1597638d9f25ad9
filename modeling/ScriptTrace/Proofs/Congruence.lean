import ScriptTrace.Proofs.Coupling
/-!
# Congruences

A relation between states is a **congruence** if runs respect it: from related states a run ends alike and leaves
related states. It has to be asked only of the moves that a run is made of. `Congruence` lists them; what is run between
two of them, and how deep calls and loops nest, makes no difference.

* `Congruence.loops`: all moves of a run respect the relation, those of loops included.
* `Congruence.within`: whatever is run in a context of a program.
-/
namespace ScriptTrace

open Act Op Run

/-- Runs that end alike, and in related states, when they begin in related states. -/
def lockstep (R : State → State → Prop) : Coupling where
  rel x x' := ∀ s s', R s s' → (x'.exec s').1 = (x.exec s).1 ∧ R (x.exec s).2 (x'.exec s').2
  faults _ := True
  violations _ _ := trivial
  done _ _ _ _ related := ⟨rfl, related⟩
  follow {_ _ x x' next next'} hx h s s' related := by
    obtain ⟨outcome, left⟩ := hx s s' related
    rw [exec_follow, exec_follow, outcome]
    exact h _ (fun _ _ => trivial) _ _ left

/-- A relation that the moves of a run respect. Related states are in the same place of the program, show the same time
and have recorders of which both or neither are full, so a run takes the same branches from them. -/
structure Congruence (cfg : Config) (src : Source) (R : State → State → Prop) : Prop where
  control {s s' : State} : R s s' → s'.toControl = s.toControl
  clock {s s' : State} : R s s' → s'.clock = s.clock
  isFull {s s' : State} : R s s' → s'.recorder.isFull cfg = s.recorder.isFull cfg
  op {α : Type} {x : Op α} : x.Elementary none → (lockstep R).rel x.asRun x.asRun
  print (v : Value) : (lockstep R).rel (print v) (print v)
  refuse (x : Text) (line : Nat) : (lockstep R).rel (refuse x line) (refuse x line)
  noted (e : Event) {s s' : State} : R s s' → R (s.noted cfg src e) (s'.noted cfg src e)
  counted (g : Counts → Counts) {s s' : State} :
    R s s' → R { s with counts := g s.counts } { s' with counts := g s'.counts }
  timed (c : Clock) {s s' : State} : R s s' → R { s with clock := c } { s' with clock := c }
  placed (c : Control) {s s' : State} : R s s' → R { s with toControl := c } { s' with toControl := c }
  enterFrame (name : Text) (r : Routine Stmt) (line : Nat) {s s' : State} :
    R s s' → R (s.enterFrame name r line) (s'.enterFrame name r line)
  leaveFrame {s s' t t' : State} : R s s' → R t t' → R (s.leaveFrame t) (s'.leaveFrame t')
  leaveLoop {s s' t t' : State} : R s s' → R t t' → R (s.leaveLoop t) (s'.leaveLoop t')

namespace Congruence

variable {cfg : Config} {src : Source} {R : State → State → Prop} (h : Congruence cfg src R) {last : Caller} {n : Nat}

/-! ## Moves of the state -/

section Moves

variable {α : Type} {x x' : Run α}

omit h in
theorem get {f f' : State → Run α} (hf : ∀ s s', R s s' → (lockstep R).rel (f s) (f' s')) :
    (lockstep R).rel (get >>= f) (get >>= f') :=
  fun s s' related => hf s s' related s s' related

omit h in
theorem bracket {enter : State → State} {leave : State → State → State} (hx : (lockstep R).rel x x')
    (entered : ∀ {s s'}, R s s' → R (enter s) (enter s'))
    (left : ∀ {s s' t t'}, R s s' → R t t' → R (leave s t) (leave s' t')) :
    (lockstep R).rel (bracket enter x leave) (bracket enter x' leave) := by
  intro s s' related
  obtain ⟨outcome, inside⟩ := hx _ _ (entered related)
  rw [exec_bracket, exec_bracket]
  exact ⟨outcome, left related inside⟩

include h

/-- A move of the control part, chosen by the one that there is and the one that there was. -/
theorem moved (g : Control → Control → Control) {s s' t t' : State} (before : R s s') (after : R t t') :
    R { t with toControl := g s.toControl t.toControl } { t' with toControl := g s'.toControl t'.toControl } := by
  rw [h.control before, h.control after]
  exact h.placed _ after

theorem count (g : Counts → Counts) :
    (lockstep R).rel (modify fun s => { s with counts := g s.counts })
      (modify fun s => { s with counts := g s.counts }) :=
  fun _ _ related => ⟨rfl, h.counted g related⟩

theorem readClock : (lockstep R).rel readClock readClock := by
  intro s s' related
  have moved := h.timed
    { s.clock with now := s.clock.reading s.clock.used s.clock.now, used := s.clock.used + 1 } related
  simp only [Run.readClock, exec_modifyGet, h.clock related]
  exact ⟨trivial, moved⟩

theorem overrun (start : Float) : (lockstep R).rel (overrun? cfg start) (overrun? cfg start) := by
  intro s s' related
  rw [exec_overrun, exec_overrun, h.clock related, h.isFull related]
  exact ⟨rfl, (h.readClock s s' related).2⟩

theorem countRound : (lockstep R).rel countRound countRound :=
  h.count fun c => { c with rounds := c.rounds + 1 }

end Moves

/-! ## Contexts -/

include h

theorem records : (lockstep R).Records (.within cfg src last n) (.within cfg src last n) where
  strangers := rfl
  op := h.op
  print := h.print
  note e s s' related := by
    rw [Context.exec_note, Context.exec_note]
    exact ⟨rfl, h.noted e related⟩

theorem loops : (lockstep R).Loops (.within cfg src last n) (.within cfg src last n) where
  toRecords := h.records
  maxCallDepth := rfl
  maxLoopDepth := rfl
  get hf := get fun s s' related => hf s s' (h.control related)
  within kind span := fun hx => by
    refine bracket hx (fun related => ?_) fun before after => ?_
    · exact h.moved (fun _ c => { c with block := some ⟨kind, span.first, span.last⟩ }) related related
    · exact h.moved (fun outer c => { c with block := outer.block }) before after
  labeled name := fun hx => by
    refine Coupling.bind _ (bracket hx (fun related => ?_) fun _ related => ?_) fun _ => Coupling.pure _ _
    · exact h.moved (fun _ c => { c with labels := name :: c.labels }) related related
    · exact h.moved (fun _ c => { c with labels := c.labels.tail }) related related
  countStatement := h.count fun c => { c with statements := c.statements + 1 }
  countFailure := h.count fun c => { c with failures := c.failures + 1 }
  readClock := h.readClock
  refuse := h.refuse
  message _ := rfl
  countTrip := h.count fun c => { c with trips := c.trips + 1 }
  maxIterations := rfl
  overrun := h.overrun
  countRound := h.countRound
  inside := fun hx => by
    refine bracket hx (fun related => ?_) h.leaveLoop
    have deeper := h.moved (fun _ c => { c with loopDepth := c.loopDepth + 1 }) related related
    exact h.counted (fun c => { c with rounds := 0 }) deeper

/-- Whatever is run from related states, it leaves related states. -/
theorem within (n : Nat) : (lockstep R).Executes (.within cfg src .idle n) (.within cfg src .idle n) := by
  refine (lockstep R).executes_within ?_ (fun _ _ _ _ => Coupling.pure _ _) h.loops.executes n
  exact fun name r line hx => bracket hx (h.enterFrame name r line) h.leaveFrame

end Congruence

end ScriptTrace
