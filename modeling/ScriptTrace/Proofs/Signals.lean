import ScriptTrace.Proofs.Containment
/-!
# Where signals go

A statement that does not end normally sends a signal to some statement around it: a jump to the innermost loop or to
a label, or an answer to the function. A signal **lands** at a place of the program if it finds its target there: an
open loop for a jump without a label, and else one of the labels that are open.

One kind of jump does not land. A label may stand at a statement that is no loop, and then it is **loose**: a `break`
to it is used up there, but a `continue` goes through, and nothing further out takes it up.

* `Stmt.run_sends`: what a statement sends lands where the statement is, or is a `continue` to a loose label in it.
* `Stmt.run_passesBy`: a loop takes up every jump that has no label or its own.
* `signals_find_targets`: both, and what follows for the statements of a program and the bodies of functions.
-/
namespace ScriptTrace

open Act Op Run

variable {ctx : Context} {p : Scope} {s t u : State} {α β : Type}

/-! ## Signals -/

mutual

/-- The labels in a statement that stand at no loop; a function in it has labels of its own. -/
def Stmt.looseLabels : Stmt → List Text
  | .block _ body => Stmt.looseLabelsAll body
  | .ifThen _ _ _ yes => yes.looseLabels
  | .ifElse _ _ _ yes _ no => yes.looseLabels ++ no.looseLabels
  | .forLoop _ _ _ _ _ body | .whileLoop _ _ _ body | .doLoop _ _ _ _ body => body.looseLabels
  | .labeled _ name body => if body.isLoop then body.looseLabels else name :: body.looseLabels
  | .skipped .. | .unsupported .. | .declare .. | .expression .. | .jump .. | .answer .. | .function .. => []

def Stmt.looseLabelsAll : List Stmt → List Text
  | [] => []
  | stmt :: rest => stmt.looseLabels ++ Stmt.looseLabelsAll rest

end

namespace Signal

/-- Whether a signal finds its target where so many loops and these labels are open, or is a `continue` to one of the
loose labels. -/
def Lands (depth : Int) (labels loose : List Text) : Signal → Prop
  | .normal | .answer _ => True
  -- a depth is an integer, and a state by itself does not say that it counts loops
  | .leave none | .next none => 0 ≤ depth → 0 < depth
  | .leave (some l) => l ∈ labels
  | .next (some l) => l ∈ labels ∨ l ∈ loose

/-- Whether a loop that carries `label` lets a signal through: only a jump to another label. -/
def PassesBy (label : Option Text) : Signal → Prop
  | .normal | .answer _ => True
  | .leave l | .next l => l ≠ none ∧ l ≠ label

variable {signal : Signal} {depth inner : Int} {labels loose more : List Text} {label : Option Text} {name : Text}

theorem Lands.mono (h : signal.Lands depth labels loose) (sub : loose ⊆ more) : signal.Lands depth labels more := by
  match signal, h with
  | .normal, _ | .answer _, _ => trivial
  | .leave none, h | .next none, h | .leave (some _), h => exact h
  | .next (some l), h => exact h.imp_right fun hl => sub hl

/-- Where no loops and no labels are open, only a `continue` to a loose label is left. -/
theorem Lands.at_top (h : signal.Lands 0 [] loose) : (∀ l, signal ≠ .leave l) ∧ signal ≠ .next none := by
  have shut : ¬((0 : Int) ≤ 0 → (0 : Int) < 0) := by omega
  refine ⟨?_, ?_⟩
  · rintro (_ | l) rfl
    · exact shut h
    · cases h
  · rintro rfl
    exact shut h

theorem targets_eq_false {signal : Signal} (h : ¬signal.targets label = true) :
    signal.label ≠ none ∧ signal.label ≠ label := by
  simp only [targets, Bool.or_eq_true, Option.isNone_iff_eq_none, beq_iff_eq, not_or] at h
  exact h

/-- What ends a loop is not meant for it, or is used up. -/
theorem settle_passesBy (h : signal.exits label = true) : (signal.settle label).PassesBy label := by
  cases signal with
  | normal => cases h
  | answer v => trivial
  | leave l =>
    by_cases own : (leave l).targets label = true
    · rw [settle, if_pos own]
      trivial
    · rw [settle, if_neg own]
      exact targets_eq_false own
  | next l =>
    have other : ¬(next l).targets label = true := by simpa [exits] using h
    exact targets_eq_false other

/-- What lands inside a loop lands outside of it, once the loop has taken up its own. -/
theorem Lands.settle (h : signal.Lands inner labels loose) (ends : signal.exits label = true) :
    (signal.settle label).Lands depth labels loose := by
  have passes := settle_passesBy ends
  match signal, h with
  | .normal, _ => cases ends
  | .answer _, _ | .leave none, _ => trivial
  | .next none, _ => exact absurd rfl passes.1
  | .next (some l), h => exact h
  | .leave (some l), h =>
    by_cases own : (leave (some l)).targets label = true
    · rw [Signal.settle, if_pos own]
      trivial
    · rw [Signal.settle, if_neg own]
      exact h

/-- What a labelled statement sends on: a `break` to its label is used up. -/
theorem Lands.unlabel (h : signal.Lands depth (name :: labels) loose) (sub : loose ⊆ more)
    (next : signal = .next (some name) → name ∈ more) :
    (if signal = .leave (some name) then .normal else signal).Lands depth labels more := by
  match signal, h, next with
  | .normal, _, _ | .answer _, _, _ => trivial
  | .leave none, h, _ | .next none, h, _ => exact h
  | .leave (some l), h, _ =>
    by_cases own : l = name
    · rw [if_pos (by rw [own])]
      trivial
    · rw [if_neg fun same => own (Option.some.inj (leave.inj same))]
      exact (List.mem_cons.1 h).resolve_left own
  | .next (some l), h, next =>
    rcases h with h | hl
    · rcases List.mem_cons.1 h with rfl | hl
      · exact .inr (next rfl)
      · exact .inl hl
    · exact .inr (sub hl)

end Signal

/-! ## What acts send -/

/-- Whether what an act sends lands where it began. -/
def Sends (x : Run Signal) (loose : List Text) : Prop :=
  ∀ s signal t, x.exec s = (.ok signal, t) → signal.Lands s.loopDepth s.labels loose

/-- Whether an act ends normally or with an answer. -/
def Settles (x : Run Signal) : Prop :=
  ∀ s signal t, x.exec s = (.ok signal, t) → ∀ depth labels loose, signal.Lands depth labels loose

theorem Follows.keeps_control {x : Run α} (h : Follows (fun _ => True) ctx p x) : x.Keeps State.toControl :=
  fun s => (h s fun _ _ _ _ => trivial).control

namespace Settles

theorem normal : Settles (pure .normal) := by
  intro s signal t h
  cases h
  exact fun _ _ _ => trivial

theorem answer (v : Value) : Settles (pure (.answer v)) := by
  intro s signal t h
  cases h
  exact fun _ _ _ => trivial

/-- It is the last act that counts. -/
theorem after {x : Run α} {f : α → Run Signal} (hf : ∀ a, Settles (f a)) : Settles (x >>= f) := by
  intro s signal t h
  obtain ⟨a, s', -, rest⟩ := exec_bind_eq_ok.1 h
  exact hf a s' signal t rest

theorem sends {x : Run Signal} (h : Settles x) (loose : List Text) : Sends x loose :=
  fun s signal t he => h s signal t he _ _ _

end Settles

namespace Sends

variable {x y : Run Signal} {loose more : List Text}

theorem mono (h : Sends x loose) (sub : loose ⊆ more) : Sends x more :=
  fun s signal t he => (h s signal t he).mono sub

theorem ite {q : Prop} [Decidable q] (hx : Sends x loose) (hy : Sends y loose) : Sends (if q then x else y) loose := by
  split
  · exact hx
  · exact hy

/-- An act before it that comes back to where it began makes no difference. -/
theorem after {x : Run α} {f : α → Run Signal} (hx : x.Keeps State.toControl) (hf : ∀ a, Sends (f a) loose) :
    Sends (x >>= f) loose := by
  intro s signal t h
  obtain ⟨a, s', first, rest⟩ := exec_bind_eq_ok.1 h
  rw [← hx.of_exec first]
  exact hf a s' signal t rest

theorem within (kind : BlockKind) (span : Span) (h : Sends x loose) : Sends (within kind span x) loose := by
  intro s signal t he
  rcases hb : x.exec { s with block := some ⟨kind, span.first, span.last⟩ } with ⟨outcome, u⟩
  rw [Run.within, exec_bracket, hb] at he
  cases he
  have inside := h _ _ _ hb
  exact inside

/-- A failure is answered by a normal end. -/
theorem contain (line : Nat) (h : Sends x loose) : Sends (contain ctx line x) loose := by
  intro s signal t he
  rcases contain_exec_eq_ok he with ended | ⟨cause, at?, u, -, answered⟩
  · exact h s signal t ended
  · obtain ⟨v, normal, -⟩ := recordFailure_exec ctx line cause at? u
    rw [normal] at answered
    cases answered
    trivial

theorem execute (stmt : Stmt) (h : Sends x loose) : Sends (execute ctx stmt x) loose :=
  .ite (Settles.normal.sends _) (.after (fun _ => rfl) fun _ => h.contain _)

theorem executeBody (stmt : Stmt) (h : Sends x loose) : Sends (executeBody ctx stmt x) loose :=
  .ite h (h.execute stmt)

theorem labeled {name : Text} (h : Sends x loose) (sub : loose ⊆ more)
    (next : ∀ s t, x.exec s = (.ok (.next (some name)), t) → name ∈ more) : Sends (runLabeled name x) more := by
  intro s signal t he
  obtain ⟨sent, u, body, last⟩ := exec_bind_eq_ok.1 he
  rcases hb : x.exec (s.pushLabel name) with ⟨outcome, v⟩
  rw [exec_bracket, hb] at body
  cases body
  cases last
  refine (h _ _ _ hb).unlabel sub ?_
  rintro rfl
  exact next _ _ hb

/-- A jump is made where it has somewhere to go. -/
theorem jump (line : Nat) (kind : Jump) (label : Option Text) : Sends (runJump ctx line kind label) loose := by
  intro s signal t he
  obtain ⟨_, u, checked, rest⟩ := exec_bind_eq_ok.1 he
  rw [exec_bind_ok (Context.exec_note _ _ _)] at rest
  cases rest
  rw [checkJump, exec_bind_ok exec_get] at checked
  cases label with
  | none =>
    have depth : s.loopDepth ≠ 0 := by
      intro shut
      dsimp only at checked
      rw [if_pos shut] at checked
      cases checked
    have counted : 0 ≤ s.loopDepth → 0 < s.loopDepth := by omega
    cases kind with
    | leave => exact counted
    | next => exact counted
  | some l =>
    have known : l ∈ s.labels := by
      by_cases unknown : (!s.labels.contains l) = true
      · dsimp only at checked
        rw [if_pos unknown] at checked
        cases checked
      · simpa using unknown
    cases kind with
    | leave => exact known
    | next => exact .inl known

end Sends

/-! ## Loops -/

/-- Whether the signal of a loop that carries `label` comes from its rounds, which were run where `c` says: it is normal,
or what is left of a signal of the body. -/
def FromRounds (body : Run Signal) (label : Option Text) (c : Control) (signal : Signal) : Prop :=
  signal = .normal ∨ ∃ u sent v, u.toControl = c ∧ body.exec u = (.ok sent, v) ∧ sent.exits label = true ∧
    signal = sent.settle label

namespace FromRounds

variable {body : Run Signal} {label : Option Text} {signal : Signal}

theorem passesBy {c : Control} (h : FromRounds body label c signal) : signal.PassesBy label := by
  rcases h with rfl | ⟨_, sent, _, -, -, ends, rfl⟩
  · trivial
  · exact Signal.settle_passesBy ends

theorem lands {loose : List Text} (h : FromRounds body label s.enterLoop.toControl signal) (hb : Sends body loose) :
    signal.Lands s.loopDepth s.labels loose := by
  rcases h with rfl | ⟨u, sent, v, place, sends, ends, rfl⟩
  · trivial
  · have inside := hb u sent v sends
    rw [place] at inside
    exact inside.settle ends

end FromRounds

namespace Rounds

variable {r : Rounds} {signal : Signal} {k : Nat}

theorem once_finished (h : r.once.exec s = (.ok (.inl (.finished signal)), t)) :
    FromRounds r.body r.label s.toControl signal := by
  obtain ⟨trip, s₁, guarded, h⟩ := exec_bind_eq_ok.1 h
  rw [exec_overrun] at guarded
  have place : s₁.toControl = s.toControl := (congrArg (fun q : _ × State => q.2.toControl) guarded).symm
  cases trip with
  | some trip => cases h
  | none =>
    obtain ⟨_, s₂, counted, h⟩ := exec_bind_eq_ok.1 h
    have place' : s₂.toControl = s₁.toControl := (congrArg (fun q : _ × State => q.2.toControl) counted).symm
    obtain ⟨sent, s₃, sends, h⟩ := exec_bind_eq_ok.1 h
    by_cases ends : sent.exits r.label = true
    · rw [if_pos ends] at h
      cases h
      exact .inr ⟨s₂, sent, _, place'.trans place, sends, ends, rfl⟩
    · rw [if_neg ends] at h
      cases h

variable (htest : Follows (fun _ => True) ctx p r.test) (hbody : Follows (fun _ => True) ctx p r.body)
  (hafter : ∀ s, Follows (fun _ => True) ctx p (r.after s))

include htest hbody

theorem bodyFirst_finished {left done : Nat}
    (h : (r.bodyFirst left done).exec s = (.ok (.finished signal, k), t)) :
    FromRounds r.body r.label s.toControl signal := by
  induction left generalizing done s with
  | zero => cases h
  | succ left ih =>
    obtain ⟨end?, s₁, once, h⟩ := exec_bind_eq_ok.1 h
    have back := (Follows.once hbody).keeps_control.of_exec once
    cases end? with
    | inl ending =>
      cases h
      exact once_finished once
    | inr sent =>
      obtain ⟨goes, s₂, test, h⟩ := exec_bind_eq_ok.1 h
      cases goes with
      | true =>
        rw [← back, ← htest.keeps_control.of_exec test]
        exact ih h
      | false =>
        cases h
        exact .inl rfl

include hafter

theorem testFirst_finished {left done : Nat}
    (h : (r.testFirst left done).exec s = (.ok (.finished signal, k), t)) :
    FromRounds r.body r.label s.toControl signal := by
  induction left generalizing done s with
  | zero =>
    obtain ⟨goes, s₁, -, h⟩ := exec_bind_eq_ok.1 h
    cases goes with
    | true => cases h
    | false =>
      cases h
      exact .inl rfl
  | succ left ih =>
    obtain ⟨goes, s₁, test, h⟩ := exec_bind_eq_ok.1 h
    have back := htest.keeps_control.of_exec test
    cases goes with
    | false =>
      cases h
      exact .inl rfl
    | true =>
      obtain ⟨end?, s₂, once, h⟩ := exec_bind_eq_ok.1 h
      have back' := (Follows.once hbody).keeps_control.of_exec once
      rw [← back]
      cases end? with
      | inl ending =>
        cases h
        exact once_finished once
      | inr sent =>
        obtain ⟨_, s₃, after, h⟩ := exec_bind_eq_ok.1 h
        rw [← back', ← (hafter sent).keeps_control.of_exec after]
        exact ih h

end Rounds

/-- A loop passes on the signal its rounds have finished with. -/
theorem runLoop_signal {span : Span} {go : Float → Run (Ending × Nat)} {signal : Signal}
    (h : (runLoop ctx span go).exec s = (.ok signal, t)) :
    signal = .normal ∨ ∃ k u, (go s.loopStart.1).exec s.loopStart.2 = (.ok (.finished signal, k), u) := by
  have answers := loopAnswers ctx span go s
  by_cases deep : (ctx.config.maxLoopDepth.count : Int) ≤ s.loopDepth
  · obtain ⟨u, stopped, -⟩ := answers.tooDeep deep
    rw [stopped] at h
    cases h
    exact .inl rfl
  · have room : s.loopDepth < ctx.config.maxLoopDepth.count := by omega
    rcases ho : (go s.loopStart.1).exec s.loopStart.2 with ⟨fault | ⟨ending, k⟩, u⟩
    · rw [answers.cut room fault u ho] at h
      cases h
    · cases ending with
      | finished sent =>
        obtain ⟨v, finished, -⟩ := answers.finished room sent k u ho
        rw [finished] at h
        cases h
        exact .inr ⟨k, u, rfl⟩
      | stopped trip =>
        obtain ⟨v, stopped, -⟩ := answers.stopped room trip k u ho
        rw [stopped] at h
        cases h
        exact .inl rfl

section Shapes

variable {span : Span} {label : Option Text} {opening : Run Unit} {test : Run Bool} {body : Run Signal}
  {after : Signal → Run Unit} {signal : Signal}

theorem loopTestFirst_fromRounds (hopening : Follows (fun _ => True) ctx p opening)
    (htest : Follows (fun _ => True) ctx p test) (hbody : Follows (fun _ => True) ctx p body)
    (hafter : ∀ s, Follows (fun _ => True) ctx p (after s))
    (h : (loopTestFirst ctx span label opening test body after).exec s = (.ok signal, t)) :
    FromRounds body label s.enterLoop.toControl signal := by
  rcases runLoop_signal h with rfl | ⟨k, u, rounds⟩
  · exact .inl rfl
  · obtain ⟨_, s₁, opened, rounds⟩ := exec_bind_eq_ok.1 rounds
    have entered : s.loopStart.2.toControl = s.enterLoop.toControl := rfl
    rw [← entered, ← hopening.keeps_control.of_exec opened]
    exact Rounds.testFirst_finished htest hbody hafter rounds

theorem loopBodyFirst_fromRounds (htest : Follows (fun _ => True) ctx p test)
    (hbody : Follows (fun _ => True) ctx p body)
    (h : (loopBodyFirst ctx span label test body).exec s = (.ok signal, t)) :
    FromRounds body label s.enterLoop.toControl signal := by
  rcases runLoop_signal h with rfl | ⟨k, u, rounds⟩
  · exact .inl rfl
  · exact Rounds.bodyFirst_finished htest hbody rounds

end Shapes

/-! ## Statements -/

/-- What a loop goes round with. -/
def Stmt.round (ctx : Context) : Stmt → Run Signal
  | .forLoop _ _ _ _ span body => within .forLoop span (executeBody ctx body (body.run ctx none))
  | .whileLoop _ _ span body | .doLoop _ _ _ span body => within .whileLoop span (executeBody ctx body (body.run ctx none))
  | _ => pure .normal

section Statements

variable (h : ctx.Governed fun _ => True)

include h

theorem Stmt.round_follows (stmt : Stmt) : Follows (fun _ => True) ctx p (stmt.round ctx) := by
  have body (kind : BlockKind) (span : Span) (body : Stmt) :
      Follows (fun _ => True) ctx p (within kind span (executeBody ctx body (body.run ctx none))) :=
    .within kind trivial (.executeBody (fun _ _ => trivial) (h.run none body fun _ _ => trivial))
  cases stmt with
  | forLoop | whileLoop | doLoop => exact body _ _ _
  | _ => exact .pure _

/-- A loop statement sends what is left of the signals of its rounds. -/
theorem Stmt.run_fromRounds {stmt : Stmt} (loop : stmt.isLoop) {label : Option Text} {signal : Signal}
    (he : (stmt.run ctx label).exec s = (.ok signal, t)) :
    FromRounds (stmt.round ctx) label s.enterLoop.toControl signal := by
  have test (line : Nat) (test : Expr) : Follows (fun _ => True) ctx [] (runTest ctx line test) :=
    h.runTest trivial fun _ _ => trivial
  have round : Follows (fun _ => True) ctx [] (stmt.round ctx) := Stmt.round_follows h stmt
  cases stmt with
  | forLoop span opening clause update bodySpan body =>
    rw [Stmt.run] at he
    exact loopTestFirst_fromRounds (h.runOpening trivial fun _ _ => trivial)
      (h.runClauseTest trivial fun _ _ => trivial) round (h.runUpdate trivial fun _ _ => trivial) he
  | whileLoop span clause bodySpan body =>
    rw [Stmt.run] at he
    exact loopTestFirst_fromRounds (.pure _) (test _ _) round (fun _ => .pure _) he
  | doLoop span testLine clause bodySpan body =>
    rw [Stmt.run] at he
    exact loopBodyFirst_fromRounds (test _ _) round he
  | _ => simp [Stmt.isLoop] at loop

/-- A loop takes up every jump that has no label or its own. -/
theorem Stmt.run_passesBy {stmt : Stmt} (loop : stmt.isLoop) {label : Option Text} {signal : Signal}
    (he : (stmt.run ctx label).exec s = (.ok signal, t)) : signal.PassesBy label :=
  (Stmt.run_fromRounds h loop he).passesBy

theorem runTest_keeps_control (line : Nat) (test : Expr) : (runTest ctx line test).Keeps State.toControl :=
  (h.runTest (p := []) trivial fun _ _ => trivial).keeps_control

mutual

/-- What a statement sends lands where the statement is, or is a `continue` to a loose label in it. -/
theorem Stmt.run_sends : ∀ (stmt : Stmt) (label : Option Text), Sends (stmt.run ctx label) stmt.looseLabels
  | .skipped .., _ => Settles.normal.sends _
  | .unsupported .., _ | .declare .., _ => (Settles.after fun _ => .after fun _ => .normal).sends _
  | .expression _ none, _ => (Settles.after fun _ => .normal).sends _
  | .expression _ (some _), _ => (Settles.after fun _ => .after fun _ => .normal).sends _
  | .block _ body, _ => Stmt.runAll_sends body
  | .ifThen span test yesSpan yes, _ => by
    have branch : Sends (within .ifBranch yesSpan (executeBody ctx yes (yes.run ctx none))) yes.looseLabels :=
      .within _ _ (.executeBody yes (yes.run_sends none))
    exact .after (runTest_keeps_control h _ _) fun _ => .ite branch (Settles.normal.sends _)
  | .ifElse span test yesSpan yes noSpan no, _ => by
    have branch : Sends (within .ifBranch yesSpan (executeBody ctx yes (yes.run ctx none))) yes.looseLabels :=
      .within _ _ (.executeBody yes (yes.run_sends none))
    have otherwise : Sends (within .elseBranch noSpan (executeBody ctx no (no.run ctx none))) no.looseLabels :=
      .within _ _ (.executeBody no (no.run_sends none))
    exact .after (runTest_keeps_control h _ _) fun _ =>
      .ite (branch.mono (List.subset_append_left _ _)) (otherwise.mono (List.subset_append_right _ _))
  | .forLoop _ _ _ _ _ body, _ => fun _ _ _ he =>
    (Stmt.run_fromRounds h rfl he).lands (.within _ _ (.executeBody body (body.run_sends none)))
  | .whileLoop _ _ _ body, _ => fun _ _ _ he =>
    (Stmt.run_fromRounds h rfl he).lands (.within _ _ (.executeBody body (body.run_sends none)))
  | .doLoop _ _ _ _ body, _ => fun _ _ _ he =>
    (Stmt.run_fromRounds h rfl he).lands (.within _ _ (.executeBody body (body.run_sends none)))
  | .jump span kind target, _ => .jump span.first kind target
  | .answer _ none, _ | .answer _ (some _), _ => (Settles.after fun _ => .after fun _ => .answer _).sends _
  | .function .., _ => (Settles.after fun _ => .after fun _ => .after fun _ => .normal).sends _
  | .labeled _ name body, _ => by
    rw [Stmt.run, Stmt.looseLabels]
    cases loop : body.isLoop with
    | true =>
      refine .labeled (body.run_sends (some name)) (List.Subset.refl _) fun s t he => ?_
      exact absurd rfl (Stmt.run_passesBy h loop he).2
    | false =>
      refine .labeled (.execute body (body.run_sends none)) (List.subset_cons_self _ _) fun _ _ _ => ?_
      exact List.mem_cons_self

theorem Stmt.runAll_sends : ∀ body : List Stmt, Sends (Stmt.runAll ctx body) (Stmt.looseLabelsAll body)
  | [] => Settles.normal.sends _
  | stmt :: rest => by
    intro s signal t he
    rw [Stmt.runAll] at he
    obtain ⟨sent, u, first, he⟩ := exec_bind_eq_ok.1 he
    by_cases normal : sent.isNormal = true
    · have follows : Follows (fun _ => True) ctx [] (stmt.exec ctx) := h.exec fun _ _ => trivial
      rw [if_pos normal] at he
      have lands := Stmt.runAll_sends rest u signal t he
      rw [follows.keeps_control.of_exec first] at lands
      exact lands.mono (List.subset_append_right _ _)
    · rw [if_neg normal] at he
      cases he
      exact (Sends.execute stmt (stmt.run_sends none) s _ _ first).mono (List.subset_append_left _ _)

end

theorem Stmt.exec_sends (stmt : Stmt) : Sends (stmt.exec ctx) stmt.looseLabels :=
  .execute stmt (Stmt.run_sends h stmt none)

end Statements

/-! ## Programs and functions -/

/-- In every context of a run: what a statement sends finds its target where the statement is, or is a `continue` to a
label in it that stands at no loop; and a loop lets no jump through that has no label or its own. So no statement of a
program and no body of a function sends a `break` or a `continue` without a label. -/
theorem signals_find_targets (cfg : Config) (src : Source) (n : Nat) :
    let ctx := Context.within cfg src .idle n
    (∀ (stmt : Stmt) s signal t, (stmt.exec ctx).exec s = (.ok signal, t) →
      signal.Lands s.loopDepth s.labels stmt.looseLabels) ∧
    (∀ (stmt : Stmt) label s signal t, stmt.isLoop → (stmt.run ctx label).exec s = (.ok signal, t) →
      ∀ l, signal = .leave l ∨ signal = .next l → l ≠ none ∧ l ≠ label) ∧
    (∀ clock frames before (stmt : Stmt) signal t,
      (stmt.exec ctx).exec ((runProgram ctx before).exec (.start clock frames)).2 = (.ok signal, t) →
      (∀ l, signal ≠ .leave l) ∧ signal ≠ .next none) ∧
    ∀ name (r : Routine Stmt) args line (s u : State) signal t,
      (bindParameters ctx r r.params args).exec (s.enterFrame name r line) = (.ok (), u) →
      (Stmt.runAll ctx r.body).exec (u.noted cfg src (.entered name r.span.first)) = (.ok signal, t) →
      (∀ l, signal ≠ .leave l) ∧ signal ≠ .next none := by
  intro ctx
  have h : ctx.Governed fun _ => True := governed_within _ cfg src n
  refine ⟨fun stmt => Stmt.exec_sends h stmt, ?_, ?_, ?_⟩
  · intro stmt label s signal t loop he l jump
    have passes := Stmt.run_passesBy h loop he
    rcases jump with rfl | rfl
    · exact passes
    · exact passes
  · intro clock frames before stmt signal t he
    have follows := h.runProgram (p := []) before fun _ _ _ _ => trivial
    have lands := Stmt.exec_sends h stmt _ signal t he
    rw [follows.keeps_control] at lands
    exact lands.at_top
  · intro name r args line s u signal t bound he
    have follows := h.bindParameters (r := r) (fun _ _ => trivial) r.params args
    have lands := Stmt.runAll_sends h r.body _ signal t he
    rw [noted_control, follows.keeps_control.of_exec bound] at lands
    exact lands.at_top

/-- A loop in a labelled block that goes on with the block. -/
def looseContinue : Stmt :=
  .labeled ⟨1, 1⟩ "a" (.block ⟨1, 1⟩ [.whileLoop ⟨1, 1⟩ (.bool true) ⟨1, 1⟩ (.jump ⟨1, 1⟩ .next (some "a"))])

theorem signals_find_targets_loose :
    ((looseContinue.exec (.top {} ⟨.empty⟩)).exec (.start (.ticking 0))).1.toOption = some (.next (some "a")) ∧
      looseContinue.looseLabels = [("a" : Text)] ∧ (Signal.next (some "a")).Lands 0 [] [("a" : Text)] ∧
      ∀ l, Signal.next (some "a") ≠ .leave l := by
  have sent : ((looseContinue.exec (.top {} ⟨.empty⟩)).exec (.start (.ticking 0))).1.toOption =
      some (.next (some "a")) := by
    decide +kernel
  have loose : looseContinue.looseLabels = [("a" : Text)] := by decide +kernel
  obtain ⟨statement, -, top, -⟩ := signals_find_targets {} ⟨.empty⟩ ({} : Config).maxCallDepth.count
  cases he : (looseContinue.exec (.top {} ⟨.empty⟩)).exec (.start (.ticking 0)) with
  | mk outcome t =>
    cases outcome with
    | error fault =>
      rw [he] at sent
      cases sent
    | ok signal =>
      obtain rfl : signal = .next (some "a") := by
        rw [he] at sent
        exact Option.some.inj sent
      rw [Context.top] at he
      have lands := statement looseContinue _ _ _ he
      rw [loose] at lands
      have begins (ctx : Context) : ((runProgram ctx []).exec (.start (.ticking 0))).2 = .start (.ticking 0) := rfl
      have first := top (.ticking 0) Headroom.nativeLimit [] looseContinue (.next (some "a")) t
      rw [begins] at first
      exact ⟨rfl, loose, lands, (first he).1⟩

end ScriptTrace
