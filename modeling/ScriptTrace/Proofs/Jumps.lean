import ScriptTrace.Proofs.Containment
import ScriptTrace.Proofs.Reading
import ScriptTrace.Trace
/-!
# Legal jumps

A jump is **legal** by what stands around it in its own function: a loop if it has no label or is a `continue`, and
its label if it has one. A run looks at none of that; it refuses a jump by counts of open loops and by a stack of
labels, which calls put aside and give back. `Scope.Covers` says that these have at least what stands around a
statement, and it holds wherever a run gets to.

* `Course.lands`: in a program with legal jumps no run is cut short by a violation.
* `legal_program_completes`: such a program runs to its end.
-/
namespace ScriptTrace

open Act

variable {cfg : Config} {src : Source} {ctx : Context} {p : Scope} {s t : State} {o : Option Fault}

/-! ## Legality -/

/-- Whether a jump may stand in a scope. -/
def Scope.admits (p : Scope) (kind : Jump) (label : Option Text) : Bool :=
  (p.contains .loop || kind == .leave && label.isSome) && label.all fun l => p.contains (.label l)

/-- Whether a site is no jump, or a legal one. -/
def Site.isLegal : Site → Bool
  | .jump p kind label => p.admits kind label
  | .line _ _ | .span _ => true

/-- Whether every jump of a program is legal. -/
def Tree.jumpsLegally (src : Source) (tree : Tree) : Bool :=
  (tree.programSites src).all Site.isLegal

/-! ## Open loops and labels -/

/-- Whether a run has all the loops and labels open that stand around a statement. -/
structure Scope.Covers (p : Scope) (c : Control) : Prop where
  depth : 0 ≤ c.loopDepth
  loop : .loop ∈ p → 0 < c.loopDepth
  labels : ∀ l, .label l ∈ p → l ∈ c.labels

namespace Scope.Covers

/-- Going in by a layer: what was open stays open, and the layer itself is. -/
theorem cons {c c' : Control} {layer : Layer} (h : p.Covers c) (deeper : c.loopDepth ≤ c'.loopDepth)
    (kept : c.labels ⊆ c'.labels) (loop : layer = .loop → 0 < c'.loopDepth)
    (label : ∀ l, layer = .label l → l ∈ c'.labels) : Scope.Covers (layer :: p) c' where
  depth := Int.le_trans h.depth deeper
  loop hl := by
    rcases List.mem_cons.1 hl with hl | hl
    · exact loop hl.symm
    · exact Int.lt_of_lt_of_le (h.loop hl) deeper
  labels l hl := by
    rcases List.mem_cons.1 hl with hl | hl
    · exact label l hl.symm
    · exact kept (h.labels l hl)

theorem enterLoop (h : p.Covers s.toControl) : Scope.Covers (.loop :: p) s.enterLoop.toControl := by
  have deeper : s.loopDepth < s.enterLoop.loopDepth := Int.lt_add_one_of_le (Int.le_refl _)
  refine h.cons (Int.le_of_lt deeper) (List.Subset.refl _) (fun _ => ?_) fun _ hl => nomatch hl
  exact Int.lt_of_le_of_lt h.depth deeper

theorem pushLabel (h : p.Covers s.toControl) (name : Text) :
    Scope.Covers (.label name :: p) (s.pushLabel name).toControl := by
  refine h.cons (Int.le_refl _) (List.subset_cons_self _ _) (fun hl => nomatch hl) ?_
  rintro l ⟨⟩
  exact List.mem_cons_self

theorem within (h : p.Covers s.toControl) (span : Span) (block : Option Block) :
    Scope.Covers (.block span :: p) { s.toControl with block := block } :=
  h.cons (Int.le_refl _) (List.Subset.refl _) (fun hl => nomatch hl) fun _ hl => nomatch hl

/-- A function begins with no loops and no labels. -/
theorem enterFrame (s : State) (name : Text) (r : Routine Stmt) (line : Nat) :
    Scope.Covers [.body r.span] (s.enterFrame name r line).toControl where
  depth := Int.le_refl 0
  loop hl := by simp at hl
  labels l hl := by simp at hl

/-- A legal jump has somewhere to go. -/
theorem checkJump (h : p.Covers s.toControl) {kind : Jump} {label : Option Text} (legal : p.admits kind label)
    (line : Nat) : (checkJump line kind label).exec s = (.ok (), s) := by
  simp only [Scope.admits, Bool.and_eq_true, Bool.or_eq_true, List.contains_iff_mem, beq_iff_eq] at legal
  obtain ⟨loop, labels⟩ := legal
  have open' (hl : Layer.loop ∈ p) : s.loopDepth ≠ 0 := by
    have := h.loop hl
    omega
  unfold ScriptTrace.checkJump
  rw [exec_bind_ok exec_get]
  cases label with
  | none =>
    rcases loop with loop | ⟨-, none⟩
    · dsimp only
      rw [if_neg (open' loop)]
      rfl
    · cases none
  | some l =>
    have known : s.labels.contains l := by
      simp only [Option.all_some, List.contains_iff_mem] at labels ⊢
      exact h.labels l labels
    have taken : ¬(decide (s.loopDepth = 0) && kind == .next) = true := by
      rcases loop with loop | ⟨rfl, -⟩
      · simp [open' loop]
      · simp
    dsimp only
    rw [if_neg (by simp only [known]; decide), if_neg taken]
    rfl

end Scope.Covers

/-- No jump of a program whose jumps are legal has nowhere to go. -/
theorem Course.lands (h : Course (fun site => site.isLegal) cfg src p s o t) (covers : p.Covers s.toControl) :
    ∀ why line, o ≠ some (.violation why line) := by
  induction h with
  | refl | define | print | refuse | note | noteOutput | tick | tally | contain | recover | call =>
    intro why line impossible
    cases impossible
  | trans first _ _ second =>
    refine second ?_
    rw [first.control]
    exact covers
  | operate m o functions pending faults =>
    rintro why line rfl
    exact faults _ rfl
  | stray line kind label why jump refused =>
    rw [covers.checkJump jump] at refused
    cases refused
  | within kind span fits body ih => exact ih (covers.within span _)
  | loop body ih => exact ih covers.enterLoop
  | label name body ih => exact ih (covers.pushLabel name)
  | cutCall name shown r line fault routine site body ih => exact ih (.enterFrame _ name r line)

/-! ## Programs -/

/-- A program whose jumps are legal runs to its end, whatever the configuration and the clock, and so the only
thing that can keep its trace back is what the tree, the steps or the room for the run are refused for. -/
theorem legal_program_completes (cfg : Config) (src : Source) (tree : Tree) (clock : Clock)
    (legal : tree.jumpsLegally src) :
    (runTree cfg src tree clock).1 = .ok () ∧ ∀ f, (trace cfg src tree clock).1 ≠ .error (.fault f) := by
  have fits := fits_program (List.all_eq_true.1 legal)
  have start : Scope.Covers [] (State.start clock cfg.frames).toControl :=
    ⟨Int.le_refl 0, fun h => (nomatch h), fun _ h => (nomatch h)⟩
  have completes : (runTree cfg src tree clock).1 = .ok () := by
    have course : Course _ cfg src [] _ _ _ := runTree_course fits clock
    have lands := course.lands start
    cases ho : (runTree cfg src tree clock).1 with
    | ok => rfl
    | error f =>
      obtain ⟨why, line, rfl⟩ := runProgram_fault cfg src _ ho
      rw [ho] at lands
      exact absurd rfl (lands why line)
  refine ⟨completes, fun f impossible => ?_⟩
  rw [runTree_of_trace_fault impossible] at completes
  cases completes

/-- A function with a loop of its own that is left, called from a labelled loop that is left. -/
def leftLoopsSource : Source := ⟨"function f() \x7b for (;;) break \x7d\na: while (true) \x7b f(); break a \x7d"⟩

def leftLoopsTree : Tree :=
  let node (kind : String) (field : Option String) (start stop : Nat) (children : List Tree) : Tree :=
    .node ⟨true, false, false, false, kind, field, start, stop⟩ children
  node "program" none 0 64 [
    node "function_declaration" none 0 31 [
      node "identifier" "name" 9 10 [],
      node "formal_parameters" "parameters" 10 12 [],
      node "statement_block" "body" 13 31 [
        node "for_statement" none 15 29 [node "break_statement" "body" 24 29 []]]],
    node "labeled_statement" none 32 64 [
      node "statement_identifier" "label" 32 33 [],
      node "while_statement" "body" 35 64 [
        node "parenthesized_expression" "condition" 41 47 [node "true" none 42 46 []],
        node "statement_block" "body" 48 64 [
          node "expression_statement" none 50 54 [
            node "call_expression" none 50 53 [
              node "identifier" "function" 50 51 [],
              node "arguments" "arguments" 51 53 []]],
          node "break_statement" none 55 62 [node "statement_identifier" "label" 61 62 []]]]]]

theorem legal_program_completes_left_loops :
    leftLoopsTree.jumpsLegally leftLoopsSource ∧
    (runTree {} leftLoopsSource leftLoopsTree (.ticking 0)).1 = .ok () ∧
    (runTree {} leftLoopsSource leftLoopsTree (.ticking 0)).2.counts.iterations = 2 :=
  ⟨by decide +kernel, (legal_program_completes {} leftLoopsSource leftLoopsTree (.ticking 0) (by decide +kernel)).1,
    by decide +kernel⟩

end ScriptTrace
