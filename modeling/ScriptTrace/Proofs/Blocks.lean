import ScriptTrace.Proofs.SourceLines
/-!
# Blocks around steps

The block of a step is the one that was running when it was recorded, and its line comes from some node: of a call, of
a test, of the end of a loop or of a function that was defined elsewhere. In a tree whose nodes lie inside their
parents, the line is in the block all the same, since the running block is always the innermost one around the node
that is being run. An error is the exception, as it is recorded on the line of the failure, which may have come out of
a call.

* `Tree.isEnclosed_of_isNested`: in such a tree every line is in the innermost block around it.
* `Course.tagged`: a run keeps to that.
* `block_tags_truthful`: the line of a step that is no error is in the block of the step.
-/
namespace ScriptTrace

variable {cfg : Config} {src : Source} {p : Scope} {s t : State} {o : Option Fault} {e : Event}

/-! ## Sites -/

/-- The innermost block of a scope, or the function if there is none. -/
def Scope.innermost? : Scope → Option Span
  | [] => none
  | .block span :: _ | .body span :: _ => some span
  | .loop :: p | .label _ :: p => innermost? p

/-- Whether a line is in the innermost block around it, and a span has lines. -/
def Site.IsEnclosed : Site → Prop
  | .line p n => ∀ span ∈ p.innermost?, span.first ≤ n ∧ n ≤ span.last
  | .span s => s.first ≤ s.last
  | .jump _ _ _ => True

/-- Whether a node is inside the innermost block of a scope. -/
def Scope.Encloses (src : Source) (p : Scope) (t : Tree) : Prop :=
  ∀ span ∈ p.innermost?, span.first ≤ t.line src ∧ t.endLine src ≤ span.last

namespace Tree

mutual

/-- Whether no node of a tree ends before it starts, and all lie inside their parents. -/
def isNested : Tree → Bool
  | .node i cs => i.start ≤ i.stop && areNestedIn i cs

def areNestedIn (i : Node) : List Tree → Bool
  | [] => true
  | c :: rest => i.start ≤ c.info.start && c.info.stop ≤ i.stop && isNested c && areNestedIn i rest

end

variable {tree c : Tree} {kind : String}

theorem areNestedIn_iff {i : Node} {cs : List Tree} :
    areNestedIn i cs ↔ ∀ c ∈ cs, i.start ≤ c.info.start ∧ c.info.stop ≤ i.stop ∧ c.isNested := by
  induction cs with
  | nil => simp [areNestedIn]
  | cons c rest ih =>
    rw [areNestedIn, List.forall_mem_cons, ← ih]
    simp [and_assoc]

theorem isNested_iff : tree.isNested ↔ tree.info.start ≤ tree.info.stop ∧
    ∀ c ∈ tree.children, tree.info.start ≤ c.info.start ∧ c.info.stop ≤ tree.info.stop ∧ c.isNested := by
  obtain ⟨i, cs⟩ := tree
  rw [isNested, Bool.and_eq_true, decide_eq_true_eq, areNestedIn_iff]
  rfl

theorem line_le_endLine (h : tree.isNested) (src : Source) : tree.line src ≤ tree.endLine src :=
  src.lineAt_mono (isNested_iff.1 h).1

/-- The lines of a child are between those of its parent. -/
theorem line_child (h : tree.isNested) (hc : c ∈ tree.children) (src : Source) :
    tree.line src ≤ c.line src ∧ c.endLine src ≤ tree.endLine src := by
  obtain ⟨start, stop, -⟩ := (isNested_iff.1 h).2 c hc
  exact ⟨src.lineAt_mono start, src.lineAt_mono stop⟩

mutual

/-- A property of trees that each node has if its children do. -/
theorem induction {motive : Tree → Prop} (node : ∀ i cs, (∀ c ∈ cs, motive c) → motive (.node i cs)) :
    ∀ t, motive t
  | .node i cs => node i cs (inductionAll node cs)

theorem inductionAll {motive : Tree → Prop} (node : ∀ i cs, (∀ c ∈ cs, motive c) → motive (.node i cs)) :
    ∀ cs : List Tree, ∀ c ∈ cs, motive c
  | [] => List.forall_mem_nil _
  | c :: rest => List.forall_mem_cons.2 ⟨induction node c, inductionAll node rest⟩

end

/-- All lines of a tree are between its own. -/
theorem lines_between (h : tree.isNested) : ∀ n ∈ tree.lines src, tree.line src ≤ n ∧ n ≤ tree.endLine src := by
  induction tree using Tree.induction with
  | node i cs ih =>
    have ends := line_le_endLine h src
    rw [lines, linesIn_eq, List.forall_mem_cons, List.forall_mem_cons, List.forall_mem_flatMap]
    refine ⟨⟨Nat.le_refl _, ends⟩, ⟨ends, Nat.le_refl _⟩, fun c hc n hn => ?_⟩
    obtain ⟨first, last⟩ := line_child h hc src
    obtain ⟨le, ge⟩ := ih c hc ((isNested_iff.1 h).2 c hc).2.2 n hn
    exact ⟨Nat.le_trans first le, Nat.le_trans ge last⟩

theorem scopeIn_encloses (h : p.Encloses src tree) (kind : String) : (scopeIn src p kind tree).Encloses src tree := by
  unfold scopeIn
  split
  · rintro span ⟨⟩
    exact ⟨Nat.le_refl _, Nat.le_refl _⟩
  · split
    · exact h
    · split
      · exact h
      · exact h

/-- A child is inside the scope that its parent gives it. -/
theorem scopeUnder_encloses (h : p.Encloses src tree) (nested : tree.isNested) (hc : c ∈ tree.children) :
    (scopeUnder src p kind tree c).Encloses src c := by
  unfold scopeUnder
  split
  · rintro span ⟨⟩
    exact ⟨Nat.le_refl _, Nat.le_refl _⟩
  · intro span hs
    obtain ⟨first, last⟩ := scopeIn_encloses h kind span hs
    obtain ⟨start, stop⟩ := line_child nested hc src
    exact ⟨Nat.le_trans first start, Nat.le_trans stop last⟩

theorem isEnclosed_of_isNested (nested : tree.isNested) (kind : String) (h : p.Encloses src tree) :
    tree.Fits src Site.IsEnclosed p kind := by
  induction tree using Tree.induction generalizing p kind with
  | node i cs ih =>
    have lines {q : Scope} (hq : q.Encloses src (.node i cs)) :
        ∀ n ∈ (node i cs).lines src, Site.IsEnclosed (.line q n) := by
      intro n hn span hs
      obtain ⟨first, last⟩ := hq span hs
      obtain ⟨start, stop⟩ := lines_between nested n hn
      exact ⟨Nat.le_trans first start, Nat.le_trans stop last⟩
    refine fits_iff.2 ⟨lines h, lines (scopeIn_encloses h kind), line_le_endLine nested src, fun _ _ _ => trivial, ?_⟩
    exact fun c hc => ih c hc ((isNested_iff.1 nested).2 c hc).2.2 _ (scopeUnder_encloses h nested hc)

end Tree

/-! ## Steps -/

/-- Whether the line of a step is in its block, unless the step is an error. -/
def Step.IsTagged (step : Step) : Prop :=
  step.kind ≠ .error → ∀ b ∈ step.block, b.first ≤ step.line ∧ step.line ≤ b.last

/-- A superseding step has a block and a line of one entry. It is an error if that entry is one. -/
theorem merge_tagged {previous step : Step} (h : step.IsTagged) : (Recorder.merge previous step).IsTagged := by
  unfold Recorder.merge
  split
  · rename_i sticky
    simp only [Bool.and_eq_true, Bool.not_eq_true'] at sticky
    refine fun _ => h fun error => ?_
    rw [error] at sticky
    exact absurd sticky.2 (by decide)
  · split
    · exact h
    · exact h

/-! ## Runs -/

/-- Whether a run is in the innermost block of a scope and has recorded steps only that are in their blocks. -/
structure State.IsTagged (p : Scope) (s : State) : Prop where
  block : ∀ b ∈ s.block, ∃ span ∈ p.innermost?, b.first = span.first ∧ b.last = span.last
  steps : ∀ step ∈ s.recorder.steps, step.IsTagged

namespace State.IsTagged

variable (cfg src)

theorem noted (h : s.IsTagged p) (event : e.Fits Site.IsEnclosed p) : (s.noted cfg src e).IsTagged p := by
  refine ⟨?_, ?_⟩
  · rw [noted_control]
    exact h.block
  · have made (captures : List Plain) : (Recorder.stepOf src (e.entry cfg s) captures).IsTagged := by
      intro kind b hb
      have line : Site.IsEnclosed (.line p e.line) := by
        rcases event.line with line | ⟨error, -⟩
        · exact line
        · exact absurd error kind
      rcases Option.or_eq_some_iff.1 hb with hb | ⟨-, hb⟩
      · -- the event names a block that begins on its line
        obtain ⟨span, ordered, begins, ends⟩ := event.block b hb
        have first := event.first b hb
        have ordered : span.first ≤ span.last := ordered
        show b.first ≤ e.line ∧ (e.line : Int) ≤ b.last
        omega
      · obtain ⟨span, hs, first, last⟩ := h.block b hb
        obtain ⟨after, before⟩ := line span hs
        show b.first ≤ e.line ∧ (e.line : Int) ≤ b.last
        omega
    unfold State.noted
    split
    · exact h.steps
    · exact Recorder.forall_add made (fun _ _ => merge_tagged) h.steps

theorem notedOutput (h : s.IsTagged p) (event : e.Fits Site.IsEnclosed p) : (s.notedOutput cfg src e).IsTagged p := by
  have emptied : State.IsTagged p { s with pending := [] } := ⟨h.block, h.steps⟩
  have carrying : Event.Fits Site.IsEnclosed p { e with captured := s.pending } :=
    ⟨event.line, event.block, event.first⟩
  exact emptied.noted cfg src carrying

/-- A function runs in a block of its own. -/
theorem entered (h : s.IsTagged p) (name : Text) (r : Routine Stmt) (line : Nat) :
    (s.enterFrame name r line).IsTagged [.body r.span] :=
  ⟨fun b hb => by cases hb; exact ⟨r.span, rfl, rfl, rfl⟩, h.steps⟩

theorem left {q : Scope} (h : s.IsTagged p) (callee : t.IsTagged q) : (s.leaveFrame t).IsTagged p :=
  ⟨h.block, callee.steps⟩

end State.IsTagged

/-- A run that begins in the innermost block around it records steps that are in their blocks. -/
theorem Course.tagged (h : Course Site.IsEnclosed cfg src p s o t) (hs : s.IsTagged p) : t.IsTagged p := by
  induction h with
  | refl | operate | define | print | refuse | tick | tally | stray => exact ⟨hs.block, hs.steps⟩
  | trans _ _ first second => exact second (first hs)
  | note e event => exact hs.noted cfg src event
  | noteOutput e event => exact hs.notedOutput cfg src event
  | contain cause line body ih => exact ⟨(ih hs).block, (ih hs).steps⟩
  | recover fault passing body ih => exact ih hs
  | within kind span fits body ih =>
    have inside := ih ⟨fun b hb => by cases hb; exact ⟨span, rfl, rfl, rfl⟩, hs.steps⟩
    exact ⟨hs.block, inside.steps⟩
  | loop body ih =>
    have inside := ih ⟨hs.block, hs.steps⟩
    exact ⟨inside.block, inside.steps⟩
  | label name body ih =>
    have inside := ih ⟨hs.block, hs.steps⟩
    exact ⟨inside.block, inside.steps⟩
  | call name shown message r line routine site body ih =>
    have calls : (Event.called name shown line).Fits Site.IsEnclosed _ := Event.fits_of_line site rfl
    have called := hs.noted cfg src calls
    have returns : (Event.returned message r.span.last).Fits Site.IsEnclosed [.body r.span] :=
      Event.fits_of_line (Routine.fits_iff.1 routine).2.1.2 rfl
    have inside := (ih (called.entered name r line)).notedOutput cfg src returns
    exact (called.left inside).noted cfg src (Event.fits_of_line site rfl)
  | cutCall name shown r line fault routine site body ih =>
    have calls : (Event.called name shown line).Fits Site.IsEnclosed _ := Event.fits_of_line site rfl
    have called := hs.noted cfg src calls
    have inside := ih (called.entered name r line)
    exact (called.left inside).noted cfg src (Event.fits_of_line site rfl)

/-! ## Programs -/

theorem runTree_tagged {tree : Tree} (cfg : Config) (clock : Clock) (nested : tree.isNested) :
    (runTree cfg src tree clock).2.IsTagged [] := by
  have course : Course Site.IsEnclosed cfg src [] _ _ _ :=
    runTree_course (fits_program (Tree.isEnclosed_of_isNested nested "program" fun _ hs => nomatch hs)) clock
  exact course.tagged ⟨fun _ hb => (nomatch hb), fun _ hs => absurd hs (Array.not_mem_empty _)⟩

/-- In every run of a program whose nodes lie inside their parents, the line of each step that is no error is in the
block of the step, if it has one. So it is in the trace of the run. -/
theorem block_tags_truthful (cfg : Config) (src : Source) (tree : Tree) (clock : Clock) (nested : tree.isNested) :
    (∀ step ∈ (runTree cfg src tree clock).2.recorder.steps.toList, step.kind ≠ .error →
      ∀ b ∈ step.block, b.first ≤ step.line ∧ step.line ≤ b.last) ∧
    ∀ t, (trace cfg src tree clock).1 = .ok t → ∀ step ∈ t.steps, step.kind ≠ .error →
      ∀ b ∈ step.block, b.first ≤ step.line ∧ step.line ≤ b.last := by
  have tagged : ∀ step ∈ (runTree cfg src tree clock).2.recorder.steps.toList, step.IsTagged :=
    fun step hs => (runTree_tagged cfg clock nested).steps step (Array.mem_def.2 hs)
  refine ⟨tagged, fun t ht => ?_⟩
  obtain ⟨-, rfl⟩ := runTree_of_trace ht
  exact tagged

/-- A function with two branches that calls itself and then another function, which there is not. -/
def branchingSource : Source := ⟨"function f(n) \x7b\n  if (n)\n    f(0);\n  else g();\n\x7d\nf(1)"⟩

def branchingTree : Tree :=
  let node (kind : String) (field : Option String) (start stop : Nat) (children : List Tree) : Tree :=
    .node ⟨true, false, false, false, kind, field, start, stop⟩ children
  node "program" none 0 53 [
    node "function_declaration" none 0 48 [
      node "identifier" "name" 9 10 [],
      node "formal_parameters" "parameters" 10 13 [node "identifier" none 11 12 []],
      node "statement_block" "body" 14 48 [
        node "if_statement" none 18 46 [
          node "parenthesized_expression" "condition" 21 24 [node "identifier" none 22 23 []],
          node "expression_statement" "consequence" 29 34 [
            node "call_expression" none 29 33 [
              node "identifier" "function" 29 30 [],
              node "arguments" "arguments" 30 33 [node "number" none 31 32 []]]],
          node "else_clause" "alternative" 37 46 [
            node "expression_statement" none 42 46 [
              node "call_expression" none 42 45 [
                node "identifier" "function" 42 43 [],
                node "arguments" "arguments" 43 45 []]]]]]],
    node "expression_statement" none 49 53 [
      node "call_expression" none 49 53 [
        node "identifier" "function" 49 50 [],
        node "arguments" "arguments" 50 53 [node "number" none 51 52 []]]]]

theorem block_tags_truthful_branching :
    branchingTree.isNested ∧
    (runTree {} branchingSource branchingTree (.ticking 0)).2.recorder.steps.toList.map
      (fun step => (step.line, step.kind, step.block)) =
        [(1, .statement, some ⟨.function, 1, 5⟩), (6, .call, none),
          (1, .functionEnter, some ⟨.function, 1, 5⟩), (2, .condition, some ⟨.function, 1, 5⟩),
          (3, .call, some ⟨.ifBranch, 3, 3⟩),
          (1, .functionEnter, some ⟨.function, 1, 5⟩), (2, .condition, some ⟨.function, 1, 5⟩),
          (4, .diagnostic, some ⟨.elseBranch, 4, 4⟩), (5, .functionReturn, some ⟨.function, 1, 5⟩),
          (3, .statement, some ⟨.ifBranch, 3, 3⟩), (5, .functionReturn, some ⟨.function, 1, 5⟩),
          (6, .statement, none)] ∧
    ∀ step ∈ (runTree {} branchingSource branchingTree (.ticking 0)).2.recorder.steps.toList, step.kind ≠ .error →
      ∀ b ∈ step.block, b.first ≤ step.line ∧ step.line ≤ b.last :=
  ⟨by decide, by decide +kernel,
    (block_tags_truthful {} branchingSource branchingTree (.ticking 0) (by decide)).1⟩

end ScriptTrace
