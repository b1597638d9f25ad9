import ScriptTrace.Extract
import ScriptTrace.Proofs.Preorder
/-!
# The first offending node

The search for what is wrong with a tree leaves out every child that carries no mark and does not stand for something
missing. It misses nothing if every error is marked, and every node with an error or something missing below it. A
missing node itself need not be marked.

* `firstOffender_eq`: under such marks the search gives the first offending node of the whole tree, in preorder.
* `marked_search_finds_first_offender`: so a refused program is told the place of that node.
-/
namespace ScriptTrace.Tree

/-- Whether a node is marked if it is an error, or if something below it offends. -/
def IsMarked (t : Tree) : Prop :=
  (t.info.isError = true ∨ ∃ s ∈ t.descendants, s.isOffender = true) → t.info.hasError = true

/-- Whether all nodes of a tree are marked that have to be. -/
def Marked (t : Tree) : Prop :=
  ∀ s ∈ t.preorder, s.IsMarked

instance (t : Tree) : Decidable t.IsMarked :=
  inferInstanceAs (Decidable (_ → _))

instance (t : Tree) : Decidable t.Marked :=
  inferInstanceAs (Decidable (∀ s ∈ t.preorder, s.IsMarked))

theorem Marked.here {t : Tree} (h : t.Marked) : t.IsMarked :=
  h t (preorder_eq t ▸ List.mem_cons_self)

theorem Marked.child {t c : Tree} (h : t.Marked) (hc : c ∈ t.children) : c.Marked := by
  intro s hs
  refine h s ?_
  rw [preorder_eq]
  exact List.mem_cons_of_mem t (mem_descendants_iff.2 ⟨c, hc, hs⟩)

/-- What the search leaves out offends nowhere. -/
theorem find_of_skipped {t : Tree} (marked : t.IsMarked) (skipped : ¬(t.info.hasError || t.info.isMissing) = true) :
    t.preorder.find? isOffender = none := by
  have clear : t.info.hasError = false ∧ t.info.isMissing = false := by simpa using skipped
  have unmarked := mt marked (Bool.eq_false_iff.1 clear.1)
  rw [preorder_eq, List.find?_eq_none]
  intro s hs offends
  rcases List.mem_cons.1 hs with rfl | hs
  · rw [isOffender, clear.2, Bool.or_false] at offends
    exact unmarked (.inl offends)
  · exact unmarked (.inr ⟨s, hs, offends⟩)

mutual

/-- Leaving out what is not marked makes no difference. -/
theorem firstOffender_eq : ∀ {t : Tree}, t.Marked → t.firstOffender = t.preorder.find? isOffender
  | .node i cs, h => by
    have inside : firstOffenderIn cs = (preorderAll cs).find? isOffender := firstOffenderIn_eq fun _ hc => h.child hc
    have here : (node i cs).isOffender = (i.isError || i.isMissing) := rfl
    rw [firstOffender, preorder, List.find?_cons, inside, here]
    cases i.isError || i.isMissing with
    | true => rfl
    | false => rfl

theorem firstOffenderIn_eq : ∀ {cs : List Tree}, (∀ c ∈ cs, c.Marked) →
    firstOffenderIn cs = (preorderAll cs).find? isOffender
  | [], _ => rfl
  | c :: rest, h => by
    obtain ⟨hc, hrest⟩ := List.forall_mem_cons.1 h
    rw [firstOffenderIn, preorderAll, List.find?_append, firstOffender_eq hc, firstOffenderIn_eq hrest]
    split
    · cases c.preorder.find? isOffender with
      | none => rfl
      | some s => rfl
    · rename_i skipped
      rw [find_of_skipped hc.here skipped]
      rfl

end

/-- In a tree that is marked as it has to be, the search finds the first offending node in preorder, and none exactly
if there is none. So if the program is refused, it is at the line and the column of that node, or of the root if nothing
offends. -/
theorem marked_search_finds_first_offender {t : Tree} (marked : t.Marked) :
    t.firstOffender = t.preorder.find? isOffender ∧
    (t.firstOffender = none ↔ ∀ s ∈ t.preorder, s.isOffender = false) ∧
    ∀ (language : Text) (src : Source), (Language.ofText? language).isSome →
      let bad := (t.preorder.find? isOffender).getD t
      t.accept language src =
        if t.info.hasError then .error
          { cls := .refusal
            text := Text.concat [if bad.info.isMissing then "Missing token" else "Syntax error", " near '",
              Text.ofString bad.kind, "'"]
            line := some (src.lineAt bad.info.start)
            column := some (src.columnAt bad.info.start) }
        else .ok t := by
  have search := firstOffender_eq marked
  refine ⟨search, ?_, fun language src known => ?_⟩
  · rw [search, List.find?_eq_none]
    simp only [Bool.not_eq_true]
  · rw [accept_of_known known, refusal?, search]
    split <;> rfl

/-- A branch that is not closed. The closing brace is missing, and the nodes around it are marked. -/
def openBranch : Tree :=
  let node (marked : Bool) (kind : String) (field : Option String) (start stop : Nat) (children : List Tree) : Tree :=
    .node ⟨true, false, false, marked, kind, field, start, stop⟩ children
  node true "program" none 0 18 [
    node true "if_statement" none 0 17 [
      node false "parenthesized_expression" "condition" 3 6 [node false "identifier" none 4 5 []],
      node true "statement_block" "consequence" 7 17 [
        node false "expression_statement" none 11 17 [
          node false "assignment_expression" none 11 16 [
            node false "identifier" "left" 11 12 [],
            node false "number" "right" 15 16 []]],
        .node ⟨false, false, true, true, "\x7d", none, 17, 17⟩ []]]]

theorem marked_search_finds_first_offender_in_block :
    openBranch.Marked ∧
    openBranch.accept "javascript" ⟨"if (x) \x7b\n  y = 1;\n"⟩ =
      .error { cls := .refusal, text := "Missing token near '\x7d'", line := some 2, column := some 8 } :=
  have marked : openBranch.Marked := by decide
  ⟨marked, ((marked_search_finds_first_offender marked).2.2 "javascript" _ (by decide)).trans
    (congrArg Except.error (by decide))⟩

end ScriptTrace.Tree
