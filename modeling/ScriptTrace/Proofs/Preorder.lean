import ScriptTrace.Tree
/-!
# Nodes in preorder

A node stands at the end of a **way** down the tree: at each node that is passed, the number of the child to take. Ways
tell nodes apart that look alike. **Preorder** lists a node before its children and everything below a child before the
next one; of two ways, the one that ends first or turns off further left **precedes** the other.

* `first_of_findSome`: what is found first in preorder is at the end of a way that precedes all others.
-/
namespace ScriptTrace.Tree

/-! ## Ways -/

abbrev Way := List Nat

/-- The node at the end of a way, if the way does not leave the tree. -/
def at? (t : Tree) : Way → Option Tree
  | [] => some t
  | i :: p => t.children[i]?.bind fun c => c.at? p

theorem at_cons {t s : Tree} {i : Nat} {p : Way} :
    t.at? (i :: p) = some s ↔ ∃ c, t.children[i]? = some c ∧ c.at? p = some s :=
  Option.bind_eq_some_iff

theorem at_append (t : Tree) (p q : Way) : t.at? (p ++ q) = (t.at? p).bind fun c => c.at? q := by
  induction p generalizing t with
  | nil => rfl
  | cons i p ih =>
    rw [List.cons_append, at?, at?, Option.bind_assoc]
    exact congrArg _ (funext fun c => ih c)

theorem at_child (t : Tree) (p : Way) (i : Nat) : t.at? (p ++ [i]) = (t.at? p).bind fun d => d.children[i]? := by
  rw [at_append]
  refine congrArg _ (funext fun d => ?_)
  rw [at?]
  cases d.children[i]? with
  | none => rfl
  | some c => rfl

/-- Whether a way comes before another in preorder. -/
def Precedes (p q : Way) : Prop :=
  List.Lex (· < ·) p q

theorem precedes_longer (p : Way) (i : Nat) (r : Way) : Precedes p (p ++ i :: r) := by
  induction p with
  | nil => exact .nil
  | cons k p ih => exact .cons ih

theorem Precedes.longer {p q : Way} (h : Precedes p q) (r : Way) : Precedes p (q ++ r) := by
  induction h with
  | nil => exact .nil
  | cons _ ih => exact .cons ih
  | rel less => exact .rel less

/-- What comes after a node also comes after a child of it, unless it is that child, or is or stands below a child to the
left of that one. -/
theorem Precedes.child {p q : Way} (h : Precedes p q) (i : Nat) :
    q = p ++ [i] ∨ Precedes (p ++ [i]) q ∨ ∃ k r, k < i ∧ q = p ++ k :: r := by
  induction h with
  | @nil k r =>
    rcases Nat.lt_trichotomy k i with less | rfl | greater
    · exact .inr (.inr ⟨k, r, less, rfl⟩)
    · cases r with
      | nil => exact .inl rfl
      | cons j r => exact .inr (.inl (.cons .nil))
    · exact .inr (.inl (.rel greater))
  | cons _ ih =>
    rcases ih with rfl | after | ⟨k, r, less, rfl⟩
    · exact .inl rfl
    · exact .inr (.inl (.cons after))
    · exact .inr (.inr ⟨k, r, less, rfl⟩)
  | rel less => exact .inr (.inl (.rel less))

/-! ## Preorder -/

mutual

/-- A node and the nodes below it, in preorder. -/
def preorder : Tree → List Tree
  | .node i cs => .node i cs :: preorderAll cs

def preorderAll : List Tree → List Tree
  | [] => []
  | c :: rest => preorder c ++ preorderAll rest

end

/-- The nodes below a node, in preorder. -/
def descendants (t : Tree) : List Tree :=
  preorderAll t.children

theorem preorder_eq (t : Tree) : t.preorder = t :: t.descendants := by
  cases t with
  | node i cs => rfl

theorem preorderAll_eq (cs : List Tree) : preorderAll cs = cs.flatMap preorder := by
  induction cs with
  | nil => rfl
  | cons c rest ih => rw [preorderAll, ih, List.flatMap_cons]

theorem mem_descendants_iff {t s : Tree} : s ∈ t.descendants ↔ ∃ c ∈ t.children, s ∈ c.preorder := by
  rw [descendants, preorderAll_eq, List.mem_flatMap]

theorem mem_preorder_of_at {t s : Tree} {p : Way} (h : t.at? p = some s) : s ∈ t.preorder := by
  induction p generalizing t with
  | nil =>
    cases h
    rw [preorder_eq]
    exact List.mem_cons_self
  | cons i p ih =>
    obtain ⟨c, hc, hs⟩ := at_cons.1 h
    rw [preorder_eq]
    exact List.mem_cons_of_mem t (mem_descendants_iff.2 ⟨c, List.mem_of_getElem? hc, ih hs⟩)

/-! ## Searching -/

section Search

variable {α : Type} (f : Tree → Option α)

/-- Whether `a` is what `f` gives for the node at the end of a way, which is the first node, in preorder, for which it
gives anything. -/
structure FirstAt (t : Tree) (p : Way) (a : α) : Prop where
  answer : ∃ s, t.at? p = some s ∧ f s = some a
  first : ∀ q s, t.at? q = some s → (f s).isSome → q = p ∨ Precedes p q

variable {f}

theorem FirstAt.root {t : Tree} {a : α} (h : f t = some a) : FirstAt f t [] a where
  answer := ⟨t, rfl, h⟩
  first q _ _ _ := by
    cases q with
    | nil => exact .inl rfl
    | cons => exact .inr .nil

/-- The first answer below a node is the first one of all if the node and the children on the left give none. -/
theorem FirstAt.inChild {t c : Tree} {k : Nat} {p : Way} {a : α} (h : FirstAt f c p a) (hc : t.children[k]? = some c)
    (here : f t = none) (left : ∀ d ∈ t.children.take k, ∀ s ∈ d.preorder, f s = none) :
    FirstAt f t (k :: p) a where
  answer := by
    obtain ⟨s, hs, ha⟩ := h.answer
    exact ⟨s, at_cons.2 ⟨c, hc, hs⟩, ha⟩
  first q s hs answered := by
    cases q with
    | nil =>
      cases hs
      rw [here] at answered
      cases answered
    | cons j q =>
      obtain ⟨d, hd, hs⟩ := at_cons.1 hs
      -- the two ways part at this node, or both go on into the same child
      rcases Nat.lt_trichotomy j k with less | rfl | greater
      · have hd : d ∈ t.children.take k := List.mem_of_getElem? ((List.getElem?_take_of_lt less).trans hd)
        rw [left d hd s (mem_preorder_of_at hs)] at answered
        cases answered
      · cases hc.symm.trans hd
        rcases h.first q s hs answered with rfl | after
        · exact .inl rfl
        · exact .inr (.cons after)
      · exact .inr (.rel greater)

mutual

/-- What is found first in preorder is at the end of a way that precedes all others with an answer. -/
theorem first_of_findSome : ∀ {t : Tree} {a : α}, t.preorder.findSome? f = some a → ∃ p, FirstAt f t p a
  | .node i cs, a, h => by
    rw [preorder, List.findSome?_cons] at h
    split at h
    · rename_i b here
      cases h
      exact ⟨[], .root here⟩
    · rename_i here
      obtain ⟨k, c, p, hc, first, left⟩ := first_of_findSomeAll h
      exact ⟨k :: p, first.inChild hc here left⟩

theorem first_of_findSomeAll : ∀ {cs : List Tree} {a : α}, (preorderAll cs).findSome? f = some a →
    ∃ (k : Nat) (c : Tree) (p : Way), cs[k]? = some c ∧ FirstAt f c p a ∧
      ∀ d ∈ cs.take k, ∀ s ∈ d.preorder, f s = none
  | c :: rest, a, h => by
    rw [preorderAll, List.findSome?_append, Option.or_eq_some_iff] at h
    rcases h with h | ⟨none, h⟩
    · obtain ⟨p, first⟩ := first_of_findSome h
      exact ⟨0, c, p, rfl, first, List.forall_mem_nil _⟩
    · obtain ⟨k, d, p, hd, first, left⟩ := first_of_findSomeAll h
      exact ⟨k + 1, d, p, hd, first, List.forall_mem_cons.2 ⟨List.findSome?_eq_none_iff.1 none, left⟩⟩

end

end Search

end ScriptTrace.Tree
