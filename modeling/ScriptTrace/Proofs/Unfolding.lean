import Mathlib.Algebra.Order.BigOperators.Group.List
import Mathlib.Data.Set.Card
import Mathlib.Logic.Relation
import ScriptTrace.Value.Render
/-!
# Unfolding a graph into a tree

Containers are held by reference, so the values of a heap make up a graph: a container may be shared, and it may stand
in itself. A value **unfolds** to a tree, which has no end if it leads back to itself. A place in the tree is named by
the way to it, a list of numbers; its **weight** is how many places hold containers.

A traversal of such a graph has a budget and spends one for each container it goes into. `Spends` says what it comes to:
it takes the weight of the tree from its budget, or it fails because it has less than that, or for a reason of its own,
or because the tree reaches deeper than it can go. So the tree decides the outcome, and a shared container counts once
for each way that leads to it.

* `Branching.weight_node`: the weight of a tree is made up of the weights of its branches.
* `Branching.weight_eq_top`: what stands in itself unfolds without end.
* `Branching.lt_weight_of_deep`: what reaches deep is heavy.
* `Spends.walk`: what a traversal spends along a list.
* `Branching.length_entered_le`: a traversal does not go into more containers than its budget allows.
* `Value.spends_into`: what a traversal spends on a container.
-/
namespace ScriptTrace

/-- What stands in each node of a graph, in order. A leaf has nothing to go into. -/
abbrev Branching (σ : Type) := σ → Option (List σ)

namespace Branching

variable {σ : Type} (g : Branching σ) {x y : σ} {ys : List σ} {n : Nat} {p : List Nat}

/-- The node at a position of the tree below a node; each number says which way to go on. -/
def at? : σ → List Nat → Option σ
  | x, [] => some x
  | x, i :: p => ((g x).bind (·[i]?)).bind (at? · p)

/-- The positions of the inner nodes in the tree below a node. -/
def inner (x : σ) : Set (List Nat) :=
  {p | ∃ y, g.at? x p = some y ∧ (g y).isSome}

/-- How many inner nodes the tree below a node has. -/
noncomputable def weight (x : σ) : ℕ∞ :=
  (g.inner x).encard

/-- Whether an inner node stands under at least `n` others. -/
def Deep (n : Nat) (x : σ) : Prop :=
  ∃ p ∈ g.inner x, n ≤ p.length

/-- Whether the second node stands in the first. -/
def Holds (x y : σ) : Prop :=
  ∃ ys, g x = some ys ∧ y ∈ ys

/-! ## Positions -/

/-- The positions of the inner nodes below any of several nodes that stand side by side. -/
def innerOfAll (ys : List σ) : Set (List Nat) :=
  {p | ∃ i y q, ys[i]? = some y ∧ q ∈ g.inner y ∧ p = i :: q}

variable {g}

theorem inner_leaf (h : g x = none) : g.inner x = ∅ := by
  ext p
  simp only [inner, Set.mem_ofPred_eq, Set.mem_empty_iff_false, iff_false]
  rintro ⟨y, hy, some⟩
  cases p with
  | nil =>
    cases hy
    simp [h] at some
  | cons i p => simp [at?, h] at hy

theorem inner_node (h : g x = some ys) : g.inner x = insert [] (g.innerOfAll ys) := by
  ext p
  cases p with
  | nil => simp [inner, at?, h]
  | cons i q =>
    simp only [inner, innerOfAll, at?, h, Option.bind_some, Set.mem_insert_iff, Set.mem_ofPred_eq, reduceCtorEq,
      false_or, Option.bind_eq_some_iff, List.cons.injEq]
    constructor
    · rintro ⟨z, ⟨y, hy, hz⟩, some⟩
      exact ⟨i, y, q, hy, ⟨z, hz, some⟩, rfl, rfl⟩
    · rintro ⟨_, y, _, hy, ⟨z, hz, some⟩, rfl, rfl⟩
      exact ⟨z, ⟨y, hy, hz⟩, some⟩

/-- A position moved one place to the right. -/
def shift : List Nat → List Nat
  | [] => []
  | i :: p => (i + 1) :: p

theorem shift_injective : Function.Injective shift := by
  intro p q h
  cases p <;> cases q <;> simp_all [shift]

theorem innerOfAll_cons (y : σ) (ys : List σ) :
    g.innerOfAll (y :: ys) = (List.cons 0) '' g.inner y ∪ shift '' g.innerOfAll ys := by
  ext p
  simp only [innerOfAll, Set.mem_union, Set.mem_image, Set.mem_ofPred_eq]
  constructor
  · rintro ⟨i, z, q, hz, hq, rfl⟩
    cases i with
    | zero =>
      cases hz
      exact .inl ⟨q, hq, rfl⟩
    | succ i => exact .inr ⟨i :: q, ⟨i, z, q, hz, hq, rfl⟩, rfl⟩
  · rintro (⟨q, hq, rfl⟩ | ⟨_, ⟨i, z, q, hz, hq, rfl⟩, rfl⟩)
    · exact ⟨0, y, q, rfl, hq, rfl⟩
    · exact ⟨i + 1, z, q, hz, hq, rfl⟩

theorem encard_innerOfAll (ys : List σ) : (g.innerOfAll ys).encard = (ys.map g.weight).sum := by
  induction ys with
  | nil => simp [innerOfAll]
  | cons y ys ih =>
    have disjoint : Disjoint ((List.cons 0) '' g.inner y) (shift '' g.innerOfAll ys) := by
      rw [Set.disjoint_left]
      rintro _ ⟨q, -, rfl⟩ ⟨_, ⟨i, z, q', -, -, rfl⟩, same⟩
      simp [shift] at same
    rw [innerOfAll_cons, Set.encard_union_eq disjoint, List.cons_injective.encard_image,
      shift_injective.encard_image, ih, List.map_cons, List.sum_cons, weight]

theorem weight_leaf (h : g x = none) : g.weight x = 0 := by
  rw [weight, inner_leaf h, Set.encard_empty]

theorem weight_node (h : g x = some ys) : g.weight x = (ys.map g.weight).sum + 1 := by
  have root : [] ∉ g.innerOfAll ys := by
    rintro ⟨i, y, q, -, -, impossible⟩
    cases impossible
  rw [weight, inner_node h, Set.encard_insert_of_notMem root, encard_innerOfAll]

/-! ## Subtrees and cycles -/

theorem weight_le_of_holds (h : g.Holds x y) : g.weight y + 1 ≤ g.weight x := by
  obtain ⟨ys, hx, hy⟩ := h
  rw [weight_node hx]
  gcongr
  exact List.le_sum_of_mem (List.mem_map_of_mem hy)

theorem weight_le_of_reaches (h : Relation.ReflTransGen g.Holds x y) : g.weight y ≤ g.weight x := by
  induction h with
  | refl => exact le_rfl
  | tail _ holds ih => exact (le_self_add.trans (weight_le_of_holds holds)).trans ih

/-- A node that stands in itself unfolds without end. -/
theorem weight_eq_top (holds : g.Holds x y) (back : Relation.ReflTransGen g.Holds y x) : g.weight x = ⊤ := by
  by_contra finite
  have more := (add_le_add_left (weight_le_of_reaches back) 1).trans (weight_le_of_holds holds)
  exact (ENat.add_one_le_iff finite).1 more |>.false

theorem Deep.of_le {m : Nat} (h : g.Deep n x) (le : m ≤ n) : g.Deep m x := by
  obtain ⟨p, hp, long⟩ := h
  exact ⟨p, hp, le.trans long⟩

theorem deep_zero (h : (g x).isSome) : g.Deep 0 x :=
  ⟨[], ⟨x, rfl, h⟩, Nat.zero_le _⟩

theorem not_deep_leaf (h : g x = none) : ¬g.Deep n x := by
  rintro ⟨p, hp, -⟩
  rw [inner_leaf h] at hp
  exact hp

theorem deep_succ (h : g x = some ys) : g.Deep (n + 1) x ↔ ∃ y ∈ ys, g.Deep n y := by
  rw [Deep, inner_node h]
  constructor
  · rintro ⟨p, rfl | ⟨i, y, q, hy, hq, rfl⟩, long⟩
    · simp at long
    · exact ⟨y, List.mem_of_getElem? hy, q, hq, Nat.le_of_succ_le_succ long⟩
  · rintro ⟨y, hy, q, hq, long⟩
    obtain ⟨i, hi⟩ := List.getElem?_of_mem hy
    exact ⟨i :: q, .inr ⟨i, y, q, hi, hq, rfl⟩, Nat.succ_le_succ long⟩

/-- What reaches so deep has more inner nodes than that. -/
theorem lt_weight_of_deep (h : g.Deep n x) : (n : ℕ∞) < g.weight x := by
  induction n generalizing x with
  | zero =>
    obtain ⟨p, hp, -⟩ := h
    exact Set.encard_pos.2 ⟨p, hp⟩
  | succ n ih =>
    cases hx : g x with
    | none => exact absurd h (not_deep_leaf hx)
    | some ys =>
      obtain ⟨y, hy, deep⟩ := (deep_succ hx).1 h
      rw [Nat.cast_succ]
      exact (ENat.add_lt_add_iff_right ENat.one_ne_top).2 (ih deep) |>.trans_le (weight_le_of_holds ⟨ys, hx, hy⟩)

end Branching

/-! ## Traversals on a budget -/

/-- What a traversal does with a budget: it takes `w` from it and gives a good result, or it fails because it has less
than that or for a bad reason, or `stop` says that it would have to go in too deep. -/
structure Spends {β : Type} (stop : Obstacle) (f : Nat → Except Obstacle (β × Nat)) (w : ℕ∞) (good : β → Prop)
    (bad deep : Prop) : Prop where
  ok : ∀ budget b left, f budget = .ok (b, left) → (left + w : ℕ∞) = budget ∧ good b ∧ ¬deep
  error : ∀ budget o, f budget = .error o → o ≠ stop → (budget : ℕ∞) < w ∨ bad
  stopped : ∀ budget, f budget = .error stop → deep

namespace Spends

variable {α β γ : Type} {stop : Obstacle} {f : Nat → Except Obstacle (β × Nat)} {w : ℕ∞} {good : β → Prop}
  {bad deep : Prop}

theorem leaf {b : β} (h : good b) (shallow : ¬deep) : Spends stop (fun budget => .ok (b, budget)) 0 good bad deep where
  ok budget b left hf := by
    cases hf
    exact ⟨add_zero _, h, shallow⟩
  error _ _ hf := by cases hf
  stopped _ hf := by cases hf

/-- A traversal that can go in no deeper. -/
theorem worn (h : ∀ budget, f budget = .error stop) (reason : deep) : Spends stop f w good bad deep where
  ok budget b left hf := by
    rw [h] at hf
    cases hf
  error budget o hf other := by
    rw [h] at hf
    cases hf
    exact absurd rfl other
  stopped _ _ := reason

/-- A traversal that always fails for a bad reason. -/
theorem blocked {o : Obstacle} (h : ∀ budget, f budget = .error o) (other : o ≠ stop) (reason : bad) :
    Spends stop f w good bad deep where
  ok budget b left hf := by
    rw [h] at hf
    cases hf
  error _ _ _ _ := .inr reason
  stopped budget hf := by
    rw [h] at hf
    cases hf
    exact absurd rfl other

theorem imp {good' : β → Prop} {bad' deep' : Prop} (h : Spends stop f w good bad deep) (hg : ∀ b, good b → good' b)
    (hb : bad → w = ⊤ ∨ bad') (hd : deep ↔ deep') : Spends stop f w good' bad' deep' where
  ok budget b left hf := by
    obtain ⟨spent, result, shallow⟩ := h.ok budget b left hf
    exact ⟨spent, hg b result, hd.not.1 shallow⟩
  error budget o hf other := by
    rcases h.error budget o hf other with less | bad
    · exact .inl less
    · refine (hb bad).imp_left fun top => ?_
      rw [top]
      exact ENat.natCast_lt_top budget
  stopped budget hf := hd.1 (h.stopped budget hf)

/-- A traversal fails for one of the three reasons, if no result is good when there is a bad one. -/
theorem error_iff (h : Spends stop f w good bad deep) (hg : ∀ b, good b → ¬bad) (budget : Nat) :
    (∃ o, f budget = .error o) ↔ (budget : ℕ∞) < w ∨ bad ∨ deep := by
  constructor
  · rintro ⟨o, failed⟩
    by_cases worn : o = stop
    · exact .inr (.inr (h.stopped budget (worn ▸ failed)))
    · exact (h.error budget o failed worn).imp_right .inl
  · intro reason
    rcases hr : f budget with o | ⟨b, left⟩
    · exact ⟨o, rfl⟩
    · obtain ⟨spent, good, shallow⟩ := h.ok budget b left hr
      rcases reason with less | bad | deep
      · rw [← spent] at less
        exact absurd le_add_self less.not_ge
      · exact absurd bad (hg b good)
      · exact absurd deep shallow

theorem map {k : β → γ} {good' : γ → Prop} (h : Spends stop f w good bad deep) (hk : ∀ b, good b → good' (k b)) :
    Spends stop (fun budget => (f budget).map fun r => (k r.1, r.2)) w good' bad deep where
  ok budget c left hf := by
    rcases hr : f budget with o | ⟨b, left'⟩ <;> rw [hr] at hf
    · cases hf
    · cases hf
      exact (h.ok budget b _ hr).imp_right (And.imp_left (hk b))
  error budget o hf other := by
    rcases hr : f budget with o' | r <;> rw [hr] at hf <;> cases hf
    exact h.error budget _ hr other
  stopped budget hf := by
    rcases hr : f budget with o' | r <;> rw [hr] at hf <;> cases hf
    exact h.stopped budget hr

/-- Entering a container takes one from the budget. -/
theorem enter {f' : Nat → Except Obstacle (β × Nat)} (h : Spends stop f w good bad deep)
    (other : Obstacle.tooLarge ≠ stop) (zero : f' 0 = .error .tooLarge)
    (succ : ∀ budget, f' (budget + 1) = f budget) :
    Spends stop f' (w + 1) good bad deep := by
  refine ⟨fun budget b left hf => ?_, fun budget o hf unlike => ?_, fun budget hf => ?_⟩
  · cases budget with
    | zero =>
      rw [zero] at hf
      cases hf
    | succ budget =>
      obtain ⟨spent, result⟩ := h.ok budget b left (succ budget ▸ hf)
      refine ⟨?_, result⟩
      rw [← add_assoc, spent, Nat.cast_succ]
  · cases budget with
    | zero => exact .inl (by simp)
    | succ budget =>
      rcases h.error budget o (succ budget ▸ hf) unlike with less | bad
      · left
        rw [Nat.cast_succ]
        exact (ENat.add_lt_add_iff_right ENat.one_ne_top).2 less
      · exact .inr bad
  · cases budget with
    | zero =>
      rw [zero] at hf
      cases hf
      exact absurd rfl other
    | succ budget => exact h.stopped budget (succ budget ▸ hf)

theorem weight_ne_top {budget left : Nat} {b : β} (h : Spends stop f w good bad deep) (hf : f budget = .ok (b, left)) :
    w ≠ ⊤ := by
  intro top
  have spent := (h.ok budget b left hf).1
  rw [top, add_top] at spent
  exact ENat.natCast_ne_top _ spent.symm

/-- What a traversal does along a list. -/
theorem walk {f : α → Nat → Except Obstacle (β × Nat)} {w : α → ℕ∞} {good : α → β → Prop} {bad deep : α → Prop}
    {xs : List α} (h : ∀ x ∈ xs, Spends stop (f x) (w x) (good x) (bad x) (deep x)) :
    Spends stop (walk f xs) (xs.map w).sum (List.Forall₂ good xs) (∃ x ∈ xs, bad x) (∃ x ∈ xs, deep x) := by
  induction xs with
  | nil => exact leaf .nil (by simp)
  | cons x xs ih =>
    have first := h x List.mem_cons_self
    have others := ih fun y hy => h y (List.mem_cons_of_mem x hy)
    rw [List.map_cons, List.sum_cons]
    -- the rest of the list has what the first element leaves
    refine ⟨fun budget bs left hf => ?_, fun budget o hf other => ?_, fun budget hf => ?_⟩ <;>
      rw [ScriptTrace.walk] at hf <;> rcases hx : f x budget with o | ⟨b, between⟩ <;> rw [hx] at hf
    · cases hf
    · obtain ⟨spent, good, shallow⟩ := first.ok _ _ _ hx
      rcases hr : ScriptTrace.walk f xs between with o | ⟨bs, left⟩ <;> simp only [hr] at hf <;> cases hf
      obtain ⟨spent', goods, shallows⟩ := others.ok _ _ _ hr
      refine ⟨?_, .cons good goods, ?_⟩
      · rw [← spent, ← spent']
        ac_rfl
      · simp only [List.mem_cons, exists_eq_or_imp]
        exact not_or.2 ⟨shallow, shallows⟩
    · cases hf
      rcases first.error _ _ hx other with less | bad
      · exact .inl (less.trans_le le_self_add)
      · exact .inr ⟨x, List.mem_cons_self, bad⟩
    · have spent := (first.ok _ _ _ hx).1
      rcases hr : ScriptTrace.walk f xs between with o | ⟨bs, left⟩ <;> simp only [hr] at hf <;> cases hf
      rcases others.error _ _ hr other with less | ⟨y, hy, bad⟩
      · left
        rw [← spent, add_comm]
        exact (ENat.add_lt_add_iff_left (first.weight_ne_top hx)).2 less
      · exact .inr ⟨y, List.mem_cons_of_mem x hy, bad⟩
    · cases hf
      exact ⟨x, List.mem_cons_self, first.stopped _ hx⟩
    · rcases hr : ScriptTrace.walk f xs between with o | ⟨bs, left⟩ <;> simp only [hr] at hf <;> cases hf
      obtain ⟨y, hy, deep⟩ := others.stopped _ hr
      exact ⟨y, List.mem_cons_of_mem x hy, deep⟩

end Spends

/-! ## What a traversal goes into -/

section Entered

variable {σ β : Type} {f : σ → Nat → Except Obstacle (β × Nat)} {into : σ → Nat → List σ} {w : σ → ℕ∞}

/-- The nodes that a traversal goes into below several others: it goes on to the next with what is left of the budget,
unless it has failed. -/
def enteredAll (f : σ → Nat → Except Obstacle (β × Nat)) (into : σ → Nat → List σ) : List σ → Nat → List σ
  | [], _ => []
  | y :: ys, budget => into y budget ++
    match f y budget with
    | .error _ => []
    | .ok (_, left) => enteredAll f into ys left

/-- The nodes that the traversal `f` goes into, in order; its first argument bounds the nesting. -/
def Branching.entered (g : Branching σ) (f : Nat → σ → Nat → Except Obstacle (β × Nat)) : Nat → σ → Nat → List σ
  | depth, x, budget =>
    match g x, depth, budget with
    | some ys, depth + 1, budget + 1 => x :: enteredAll (f depth) (entered g f depth) ys budget
    | _, _, _ => []

theorem length_enteredAll_le {ys : List σ}
    (hf : ∀ y budget b left, f y budget = .ok (b, left) → (left + w y : ℕ∞) = budget)
    (hi : ∀ y budget, (into y budget).length ≤ budget ∧ ((into y budget).length : ℕ∞) ≤ w y) (budget : Nat) :
    (enteredAll f into ys budget).length ≤ budget ∧ ((enteredAll f into ys budget).length : ℕ∞) ≤ (ys.map w).sum := by
  induction ys generalizing budget with
  | nil => simp [enteredAll]
  | cons y ys ih =>
    obtain ⟨first, first'⟩ := hi y budget
    rw [enteredAll, List.map_cons, List.sum_cons]
    rcases hr : f y budget with o | ⟨b, left⟩
    · simp only [List.append_nil]
      exact ⟨first, first'.trans le_self_add⟩
    · have spent := hf y budget b left hr
      have fewer : (into y budget).length + left ≤ budget := by
        have less : ((into y budget).length + left : ℕ∞) ≤ budget := by
          rw [← spent, add_comm]
          gcongr
        exact_mod_cast less
      obtain ⟨others, others'⟩ := ih left
      simp only [List.length_append, Nat.cast_add]
      exact ⟨by omega, add_le_add first' others'⟩

/-- A traversal that spends one for each node goes into no more of them than it may spend. -/
theorem Branching.length_entered_le {g : Branching σ} {f : Nat → σ → Nat → Except Obstacle (β × Nat)}
    (hw : ∀ x ys, g x = some ys → (ys.map w).sum + 1 = w x)
    (hf : ∀ depth x budget b left, f depth x budget = .ok (b, left) → (left + w x : ℕ∞) = budget)
    (depth : Nat) (x : σ) (budget : Nat) :
    (g.entered f depth x budget).length ≤ budget ∧ ((g.entered f depth x budget).length : ℕ∞) ≤ w x := by
  cases hx : g x with
  | none => simp [entered, hx]
  | some ys =>
    cases depth with
    | zero => simp [entered, hx]
    | succ depth =>
      cases budget with
      | zero => simp [entered, hx]
      | succ budget =>
        have below : (enteredAll (f depth) (g.entered f depth) ys budget).length ≤ budget ∧
            ((enteredAll (f depth) (g.entered f depth) ys budget).length : ℕ∞) ≤ (ys.map w).sum :=
          length_enteredAll_le (hf depth) (length_entered_le hw hf depth) budget
        have node : g.entered f (depth + 1) x (budget + 1) =
            x :: enteredAll (f depth) (g.entered f depth) ys budget := by
          unfold entered
          simp only [hx]
        rw [node, List.length_cons, Nat.cast_succ, ← hw x ys hx]
        exact ⟨Nat.succ_le_succ below.1, by gcongr; exact below.2⟩

end Entered

/-- Walking along entries is walking along their values. -/
theorem walk_entries {κ ι α β : Type} (f : α → Nat → Except Obstacle (β × Nat)) (key : κ → ι) (entries : List (κ × α))
    (budget : Nat) :
    walk (fun e left => (f e.2 left).map fun r => ((key e.1, r.1), r.2)) entries budget =
      (walk f (entries.map Prod.snd) budget).map fun r => ((entries.map (key ·.1)).zip r.1, r.2) := by
  induction entries generalizing budget with
  | nil => rfl
  | cons e entries ih =>
    simp only [walk, List.map_cons, ih]
    rcases f e.2 budget with o | ⟨b, left⟩
    · rfl
    · simp only [Except.map]
      rcases walk f (entries.map Prod.snd) left with o | ⟨bs, left⟩ <;> rfl

/-! ## Values -/

open Relation (ReflTransGen)

namespace Value

/-- The values that stand in a container. -/
def members? (h : Heap) : Branching Value
  | .array ref => some (h.array ref)
  | .object ref => some ((h.object ref).map Prod.snd)
  | _ => none

variable {h : Heap} {v : Value} {members path : List Value}

/-- A traversal that goes into a value. If one of the members leads back to a container on the way, this is the value
itself, which unfolds without end then, or one that the value stands in. -/
theorem spends_into {β : Type} {stop : Obstacle} (other : Obstacle.tooLarge ≠ stop) {depth : Nat}
    {f f' : Nat → Except Obstacle (β × Nat)} {good : β → Prop} {inner bad : Prop} (hv : v.members? h = some members)
    (inside : Spends stop f (members.map (members? h).weight).sum good inner (∃ w ∈ members, (members? h).Deep depth w))
    (zero : f' 0 = .error .tooLarge) (succ : ∀ budget, f' (budget + 1) = f budget)
    (hb : inner → bad ∨ ∃ w ∈ members, ∃ c ∈ v :: path, ReflTransGen (members? h).Holds w c)
    (back : ∀ c ∈ path, ReflTransGen (members? h).Holds v c → bad) :
    Spends stop f' ((members? h).weight v) good bad ((members? h).Deep (depth + 1) v) := by
  have entered := inside.enter other zero succ
  rw [← Branching.weight_node hv] at entered
  refine entered.imp (fun _ => id) (fun reason => ?_) (Branching.deep_succ hv).symm
  rcases hb reason with bad | ⟨w, hw, c, hc, reaches⟩
  · exact .inr bad
  · have holds : (members? h).Holds v w := ⟨members, hv, hw⟩
    rcases List.mem_cons.1 hc with rfl | hc
    · exact .inl (Branching.weight_eq_top holds reaches)
    · exact .inr (back c hc (.head holds reaches))

end Value

end ScriptTrace
