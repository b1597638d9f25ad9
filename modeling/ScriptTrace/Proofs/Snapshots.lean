import Mathlib.Data.Set.List
import ScriptTrace.Proofs.Unfolding
import ScriptTrace.Value.Snapshot
/-!
# What snapshots show

A snapshot is the tree that a value unfolds to, or a placeholder. The traversal that makes it has a bound on the depth,
a budget, and the containers that it is in; but the tree alone decides. A value is refused if it is **oversized**,
because it has a container under too many others or too many containers, and so is every value that leads to one that
stands in itself. Sharing makes no difference by itself: a shared container is shown wherever it stands.

* `Value.dataWithin_spends`: what the traversal gives and spends, from any point on.
* `Value.dataWithin_error_iff`: it fails for oversized values only.
* `Value.snapshot_exact_or_refused`: a snapshot is exact or refused.
-/
namespace ScriptTrace.Value

/-! ## The tree below a value -/

/-- Whether plain data is the tree below a value: the same elements and entries in the same order, long texts cut,
functions by name, and every other leaf as it is. -/
inductive Depicts (h : Heap) (limit : Nat) : Value → Plain → Prop
  | undefined : Depicts h limit .undefined .undefined
  | null : Depicts h limit .null .null
  | bool (b : Bool) : Depicts h limit (.bool b) (.bool b)
  | number (n : Number) : Depicts h limit (.number n) (.number n)
  | text (t : Text) (short : t.length ≤ limit) : Depicts h limit (.text t) (.text t)
  | longText (t : Text) (long : limit < t.length) : Depicts h limit (.text t) (.text (t.take limit ++ truncationMark))
  | function (name : Text) : Depicts h limit (.function name) (.text (placeholder name))
  | array (ref : Nat) (items : List Plain) (each : List.Forall₂ (Depicts h limit) (h.array ref) items) :
      Depicts h limit (.array ref) (.list items)
  | object (ref : Nat) (names : List Text) (values : List Plain)
      (keys : (h.object ref).map Prod.fst = names.map EntryKey.text)
      (each : List.Forall₂ (Depicts h limit) ((h.object ref).map Prod.snd) values) :
      Depicts h limit (.object ref) (.record (names.zip values))
  /-- An object that has been handed in, with entries under something else than a text. -/
  | foreign (ref : Nat) (values : List Plain) (keys : ∃ k ∈ (h.object ref).map Prod.fst, k.isText = false)
      (each : List.Forall₂ (Depicts h limit) ((h.object ref).map Prod.snd) values) :
      Depicts h limit (.object ref) (.record (namedFields (((h.object ref).map Prod.fst).zip values)))

variable {h : Heap} {limit : Nat} {v : Value}

theorem namedFields_texts (names : List Text) (values : List Plain) :
    namedFields ((names.map EntryKey.text).zip values) = names.zip values := by
  have texts : ((names.map EntryKey.text).zip values).all (fun e => e.1.isText) = true := by
    simp only [List.all_eq_true, List.zip_map_left, List.mem_map]
    rintro _ ⟨e, -, rfl⟩
    rfl
  unfold namedFields
  rw [if_pos texts, List.zip_map_left, List.map_map]
  exact List.map_id _

theorem depicts_object (ref : Nat) (values : List Plain)
    (each : List.Forall₂ (Depicts h limit) ((h.object ref).map Prod.snd) values) :
    Depicts h limit (.object ref) (.record (namedFields (((h.object ref).map Prod.fst).zip values))) := by
  by_cases keys : ∃ k ∈ (h.object ref).map Prod.fst, k.isText = false
  · exact .foreign ref values keys each
  · have named : (h.object ref).map Prod.fst ∈ Set.range (List.map EntryKey.text) := by
      rw [Set.range_list_map]
      intro k hk
      cases k with
      | text t => exact ⟨t, rfl⟩
      | other v => exact absurd ⟨_, hk, rfl⟩ keys
    obtain ⟨names, keys⟩ := named
    rw [← keys, namedFields_texts]
    exact .object ref names values keys.symm each

theorem depicts_cut (t : Text) : Depicts h limit (.text t) (.text (cut limit t)) := by
  unfold cut
  split
  · exact .longText t ‹_›
  · exact .text t (Nat.le_of_not_lt ‹_›)

/-! ## The traversal -/

variable (h limit) in
theorem dataWithin_leaf (depth : Nat) (path : List Value) (hv : v.members? h = none) :
    ∃ p, Depicts h limit v p ∧ dataWithin h limit depth path v = fun budget => .ok (p, budget) := by
  cases v with
  | array | object => cases hv
  | undefined => exact ⟨_, .undefined, by funext; simp only [dataWithin]⟩
  | null => exact ⟨_, .null, by funext; simp only [dataWithin]⟩
  | bool b => exact ⟨_, .bool b, by funext; simp only [dataWithin]⟩
  | number n => exact ⟨_, .number n, by funext; simp only [dataWithin]⟩
  | text t => exact ⟨_, depicts_cut t, by funext; simp only [dataWithin]⟩
  | function name => exact ⟨_, .function name, by funext; simp only [dataWithin]⟩

variable (h limit) in
/-- A container is its members put together, if it may be gone into. -/
theorem dataWithin_container (depth : Nat) {path members : List Value} (hv : v.members? h = some members)
    (hp : v ∉ path) :
    ∃ make : List Plain → Plain, (∀ ps, List.Forall₂ (Depicts h limit) members ps → Depicts h limit v (make ps)) ∧
      dataWithin h limit (depth + 1) path v 0 = .error .tooLarge ∧
      ∀ budget, dataWithin h limit (depth + 1) path v (budget + 1) =
        (walk (dataWithin h limit depth (v :: path)) members budget).map fun r => (make r.1, r.2) := by
  cases v with
  | array ref =>
    cases hv
    refine ⟨.list, .array ref, by simp [dataWithin, hp], fun budget => ?_⟩
    simp [dataWithin, hp]
  | object ref =>
    cases hv
    refine ⟨_, depicts_object ref, by simp [dataWithin, hp], fun budget => ?_⟩
    have values := walk_entries (dataWithin h limit depth (.object ref :: path)) id (h.object ref) budget
    simp only [id_eq] at values
    rw [dataWithin]
    simp only [List.contains_eq_mem, hp, decide_false, Bool.false_eq_true, if_false, values]
    rcases walk (dataWithin h limit depth (.object ref :: path)) ((h.object ref).map Prod.snd) budget with _ | _ <;> rfl
  | _ => cases hv

theorem dataWithin_tooDeep {path members : List Value} {budget : Nat} (hv : v.members? h = some members) :
    dataWithin h limit 0 path v budget = .error .tooDeep := by
  cases v with
  | array | object => rw [dataWithin]
  | _ => cases hv

theorem dataWithin_circular {path members : List Value} {depth budget : Nat} (hv : v.members? h = some members)
    (hp : v ∈ path) : dataWithin h limit (depth + 1) path v budget = .error .circular := by
  cases v with
  | array | object => simp [dataWithin, hp]
  | _ => cases hv

/-- A traversal takes as much from its budget as there are containers, and what it gives is the whole tree, which is not
too deep. It fails if there are too many, if they are too deep, or if it comes back to one that the value stands in. -/
theorem dataWithin_spends (h : Heap) (limit depth : Nat) (path : List Value) (v : Value) :
    Spends .tooDeep (dataWithin h limit depth path v) ((members? h).weight v) (Depicts h limit v)
      (∃ c ∈ path, Relation.ReflTransGen (members? h).Holds v c) ((members? h).Deep depth v) := by
  cases hv : v.members? h with
  | none =>
    obtain ⟨p, depicts, traversal⟩ := dataWithin_leaf h limit depth path hv
    rw [traversal, Branching.weight_leaf hv]
    exact .leaf depicts (Branching.not_deep_leaf hv)
  | some members =>
    cases depth with
    | zero => exact .worn (fun _ => dataWithin_tooDeep hv) (Branching.deep_zero (by simp [hv]))
    | succ depth =>
      by_cases hp : v ∈ path
      · exact .blocked (fun _ => dataWithin_circular hv hp) nofun ⟨v, hp, .refl⟩
      · obtain ⟨make, depicts, zero, succ⟩ := dataWithin_container h limit depth hv hp
        have inside := Spends.walk fun w (_ : w ∈ members) => dataWithin_spends h limit depth (v :: path) w
        exact spends_into (by decide) hv (inside.map (k := make) depicts) zero succ .inr
          fun c hc reaches => ⟨c, hc, reaches⟩

/-! ## Snapshots -/

/-- Whether a snapshot refuses a value for what it unfolds to: a container under 32 or more others, or more than 10000
containers. -/
def Oversized (h : Heap) (v : Value) : Prop :=
  (members? h).Deep 32 v ∨ 10000 < (members? h).weight v

theorem dataWithin_error_iff (h : Heap) (limit : Nat) (v : Value) :
    (∃ o, dataWithin h limit maxDepth [] v containerLimit = .error o) ↔ v.Oversized h := by
  have failed := (dataWithin_spends h limit maxDepth [] v).error_iff (by simp) containerLimit
  simp only [List.not_mem_nil, false_and, exists_false, false_or] at failed
  exact failed.trans or_comm

/-- A value that leads to one that stands in itself is refused. -/
theorem oversized_of_cycle {c w : Value} (reaches : Relation.ReflTransGen (members? h).Holds v c)
    (holds : (members? h).Holds c w) (back : Relation.ReflTransGen (members? h).Holds w c) : v.Oversized h := by
  right
  have top := Branching.weight_le_of_reaches reaches
  rw [Branching.weight_eq_top holds back, top_le_iff] at top
  rw [top]
  exact ENat.natCast_lt_top 10000

/-- A snapshot gives the placeholder by default if the value is oversized, and only then, as all values are that lead
to one that stands in itself; of any other value it gives the whole tree. -/
theorem snapshot_exact_or_refused (h : Heap) (limit : Nat) (v : Value) :
    ((∃ o, dataWithin h limit maxDepth [] v containerLimit = .error o) ↔ v.Oversized h) ∧
    (v.Oversized h → v.snapshot h limit = .text unserializable) ∧
    (¬v.Oversized h → Depicts h limit v (v.snapshot h limit)) ∧
    (∀ c w, Relation.ReflTransGen (members? h).Holds v c → (members? h).Holds c w →
      Relation.ReflTransGen (members? h).Holds w c → v.Oversized h) := by
  have refused := dataWithin_error_iff h limit v
  refine ⟨refused, fun oversized => ?_, fun fits => ?_, fun c w => oversized_of_cycle⟩
  · obtain ⟨o, failed⟩ := refused.2 oversized
    rw [snapshot, failed]
  · rcases hr : dataWithin h limit maxDepth [] v containerLimit with o | ⟨p, left⟩
    · exact absurd (refused.1 ⟨o, hr⟩) fits
    · rw [snapshot, hr]
      exact ((dataWithin_spends h limit maxDepth [] v).ok _ p left hr).2.1

example : (Value.array 1).snapshot ⟨#[[.number 1], [.array 0, .array 0]], #[], 1000⟩ 200 =
    .list [.list [.number 1], .list [.number 1]] := by rfl

end ScriptTrace.Value
