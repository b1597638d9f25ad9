import Mathlib.Tactic.SplitIfs
import ScriptTrace.Proofs.Rendering
/-!
# Loose equality

Loose equality compares values of different kinds by coercing them. Step by step, it replaces one operand at a time: a
truth value by a number, a container by its joined text. Which operand comes first depends on the sides they stand on,
and joining an array may fail. The answer does not depend on the sides: both containers are joined before two of them
are compared, and only one of the two is an array then.

* `looseEquals_comm`: the sides do not matter.
* `looseStep`, `looseRun`: the comparison step by step.
* `looseEquals_of_step`, `looseRun_eq`: a step keeps the answer, and no operand is replaced twice.
* `looseRun_eq_error`: a comparison fails where an array has no joined text.
* `loose_equality_symmetric_or_fails`: how loose and strict equality compare.
-/
namespace ScriptTrace

/-! ## Numbers -/

namespace Number

theorem Point.compare_swap (p q : Point) : (p.compare q).swap = q.compare p := by
  cases p <;> cases q
  case dyadic.dyadic m e m' e' =>
    simp only [Point.compare, Int.min_comm e' e]
    exact Std.OrientedOrd.eq_swap.symm
  all_goals rfl

theorem eq_comm (a b : Number) : a.eq b = b.eq a := by
  unfold Number.eq compare?
  cases a.point? <;> cases b.point?
  case some.some p q =>
    have swap := p.compare_swap q
    dsimp only
    rw [← swap]
    cases p.compare q <;> rfl
  all_goals rfl

end Number

namespace Value

variable {h : Heap} {l r l' r' : Value}

/-! ## Strict equality -/

theorem strictEquals_comm (l r : Value) : strictEquals l r = strictEquals r l := by
  unfold strictEquals
  cases l <;> cases r
  case number.number a b => exact Number.eq_comm a b
  all_goals exact BEq.comm

theorem kind_of_strictEquals (same : strictEquals l r = true) : l.kind = r.kind := by
  unfold strictEquals at same
  split at same
  · rfl
  · rw [eq_of_beq same]

/-! ## Sides -/

/-- Only arrays can have no joined text. -/
theorem joinText_object (h : Heap) (ref : Nat) : joinText h (.object ref) = .ok "[object Object]" := by
  unfold joinText
  rw [joined]

theorem looseText_container {v : Value} (container : v.isContainer = true) (h : Heap) (t : Text) :
    looseText h t v = (joinText h v).map (t == ·) := by
  cases v with
  | array | object => rfl
  | _ => cases container

/-- Of two containers both are joined, in either order. -/
theorem joined_comm {h : Heap} (left : l.isContainer = true) (right : r.isContainer = true) (kinds : l.kind ≠ r.kind) :
    (joinText h l >>= fun t => (joinText h r).map (t == ·)) =
      (joinText h r >>= fun t => (joinText h l).map (t == ·)) := by
  have swap (a b : Except Fault Text) (t : Text) (ha : a = .ok t) :
      (a >>= fun t => b.map (t == ·)) = b >>= fun t => a.map (t == ·) := by
    subst ha
    cases b with
    | error fault => rfl
    | ok s => exact congrArg Except.ok BEq.comm
  -- one of them is an object, which can always be joined
  cases l with
  | object => exact swap _ _ _ (joinText_object h _)
  | array =>
    cases r with
    | object => exact (swap _ _ _ (joinText_object h _)).symm
    | array => exact absurd rfl kinds
    | _ => cases right
  | _ => cases left

theorem looseRest_comm (h : Heap) (l r : Value) : looseRest h l r = looseRest h r l := by
  unfold looseRest
  by_cases kinds : l.kind = r.kind
  · rw [if_pos kinds, if_pos kinds.symm, strictEquals_comm]
  rw [if_neg kinds, if_neg (Ne.symm kinds)]
  by_cases left : l.isContainer = true <;> by_cases right : r.isContainer = true
  · simp only [left, right, if_true, looseText_container left, looseText_container right]
    exact joined_comm left right kinds
  · simp only [left, right, if_true, if_false, Bool.false_eq_true]
  · simp only [left, right, if_true, if_false, Bool.false_eq_true]
  · simp only [left, right, if_false, Bool.false_eq_true]
    cases l <;> cases r
    case number.text a t => exact congrArg Except.ok (Number.eq_comm a _)
    case text.number t b => exact congrArg Except.ok (Number.eq_comm _ b)
    all_goals rfl

theorem looseEquals_comm (h : Heap) (l r : Value) : looseEquals h l r = looseEquals h r l := by
  unfold looseEquals
  rw [Bool.or_comm, Bool.and_comm, strictEquals_comm, looseRest_comm]
  simp only [eq_comm (a := l.kind)]

/-! ## Coercions -/

/-- A truth value is compared as its number is. -/
theorem looseEquals_numberOfBool (kinds : l.kind ≠ r.kind) : looseEquals h l r = looseEquals h l.numberOfBool r := by
  cases l with
  | bool b =>
    cases r with
    | bool => exact absurd rfl kinds
    | _ => rfl
  | _ => rfl

/-- A value that is neither nullish nor a truth value, as the operands are once these have been dealt with. -/
structure Proper (v : Value) : Prop where
  present : v.isNullish = false
  untrue : v.kind ≠ .boolean

theorem Proper.numberOfBool {v : Value} (proper : v.Proper) : v.numberOfBool = v := by
  cases v with
  | bool => exact absurd rfl proper.untrue
  | _ => rfl

theorem looseEquals_of_proper (left : l.Proper) (right : r.Proper) : looseEquals h l r = looseRest h l r := by
  rw [looseEquals, left.present, right.present, left.numberOfBool, right.numberOfBool, if_neg (by decide)]
  unfold looseRest
  by_cases kinds : l.kind = r.kind
  · rw [if_pos kinds, if_pos kinds]
  · rw [if_neg kinds]

theorem looseEquals_text {v : Value} (proper : v.Proper) (h : Heap) (t : Text) :
    looseEquals h (.text t) v = looseText h t v := by
  have joined (ref : Nat) (container : v = .array ref ∨ v = .object ref) :
      looseEquals h (.text t) v = (joinText h v).map (t == ·) := by
    have swapped : looseEquals h (.text t) v = joinText h v >>= fun s => .ok (s == t) := by
      rcases container with rfl | rfl <;> rfl
    rw [swapped]
    cases joinText h v with
    | error => rfl
    | ok s => exact congrArg Except.ok BEq.comm
  cases v with
  | undefined | null => cases proper.present
  | bool => exact absurd rfl proper.untrue
  | number | function => rfl
  | text t' => exact congrArg Except.ok (Bool.eq_iff_iff.mpr (by simp [strictEquals]))
  | array ref => exact joined ref (.inl rfl)
  | object ref => exact joined ref (.inr rfl)

/-- A container is compared as its joined text is. -/
theorem looseEquals_container (left : l.Proper) (right : r.Proper) (kinds : l.kind ≠ r.kind)
    (container : l.isContainer = true) : looseEquals h l r = joinText h l >>= fun t => looseEquals h (.text t) r := by
  simp only [looseEquals_text right]
  rw [looseEquals_of_proper left right]
  unfold looseRest
  rw [if_neg kinds, if_pos container]

/-! ## Step by step -/

/-- How far the comparison of two values is. -/
inductive Stage
  | settled (answer : Bool)
  /-- One of the operands was replaced. -/
  | replaced (l r : Value)

/-- One step of the comparison of two values. -/
def looseStep (h : Heap) (l r : Value) : Except Fault Stage :=
  if l.isNullish || r.isNullish then .ok (.settled (l.isNullish && r.isNullish))
  else if l.kind = r.kind then .ok (.settled (strictEquals l r))
  else if l.kind = .boolean then .ok (.replaced l.numberOfBool r)
  else if r.kind = .boolean then .ok (.replaced l r.numberOfBool)
  else if l.isContainer then (joinText h l).map fun t => .replaced (.text t) r
  else if r.isContainer then (joinText h r).map fun t => .replaced l (.text t)
  else
    match l, r with
    | .number a, .text t => .ok (.settled (a.eq (Numeral.ofText t)))
    | .text t, .number b => .ok (.settled ((Numeral.ofText t).eq b))
    | _, _ => .ok (.settled false)

/-- The answer a comparison comes to from a stage on. -/
def Stage.answer (h : Heap) : Stage → Except Fault Bool
  | settled answer => .ok answer
  | replaced l r => looseEquals h l r

/-- A step keeps the answer. -/
theorem looseEquals_of_step (h : Heap) (l r : Value) : looseEquals h l r = looseStep h l r >>= Stage.answer h := by
  unfold looseStep
  by_cases nullish : (l.isNullish || r.isNullish) = true
  · rw [if_pos nullish, looseEquals, if_pos nullish]
    rfl
  by_cases kinds : l.kind = r.kind
  · rw [if_neg nullish, if_pos kinds, looseEquals, if_neg nullish, if_pos kinds]
    rfl
  rw [if_neg nullish, if_neg kinds]
  obtain ⟨left, right⟩ : l.isNullish = false ∧ r.isNullish = false := by simpa using nullish
  by_cases boolLeft : l.kind = .boolean
  · rw [if_pos boolLeft]
    exact looseEquals_numberOfBool kinds
  by_cases boolRight : r.kind = .boolean
  · rw [if_neg boolLeft, if_pos boolRight, looseEquals_comm, looseEquals_numberOfBool (Ne.symm kinds), looseEquals_comm]
    rfl
  rw [if_neg boolLeft, if_neg boolRight]
  replace left : l.Proper := ⟨left, boolLeft⟩
  replace right : r.Proper := ⟨right, boolRight⟩
  by_cases containerLeft : l.isContainer = true
  · rw [if_pos containerLeft, looseEquals_container left right kinds containerLeft]
    cases joinText h l <;> rfl
  by_cases containerRight : r.isContainer = true
  · rw [if_neg containerLeft, if_pos containerRight, looseEquals_comm,
      looseEquals_container right left (Ne.symm kinds) containerRight]
    simp only [looseEquals_comm h (.text _)]
    cases joinText h r <;> rfl
  rw [if_neg containerLeft, if_neg containerRight, looseEquals_of_proper left right]
  unfold looseRest
  rw [if_neg kinds, if_neg containerLeft, if_neg containerRight]
  cases l <;> cases r <;> rfl

/-- The comparison of two values, if it takes no more steps than given. -/
def looseRun (h : Heap) : Nat → Value → Value → Option (Except Fault Bool)
  | 0, _, _ => none
  | steps + 1, l, r =>
    match looseStep h l r with
    | .error fault => some (.error fault)
    | .ok (.settled answer) => some (.ok answer)
    | .ok (.replaced l r) => looseRun h steps l r

/-- How often a value can be replaced. -/
def rank (v : Value) : Nat := if v.kind = .boolean ∨ v.isContainer = true then 1 else 0

theorem rank_le_one (v : Value) : v.rank ≤ 1 := by
  unfold rank
  split <;> omega

theorem rank_numberOfBool {v : Value} (boolean : v.kind = .boolean) : v.numberOfBool.rank < v.rank := by
  cases v with
  | bool => exact Nat.zero_lt_one
  | _ => cases boolean

theorem rank_text {v : Value} (container : v.isContainer = true) (t : Text) : (text t).rank < v.rank := by
  cases v with
  | array | object => exact Nat.zero_lt_one
  | _ => cases container

theorem rank_of_step (step : looseStep h l r = .ok (.replaced l' r')) : l'.rank + r'.rank < l.rank + r.rank := by
  unfold looseStep at step
  split at step
  · cases step
  split at step
  · cases step
  split at step
  case isTrue boolean =>
    cases step
    exact Nat.add_lt_add_right (rank_numberOfBool boolean) _
  split at step
  case isTrue boolean =>
    cases step
    exact Nat.add_lt_add_left (rank_numberOfBool boolean) _
  split at step
  case isTrue container =>
    cases joined : joinText h l <;> rw [joined] at step <;> cases step
    exact Nat.add_lt_add_right (rank_text container _) _
  split at step
  case isTrue container =>
    cases joined : joinText h r <;> rw [joined] at step <;> cases step
    exact Nat.add_lt_add_left (rank_text container _) _
  split at step <;> cases step

/-- Every step replaces an operand that was not replaced before, so that there are at most as many steps as the ranks
allow, and one for the answer. -/
theorem looseRun_eq {steps : Nat} (enough : l.rank + r.rank < steps) :
    looseRun h steps l r = some (looseEquals h l r) := by
  induction steps generalizing l r with
  | zero => omega
  | succ steps ih =>
    unfold looseRun
    rw [looseEquals_of_step]
    cases step : looseStep h l r with
    | error cause => rfl
    | ok stage =>
      cases stage with
      | settled answer => rfl
      | replaced l' r' =>
        have := rank_of_step step
        exact ih (by omega)

/-- Whether one of two operands is an array whose joining raises a fault. -/
def JoinFails (h : Heap) (l r : Value) (fault : Fault) : Prop :=
  ∃ ref, (l = .array ref ∨ r = .array ref) ∧ joinText h (.array ref) = .error fault

theorem looseStep_eq_error {fault : Fault} (failed : looseStep h l r = .error fault) : JoinFails h l r fault := by
  have joined {v : Value} {f : Text → Stage} (container : v.isContainer = true)
      (failed : (joinText h v).map f = .error fault) :
      ∃ ref, v = .array ref ∧ joinText h (.array ref) = .error fault := by
    cases v with
    | array ref =>
      cases hj : joinText h (.array ref) with
      | error fault' =>
        rw [hj] at failed
        cases failed
        exact ⟨ref, rfl, hj⟩
      | ok t =>
        rw [hj] at failed
        cases failed
    | object ref =>
      rw [joinText_object] at failed
      cases failed
    | _ => cases container
  unfold looseStep at failed
  split_ifs at failed with _ _ _ _ left right
  · obtain ⟨ref, hl, hj⟩ := joined left failed
    exact ⟨ref, .inl hl, hj⟩
  · obtain ⟨ref, hr, hj⟩ := joined right failed
    exact ⟨ref, .inr hr, hj⟩
  · split at failed <;> cases failed

/-- What replaces an operand is no array. -/
theorem array_of_step {ref : Nat} (step : looseStep h l r = .ok (.replaced l' r'))
    (array : l' = .array ref ∨ r' = .array ref) : l = .array ref ∨ r = .array ref := by
  have number {v : Value} (hv : v.numberOfBool = .array ref) : v = .array ref := by
    cases v with
    | bool => cases hv
    | _ => exact hv
  unfold looseStep at step
  split_ifs at step
  · cases step
  · cases step
  · cases step
    exact array.imp_left number
  · cases step
    exact array.imp_right number
  · cases joined : joinText h l <;> rw [joined] at step <;> cases step
    exact array.imp_left (nomatch ·)
  · cases joined : joinText h r <;> rw [joined] at step <;> cases step
    exact array.imp_right (nomatch ·)
  · split at step <;> cases step

theorem looseRun_eq_error {steps : Nat} {fault : Fault} (failed : looseRun h steps l r = some (.error fault)) :
    JoinFails h l r fault := by
  induction steps generalizing l r with
  | zero => cases failed
  | succ steps ih =>
    unfold looseRun at failed
    cases step : looseStep h l r with
    | error fault' =>
      rw [step] at failed
      cases failed
      exact looseStep_eq_error step
    | ok stage =>
      rw [step] at failed
      cases stage with
      | settled answer => cases failed
      | replaced l' r' =>
        obtain ⟨ref, array, hj⟩ := ih failed
        exact ⟨ref, array_of_step step array, hj⟩

/-- Two operands are replaced at most, and the third step has the answer. -/
theorem looseRun_three (h : Heap) (l r : Value) : looseRun h 3 l r = some (looseEquals h l r) := by
  have left := l.rank_le_one
  have right := r.rank_le_one
  exact looseRun_eq (by omega)

/-! ## Loose and strict equality -/

theorem isNullish_iff (v : Value) : v.isNullish = true ↔ v = .null ∨ v = .undefined := by
  cases v <;> simp [isNullish]

theorem looseEquals_of_kind (kinds : l.kind = r.kind) : looseEquals h l r = .ok (strictEquals l r) := by
  unfold looseEquals
  split_ifs with nullish
  · -- A nullish value is the only one of its kind.
    cases l <;> cases r <;> first | rfl | (cases nullish; done) | cases kinds
  · rfl

theorem looseEquals_of_isNullish (nullish : l.isNullish = true) : looseEquals h l r = .ok r.isNullish := by
  rw [looseEquals, nullish, Bool.true_or, if_pos rfl, Bool.true_and]

/-- Arrays inside each other that are too many for the stack cannot be compared with a text. -/
theorem looseEquals_tower {height frames i : Nat} (hi : i < height) (few : i < 10000) (deep : frames / 3 ≤ i)
    (t : Text) : looseEquals (tower height frames) (.array i) (.text t) = .error .exhausted := by
  have left : (Value.array i).Proper := ⟨rfl, by simp [kind]⟩
  have right : (Value.text t).Proper := ⟨rfl, by simp [kind]⟩
  rw [looseEquals_container left right (by simp [kind]) rfl, joinText_tower hi few deep]
  rfl

end Value

open Value

/-- Loose equality extends strict equality to values of different kinds. For every heap, cyclic or not, a comparison
comes within three steps to an answer, or it fails as the joining of one operand does, which is an array then: it has
too many arrays to go into, or it reaches too deep for the frames that there are. With the operands exchanged it comes
to the same. -/
theorem loose_equality_symmetric_or_fails (h : Heap) (x y : Value) :
    looseRun h 3 x y = some (looseEquals h x y) ∧
      ((∃ answer, looseEquals h x y = .ok answer) ∨ ∃ ref, (x = .array ref ∨ y = .array ref) ∧
        (looseEquals h x y = .error (.failure .textTooLong none) ∧ 10000 < (elements? h).weight ([], .array ref) ∨
          looseEquals h x y = .error .exhausted ∧ (Value.array ref).JoinTooDeep h)) ∧
      looseEquals h x y = looseEquals h y x ∧
      (strictEquals x y = true → looseEquals h x y = .ok true) ∧
      (x.kind = y.kind → looseEquals h x y = .ok (strictEquals x y)) ∧
      (x = .null ∨ x = .undefined → looseEquals h x y = .ok (decide (y = .null ∨ y = .undefined))) := by
  refine ⟨looseRun_three h x y, ?_, looseEquals_comm h x y, fun same => ?_, looseEquals_of_kind, fun nullish => ?_⟩
  · cases compared : looseEquals h x y with
    | ok answer => exact .inl ⟨answer, rfl⟩
    | error fault =>
      have run := looseRun_three h x y
      rw [compared] at run
      obtain ⟨ref, array, failed⟩ := looseRun_eq_error run
      refine .inr ⟨ref, array, ?_⟩
      rcases joinText_error rfl failed with ⟨rfl, deep⟩ | ⟨rfl, large⟩
      · exact .inr ⟨rfl, deep⟩
      · exact .inl ⟨rfl, large⟩
  · rw [looseEquals_of_kind (kind_of_strictEquals same), same]
  · rw [looseEquals_of_isNullish ((isNullish_iff x).mpr nullish)]
    exact congrArg Except.ok (Bool.eq_iff_iff.mpr ((isNullish_iff y).trans decide_eq_true_iff.symm))

/-- An array that holds itself, between texts: its joined text leaves the inner one out. -/
theorem loose_equality_symmetric_or_fails_cyclic :
    let h : Heap := ⟨#[[.array 0, .number 1]], #[], 1000⟩
    looseEquals h (.array 0) (.text ",1") = .ok true ∧ looseEquals h (.text ",1") (.array 0) = .ok true ∧
      looseEquals h (.array 0) (.array 0) = .ok true ∧ looseEquals h (.array 0) (.array 1) = .ok false ∧
      looseEquals h .undefined .null = .ok true ∧ looseEquals h .undefined (.number 0) = .ok false := by
  have joined : looseEquals ⟨#[[.array 0, .number 1]], #[], 1000⟩ (.array 0) (.text ",1") = .ok true := by rfl
  intro h
  have sides := (loose_equality_symmetric_or_fails h (.array 0) (.text ",1")).2.2.1
  have self := (loose_equality_symmetric_or_fails h (.array 0) (.array 0)).2.2.2.1 (by decide)
  have other := (loose_equality_symmetric_or_fails h (.array 0) (.array 1)).2.2.2.2.1 rfl
  have nullish (v : Value) := (loose_equality_symmetric_or_fails h .undefined v).2.2.2.2.2 (.inr rfl)
  exact ⟨joined, sides.symm.trans joined, self, other, nullish .null, nullish (.number 0)⟩

/-- With 1000 frames, the comparison of a text with 334 arrays inside each other comes to no answer and to no
failure. -/
theorem tower_compared_with_text :
    looseEquals (tower 334 1000) (.array 333) (.text "") = .error .exhausted ∧
      looseEquals (tower 334 1000) (.text "") (.array 333) = .error .exhausted := by
  have compared := looseEquals_tower (show 333 < 334 by decide) (by decide) (show 1000 / 3 ≤ 333 by decide) ""
  exact ⟨compared, (looseEquals_comm _ _ _).trans compared⟩

end ScriptTrace
