import ScriptTrace.Proofs.Sites
/-!
# Inert expressions

Four kinds of expressions do something: calls, the two kinds of assignments, and updates. A node is **inert** if there
is none of them at or below it, where the bodies of functions do not count: a function expression is a value, and its
body is not run where it stands. An expression is inert if none of the four is a part of it.

* `ofTree_inert`: what is read from an inert node is inert.
-/
namespace ScriptTrace

/-! ## Inert nodes -/

namespace Tree

/-- Kinds of expressions that do something. -/
def effectKinds : List String :=
  ["call_expression", "assignment_expression", "augmented_assignment_expression", "update_expression"]

mutual

/-- Whether there is no call, assignment or update at or below a node, the bodies of functions aside. -/
def isInert : Tree → Bool
  | .node i cs => !effectKinds.contains i.kind && areInert (routineKinds.contains i.kind) cs

/-- Whether there is none in the children of a node; `hasBody` says that one of them may be the body of a function. -/
def areInert (hasBody : Bool) : List Tree → Bool
  | [] => true
  | c :: rest => (hasBody && c.info.field == some "body" || c.isInert) && areInert hasBody rest

end

variable {t c : Tree} {name : String}

theorem areInert_mem {hasBody : Bool} {cs : List Tree} (h : areInert hasBody cs = true) (hc : c ∈ cs) :
    (hasBody && c.info.field == some "body" || c.isInert) = true := by
  induction cs with
  | nil => cases hc
  | cons d rest ih =>
    rw [areInert, Bool.and_eq_true] at h
    rcases List.mem_cons.1 hc with rfl | hc
    · exact h.1
    · exact ih h.2 hc

theorem isInert_iff : t.isInert = true ↔
    t.kind ∉ effectKinds ∧ areInert (routineKinds.contains t.kind) t.children = true := by
  cases t with
  | node i cs => simp [isInert, kind, info, children]

theorem isInert_field (h : t.isInert = true) (other : name ≠ "body") (hc : t.field? name = some c) :
    c.isInert = true := by
  have inert := areInert_mem (isInert_iff.1 h).2 (mem_of_field hc)
  simpa [field_of_field hc, other] using inert

theorem isInert_child (h : t.isInert = true) (plain : t.kind ∉ routineKinds) (hc : c ∈ t.children) :
    c.isInert = true := by
  have inert := areInert_mem (isInert_iff.1 h).2 hc
  simpa [plain] using inert

end Tree

/-! ## Inert expressions -/

mutual

/-- Whether no part of an expression is a call, an assignment or an update. -/
def Expr.Inert : Expr → Prop
  | .template _ holes => Expr.InertAll holes
  | .unary _ _ operand => operand.Inert
  | .binary _ _ left right => left.Inert ∧ right.Inert
  | .conditional test yes no => test.Inert ∧ yes.Inert ∧ no.Inert
  | .array items | .sequence items => Expr.InertAll items
  | .object members => Member.InertAll members
  | .property _ holder key => holder.Inert ∧ key.Inert
  | .update .. | .assign .. | .augment .. | .call .. => False
  | .name .. | .number _ | .string _ | .bool _ | .null | .undefined | .spread | .function _ | .unsupported .. => True

def Expr.InertAll : List Expr → Prop
  | [] => True
  | e :: rest => e.Inert ∧ Expr.InertAll rest

def Key.Inert : Key → Prop
  | .computed e => e.Inert
  | .fixed _ | .string _ | .number _ => True

def Member.Inert : Member → Prop
  | .pair key value => key.Inert ∧ value.Inert
  | .method key => key.Inert
  | .shorthand .. | .unsupported .. => True

def Member.InertAll : List Member → Prop
  | [] => True
  | m :: rest => m.Inert ∧ Member.InertAll rest

end

theorem inertAll_iff {es : List Expr} : Expr.InertAll es ↔ ∀ e ∈ es, e.Inert := by
  induction es with
  | nil => exact ⟨fun _ => List.forall_mem_nil _, fun _ => trivial⟩
  | cons e rest ih => rw [Expr.InertAll, ih, List.forall_mem_cons]

theorem members_inertAll_iff {ms : List Member} : Member.InertAll ms ↔ ∀ m ∈ ms, m.Inert := by
  induction ms with
  | nil => exact ⟨fun _ => List.forall_mem_nil _, fun _ => trivial⟩
  | cons m rest ih => rw [Member.InertAll, ih, List.forall_mem_cons]

/-! ## Reading -/

open ScriptTrace.Tree

section Parts

variable {src : Source} {expr : Tree → Expr} (he : ∀ c, c.isInert = true → (expr c).Inert) {t : Tree}

include he

theorem ofPart_inert {part : Option Tree} (h : ∀ c ∈ part, c.isInert = true) : (Expr.ofPart expr part).Inert := by
  cases part with
  | none => trivial
  | some c => exact he c (h c rfl)

theorem fieldPart_inert (h : t.isInert = true) {name : String} (other : name ≠ "body") :
    (Expr.ofPart expr (t.field? name)).Inert :=
  ofPart_inert he fun _ hc => isInert_field h other hc

theorem firstPart_inert (h : t.isInert = true) (plain : t.kind ∉ routineKinds) :
    (Expr.ofPart expr t.parts.head?).Inert :=
  ofPart_inert he fun _ hc => isInert_child h plain (mem_of_parts (List.mem_of_head? hc))

theorem parts_inert (h : t.isInert = true) (plain : t.kind ∉ routineKinds) : Expr.InertAll (t.parts.map expr) :=
  inertAll_iff.2 (List.forall_mem_map.2 fun c hc => he c (isInert_child h plain (mem_of_parts hc)))

theorem key_inert (h : t.isInert = true) : (Key.read src expr t).Inert := by
  unfold Key.read
  split
  · trivial
  · trivial
  · rename_i kind
    exact firstPart_inert he h (by rw [kind]; decide)
  · trivial

theorem keyField_inert (h : t.isInert = true) {name : String} (other : name ≠ "body") :
    (Key.readField src expr t name).Inert := by
  unfold Key.readField
  split
  · rename_i hc
    exact key_inert he (isInert_field h other hc)
  · trivial

theorem member_inert (h : t.isInert = true) : (Member.read src expr t).Inert := by
  unfold Member.read
  split
  · exact ⟨keyField_inert he h (by decide), fieldPart_inert he h (by decide)⟩
  · trivial
  · exact keyField_inert he h (by decide)
  · trivial

theorem access_inert (h : t.isInert = true) :
    (readAccess src expr t).1.Inert ∧ (readAccess src expr t).2.Inert := by
  have holder : (Expr.ofPart expr (t.field? "object")).Inert := fieldPart_inert he h (by decide)
  unfold readAccess
  split
  · exact ⟨holder, trivial⟩
  · exact ⟨holder, fieldPart_inert he h (by decide)⟩

theorem holes_inert (h : t.isInert = true) (plain : t.kind ∉ routineKinds) :
    Expr.InertAll ((t.children.filter (·.kind == "template_substitution")).map fun c =>
      Expr.ofPart expr c.parts.head?) := by
  refine inertAll_iff.2 (List.forall_mem_map.2 fun c hc => ?_)
  obtain ⟨child, kind⟩ := List.mem_filter.1 hc
  exact firstPart_inert he (isInert_child h plain child) (by rw [eq_of_beq kind]; decide)

theorem members_inert (h : t.isInert = true) (plain : t.kind ∉ routineKinds) :
    Member.InertAll (t.parts.map (Member.read src expr)) :=
  members_inertAll_iff.2 (List.forall_mem_map.2 fun _ hc =>
    member_inert he (isInert_child h plain (mem_of_parts hc)))

end Parts

theorem wrapper_not_routine : ∀ kind ∈ wrapperKinds, kind ∉ routineKinds := by
  decide

theorem readNode_inert {src : Source} {sub : Readers} {t : Tree} (he : ∀ c, c.isInert = true → (sub.expr c).Inert)
    (h : t.isInert = true) : (Expr.readNode src sub t).Inert := by
  have idle := (isInert_iff.1 h).1
  unfold Expr.readNode
  split <;> rename_i kind
  · trivial
  · trivial
  · trivial
  · exact holes_inert he h (by rw [kind]; decide)
  · trivial
  · trivial
  · trivial
  · trivial
  · exact ofPart_inert he fun _ hc => isInert_child h (by rw [kind]; decide) (mem_of_parts (List.mem_of_getLast? hc))
  · exact fieldPart_inert he h (by decide)
  · exact ⟨fieldPart_inert he h (by decide), fieldPart_inert he h (by decide)⟩
  · exact ⟨fieldPart_inert he h (by decide), fieldPart_inert he h (by decide), fieldPart_inert he h (by decide)⟩
  · exact absurd (by rw [kind]; decide) idle
  · exact absurd (by rw [kind]; decide) idle
  · exact absurd (by rw [kind]; decide) idle
  · exact parts_inert he h (by rw [kind]; decide)
  · exact members_inert he h (by rw [kind]; decide)
  · exact access_inert he h
  · exact access_inert he h
  · exact absurd (by rw [kind]; decide) idle
  · exact parts_inert he h (by rw [kind]; decide)
  · trivial
  · split
    · rename_i wrapper
      exact firstPart_inert he h (wrapper_not_routine _ (List.contains_iff_mem.1 wrapper))
    · split <;> trivial

theorem upTo_inert (src : Source) : ∀ (n : Nat) (t : Tree), t.isInert = true → ((Readers.upTo src n).expr t).Inert
  | 0, _, _ => trivial
  | n + 1, _, h => readNode_inert (upTo_inert src n) h

theorem ofTree_inert (src : Source) {t : Tree} (h : t.isInert = true) : (Expr.ofTree src t).Inert :=
  upTo_inert src t.height t h

end ScriptTrace
