import ScriptTrace.Script.Read
/-!
# Reading level by level

The readers go down a tree one level at a time and are closed at its height. Levels that are not there make no
difference: a node is read from what its parts are read as, each by itself.

* `Expr.ofTree_eq`, `Target.ofTree_eq`: reading is one step of the readers, given itself.
-/
namespace ScriptTrace

namespace Tree

variable {t c : Tree}

theorem height_pos (t : Tree) : 0 < t.height := by
  cases t with
  | node info cs => exact Nat.succ_pos _

theorem height_le_heights {cs : List Tree} (h : c ∈ cs) : c.height ≤ heights cs := by
  induction cs with
  | nil => cases h
  | cons d rest ih =>
    rw [heights]
    rcases List.mem_cons.1 h with rfl | h
    · exact Nat.le_max_left _ _
    · exact Nat.le_trans (ih h) (Nat.le_max_right _ _)

theorem height_child (h : c ∈ t.children) : c.height < t.height := by
  cases t with
  | node info cs =>
    rw [height]
    exact Nat.lt_succ_of_le (height_le_heights h)

theorem height_field {name : String} (h : t.field? name = some c) : c.height < t.height :=
  height_child (mem_of_field h)

theorem height_part (h : c ∈ t.parts) : c.height < t.height :=
  height_child (mem_of_parts h)

end Tree

open ScriptTrace.Tree

/-! ## Readers that agree on smaller nodes -/

section Agree

variable {src : Source} {t : Tree} {n : Nat}

/-- Whether two readers read the nodes below a height alike. -/
def AgreeBelow {α : Type} (n : Nat) (read read' : Tree → α) : Prop :=
  ∀ c : Tree, c.height < n → read c = read' c

variable {expr expr' : Tree → Expr} (he : AgreeBelow n expr expr')

include he

theorem ofPart_congr {part : Option Tree} (h : ∀ c ∈ part, c.height < n) :
    Expr.ofPart expr part = Expr.ofPart expr' part := by
  cases part with
  | none => rfl
  | some c => exact he c (h c rfl)

theorem ofField_congr (h : t.height ≤ n) (name : String) :
    Expr.ofPart expr (t.field? name) = Expr.ofPart expr' (t.field? name) :=
  ofPart_congr he fun _ hc => Nat.lt_of_lt_of_le (height_field hc) h

theorem ofHead_congr (h : t.height ≤ n) : Expr.ofPart expr t.parts.head? = Expr.ofPart expr' t.parts.head? :=
  ofPart_congr he fun _ hc => Nat.lt_of_lt_of_le (height_part (List.mem_of_head? hc)) h

theorem ofParts_congr (h : t.height ≤ n) : t.parts.map expr = t.parts.map expr' :=
  List.map_congr_left fun _ hc => he _ (Nat.lt_of_lt_of_le (height_part hc) h)

theorem keyField_congr (h : t.height ≤ n) (name : String) :
    Key.readField src expr t name = Key.readField src expr' t name := by
  unfold Key.readField
  split
  · rename_i k hk
    unfold Key.read
    rw [ofHead_congr he (Nat.le_trans (Nat.le_of_lt (height_field hk)) h)]
  · rfl

theorem member_congr (h : t.height ≤ n) : Member.read src expr t = Member.read src expr' t := by
  unfold Member.read
  rw [keyField_congr he h, ofField_congr he h, keyField_congr he h]

theorem access_congr (h : t.height ≤ n) : readAccess src expr t = readAccess src expr' t := by
  unfold readAccess
  rw [ofField_congr he h, ofField_congr he h]

end Agree

section Agree

variable {src : Source} {t : Tree} {sub sub' : Readers} (he : AgreeBelow t.height sub.expr sub'.expr)
  (ht : AgreeBelow t.height sub.target sub'.target)

include he ht

theorem exprNode_congr : Expr.readNode src sub t = Expr.readNode src sub' t := by
  have below {c : Tree} (hc : c ∈ t.children) : c.height ≤ t.height := Nat.le_of_lt (height_child hc)
  have part (name : String) := ofField_congr he (Nat.le_refl _) name
  have last : Expr.ofPart sub.expr t.parts.getLast? = Expr.ofPart sub'.expr t.parts.getLast? :=
    ofPart_congr he fun _ hc => height_part (List.mem_of_getLast? hc)
  have target (name : String) : Target.readField sub t name = Target.readField sub' t name := by
    unfold Target.readField
    cases hc : t.field? name with
    | none => rfl
    | some c => exact ht c (height_field hc)
  have holes :
      ((t.children.filter (·.kind == "template_substitution")).map fun c => Expr.ofPart sub.expr c.parts.head?) =
      (t.children.filter (·.kind == "template_substitution")).map fun c => Expr.ofPart sub'.expr c.parts.head? :=
    List.map_congr_left fun c hc => ofHead_congr he (below (List.mem_filter.1 hc).1)
  have members : t.parts.map (Member.read src sub.expr) = t.parts.map (Member.read src sub'.expr) :=
    List.map_congr_left fun c hc => member_congr he (below (mem_of_parts hc))
  have arguments : ((t.field? "arguments").elim [] fun a => a.parts.map sub.expr) =
      (t.field? "arguments").elim [] fun a => a.parts.map sub'.expr := by
    cases ha : t.field? "arguments" with
    | none => rfl
    | some a => exact ofParts_congr he (below (mem_of_field ha))
  simp only [Expr.readNode, part, last, target, holes, members, arguments, ofHead_congr he (Nat.le_refl _),
    ofParts_congr he (Nat.le_refl _), access_congr he (Nat.le_refl _)]

theorem target_congr : Target.read src sub t = Target.read src sub' t := by
  have access : readAccess src sub.expr t = readAccess src sub'.expr t := access_congr he (Nat.le_refl _)
  have node : Expr.readNode src sub t = Expr.readNode src sub' t := exprNode_congr he ht
  cases hc : t.parts.head? with
  | none => simp only [Target.read, access, node, hc]
  | some c => simp only [Target.read, access, node, hc, ht c (height_part (List.mem_of_head? hc))]

end Agree

/-! ## Levels -/

variable (src : Source)

/-- Readers that go down far enough read alike. -/
theorem upTo_congr (t : Tree) {n m : Nat} (hn : t.height ≤ n) (hm : t.height ≤ m) :
    (Readers.upTo src n).expr t = (Readers.upTo src m).expr t ∧
      (Readers.upTo src n).target t = (Readers.upTo src m).target t := by
  induction n generalizing m t with
  | zero => exact absurd t.height_pos (by omega)
  | succ n ih =>
    cases m with
    | zero => exact absurd t.height_pos (by omega)
    | succ m =>
      have he : AgreeBelow t.height (Readers.upTo src n).expr (Readers.upTo src m).expr :=
        fun c hc => (ih c (by omega) (by omega)).1
      have ht : AgreeBelow t.height (Readers.upTo src n).target (Readers.upTo src m).target :=
        fun c hc => (ih c (by omega) (by omega)).2
      exact ⟨exprNode_congr he ht, target_congr he ht⟩

/-- The readers of whole trees. -/
def Readers.whole : Readers :=
  ⟨Expr.ofTree src, Target.ofTree src⟩

theorem ofTree_step (t : Tree) : Expr.ofTree src t = Expr.readNode src (.whole src) t ∧
    Target.ofTree src t = Target.read src (.whole src) t := by
  obtain ⟨n, hn⟩ := Nat.exists_eq_succ_of_ne_zero (Nat.ne_of_gt t.height_pos)
  have he : AgreeBelow t.height (Readers.upTo src n).expr (Expr.ofTree src) :=
    fun c hc => (upTo_congr src c (by omega) (Nat.le_refl _)).1
  have ht : AgreeBelow t.height (Readers.upTo src n).target (Target.ofTree src) :=
    fun c hc => (upTo_congr src c (by omega) (Nat.le_refl _)).2
  rw [Expr.ofTree, Target.ofTree, hn]
  exact ⟨exprNode_congr he ht, target_congr he ht⟩

theorem Expr.ofTree_eq (t : Tree) : Expr.ofTree src t = Expr.readNode src (.whole src) t :=
  (ofTree_step src t).1

theorem Target.ofTree_eq (t : Tree) : Target.ofTree src t = Target.read src (.whole src) t :=
  (ofTree_step src t).2

end ScriptTrace
