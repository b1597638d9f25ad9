import ScriptTrace.Proofs.Heights
import ScriptTrace.Proofs.Logs
/-!
# Compound assignments

A compound assignment `t op= e` looks its target up once and writes to the place it has found. The long forms,
`t = t op e` and, for the operators that may leave `e` alone, `t op (t = e)`, look the target up twice. If the target is
a name, or a property of a name under a constant key, the second look finds the place of the first, since nothing that
is evaluated between the two binds a name. It may only add to the log, and no run reads the log; so whatever `e` does,
the short and the long form end alike.

* `place_again`: a plain target has one place, as long as no name is bound.
* `augment_strict`, `augment_logical`: the two forms as expressions.
* `compound_assignment_desugars`: the two forms as nodes of a tree.
-/
namespace ScriptTrace

open Act Op Run

/-! ## States that know the same names -/

/-- Whether two states bind the same names to the same values and functions. -/
structure State.SameNames (s s' : State) : Prop where
  env : s'.env = s.env
  functions : s'.functions = s.functions

instance : Std.Refl State.SameNames where
  refl _ := ⟨rfl, rfl⟩

instance : Trans State.SameNames State.SameNames State.SameNames where
  trans hab hbc := ⟨hbc.env.trans hab.env, hbc.functions.trans hab.functions⟩

theorem State.SameButLogs.names {s s' : State} (h : s.SameButLogs s') : s.SameNames s' := by
  obtain ⟨logs, rfl⟩ := h
  exact ⟨rfl, rfl⟩

theorem Op.Adds.names_asRun {α : Type} {x : Op α} (h : x.Adds) : x.asRun.Moves State.SameNames :=
  fun s => ⟨(h s.toMemory).env, (h s.toMemory).functions⟩

/-- What a name stands for. -/
def Memory.valueOf (m : Memory) (x : Text) : Value :=
  match m.env.lookup? x with
  | some v => v
  | none =>
    if m.functions.contains x then .function x
    else if x = "undefined" then .undefined
    else if x = "NaN" then .number .nan
    else if x = "Infinity" then .number (.infinity false)
    else .undefined

theorem exec_lookupName (line : Nat) (x : Text) (m : Memory) :
    ∃ logs, (lookupName line x).exec m = (.ok (m.valueOf x), { m with logs := logs }) := by
  rw [Op.lookupName, exec_bind_ok exec_get, Memory.valueOf]
  cases m.env.lookup? x with
  | some v => exact ⟨m.logs, rfl⟩
  | none =>
    dsimp only
    split
    · exact ⟨m.logs, rfl⟩
    · split
      · exact ⟨m.logs, rfl⟩
      · split
        · exact ⟨m.logs, rfl⟩
        · split
          · exact ⟨m.logs, rfl⟩
          · exact ⟨_, rfl⟩

/-- Looking a name up finds the same value as long as no name is bound, and changes nothing but the log. -/
theorem lookupName_again (line : Nat) (x : Text) (s : State) :
    ∃ v, ∀ t, s.SameNames t → ∃ u, (lookupName line x).asRun.exec t = (.ok v, u) ∧ t.SameButLogs u := by
  refine ⟨s.valueOf x, fun t same => ?_⟩
  obtain ⟨logs, found⟩ := exec_lookupName line x t.toMemory
  have value : t.valueOf x = s.valueOf x := by
    rw [Memory.valueOf, same.env, same.functions, Memory.valueOf]
  rw [value] at found
  exact ⟨_, exec_asRun found, logs, rfl⟩

/-! ## Results -/

/-- Whether two runs have ended alike, in states that differ in their logs only. -/
def EndedAlike {α : Type} (r r' : Except Fault α × State) : Prop :=
  r'.1 = r.1 ∧ r.2.SameButLogs r'.2

theorem EndedAlike.refl {α : Type} (r : Except Fault α × State) : EndedAlike r r :=
  ⟨rfl, r.2.logs, rfl⟩

/-- Runs that begin with the same act, which binds no name, and go on alike. -/
theorem EndedAlike.bind {α β : Type} {x : Run α} {f f' : α → Run β} {s : State} (hx : x.Moves State.SameNames)
    (hf : ∀ a t, s.SameNames t → EndedAlike ((f a).exec t) ((f' a).exec t)) :
    EndedAlike ((x >>= f).exec s) ((x >>= f').exec s) := by
  have names := hx s
  rcases he : x.exec s with ⟨fault | a, t⟩ <;> rw [he] at names
  · rw [exec_bind_error he, exec_bind_error he]
    exact .refl _
  · rw [exec_bind_ok he, exec_bind_ok he]
    exact hf a t names

/-! ## Plain targets -/

/-- The value of a key that is written out. -/
def Key.constant? : Key → Option Value
  | .fixed name => some (.text name)
  | .computed (.number literal) => some (.number (Numeral.literal literal))
  | .computed (.string raw) => some (.text raw.unescape)
  | _ => none

theorem Key.eval_of_constant {k : Key} {v : Value} (h : k.constant? = some v) (ctx : Context) :
    k.eval ctx = pure v := by
  unfold Key.constant? at h
  split at h <;> cases h
  · simp only [Key.eval]
  · simp only [Key.eval, Expr.eval]
  · simp only [Key.eval, Expr.eval]

/-- A name, or a property of a name under a constant key: as a target and as an expression. -/
inductive PlainTarget : Target → Expr → Prop
  | name (line : Nat) (x : Text) : PlainTarget (.name line x) (.name line x)
  | property (line holderLine : Nat) (x : Text) (key : Key) (k : Value) : key.constant? = some k →
      PlainTarget (.property line (.name holderLine x) key) (.property line (.name holderLine x) key)

namespace PlainTarget

variable {t : Target} {e : Expr} (h : PlainTarget t e) (ctx : Context)

include h

/-- A plain target is found in the same place as long as no name is bound, and the look for it changes nothing but the
log. -/
theorem place_again (s : State) :
    ∃ p, ∀ u, s.SameNames u → ∃ w, (t.place ctx).exec u = (.ok p, w) ∧ u.SameButLogs w := by
  cases h with
  | name line x => exact ⟨.name line x, fun u _ => ⟨u, rfl, u.logs, rfl⟩⟩
  | property line holderLine x key k constant =>
    obtain ⟨v, found⟩ := lookupName_again holderLine x s
    refine ⟨.slot line v k, fun u same => ?_⟩
    obtain ⟨w, looked, quiet⟩ := found u same
    simp only [Target.place, Expr.eval, Key.eval_of_constant constant]
    exact ⟨w, (exec_bind_ok looked).trans rfl, quiet⟩

/-- The value of a plain target is read in its place. -/
theorem exec_eval_bind {α : Type} (next : Value → Run α) (s : State) :
    (e.eval ctx >>= next).exec s = (t.place ctx >>= fun p => t.current ctx p >>= next).exec s := by
  have read : (e.eval ctx).exec s = (t.place ctx >>= fun p => t.current ctx p).exec s := by
    cases h with
    | name line x => rfl
    | property line holderLine x key k constant =>
      obtain ⟨v, found⟩ := lookupName_again holderLine x s
      obtain ⟨u, looked, -⟩ := found s (Std.Refl.refl s)
      simp only [Expr.eval, Target.place, Key.eval_of_constant constant]
      rw [exec_bind_assoc]
      refine (exec_bind_ok looked).trans (Eq.trans ?_ (exec_bind_ok looked).symm)
      simp only [exec_bind, exec_pure, Target.current]
  rw [exec_bind, read, ← exec_bind, exec_bind_assoc]

theorem current_names (p : Place) : (t.current ctx p).Moves State.SameNames := by
  cases h with
  | name | property =>
    cases p with
    | name line x => exact (Op.Adds.lookupName _ _).names_asRun
    | slot line holder key => exact (Op.Adds.readProperty _ _ _ _).names_asRun
    | nowhere line kind => exact .pure _

end PlainTarget

/-! ## The short form and the long forms -/

section Forms

variable {cfg : Config} {src : Source} {n : Nat} {t : Target} {read : Expr} (plain : PlainTarget t read) (e : Expr)
  (s : State)

include plain

/-- The long form looks for the target once more before it reads it. -/
theorem augment_strict (line line' : Nat) (op : BinaryOp) :
    let ctx := Context.within cfg src .idle n
    EndedAlike (((Expr.augment line t (.strict op) e).eval ctx).exec s)
      (((Expr.assign t (.binary line' (.strict op) read e)).eval ctx).exec s) := by
  intro ctx
  have blind : (lockstep State.SameButLogs).Evaluates ctx ctx := ((log_congruence cfg src).within n).toEvaluates
  obtain ⟨p, placed⟩ := plain.place_again ctx s
  obtain ⟨u, first, quiet⟩ := placed s (Std.Refl.refl s)
  obtain ⟨w, second, quiet'⟩ := placed u quiet.names
  simp only [Expr.eval]
  rw [exec_bind_ok first, exec_bind_ok first, exec_bind_assoc, plain.exec_eval_bind, exec_bind_ok second]
  -- From here on both forms do the same, with other brackets around it.
  have rest : (lockstep State.SameButLogs).rel
      (t.current ctx p >>= fun current => e.eval ctx >>= fun r =>
        (applyBinary ctx.strangers op current r).asRun >>= fun v => (p.write ctx.strangers v).asRun)
      (t.current ctx p >>= fun current => (e.eval ctx >>= fun r =>
        (applyBinary ctx.strangers op current r).asRun) >>= fun v => (p.write ctx.strangers v).asRun) := by
    refine Coupling.bind _ (blind.current t p) fun current s s' related => ?_
    rw [exec_bind_assoc]
    refine Coupling.bind _ (blind.eval e) (fun r => ?_) s s' related
    exact Coupling.bind _ (blind.op (.applyBinary ..)) fun v => blind.op (.write ..)
  exact rest u w quiet'

/-- The long form looks for the target once more before it writes to it. -/
theorem augment_logical (line line' : Nat) (op : LogicalOp) :
    let ctx := Context.within cfg src .idle n
    EndedAlike (((Expr.augment line t (.logical op) e).eval ctx).exec s)
      (((Expr.binary line' (.logical op) read (.assign t e)).eval ctx).exec s) := by
  intro ctx
  have blind : (lockstep State.SameButLogs).Evaluates ctx ctx := ((log_congruence cfg src).within n).toEvaluates
  obtain ⟨p, placed⟩ := plain.place_again ctx s
  obtain ⟨u, first, quiet⟩ := placed s (Std.Refl.refl s)
  simp only [Expr.eval]
  rw [plain.exec_eval_bind, exec_bind_ok first, exec_bind_ok first]
  refine .bind (plain.current_names ctx p) fun current v afterRead => ?_
  refine .bind (Op.Adds.tested _ _).names_asRun fun test w afterTest => ?_
  split
  · exact .refl _
  · obtain ⟨w', second, quiet'⟩ := placed w (Trans.trans quiet.names (Trans.trans afterRead afterTest))
    rw [exec_bind_ok second]
    exact Coupling.bind _ (blind.eval e) (fun r => blind.op (.write ..)) w w' quiet'

end Forms

/-! ## Nodes -/

namespace Tree

/-- Whether a node is another one, in any number of parentheses. -/
inductive Encloses : Tree → Tree → Prop
  | self (t : Tree) : Encloses t t
  | parenthesized {t u v : Tree} : t.kind = "parenthesized_expression" → t.parts.head? = some u → Encloses u v →
      Encloses t v

/-- Whether a node of a kind joins two nodes by an operator. -/
structure Joins (src : Source) (kind : String) (op : Text) (left right t : Tree) : Prop where
  kind : t.kind = kind
  operator : t.fieldText src "operator" = op
  left : t.field? "left" = some left
  right : t.field? "right" = some right

/-- Whether a node assigns the value of a node to a target. -/
structure Assigns (left right t : Tree) : Prop where
  kind : t.kind = "assignment_expression"
  left : t.field? "left" = some left
  right : t.field? "right" = some right

/-- Whether a node is `t = t op e`. -/
def AssignsJoined (src : Source) (op : Text) (t e long : Tree) : Prop :=
  ∃ value joined operand, Assigns t value long ∧ value.Encloses joined ∧
    Joins src "binary_expression" op t operand joined ∧ operand.Encloses e

/-- Whether a node is `t op (t = e)`. -/
def JoinsAssigned (src : Source) (op : Text) (t e long : Tree) : Prop :=
  ∃ operand assigned value, Joins src "binary_expression" op t operand long ∧ operand.Encloses assigned ∧
    Assigns t value assigned ∧ value.Encloses e

/-- Names, and properties of names under a constant key. -/
inductive IsPlainTarget (t : Tree) : Prop
  | name : t.kind = "identifier" → IsPlainTarget t
  | member (holder : Tree) : t.kind = "member_expression" → t.field? "object" = some holder →
      holder.kind = "identifier" → IsPlainTarget t
  | subscript (holder index : Tree) : t.kind = "subscript_expression" → t.field? "object" = some holder →
      holder.kind = "identifier" → t.field? "index" = some index → index.kind = "number" ∨ index.kind = "string" →
      IsPlainTarget t

variable {src : Source} {t e u : Tree} {op : Text}

theorem ofTree_identifier (h : t.kind = "identifier") : Expr.ofTree src t = .name (t.line src) (t.text src) := by
  rw [Expr.ofTree_eq]
  simp only [Expr.readNode, h]

theorem IsPlainTarget.plain (h : t.IsPlainTarget) : PlainTarget (Target.ofTree src t) (Expr.ofTree src t) := by
  rw [Expr.ofTree_eq, Target.ofTree_eq]
  cases h with
  | name kind =>
    simp only [Expr.readNode, Target.read, kind]
    exact .name _ _
  | member holder kind object name =>
    simp only [Expr.readNode, Target.read, kind, readAccess, object, Expr.ofPart, Readers.whole, ofTree_identifier name]
    exact .property _ _ _ _ _ rfl
  | subscript holder index kind object name indexed literal =>
    have key : ∃ v, (Key.computed (Expr.ofTree src index)).constant? = some v := by
      rw [Expr.ofTree_eq]
      rcases literal with literal | literal
      · simp only [Expr.readNode, literal]
        exact ⟨_, rfl⟩
      · simp only [Expr.readNode, literal]
        exact ⟨_, rfl⟩
    obtain ⟨v, key⟩ := key
    simp only [Expr.readNode, Target.read, kind, readAccess, object, indexed, Expr.ofPart, Readers.whole,
      ofTree_identifier name]
    exact .property _ _ _ _ v key

theorem Encloses.ofTree_eq (h : t.Encloses u) : Expr.ofTree src t = Expr.ofTree src u := by
  induction h with
  | self t => rfl
  | parenthesized kind inner _ ih =>
    rw [← ih, Expr.ofTree_eq]
    simp only [Expr.readNode, kind, inner]
    rfl

theorem Joins.ofTree_binary (h : Joins src "binary_expression" op t e u) :
    Expr.ofTree src u = .binary (u.line src) (Operator.ofText op) (Expr.ofTree src t) (Expr.ofTree src e) := by
  rw [Expr.ofTree_eq]
  simp only [Expr.readNode, h.kind, h.operator, h.left, h.right]
  rfl

theorem Joins.ofTree_augment (h : Joins src "augmented_assignment_expression" (op ++ "=") t e u) :
    Expr.ofTree src u = .augment (u.line src) (Target.ofTree src t) (Operator.ofText op) (Expr.ofTree src e) := by
  have spelling : (op ++ "=" : Text).codes.dropLast = op.codes := List.dropLast_concat
  rw [Expr.ofTree_eq]
  simp only [Expr.readNode, h.kind, h.operator, h.right, Target.readField, h.left, spelling]
  rfl

theorem Assigns.ofTree_assign (h : Assigns t e u) :
    Expr.ofTree src u = .assign (Target.ofTree src t) (Expr.ofTree src e) := by
  rw [Expr.ofTree_eq]
  simp only [Expr.readNode, h.kind, h.right, Target.readField, h.left]
  rfl

theorem AssignsJoined.ofTree_eq {long : Tree} (h : AssignsJoined src op t e long) : ∃ line, Expr.ofTree src long =
    .assign (Target.ofTree src t) (.binary line (Operator.ofText op) (Expr.ofTree src t) (Expr.ofTree src e)) := by
  obtain ⟨value, joined, operand, assigns, encloses, joins, encloses'⟩ := h
  refine ⟨joined.line src, ?_⟩
  rw [assigns.ofTree_assign, encloses.ofTree_eq, joins.ofTree_binary, encloses'.ofTree_eq]

theorem JoinsAssigned.ofTree_eq {long : Tree} (h : JoinsAssigned src op t e long) : ∃ line, Expr.ofTree src long =
    .binary line (Operator.ofText op) (Expr.ofTree src t) (.assign (Target.ofTree src t) (Expr.ofTree src e)) := by
  obtain ⟨operand, assigned, value, joins, encloses, assigns, encloses'⟩ := h
  refine ⟨long.line src, ?_⟩
  rw [joins.ofTree_binary, encloses.ofTree_eq, assigns.ofTree_assign, encloses'.ofTree_eq]

end Tree

theorem Operator.ofText_strict {op : Text} {b : BinaryOp} (h : BinaryOp.ofText? op = some b) :
    Operator.ofText op = .strict b := by
  have ne {spelling : Text} (none : BinaryOp.ofText? spelling = none) : op ≠ spelling := by
    rintro rfl
    rw [none] at h
    cases h
  rw [Operator.ofText, if_neg (ne (by decide)), if_neg (ne (by decide)), if_neg (ne (by decide)), h]

/-- The operators that may leave their right operand alone, as they are written. -/
def LogicalOp.spellings : List Text := ["&&", "||", "??"]

theorem Operator.ofText_logical {op : Text} (h : op ∈ LogicalOp.spellings) :
    ∃ b, Operator.ofText op = .logical b := by
  simp only [LogicalOp.spellings, List.mem_cons, List.not_mem_nil, or_false] at h
  rcases h with rfl | rfl | rfl
  · exact ⟨.and, rfl⟩
  · exact ⟨.or, rfl⟩
  · exact ⟨.coalesce, rfl⟩

/-- A compound assignment to a plain target ends as its long form does, and leaves the same state except for the log:
`t op= e` as `t = t op e`, and as `t op (t = e)` for the operators that may leave `e` alone. -/
theorem compound_assignment_desugars (cfg : Config) (src : Source) (n : Nat) (s : State) {t e short : Tree} {op : Text}
    (plain : t.IsPlainTarget) (compound : Tree.Joins src "augmented_assignment_expression" (op ++ "=") t e short) :
    let run (u : Tree) := ((Expr.ofTree src u).eval (.within cfg src .idle n)).exec s
    (∀ long, (BinaryOp.ofText? op).isSome → Tree.AssignsJoined src op t e long → EndedAlike (run short) (run long)) ∧
    (∀ long, op ∈ LogicalOp.spellings → Tree.JoinsAssigned src op t e long → EndedAlike (run short) (run long)) := by
  intro run
  refine ⟨fun long strict spelled => ?_, fun long lazy spelled => ?_⟩
  · obtain ⟨b, strict⟩ := Option.isSome_iff_exists.1 strict
    obtain ⟨line, spelled⟩ := spelled.ofTree_eq
    simp only [run, compound.ofTree_augment, spelled, Operator.ofText_strict strict]
    exact augment_strict plain.plain _ _ _ _ _
  · obtain ⟨b, lazy⟩ := Operator.ofText_logical lazy
    obtain ⟨line, spelled⟩ := spelled.ofTree_eq
    simp only [run, compound.ofTree_augment, spelled, lazy]
    exact augment_logical plain.plain _ _ _ _ _

/-- A compound assignment to a property, the right side of which detaches the holder. -/
def detachedSource (op : Text) : Source := ⟨Text.concat ["o.k", op, "=(o=null,1)"]⟩

def detachedNode (kind : String) (field : Option String) (start stop : Nat) (children : List Tree) : Tree :=
  .node ⟨true, false, false, false, kind, field, start, stop⟩ children

def detachedTarget : Tree :=
  detachedNode "member_expression" "left" 0 3 [
    detachedNode "identifier" "object" 0 1 [],
    detachedNode "property_identifier" "property" 2 3 []]

/-- The right side, after an operator of the given width. -/
def detachedValue (width : Nat) : Tree :=
  detachedNode "parenthesized_expression" "right" (width + 4) (width + 14) [
    detachedNode "sequence_expression" none (width + 5) (width + 13) [
      detachedNode "assignment_expression" none (width + 5) (width + 11) [
        detachedNode "identifier" "left" (width + 5) (width + 6) [],
        detachedNode "null" "right" (width + 7) (width + 11) []],
      detachedNode "number" none (width + 12) (width + 13) []]]

def detachedShort (width : Nat) : Tree :=
  detachedNode "augmented_assignment_expression" none 0 (width + 14) [
    detachedTarget, detachedNode "operator" "operator" 3 (width + 4) [], detachedValue width]

def detachedJoined (width : Nat) (right : Tree) : Tree :=
  detachedNode "binary_expression" "right" 0 (width + 14) [
    detachedTarget, detachedNode "operator" "operator" 3 (width + 3) [], right]

def detachedAssigned (width : Nat) (right : Tree) : Tree :=
  detachedNode "assignment_expression" none 0 (width + 14) [detachedTarget, right]

def detachedSum : Tree :=
  detachedAssigned 1 (detachedJoined 1 (detachedValue 1))

def detachedChoice : Tree :=
  detachedJoined 2 (detachedNode "parenthesized_expression" "right" 0 16 [detachedAssigned 2 (detachedValue 2)])

/-- `o.k += (o = null, 1)` and `o.k ||= (o = null, 1)` write to the object that `o` was bound to before, as their long
forms do. -/
theorem compound_assignment_desugars_detached :
    let s : State := { State.start (.ticking 0) with
      heap := ⟨#[], #[[(.text "k", .ofNat 0)]], 1000⟩, env := ⟨[("o", .object 0)], []⟩ }
    let run (op : Text) (u : Tree) :=
      ((Expr.ofTree (detachedSource op) u).eval (.top {} (detachedSource op))).exec s
    let sum := run "+" detachedSum
    let choice := run "||" detachedChoice
    EndedAlike (run "+" (detachedShort 1)) sum ∧ EndedAlike (run "||" (detachedShort 2)) choice ∧
      sum.1 = .ok (.ofNat 1) ∧ sum.2.env.lookup? "o" = some .null ∧ sum.2.heap.object 0 = [(.text "k", .ofNat 1)] ∧
      choice.1 = .ok (.ofNat 1) ∧ choice.2.heap.object 0 = [(.text "k", .ofNat 1)] := by
  intro s run sum choice
  have plain : detachedTarget.IsPlainTarget := .member _ rfl rfl rfl
  have added : Tree.Joins (detachedSource "+") "augmented_assignment_expression" ("+" ++ "=" : Text) detachedTarget
      (detachedValue 1) (detachedShort 1) := ⟨rfl, by decide +kernel, rfl, rfl⟩
  have chosen : Tree.Joins (detachedSource "||") "augmented_assignment_expression" ("||" ++ "=" : Text) detachedTarget
      (detachedValue 2) (detachedShort 2) := ⟨rfl, by decide +kernel, rfl, rfl⟩
  have sumForm : Tree.AssignsJoined (detachedSource "+") "+" detachedTarget (detachedValue 1) detachedSum :=
    ⟨_, _, _, ⟨rfl, rfl, rfl⟩, .self (detachedJoined 1 (detachedValue 1)), ⟨rfl, by decide +kernel, rfl, rfl⟩, .self _⟩
  have choiceForm : Tree.JoinsAssigned (detachedSource "||") "||" detachedTarget (detachedValue 2) detachedChoice :=
    ⟨_, _, _, ⟨rfl, by decide +kernel, rfl, rfl⟩, .parenthesized rfl rfl (.self (detachedAssigned 2 (detachedValue 2))),
      ⟨rfl, rfl, rfl⟩, .self _⟩
  refine ⟨?_, ?_, rfl, by decide +kernel, by decide +kernel, rfl, by decide +kernel⟩
  · exact (compound_assignment_desugars {} _ _ s plain added).1 detachedSum rfl sumForm
  · exact (compound_assignment_desugars {} _ _ s plain chosen).2 detachedChoice (by decide +kernel) choiceForm

end ScriptTrace
