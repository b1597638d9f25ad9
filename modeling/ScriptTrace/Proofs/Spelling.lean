import ScriptTrace.Script.Read
import ScriptTrace.Text.Escape
/-!
# What scripts spell

A script **spells** texts as string literals and as names of properties. `Expr.Spells P` asks a property of all texts
that an expression spells, and `Stmt.Each P` one of all expressions in a statement, with those of the functions that
it introduces.

A literal stands for no more code points than its raw text has, and raw texts are cut out of the source. So a script
that is read from a source spells no text that is longer than the source.

* `Text.length_unescape_le`: escapes do not make a text longer.
* `readers_spell`: what an expression spells that is read from a source.
* `readUpTo_each`: the expressions of a statement are missing parts, or read from nodes.
-/
namespace ScriptTrace

/-! ## Lengths -/

namespace Text

/-- An escape stands for no more than it takes, the backslash included. -/
theorem escape?_le {rest out : List Nat} {taken : Nat} (h : escape? rest = some (out, taken)) :
    out.length ≤ taken + 1 ∧ taken ≤ rest.length := by
  unfold escape? at h
  split at h
  · cases h
  · rename_i more
    cases hd : bracedDigits? more with
    | none =>
      simp only [hd, Option.some.injEq, Prod.mk.injEq] at h
      obtain ⟨rfl, rfl⟩ := h
      simp
    | some digits =>
      simp only [hd, Option.some.injEq, Prod.mk.injEq] at h
      obtain ⟨rfl, rfl⟩ := h
      have closed : digits.length + 1 ≤ more.length := by
        unfold bracedDigits? at hd
        dsimp only at hd
        split at hd
        · cases hd
        · split at hd <;> cases hd
          rename_i brace
          have := List.length_pos_of_mem (List.mem_of_head? brace)
          rw [List.length_drop] at this
          omega
      refine ⟨?_, by simp only [List.length_cons]; omega⟩
      split <;> simp
  · split at h <;> cases h <;> simp
  · split at h <;> cases h <;> simp
  · cases h
    simp
  · rename_i c more _ _ _ _
    cases h
    refine ⟨?_, by simp⟩
    unfold simpleEscape
    split <;> simp

theorem length_unescapeFrom_le (taken : Nat) (codes : List Nat) :
    (unescapeFrom taken codes).length ≤ codes.length - taken := by
  induction codes generalizing taken with
  | nil => simp [unescapeFrom]
  | cons c rest ih =>
    cases taken with
    | succ taken =>
      rw [unescapeFrom, List.length_cons, Nat.add_sub_add_right]
      exact ih taken
    | zero =>
      have plain := ih 0
      unfold unescapeFrom
      split
      · split
        · rename_i out taken he
          have bound := escape?_le he
          have left := ih taken
          simp only [List.length_append, List.length_cons]
          omega
        · simp only [List.length_cons]
          omega
      · simp only [List.length_cons]
        omega

theorem length_unescape_le (raw : Text) : raw.unescape.length ≤ raw.length :=
  length_unescapeFrom_le 0 raw.codes

end Text

namespace Source

theorem length_dropBytes_le (codes : List Nat) (n : Nat) : (dropBytes codes n).length ≤ codes.length := by
  induction codes generalizing n with
  | nil => exact Nat.le_refl 0
  | cons c rest ih =>
    unfold dropBytes
    split
    · exact Nat.le_refl _
    · exact Nat.le_succ_of_le (ih _)

theorem length_takeBytes_le (codes : List Nat) (n : Nat) : (takeBytes codes n).length ≤ codes.length := by
  induction codes generalizing n with
  | nil => exact Nat.le_refl 0
  | cons c rest ih =>
    unfold takeBytes
    split
    · exact Nat.zero_le _
    · exact Nat.succ_le_succ (ih _)

theorem length_slice_le (src : Source) (start stop : Nat) : (src.slice start stop).length ≤ src.text.length :=
  Nat.le_trans (length_takeBytes_le _ _) (length_dropBytes_le _ _)

end Source

/-! ## Expressions -/

mutual

/-- Whether the texts that an expression spells have a property. -/
def Expr.Spells (P : Text → Prop) : Expr → Prop
  | .string raw => P raw.unescape
  | .template _ holes => Expr.SpellsAll P holes
  | .unary _ _ operand => operand.Spells P
  | .binary _ _ left right => left.Spells P ∧ right.Spells P
  | .conditional test yes no => test.Spells P ∧ yes.Spells P ∧ no.Spells P
  | .update _ _ target => target.Spells P
  | .assign target right => target.Spells P ∧ right.Spells P
  | .augment _ target _ right => target.Spells P ∧ right.Spells P
  | .array items | .sequence items => Expr.SpellsAll P items
  | .object members => Member.SpellsAll P members
  | .property _ holder key => holder.Spells P ∧ key.Spells P
  | .call _ _ args => Expr.SpellsAll P args
  | .name .. | .number _ | .bool _ | .null | .undefined | .spread | .function _ | .unsupported .. => True

def Expr.SpellsAll (P : Text → Prop) : List Expr → Prop
  | [] => True
  | e :: rest => e.Spells P ∧ Expr.SpellsAll P rest

def Key.Spells (P : Text → Prop) : Key → Prop
  | .fixed name => P name
  | .string raw => P raw.unescape
  | .number _ => True
  | .computed e => e.Spells P

def Member.Spells (P : Text → Prop) : Member → Prop
  | .pair key value => key.Spells P ∧ value.Spells P
  | .method key => key.Spells P
  | .shorthand .. | .unsupported .. => True

def Member.SpellsAll (P : Text → Prop) : List Member → Prop
  | [] => True
  | m :: rest => m.Spells P ∧ Member.SpellsAll P rest

def Target.Spells (P : Text → Prop) : Target → Prop
  | .name .. => True
  | .property _ holder key => holder.Spells P ∧ key.Spells P
  | .invalid _ _ e => e.Spells P

end

section Expressions

variable {P : Text → Prop} {src : Source} {sub : Readers} {expr : Tree → Expr}

theorem spellsAll_iff {es : List Expr} : Expr.SpellsAll P es ↔ ∀ e ∈ es, e.Spells P := by
  induction es with
  | nil => exact ⟨fun _ => List.forall_mem_nil _, fun _ => trivial⟩
  | cons e rest ih => rw [Expr.SpellsAll, ih, List.forall_mem_cons]

theorem members_spellsAll_iff {ms : List Member} : Member.SpellsAll P ms ↔ ∀ m ∈ ms, m.Spells P := by
  induction ms with
  | nil => exact ⟨fun _ => List.forall_mem_nil _, fun _ => trivial⟩
  | cons m rest ih => rw [Member.SpellsAll, ih, List.forall_mem_cons]

theorem ofPart_spells (he : ∀ t, (expr t).Spells P) (part : Option Tree) : (Expr.ofPart expr part).Spells P := by
  cases part with
  | none => trivial
  | some t => exact he t

theorem parts_spell (he : ∀ t, (expr t).Spells P) (ts : List Tree) : Expr.SpellsAll P (ts.map expr) :=
  spellsAll_iff.2 (List.forall_mem_map.2 fun t _ => he t)

/-- Whether all texts that are no longer than a source have a property. -/
def Source.Covers (src : Source) (P : Text → Prop) : Prop :=
  ∀ t : Text, t.length ≤ src.text.length → P t

namespace Source.Covers

variable (h : src.Covers P)

include h

theorem text (t : Tree) : P (t.text src) :=
  h _ (src.length_slice_le _ _)

theorem empty : P .empty :=
  h _ (Nat.zero_le _)

/-- What stands between the quotes of a literal. -/
theorem unquoted (t : Tree) : P (Text.unescape ⟨(t.text src).codes.tail.dropLast⟩) := by
  refine h _ (Nat.le_trans (Text.length_unescape_le _) (Nat.le_trans ?_ (src.length_slice_le t.info.start t.info.stop)))
  show (t.text src).codes.tail.dropLast.length ≤ (t.text src).codes.length
  rw [List.length_dropLast, List.length_tail]
  omega

theorem key (he : ∀ t, (expr t).Spells P) (t : Tree) : (Key.read src expr t).Spells P := by
  unfold Key.read
  split
  · exact h.unquoted t
  · trivial
  · exact ofPart_spells he _
  · exact h.text t

theorem keyField (he : ∀ t, (expr t).Spells P) (t : Tree) (name : String) :
    (Key.readField src expr t name).Spells P := by
  unfold Key.readField
  split
  · exact h.key he _
  · exact h.empty

theorem member (he : ∀ t, (expr t).Spells P) (t : Tree) : (Member.read src expr t).Spells P := by
  unfold Member.read
  split
  · exact ⟨h.keyField he t _, ofPart_spells he _⟩
  · trivial
  · exact h.keyField he t _
  · trivial

theorem access (he : ∀ t, (expr t).Spells P) (t : Tree) :
    (readAccess src expr t).1.Spells P ∧ (readAccess src expr t).2.Spells P := by
  unfold readAccess
  split
  · refine ⟨ofPart_spells he _, ?_⟩
    show P (t.fieldText src "property")
    unfold Tree.fieldText
    cases t.field? "property" with
    | none => exact h.empty
    | some c => exact h.text c
  · exact ⟨ofPart_spells he _, ofPart_spells he _⟩

omit h in
theorem targetField (ht : ∀ t, (sub.target t).Spells P) (t : Tree) (name : String) :
    (Target.readField sub t name).Spells P := by
  unfold Target.readField
  cases t.field? name with
  | none => trivial
  | some c => exact ht c

theorem exprNode (he : ∀ t, (sub.expr t).Spells P) (ht : ∀ t, (sub.target t).Spells P) (t : Tree) :
    (Expr.readNode src sub t).Spells P := by
  have part (name : String) : (Expr.ofPart sub.expr (t.field? name)).Spells P := ofPart_spells he _
  unfold Expr.readNode
  split
  · trivial
  · trivial
  · exact h.unquoted t
  · exact spellsAll_iff.2 (List.forall_mem_map.2 fun c _ => ofPart_spells he _)
  · trivial
  · trivial
  · trivial
  · trivial
  · exact ofPart_spells he _
  · exact part _
  · exact ⟨part _, part _⟩
  · exact ⟨part _, part _, part _⟩
  · exact targetField ht t _
  · exact ⟨targetField ht t _, part _⟩
  · exact ⟨targetField ht t _, part _⟩
  · exact parts_spell he _
  · exact members_spellsAll_iff.2 (List.forall_mem_map.2 fun c _ => h.member he c)
  · exact h.access he t
  · exact h.access he t
  · show Expr.SpellsAll P _
    cases t.field? "arguments" with
    | none => trivial
    | some a => exact parts_spell he _
  · exact parts_spell he _
  · trivial
  · split
    · exact ofPart_spells he _
    · split <;> trivial

theorem target (he : ∀ t, (sub.expr t).Spells P) (ht : ∀ t, (sub.target t).Spells P) (t : Tree) :
    (Target.read src sub t).Spells P := by
  unfold Target.read
  split
  · trivial
  · exact h.access he t
  · exact h.access he t
  · split
    · exact ht _
    · trivial
  · exact h.exprNode he ht t

end Source.Covers

/-- What is read from a source spells texts that are no longer than the source. -/
theorem readers_spell (h : src.Covers P) : ∀ n,
    (∀ t, ((Readers.upTo src n).expr t).Spells P) ∧ ∀ t, ((Readers.upTo src n).target t).Spells P
  | 0 => ⟨fun _ => trivial, fun _ => trivial⟩
  | n + 1 => by
    obtain ⟨he, ht⟩ := readers_spell h n
    exact ⟨h.exprNode he ht, h.target he ht⟩

end Expressions

/-! ## Statements -/

mutual

/-- Whether the expressions of a statement have a property, those of functions in it included. -/
def Stmt.Each (P : Expr → Prop) : Stmt → Prop
  | .declare _ d => Declaration.Each P d
  | .expression _ e => ∀ x ∈ e, P x
  | .block _ body => Stmt.EachAll P body
  | .ifThen _ test _ yes => P test ∧ yes.Each P
  | .ifElse _ test _ yes _ no => P test ∧ yes.Each P ∧ no.Each P
  | .forLoop _ opening test update _ body =>
    Opening.Each P opening ∧ (∀ x ∈ test, P x) ∧ (∀ x ∈ update, P x) ∧ body.Each P
  | .whileLoop _ test _ body => P test ∧ body.Each P
  | .doLoop _ _ test _ body => P test ∧ body.Each P
  | .answer _ value => ∀ x ∈ value, P x
  | .function _ _ _ r => Routine.Each P r
  | .labeled _ _ body => body.Each P
  | .skipped .. | .unsupported .. | .jump .. => True

def Stmt.EachAll (P : Expr → Prop) : List Stmt → Prop
  | [] => True
  | s :: rest => s.Each P ∧ Stmt.EachAll P rest

def Routine.Each (P : Expr → Prop) : Routine Stmt → Prop
  | ⟨_, defaults, _, body, result, _⟩ =>
    (∀ d ∈ defaults, P d.2.expr) ∧ (∀ e ∈ result, P e.expr) ∧ Stmt.EachAll P body

def Initial.Each (P : Expr → Prop) : Initial Stmt → Prop
  | .absent => True
  | .routine r => Routine.Each P r
  | .value e => P e

def Declarator.Each (P : Expr → Prop) : Declarator Stmt → Prop
  | .bind _ init => Initial.Each P init
  | .pattern _ => True

def Declarator.EachAll (P : Expr → Prop) : List (Declarator Stmt) → Prop
  | [] => True
  | d :: rest => Declarator.Each P d ∧ Declarator.EachAll P rest

def Declaration.Each (P : Expr → Prop) : Declaration Stmt → Prop
  | ⟨_, _, declarators⟩ => Declarator.EachAll P declarators

def Opening.Each (P : Expr → Prop) : Opening Stmt → Prop
  | .absent => True
  | .declare d => Declaration.Each P d
  | .eval e => P e

end

section Statements

variable {P : Expr → Prop} {src : Source} {stmt : Tree → Stmt}

theorem eachAll_iff {stmts : List Stmt} : Stmt.EachAll P stmts ↔ ∀ s ∈ stmts, s.Each P := by
  induction stmts with
  | nil => exact ⟨fun _ => List.forall_mem_nil _, fun _ => trivial⟩
  | cons s rest ih => rw [Stmt.EachAll, ih, List.forall_mem_cons]

theorem declarators_eachAll_iff {ds : List (Declarator Stmt)} :
    Declarator.EachAll P ds ↔ ∀ d ∈ ds, d.Each P := by
  induction ds with
  | nil => exact ⟨fun _ => List.forall_mem_nil _, fun _ => trivial⟩
  | cons d rest ih => rw [Declarator.EachAll, ih, List.forall_mem_cons]

theorem Declaration.each_iff {d : Declaration Stmt} : d.Each P ↔ ∀ declarator ∈ d.declarators, declarator.Each P := by
  obtain ⟨keeps, constant, declarators⟩ := d
  exact declarators_eachAll_iff

theorem Routine.each_iff {r : Routine Stmt} : r.Each P ↔
    (∀ d ∈ r.defaults, P d.2.expr) ∧ (∀ e ∈ r.result, P e.expr) ∧ ∀ s ∈ r.body, s.Each P := by
  obtain ⟨params, defaults, ignored, body, result, span⟩ := r
  rw [← eachAll_iff]
  exact Iff.rfl

variable (missing : P .undefined) (read : ∀ t, P (Expr.ofTree src t)) (hs : ∀ t, (stmt t).Each P)

include read in
theorem Routine.Each.addParameter {r : Routine Stmt} (hr : r.Each P) (t : Tree) : (r.addParameter src t).Each P := by
  obtain ⟨defaults, result, body⟩ := Routine.each_iff.1 hr
  have ignored (l : List (String × Nat)) : ({ r with ignored := l } : Routine Stmt).Each P :=
    Routine.each_iff.2 ⟨defaults, result, body⟩
  unfold Routine.addParameter
  split
  · rename_i default _
    split
    · refine Routine.each_iff.2 ⟨?_, result, body⟩
      cases default with
      | none => exact defaults
      | some d =>
        intro e he
        rcases Assoc.mem_insert he with rfl | he
        · exact read d
        · exact defaults e he
    · exact ignored _
  · exact ignored _

include read hs

theorem Routine.each_read (t : Tree) : (Routine.read src stmt t).Each P := by
  have bare (params : List Text) (span : Span) : Routine.Each P
      { params := params
        defaults := []
        ignored := []
        body := if (t.field? "body").any (·.kind == "statement_block") then
          (t.field? "body").elim [] fun b => b.parts.map stmt else []
        result := if (t.field? "body").any (·.kind == "statement_block") then none
          else (t.field? "body").map (Snippet.ofTree src)
        span := span } := by
    refine Routine.each_iff.2 ⟨List.forall_mem_nil _, ?_, ?_⟩ <;> dsimp only
    · split
      · exact fun e he => by cases he
      · intro e he
        obtain ⟨b, -, rfl⟩ := Option.map_eq_some_iff.1 he
        exact read b
    · split
      · cases t.field? "body" with
        | none => exact List.forall_mem_nil _
        | some b => exact List.forall_mem_map.2 fun c _ => hs c
      · exact List.forall_mem_nil _
  unfold Routine.read
  dsimp only
  split
  · exact bare [] _
  · split
    · exact bare _ _
    · exact List.foldlRecOn _ _ (bare [] _) fun r hr c _ => Routine.Each.addParameter read hr c

theorem Declarator.each_read (t : Tree) : (Declarator.read src stmt t).Each P := by
  unfold Declarator.read
  split
  · trivial
  · split
    · split
      · trivial
      · split
        · exact Routine.each_read read hs _
        · exact read _
    · trivial

theorem Declaration.each_read (t : Tree) : (Declaration.read src stmt t).Each P :=
  Declaration.each_iff.2 (List.forall_mem_map.2 fun c _ => Declarator.each_read read hs c)

theorem Opening.each_read (clause : Option Tree) : (Opening.read src stmt clause).Each P := by
  unfold Opening.read
  split
  · trivial
  · split
    · exact Declaration.each_read read hs _
    · exact read _

omit read in
theorem readBody_each (t : Tree) (name : String) : (readBody src stmt t name).2.Each P := by
  unfold readBody
  split
  · exact hs _
  · trivial

omit hs in
theorem ofTree_each (part : Option Tree) : ∀ e ∈ part.map (Expr.ofTree src), P e := by
  intro e he
  obtain ⟨t, -, rfl⟩ := Option.map_eq_some_iff.1 he
  exact read t

include missing

theorem readNode_each (t : Tree) : (Stmt.readNode src stmt t).Each P := by
  have part (name : String) : P (Expr.ofPart (Expr.ofTree src) (t.field? name)) := by
    cases t.field? name with
    | none => exact missing
    | some c => exact read c
  have body (name : String) : (readBody src stmt t name).2.Each P := readBody_each hs t name
  unfold Stmt.readNode
  split
  · exact Declaration.each_read read hs t
  · exact Declaration.each_read read hs t
  · exact ofTree_each read _
  · exact eachAll_iff.2 (List.forall_mem_map.2 fun c _ => hs c)
  · dsimp only
    split
    · exact ⟨part _, body _⟩
    · split
      · exact ⟨part _, body _⟩
      · exact ⟨part _, body _, hs _⟩
  · exact ⟨Opening.each_read read hs _, ofTree_each read _, ofTree_each read _, body _⟩
  · exact ⟨part _, body _⟩
  · exact ⟨part _, body _⟩
  · trivial
  · trivial
  · exact ofTree_each read _
  · exact Routine.each_read read hs t
  · exact Routine.each_read read hs t
  · exact body _
  · split <;> trivial

omit hs

/-- The expressions of a statement that is read from a source are missing parts, or are read from it themselves. -/
theorem readUpTo_each : ∀ n t, (Stmt.readUpTo src n t).Each P
  | 0, _ => trivial
  | n + 1, t => readNode_each missing read (readUpTo_each n) t

theorem program_each (tree : Tree) : ∀ s ∈ Stmt.program src tree, s.Each P :=
  List.forall_mem_map.2 fun t _ => readUpTo_each missing read t.height t

end Statements

end ScriptTrace
