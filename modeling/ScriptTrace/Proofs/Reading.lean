import ScriptTrace.Proofs.Sites
/-!
# Reading keeps to the sites

A program has no sites but those of the tree it is read from: `fits_program`. So what a run of the program may
depend on can be asked of the tree.

The readers go down the tree one level at a time, and so do the proofs: a reader of a node keeps to the node if
the readers of smaller nodes do.
-/
namespace ScriptTrace

open ScriptTrace.Tree

/-! ## Expressions -/

section Expressions

variable {src : Source} {P : Nat → Prop} {t : Tree} {sub : Readers} {expr : Tree → Expr}

/-- Whether a reader keeps to the lines of the tree it reads. -/
def ReadsWithin (src : Source) {α : Type} (lines : α → List Nat) (read : Tree → α) : Prop :=
  ∀ (t : Tree) (P : Nat → Prop), (∀ n ∈ t.lines src, P n) → ∀ n ∈ lines (read t), P n

theorem ofPart_within (he : ReadsWithin src Expr.lines expr) (part : Option Tree)
    (h : ∀ c, part = some c → ∀ n ∈ c.lines src, P n) : ∀ n ∈ (Expr.ofPart expr part).lines, P n := by
  cases part with
  | none => exact fun n hn => nomatch hn
  | some c => exact he c P (h c rfl)

theorem ofField_within (he : ReadsWithin src Expr.lines expr) (h : ∀ n ∈ t.lines src, P n)
    (name : String) : ∀ n ∈ (Expr.ofPart expr (t.field? name)).lines, P n :=
  ofPart_within he _ fun _ hc => forall_lines_child h (mem_of_field hc)

theorem ofHead_within (he : ReadsWithin src Expr.lines expr) (h : ∀ n ∈ t.lines src, P n) :
    ∀ n ∈ (Expr.ofPart expr t.parts.head?).lines, P n :=
  ofPart_within he _ fun _ hc => forall_lines_child h (mem_of_parts (List.mem_of_head? hc))

theorem ofParts_within (he : ReadsWithin src Expr.lines expr) (h : ∀ n ∈ t.lines src, P n) :
    ∀ n ∈ Expr.linesAll (t.parts.map expr), P n := by
  rw [Expr.linesAll_eq, List.forall_mem_flatMap, List.forall_mem_map]
  exact fun c hc => he c P (forall_lines_child h (mem_of_parts hc))

theorem key_within (he : ReadsWithin src Expr.lines expr) : ReadsWithin src Key.lines (Key.read src expr) := by
  intro t P h
  unfold Key.read
  split
  · exact fun n hn => nomatch hn
  · exact fun n hn => nomatch hn
  · exact ofHead_within he h
  · exact fun n hn => nomatch hn

theorem keyField_within (he : ReadsWithin src Expr.lines expr) (h : ∀ n ∈ t.lines src, P n)
    (name : String) : ∀ n ∈ (Key.readField src expr t name).lines, P n := by
  unfold Key.readField
  split
  · rename_i k hk
    exact key_within he k P (forall_lines_child h (mem_of_field hk))
  · exact fun n hn => nomatch hn

theorem member_within (he : ReadsWithin src Expr.lines expr) :
    ReadsWithin src Member.lines (Member.read src expr) := by
  intro t P h
  unfold Member.read
  split
  · rw [Member.lines, List.forall_mem_append]
    exact ⟨keyField_within he h _, ofField_within he h _⟩
  · exact fun n hn => nomatch hn
  · exact keyField_within he h _
  · exact fun n hn => nomatch hn

theorem access_within (he : ReadsWithin src Expr.lines expr) (h : ∀ n ∈ t.lines src, P n) :
    (∀ n ∈ (readAccess src expr t).1.lines, P n) ∧ ∀ n ∈ (readAccess src expr t).2.lines, P n := by
  unfold readAccess
  split
  · exact ⟨ofField_within he h _, fun n hn => nomatch hn⟩
  · exact ⟨ofField_within he h _, ofField_within he h _⟩

theorem targetField_within (ht : ReadsWithin src Target.lines sub.target) (h : ∀ n ∈ t.lines src, P n)
    (name : String) : ∀ n ∈ (Target.readField sub t name).lines, P n := by
  unfold Target.readField
  cases hc : t.field? name with
  | none => exact fun n hn => nomatch hn
  | some c => exact ht c P (forall_lines_child h (mem_of_field hc))

theorem exprNode_within (he : ReadsWithin src Expr.lines sub.expr) (ht : ReadsWithin src Target.lines sub.target) :
    ReadsWithin src Expr.lines (Expr.readNode src sub) := by
  intro t P h
  have none {e : Expr} (hl : e.lines = []) : ∀ n ∈ e.lines, P n := fun n hn => nomatch hl ▸ hn
  have part (name : String) := ofField_within he h name
  have line : P (t.line src) := forall_lines_start h
  unfold Expr.readNode
  split
  · exact none rfl
  · exact none rfl
  · exact none rfl
  · show ∀ n ∈ Expr.linesAll _, P n
    rw [Expr.linesAll_eq, List.forall_mem_flatMap, List.forall_mem_map]
    intro c hc
    exact ofHead_within he (forall_lines_child h (List.mem_filter.1 hc).1)
  · exact none rfl
  · exact none rfl
  · exact none rfl
  · exact none rfl
  · exact ofPart_within he _ fun _ hc => forall_lines_child h (mem_of_parts (List.mem_of_getLast? hc))
  · exact part _
  · exact List.forall_mem_append.2 ⟨part _, part _⟩
  · exact List.forall_mem_append.2 ⟨part _, List.forall_mem_append.2 ⟨part _, part _⟩⟩
  · exact targetField_within ht h _
  · exact List.forall_mem_append.2 ⟨targetField_within ht h _, part _⟩
  · exact List.forall_mem_append.2 ⟨targetField_within ht h _, part _⟩
  · exact ofParts_within he h
  · show ∀ n ∈ Member.linesAll _, P n
    rw [Member.linesAll_eq, List.forall_mem_flatMap, List.forall_mem_map]
    exact fun c hc => member_within he c P (forall_lines_child h (mem_of_parts hc))
  · exact List.forall_mem_append.2 (access_within he h)
  · exact List.forall_mem_append.2 (access_within he h)
  · refine List.forall_mem_cons.2 ⟨line, ?_⟩
    cases ha : t.field? "arguments" with
    | none => exact fun n hn => nomatch hn
    | some a => exact ofParts_within he (forall_lines_child h (mem_of_field ha))
  · exact ofParts_within he h
  · exact none rfl
  · split
    · exact ofHead_within he h
    · split <;> exact none rfl

theorem target_within (he : ReadsWithin src Expr.lines sub.expr) (ht : ReadsWithin src Target.lines sub.target) :
    ReadsWithin src Target.lines (Target.read src sub) := by
  intro t P h
  have line : P (t.line src) := forall_lines_start h
  have access : ∀ n ∈ t.line src :: ((readAccess src sub.expr t).1.lines ++ (readAccess src sub.expr t).2.lines), P n :=
    List.forall_mem_cons.2 ⟨line, List.forall_mem_append.2 (access_within he h)⟩
  unfold Target.read
  split
  · exact List.forall_mem_cons.2 ⟨line, fun n hn => nomatch hn⟩
  · exact access
  · exact access
  · split
    · rename_i inner hi
      exact ht inner P (forall_lines_child h (mem_of_parts (List.mem_of_head? hi)))
    · exact fun n hn => nomatch hn
  · exact exprNode_within he ht t P h

/-- Reading an expression finds no lines but those of the tree. -/
theorem readers_within (src : Source) : ∀ n,
    ReadsWithin src Expr.lines (Readers.upTo src n).expr ∧ ReadsWithin src Target.lines (Readers.upTo src n).target
  | 0 => ⟨fun _ _ _ _ hn => (nomatch hn), fun _ _ _ _ hn => (nomatch hn)⟩
  | n + 1 => by
    obtain ⟨he, ht⟩ := readers_within src n
    exact ⟨exprNode_within he ht, target_within he ht⟩

theorem exprTree_within (src : Source) : ReadsWithin src Expr.lines (Expr.ofTree src) :=
  fun t => (readers_within src t.height).1 t

end Expressions

/-! ## Statements -/

section Statements

variable {src : Source} {P : Site → Prop} {p : Scope} {kind name : String} {t c : Tree} {stmt : Tree → Stmt}

/-- Whether a reader of statements keeps to the sites of the tree it reads. -/
def ReadsFitting (src : Source) (P : Site → Prop) (stmt : Tree → Stmt) : Prop :=
  ∀ (t : Tree) (p : Scope), t.Fits src P p t.kind → (stmt t).Fits P p

theorem parameterParts_within {d : Tree} {Q : Nat → Prop} (h : ∀ n ∈ t.lines src, Q n)
    (hd : (parameterParts t).2 = some d) : ∀ n ∈ d.lines src, Q n := by
  unfold parameterParts at hd
  by_cases hk : (t.kind == "required_parameter" || t.kind == "optional_parameter") = true
  · rw [if_pos hk] at hd
    cases hp : t.field? "pattern" with
    | none =>
      simp only [hp] at hd
      exact forall_lines_child h (mem_of_field hd)
    | some q =>
      simp only [hp] at hd
      split at hd
      · exact forall_lines_child (forall_lines_child h (mem_of_field hp)) (mem_of_field hd)
      · exact forall_lines_child h (mem_of_field hd)
  · rw [if_neg hk] at hd
    dsimp only at hd
    split at hd
    · exact forall_lines_child h (mem_of_field hd)
    · cases hd

theorem Routine.Fits.addParameter {r : Routine Stmt} (hr : r.Fits P)
    (h : ∀ n ∈ t.lines src, P (.line [.body r.span] n)) : (r.addParameter src t).Fits P := by
  obtain ⟨span, ends, defaults, result, body⟩ := Routine.fits_iff.1 hr
  have ignored (l : List (String × Nat)) : ({ r with ignored := l } : Routine Stmt).Fits P :=
    Routine.fits_iff.2 ⟨span, ends, defaults, result, body⟩
  unfold Routine.addParameter
  split
  · rename_i q default hq
    split
    · refine Routine.fits_iff.2 ⟨span, ends, ?_, result, body⟩
      cases default with
      | none => exact defaults
      | some d =>
        intro e he
        rcases Assoc.mem_insert he with rfl | he
        · have := parameterParts_within h (congrArg Prod.snd hq)
          exact exprTree_within src d _ this
        · exact defaults e he
    · exact ignored _
  · exact ignored _

theorem span_addParameter (r : Routine Stmt) (t : Tree) : (r.addParameter src t).span = r.span := by
  unfold Routine.addParameter
  split
  · split <;> rfl
  · rfl

theorem Routine.Fits.addParameters : ∀ (ts : List Tree) {r : Routine Stmt}, r.Fits P →
    (∀ t ∈ ts, ∀ n ∈ t.lines src, P (.line [.body r.span] n)) →
    (ts.foldl (Routine.addParameter src) r).Fits P
  | [], _, hr, _ => hr
  | t :: ts, r, hr, h => by
    rw [List.forall_mem_cons] at h
    refine Routine.Fits.addParameters ts (hr.addParameter h.1) ?_
    rw [span_addParameter]
    exact h.2

theorem Routine.fits_read (hs : ReadsFitting src P stmt) (h : t.Fits src P p t.kind)
    (hk : routineKinds.contains t.kind) : (Routine.read src stmt t).Fits P := by
  have lines : ∀ n ∈ t.lines src, P (.line [.body (t.span src)] n) := by
    have := h.linesIn
    rwa [scopeIn, if_pos hk] at this
  have ends : (t.span src).Fits P [.body (t.span src)] :=
    ⟨forall_lines_start lines, forall_lines_stop lines⟩
  have body : ∀ s ∈ (if (t.field? "body").any (·.kind == "statement_block") then
      (t.field? "body").elim [] fun b => b.parts.map stmt else []), s.Fits P [.body (t.span src)] := by
    cases hb : t.field? "body" with
    | none => exact List.forall_mem_nil _
    | some b =>
      dsimp only [Option.any_some, Option.elim_some]
      split
      · rename_i block
        have fits := h.inRoutine hk (mem_of_field hb)
        rw [beq_iff_eq.1 block] at fits
        rw [List.forall_mem_map]
        exact fun c hc => hs c _ (fits.through (by decide) (mem_of_parts hc))
      · exact List.forall_mem_nil _
  have result : ∀ n ∈ Expr.linesOf ((if (t.field? "body").any (·.kind == "statement_block") then none
      else (t.field? "body").map (Snippet.ofTree src)).map Snippet.expr), P (.line [.body (t.span src)] n) := by
    cases hb : t.field? "body" with
    | none => exact List.forall_mem_nil _
    | some b =>
      dsimp only [Option.any_some, Option.map_some]
      split
      · exact List.forall_mem_nil _
      · exact exprTree_within src b _ (forall_lines_child lines (mem_of_field hb))
  have bare (params : List Text) : Routine.Fits P ⟨params, [], [], _, _, t.span src⟩ :=
    Routine.fits_iff.2 ⟨h.span, ends, List.forall_mem_nil _, result, body⟩
  unfold Routine.read
  dsimp only
  split
  · exact bare []
  · rename_i q hq
    have hq : q ∈ t.children := by
      rcases Option.or_eq_some_iff.1 hq with hq | ⟨-, hq⟩ <;> exact mem_of_field hq
    split
    · exact bare _
    · refine (bare []).addParameters q.parts fun c hc => ?_
      exact forall_lines_child (forall_lines_child lines hq) (mem_of_parts hc)

theorem Declarator.fits_read (hs : ReadsFitting src P stmt) (h : t.Fits src P p t.kind)
    (hk : t.kind = "variable_declarator") : (Declarator.read src stmt t).Fits P p := by
  unfold Declarator.read
  split
  · exact fun site hs => nomatch hs
  · split
    · cases hv : t.field? "value" with
      | none => exact fun site hs => nomatch hs
      | some v =>
        have fits := h.through (hk ▸ by decide) (mem_of_field hv)
        dsimp only
        split
        · rename_i function
          have hk : routineKinds.contains v.kind := by
            simp only [List.contains_iff_mem] at function ⊢
            exact List.mem_cons_of_mem _ (List.mem_cons_of_mem _ (List.mem_cons_of_mem _ function))
          exact Routine.fits_read hs fits hk
        · exact forall_lines_iff.2 (exprTree_within src v _ fits.lines)
    · exact fun site hs => nomatch hs

theorem Declaration.fits_read (hs : ReadsFitting src P stmt) (h : t.Fits src P p t.kind)
    (hk : isTransparent t.kind) : ∀ d ∈ (Declaration.read src stmt t).declarators, d.Fits P p := by
  unfold Declaration.read
  rw [List.forall_mem_map]
  intro c hc
  obtain ⟨hc, kind⟩ := List.mem_filter.1 hc
  exact Declarator.fits_read hs (h.through hk (mem_of_parts hc)) (beq_iff_eq.1 kind)

/-- A clause of a counting loop is in the scope of the loop. -/
theorem Tree.Fits.clause (h : t.Fits src P p "for_statement") (hc : clause? t name = some c)
    (hn : name ≠ "body") : c.Fits src P (.loop :: p) c.kind := by
  unfold clause? at hc
  split at hc
  · cases hc
  · rename_i d hd
    have fits : d.Fits src P (.loop :: p) d.kind := by
      refine h.childIn (mem_of_field hd) ?_
      simp [isBlockOf, field_of_field hd, hn]
    split at hc
    · cases hc
    · split at hc
      · rename_i kind
        have := fits.through (beq_iff_eq.1 kind ▸ by decide) (mem_of_parts (List.mem_of_head? hc))
        exact this
      · cases hc
        exact fits

theorem Opening.fits_read (hs : ReadsFitting src P stmt) (h : t.Fits src P p "for_statement") :
    (Opening.read src stmt (clause? t "initializer")).Fits P (.loop :: p) := by
  cases hc : clause? t "initializer" with
  | none => exact fun site hs => nomatch hs
  | some c =>
    have fits := h.clause hc (by decide)
    unfold Opening.read
    dsimp only
    split
    · rename_i kind
      refine Declaration.forall_sites_iff.2 (Declaration.fits_read hs fits ?_)
      simp only [isDeclarationKind, Bool.or_eq_true, beq_iff_eq] at kind
      rcases kind with kind | kind <;> rw [kind] <;> decide
    · exact forall_lines_iff.2 (exprTree_within src c _ fits.lines)

theorem clause_within (h : t.Fits src P p "for_statement") (hn : name ≠ "body") :
    ∀ n ∈ Expr.linesOf ((clause? t name).map (Expr.ofTree src)), P (.line (.loop :: p) n) := by
  cases hc : clause? t name with
  | none => exact fun n hn => nomatch hn
  | some c => exact exprTree_within src c _ (h.clause hc hn).lines

/-- The body that is read under a field, if it fits in a scope that may depend on its span. -/
theorem readBody_fits (hs : ReadsFitting src P stmt) (h : t.Fits src P p kind) (scope : Span → Scope)
    (hb : ∀ b, t.field? name = some b → b.Fits src P (scope (b.span src)) b.kind) :
    P (.span (readBody src stmt t name).1) ∧
      (readBody src stmt t name).2.Fits P (scope (readBody src stmt t name).1) := by
  unfold readBody
  cases hf : t.field? name with
  | none => exact ⟨h.span, fun site hs => nomatch hs⟩
  | some b => exact ⟨(hb b hf).span, hs b _ (hb b hf)⟩

theorem loopBody_fits (hs : ReadsFitting src P stmt) (h : t.Fits src P p kind) (hk : loopKinds.contains kind)
    (hp : scopeIn src p kind t = .loop :: p) :
    P (.span (readBody src stmt t "body").1) ∧ (readBody src stmt t "body").2.Fits P
      (.block (readBody src stmt t "body").1 :: .loop :: p) := by
  refine readBody_fits hs h (fun span => .block span :: .loop :: p) fun b hb => ?_
  have := h.block (mem_of_field hb) (by simp [isBlockOf, -List.contains_eq_mem, hk, field_of_field hb])
    (by simp [field_of_field hb])
  rwa [hp] at this

theorem branch_fits (hs : ReadsFitting src P stmt) (h : t.Fits src P p "if_statement") :
    P (.span (readBody src stmt t "consequence").1) ∧ (readBody src stmt t "consequence").2.Fits P
      (.block (readBody src stmt t "consequence").1 :: p) := by
  refine readBody_fits hs h (fun span => .block span :: p) fun b hb => ?_
  exact h.block (mem_of_field hb) (by simp [isBlockOf, field_of_field hb]) (by simp [field_of_field hb])

/-- What follows `else` is in a block of its own, which reaches over the whole clause. -/
theorem alternative_fits (hs : ReadsFitting src P stmt) (h : t.Fits src P p "if_statement") {a branch : Tree}
    (ha : t.field? "alternative" = some a) (hb : a.parts.head? = some branch) :
    P (.span (a.span src)) ∧ (stmt branch).Fits P (.block (a.span src) :: p) := by
  have fits : a.Fits src P (.block (a.span src) :: p) "else_clause" := by
    have := h.child (mem_of_field ha)
    have scope : scopeUnder src p "if_statement" t a = .block (a.span src) :: p := by
      simp [scopeUnder, scopeIn, isBlockOf, field_of_field ha, routineKinds, functionKinds, loopKinds]
    have kind : kindUnder "if_statement" a = "else_clause" := by
      simp [kindUnder, field_of_field ha]
    rwa [scope, kind] at this
  exact ⟨fits.span, hs branch _ (fits.through (by decide) (mem_of_parts (List.mem_of_head? hb)))⟩

theorem readNode_fits (hs : ReadsFitting src P stmt) : ReadsFitting src P (Stmt.readNode src stmt) := by
  intro t p h
  have ends := h.ends
  have head : ∀ n ∈ Expr.linesOf (t.parts.head?.map (Expr.ofTree src)), P (.line p n) := by
    cases hc : t.parts.head? with
    | none => exact List.forall_mem_nil _
    | some c => exact exprTree_within src c _ (forall_lines_child h.lines (mem_of_parts (List.mem_of_head? hc)))
  have part {Q : Nat → Prop} (hl : ∀ n ∈ t.lines src, Q n) (name : String) :=
    ofField_within (exprTree_within src) hl name
  unfold Stmt.readNode
  split
  · rename_i hk
    exact Stmt.fits_iff.2 ⟨ends, Declaration.fits_read hs h (hk ▸ by decide)⟩
  · rename_i hk
    exact Stmt.fits_iff.2 ⟨ends, Declaration.fits_read hs h (hk ▸ by decide)⟩
  · exact Stmt.fits_iff.2 ⟨ends, head⟩
  · rename_i hk
    refine Stmt.fits_iff.2 ⟨ends, ?_⟩
    rw [List.forall_mem_map]
    exact fun c hc => hs c p (h.through (hk ▸ by decide) (mem_of_parts hc))
  · rename_i hk
    rw [hk] at h
    have test := part h.lines "condition"
    obtain ⟨yesSpan, yes⟩ := branch_fits hs h
    dsimp only
    split
    · exact Stmt.fits_iff.2 ⟨ends, test, yesSpan, yes⟩
    · rename_i a ha
      split
      · exact Stmt.fits_iff.2 ⟨ends, test, yesSpan, yes⟩
      · rename_i branch hb
        obtain ⟨noSpan, no⟩ := alternative_fits hs h ha hb
        exact Stmt.fits_iff.2 ⟨ends, test, yesSpan, yes, noSpan, no⟩
  · rename_i hk
    rw [hk] at h
    obtain ⟨bodySpan, body⟩ := loopBody_fits hs h (by decide) rfl
    have update : ∀ n ∈ Expr.linesOf (((clause? t "increment").or (clause? t "update")).map (Expr.ofTree src)),
        P (.line (.loop :: p) n) := by
      cases hc : clause? t "increment" with
      | none => exact clause_within h (by decide)
      | some c => exact exprTree_within src c _ (h.clause hc (by decide)).lines
    exact Stmt.fits_iff.2 ⟨ends, h.lineIn, Opening.fits_read hs h, clause_within h (by decide), update,
      bodySpan, body⟩
  · rename_i hk
    rw [hk] at h
    obtain ⟨bodySpan, body⟩ := loopBody_fits hs h (by decide) rfl
    exact Stmt.fits_iff.2 ⟨ends, h.lineIn, part h.linesIn "condition", bodySpan, body⟩
  · rename_i hk
    rw [hk] at h
    obtain ⟨bodySpan, body⟩ := loopBody_fits hs h (by decide) rfl
    have testLine : P (.line (.loop :: p) ((t.field? "condition").elim (t.span src).first (Tree.line src))) := by
      cases hc : t.field? "condition" with
      | none => exact h.lineIn
      | some c => exact forall_lines_start (forall_lines_child h.linesIn (mem_of_field hc))
    exact Stmt.fits_iff.2 ⟨ends, testLine, part h.linesIn "condition", bodySpan, body⟩
  · rename_i hk
    exact Stmt.fits_iff.2 ⟨h.jump (by simp [jump?, hk]), ends⟩
  · rename_i hk
    exact Stmt.fits_iff.2 ⟨h.jump (by simp [jump?, hk]), ends⟩
  · exact Stmt.fits_iff.2 ⟨ends, head⟩
  · rename_i hk
    exact Stmt.fits_iff.2 ⟨h.span, ends, Routine.fits_read hs h (hk ▸ by decide)⟩
  · rename_i hk
    exact Stmt.fits_iff.2 ⟨h.span, ends, Routine.fits_read hs h (hk ▸ by decide)⟩
  · rename_i hk
    rw [hk] at h
    have body := readBody_fits hs h (fun _ => .label (t.fieldText src "label") :: p)
      fun b (hb : t.field? "body" = some b) => h.childIn (mem_of_field hb) (by simp [isBlockOf, loopKinds])
    exact Stmt.fits_iff.2 ⟨ends, body.2⟩
  · split
    · exact List.forall_mem_nil _
    · exact forall_ends_iff.2 ends

theorem readUpTo_fits (src : Source) (P : Site → Prop) : ∀ n, ReadsFitting src P (Stmt.readUpTo src n)
  | 0 => fun _ _ h => forall_ends_iff.2 h.ends
  | n + 1 => readNode_fits (readUpTo_fits src P n)

end Statements

/-- What is asked of all sites of a tree holds of all sites of the program that is read from it. -/
theorem fits_program {src : Source} {P : Site → Prop} {tree : Tree} (h : ∀ site ∈ tree.programSites src, P site) :
    ∀ stmt ∈ Stmt.program src tree, stmt.Fits P [] := by
  have fits : tree.Fits src P [] "program" := h
  unfold Stmt.program
  rw [List.forall_mem_map]
  intro c hc
  exact readUpTo_fits src P c.height c [] (fits.through (by decide) (mem_of_parts hc))

end ScriptTrace
