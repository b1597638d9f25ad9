import ScriptTrace.Script.Read
/-!
# Sites of a program

The **scope** of a construct is what stands around it in its function: loops, labels and blocks, and the function
itself, innermost first. The **sites** of a script are the lines that its steps and failures can be on, the spans
that its blocks can have, and its jumps, each in its scope.

Sites are taken from scripts (`Stmt.sites`) and from trees (`Tree.sites`), where they are a matter of what
encloses what. A script or a tree **fits** a property of sites if all its sites have it; the `fits` lemmas say
what that means form by form.
-/
namespace ScriptTrace

/-- What can stand around a construct. -/
inductive Layer
  | loop
  | label (name : Text)
  | block (span : Span)
  /-- A function; what is around it does not count. -/
  | body (span : Span)
deriving DecidableEq, Repr

abbrev Scope := List Layer

inductive Site
  | line (p : Scope) (n : Nat)
  | span (s : Span)
  | jump (p : Scope) (kind : Jump) (label : Option Text)
deriving DecidableEq, Repr

namespace Site

def lines (p : Scope) (ns : List Nat) : List Site :=
  ns.map (.line p)

/-- The lines of a statement itself. -/
def ends (p : Scope) (span : Span) : List Site :=
  [.line p span.first, .line p span.last]

end Site

/-! ## Sites of a script -/

mutual

/-- The lines on which an expression can record a step or fail. -/
def Expr.lines : Expr → List Nat
  | .template _ holes => Expr.linesAll holes
  | .unary _ _ operand => operand.lines
  | .binary _ _ left right => left.lines ++ right.lines
  | .conditional test yes no => test.lines ++ (yes.lines ++ no.lines)
  | .update _ _ target => target.lines
  | .assign target right => target.lines ++ right.lines
  | .augment _ target _ right => target.lines ++ right.lines
  | .array items | .sequence items => Expr.linesAll items
  | .object members => Member.linesAll members
  | .property _ holder key => holder.lines ++ key.lines
  | .call line _ args => line :: Expr.linesAll args
  | .name .. | .number _ | .string _ | .bool _ | .null | .undefined | .spread | .function _
  | .unsupported .. => []

def Expr.linesAll : List Expr → List Nat
  | [] => []
  | e :: rest => e.lines ++ Expr.linesAll rest

def Key.lines : Key → List Nat
  | .computed e => e.lines
  | .fixed _ | .string _ | .number _ => []

def Member.lines : Member → List Nat
  | .pair key value => key.lines ++ value.lines
  | .method key => key.lines
  | .shorthand .. | .unsupported .. => []

def Member.linesAll : List Member → List Nat
  | [] => []
  | m :: rest => m.lines ++ Member.linesAll rest

def Target.lines : Target → List Nat
  | .name line _ => [line]
  | .property line holder key => line :: (holder.lines ++ key.lines)
  | .invalid _ _ e => e.lines

end

/-- The lines of an expression that may be missing. -/
def Expr.linesOf (e : Option Expr) : List Nat :=
  e.elim [] Expr.lines

mutual

/-- The sites of a statement that stands in a scope. -/
def Stmt.sites (p : Scope) : Stmt → List Site
  | .skipped _ _ => []
  | .unsupported span _ => Site.ends p span
  | .declare span d => Site.ends p span ++ Declaration.sites p d
  | .expression span e => Site.ends p span ++ Site.lines p (Expr.linesOf e)
  | .block span body => Site.ends p span ++ Stmt.sitesAll p body
  | .ifThen span test yesSpan yes =>
    Site.ends p span ++ (Site.lines p test.lines ++ .span yesSpan :: yes.sites (.block yesSpan :: p))
  | .ifElse span test yesSpan yes noSpan no =>
    Site.ends p span ++ (Site.lines p test.lines ++ .span yesSpan :: (yes.sites (.block yesSpan :: p) ++
      .span noSpan :: no.sites (.block noSpan :: p)))
  | .forLoop span opening test update bodySpan body =>
    Site.ends p span ++ .line (.loop :: p) span.first :: (Opening.sites (.loop :: p) opening ++
      (Site.lines (.loop :: p) (Expr.linesOf test) ++ (Site.lines (.loop :: p) (Expr.linesOf update) ++
        .span bodySpan :: body.sites (.block bodySpan :: .loop :: p))))
  | .whileLoop span test bodySpan body =>
    Site.ends p span ++ .line (.loop :: p) span.first :: (Site.lines (.loop :: p) test.lines ++
      .span bodySpan :: body.sites (.block bodySpan :: .loop :: p))
  | .doLoop span testLine test bodySpan body =>
    Site.ends p span ++ .line (.loop :: p) testLine :: (Site.lines (.loop :: p) test.lines ++
      .span bodySpan :: body.sites (.block bodySpan :: .loop :: p))
  | .jump span kind label => .jump p kind label :: Site.ends p span
  | .answer span value => Site.ends p span ++ Site.lines p (Expr.linesOf value)
  | .function span _ _ r => .span span :: (Site.ends p span ++ Routine.sites r)
  | .labeled span name body => Site.ends p span ++ body.sites (.label name :: p)

def Stmt.sitesAll (p : Scope) : List Stmt → List Site
  | [] => []
  | s :: rest => s.sites p ++ Stmt.sitesAll p rest

/-- The sites of a routine; where it stands does not matter. -/
def Routine.sites : Routine Stmt → List Site
  | ⟨_, defaults, _, body, result, span⟩ =>
    .span span :: (Site.ends [.body span] span ++
      (Site.lines [.body span] (defaults.flatMap fun d => d.2.expr.lines) ++
        (Site.lines [.body span] (Expr.linesOf (result.map Snippet.expr)) ++
          Stmt.sitesAll [.body span] body)))

def Initial.sites (p : Scope) : Initial Stmt → List Site
  | .absent => []
  | .routine r => Routine.sites r
  | .value e => Site.lines p e.lines

def Declarator.sites (p : Scope) : Declarator Stmt → List Site
  | .bind _ init => Initial.sites p init
  | .pattern _ => []

def Declarator.sitesAll (p : Scope) : List (Declarator Stmt) → List Site
  | [] => []
  | d :: rest => Declarator.sites p d ++ Declarator.sitesAll p rest

def Declaration.sites (p : Scope) : Declaration Stmt → List Site
  | ⟨_, _, declarators⟩ => Declarator.sitesAll p declarators

def Opening.sites (p : Scope) : Opening Stmt → List Site
  | .absent => []
  | .declare d => Declaration.sites p d
  | .eval e => Site.lines p e.lines

end

theorem Expr.linesAll_eq (es : List Expr) : Expr.linesAll es = es.flatMap Expr.lines := by
  induction es with
  | nil => rfl
  | cons e rest ih => rw [Expr.linesAll, ih, List.flatMap_cons]

theorem Member.linesAll_eq (ms : List Member) : Member.linesAll ms = ms.flatMap Member.lines := by
  induction ms with
  | nil => rfl
  | cons m rest ih => rw [Member.linesAll, ih, List.flatMap_cons]

theorem Stmt.sitesAll_eq (p : Scope) (stmts : List Stmt) :
    Stmt.sitesAll p stmts = stmts.flatMap (Stmt.sites p) := by
  induction stmts with
  | nil => rfl
  | cons s rest ih => rw [Stmt.sitesAll, ih, List.flatMap_cons]

theorem Declarator.sitesAll_eq (p : Scope) (ds : List (Declarator Stmt)) :
    Declarator.sitesAll p ds = ds.flatMap (Declarator.sites p) := by
  induction ds with
  | nil => rfl
  | cons d rest ih => rw [Declarator.sitesAll, ih, List.flatMap_cons]

/-! ## Fitting scripts -/

section Fits

variable {P : Site → Prop} {p : Scope} {span : Span}

def Stmt.Fits (P : Site → Prop) (p : Scope) (s : Stmt) : Prop :=
  ∀ site ∈ s.sites p, P site

def Routine.Fits (P : Site → Prop) (r : Routine Stmt) : Prop :=
  ∀ site ∈ r.sites, P site

def Declarator.Fits (P : Site → Prop) (p : Scope) (d : Declarator Stmt) : Prop :=
  ∀ site ∈ d.sites p, P site

def Opening.Fits (P : Site → Prop) (p : Scope) (o : Opening Stmt) : Prop :=
  ∀ site ∈ o.sites p, P site

/-- Whether the lines of a statement itself have a property. -/
def Span.Fits (P : Site → Prop) (p : Scope) (span : Span) : Prop :=
  P (.line p span.first) ∧ P (.line p span.last)

theorem forall_lines_iff {ns : List Nat} :
    (∀ site ∈ Site.lines p ns, P site) ↔ ∀ n ∈ ns, P (.line p n) :=
  List.forall_mem_map

theorem forall_ends_iff : (∀ site ∈ Site.ends p span, P site) ↔ span.Fits P p := by
  simp only [Site.ends, List.forall_mem_cons, Span.Fits]
  exact and_congr_right fun _ => and_iff_left fun _ h => nomatch h

theorem Declaration.forall_sites_iff {d : Declaration Stmt} :
    (∀ site ∈ d.sites p, P site) ↔ ∀ declarator ∈ d.declarators, declarator.Fits P p := by
  obtain ⟨keeps, constant, declarators⟩ := d
  rw [Declaration.sites, Declarator.sitesAll_eq, List.forall_mem_flatMap]
  rfl

theorem Routine.fits_iff {r : Routine Stmt} : r.Fits P ↔
    P (.span r.span) ∧ r.span.Fits P [.body r.span] ∧
      (∀ d ∈ r.defaults, ∀ n ∈ d.2.expr.lines, P (.line [.body r.span] n)) ∧
      (∀ n ∈ Expr.linesOf (r.result.map Snippet.expr), P (.line [.body r.span] n)) ∧
      ∀ s ∈ r.body, s.Fits P [.body r.span] := by
  obtain ⟨params, defaults, ignored, body, result, span⟩ := r
  simp only [Routine.Fits, Routine.sites, Stmt.sitesAll_eq, List.forall_mem_append, forall_ends_iff,
    List.forall_mem_cons, forall_lines_iff, List.forall_mem_flatMap]
  rfl

/-- What fits is asked of a statement, form by form. -/
@[reducible] def Stmt.FitsIn (P : Site → Prop) (p : Scope) : Stmt → Prop
  | .skipped _ _ => True
  | .unsupported span _ => span.Fits P p
  | .declare span d => span.Fits P p ∧ ∀ declarator ∈ d.declarators, declarator.Fits P p
  | .expression span e => span.Fits P p ∧ ∀ n ∈ Expr.linesOf e, P (.line p n)
  | .block span body => span.Fits P p ∧ ∀ s ∈ body, s.Fits P p
  | .ifThen span test yesSpan yes =>
    span.Fits P p ∧ (∀ n ∈ test.lines, P (.line p n)) ∧ P (.span yesSpan) ∧ yes.Fits P (.block yesSpan :: p)
  | .ifElse span test yesSpan yes noSpan no =>
    span.Fits P p ∧ (∀ n ∈ test.lines, P (.line p n)) ∧ P (.span yesSpan) ∧ yes.Fits P (.block yesSpan :: p) ∧
      P (.span noSpan) ∧ no.Fits P (.block noSpan :: p)
  | .forLoop span opening test update bodySpan body =>
    span.Fits P p ∧ P (.line (.loop :: p) span.first) ∧ opening.Fits P (.loop :: p) ∧
      (∀ n ∈ Expr.linesOf test, P (.line (.loop :: p) n)) ∧
      (∀ n ∈ Expr.linesOf update, P (.line (.loop :: p) n)) ∧
      P (.span bodySpan) ∧ body.Fits P (.block bodySpan :: .loop :: p)
  | .whileLoop span test bodySpan body =>
    span.Fits P p ∧ P (.line (.loop :: p) span.first) ∧ (∀ n ∈ test.lines, P (.line (.loop :: p) n)) ∧
      P (.span bodySpan) ∧ body.Fits P (.block bodySpan :: .loop :: p)
  | .doLoop span testLine test bodySpan body =>
    span.Fits P p ∧ P (.line (.loop :: p) testLine) ∧ (∀ n ∈ test.lines, P (.line (.loop :: p) n)) ∧
      P (.span bodySpan) ∧ body.Fits P (.block bodySpan :: .loop :: p)
  | .jump span kind label => P (.jump p kind label) ∧ span.Fits P p
  | .answer span value => span.Fits P p ∧ ∀ n ∈ Expr.linesOf value, P (.line p n)
  | .function span _ _ r => P (.span span) ∧ span.Fits P p ∧ r.Fits P
  | .labeled span name body => span.Fits P p ∧ body.Fits P (.label name :: p)

theorem Stmt.fits_iff {stmt : Stmt} : stmt.Fits P p ↔ stmt.FitsIn P p := by
  cases stmt with
  | skipped => exact ⟨fun _ => trivial, fun _ _ h => nomatch h⟩
  | unsupported | declare | expression | jump | answer =>
    simp only [Fits, sites, List.forall_mem_append, List.forall_mem_cons, forall_ends_iff, forall_lines_iff,
      Declaration.forall_sites_iff]
  | block | ifThen | ifElse | forLoop | whileLoop | doLoop | function | labeled =>
    simp only [Fits, sites, sitesAll_eq, List.forall_mem_append, List.forall_mem_cons, List.forall_mem_flatMap,
      forall_ends_iff, forall_lines_iff]
    rfl

end Fits

/-! ## Sites of a tree -/

namespace Tree

/-- Kinds of nodes that are functions of their own. -/
def routineKinds : List String :=
  "function_declaration" :: "generator_function_declaration" :: "method_definition" :: functionKinds

def loopKinds : List String :=
  ["for_statement", "while_statement", "do_statement", "for_in_statement"]

/-- The kind that a child counts as: the alternative of a conditional statement is an else clause. -/
def kindUnder (kind : String) (c : Tree) : String :=
  if kind = "if_statement" && c.info.field = some "alternative" then "else_clause" else c.kind

/-- The scope inside a node, given the scope of the node and the kind that it counts as. -/
def scopeIn (src : Source) (p : Scope) (kind : String) (t : Tree) : Scope :=
  if routineKinds.contains kind then [.body (t.span src)]
  else if loopKinds.contains kind then .loop :: p
  else if kind = "labeled_statement" then .label (t.fieldText src "label") :: p
  else p

/-- Whether a child is a block of its own: the body of a loop or a branch. -/
def isBlockOf (kind : String) (c : Tree) : Bool :=
  loopKinds.contains kind && c.info.field = some "body" ||
    kind = "if_statement" && (c.info.field = some "consequence" || c.info.field = some "alternative")

/-- The scope of a child. -/
def scopeUnder (src : Source) (p : Scope) (kind : String) (t c : Tree) : Scope :=
  if isBlockOf kind c then .block (c.span src) :: scopeIn src p kind t else scopeIn src p kind t

/-- The jump that a node of the given kind is. -/
def jump? (src : Source) (kind : String) (t : Tree) : Option (Jump × Option Text) :=
  let label := (t.field? "label").map (text src)
  if kind = "break_statement" then some (.leave, label)
  else if kind = "continue_statement" then some (.next, label)
  else none

mutual

/-- The lines on which the nodes of a tree start and end. -/
def lines (src : Source) : Tree → List Nat
  | .node i cs => src.lineAt i.start :: src.lineAt i.stop :: linesIn src cs

def linesIn (src : Source) : List Tree → List Nat
  | [] => []
  | c :: rest => lines src c ++ linesIn src rest

end

mutual

/-- The sites of a tree that stands in a scope and counts as of a kind. The lines of a node are lines of its
scope and of the scope inside it. -/
def sites (src : Source) (p : Scope) (kind : String) : Tree → List Site
  | .node i cs =>
    Site.lines p (lines src (.node i cs)) ++
      (Site.lines (scopeIn src p kind (.node i cs)) (lines src (.node i cs)) ++
        .span (span src (.node i cs)) ::
          ((jump? src kind (.node i cs)).toList.map (fun (j, label) => .jump p j label) ++
            sitesIn src (scopeUnder src p kind (.node i cs)) (kindUnder kind) cs))

def sitesIn (src : Source) (scope : Tree → Scope) (kind : Tree → String) : List Tree → List Site
  | [] => []
  | c :: rest => sites src (scope c) (kind c) c ++ sitesIn src scope kind rest

end

/-- The sites of the tree of a program. -/
def programSites (src : Source) (t : Tree) : List Site :=
  t.sites src [] "program"

theorem linesIn_eq (src : Source) (cs : List Tree) : linesIn src cs = cs.flatMap (lines src) := by
  induction cs with
  | nil => rfl
  | cons c rest ih => rw [linesIn, ih, List.flatMap_cons]

theorem sitesIn_eq (src : Source) (scope : Tree → Scope) (kind : Tree → String) (cs : List Tree) :
    sitesIn src scope kind cs = cs.flatMap fun c => c.sites src (scope c) (kind c) := by
  induction cs with
  | nil => rfl
  | cons c rest ih => rw [sitesIn, ih, List.flatMap_cons]

/-! ## Fitting trees -/

section Lines

variable {src : Source} {P : Nat → Prop} {t c : Tree} {name : String}

theorem forall_lines_child (h : ∀ n ∈ t.lines src, P n) (hc : c ∈ t.children) :
    ∀ n ∈ c.lines src, P n := by
  obtain ⟨i, cs⟩ := t
  simp only [lines, linesIn_eq, List.forall_mem_cons, List.forall_mem_flatMap] at h
  exact h.2.2 c hc

theorem forall_lines_start (h : ∀ n ∈ t.lines src, P n) : P (t.line src) := by
  obtain ⟨i, cs⟩ := t
  exact h _ List.mem_cons_self

theorem forall_lines_stop (h : ∀ n ∈ t.lines src, P n) : P (t.endLine src) := by
  obtain ⟨i, cs⟩ := t
  exact h _ (List.mem_cons_of_mem _ List.mem_cons_self)

end Lines

def Fits (src : Source) (P : Site → Prop) (p : Scope) (kind : String) (t : Tree) : Prop :=
  ∀ site ∈ t.sites src p kind, P site

variable {src : Source} {P : Site → Prop} {p : Scope} {kind name : String} {t c : Tree}

theorem fits_iff : t.Fits src P p kind ↔
    (∀ n ∈ t.lines src, P (.line p n)) ∧ (∀ n ∈ t.lines src, P (.line (scopeIn src p kind t) n)) ∧
      P (.span (t.span src)) ∧
      (∀ j label, t.jump? src kind = some (j, label) → P (.jump p j label)) ∧
      ∀ c ∈ t.children, c.Fits src P (scopeUnder src p kind t c) (kindUnder kind c) := by
  obtain ⟨i, cs⟩ := t
  simp only [Fits, sites, sitesIn_eq, Site.lines, List.forall_mem_append, List.forall_mem_cons,
    List.forall_mem_map, List.forall_mem_flatMap, Option.mem_toList, Prod.forall]
  rfl

namespace Fits

theorem lines (h : t.Fits src P p kind) : ∀ n ∈ t.lines src, P (.line p n) :=
  (fits_iff.1 h).1

theorem linesIn (h : t.Fits src P p kind) : ∀ n ∈ t.lines src, P (.line (scopeIn src p kind t) n) :=
  (fits_iff.1 h).2.1

theorem span (h : t.Fits src P p kind) : P (.span (t.span src)) :=
  (fits_iff.1 h).2.2.1

theorem jump (h : t.Fits src P p kind) {j : Jump} {label : Option Text}
    (hj : t.jump? src kind = some (j, label)) : P (.jump p j label) :=
  (fits_iff.1 h).2.2.2.1 j label hj

theorem child (h : t.Fits src P p kind) (hc : c ∈ t.children) :
    c.Fits src P (scopeUnder src p kind t c) (kindUnder kind c) :=
  (fits_iff.1 h).2.2.2.2 c hc

theorem ends (h : t.Fits src P p kind) : (t.span src).Fits P p :=
  ⟨forall_lines_start h.lines, forall_lines_stop h.lines⟩

/-- A child that is no branch and no body of a loop. -/
theorem childIn (h : t.Fits src P p kind) (hc : c ∈ t.children) (hb : isBlockOf kind c = false) :
    c.Fits src P (scopeIn src p kind t) c.kind := by
  have hk : kindUnder kind c = c.kind := by
    unfold kindUnder
    refine if_neg fun ha => ?_
    simp only [Bool.and_eq_true, decide_eq_true_eq] at ha
    simp [isBlockOf, ha] at hb
  have := h.child hc
  rwa [scopeUnder, if_neg (by simp [hb]), hk] at this

/-- A branch that is no alternative, or the body of a loop. -/
theorem block (h : t.Fits src P p kind) (hc : c ∈ t.children) (hb : isBlockOf kind c)
    (ha : c.info.field ≠ some "alternative") :
    c.Fits src P (.block (c.span src) :: scopeIn src p kind t) c.kind := by
  have hk : kindUnder kind c = c.kind := by
    simp [kindUnder, ha]
  have := h.child hc
  rwa [scopeUnder, if_pos hb, hk] at this

theorem lineIn (h : t.Fits src P p kind) : P (.line (scopeIn src p kind t) (t.line src)) :=
  forall_lines_start h.linesIn

end Fits

/-- A node of such a kind is no loop, no branching and no label, so its children are in its own scope. -/
def isTransparent (kind : String) : Bool :=
  !routineKinds.contains kind && !loopKinds.contains kind && kind != "labeled_statement" &&
    kind != "if_statement"

theorem Fits.through (h : t.Fits src P p kind) (hk : isTransparent kind) (hc : c ∈ t.children) :
    c.Fits src P p c.kind := by
  simp only [isTransparent, Bool.and_eq_true, Bool.not_eq_true', bne_iff_ne, ne_eq] at hk
  obtain ⟨⟨⟨hr, hl⟩, hb⟩, hi⟩ := hk
  have := h.childIn hc (by simp [isBlockOf, -List.contains_eq_mem, hl, hi])
  simpa only [scopeIn, hr, hl, hb, Bool.false_eq_true, if_false] using this

theorem Fits.inRoutine (h : t.Fits src P p kind) (hk : routineKinds.contains kind) (hc : c ∈ t.children) :
    c.Fits src P [.body (t.span src)] c.kind := by
  have hb : isBlockOf kind c = false := by
    simp only [routineKinds, functionKinds, List.contains_eq_mem, List.mem_cons, List.not_mem_nil, or_false,
      decide_eq_true_eq] at hk
    rcases hk with rfl | rfl | rfl | rfl | rfl | rfl | rfl <;> simp [isBlockOf, loopKinds]
  have := h.childIn hc hb
  rwa [scopeIn, if_pos hk] at this

mutual

theorem forall_lines {Q : Nat → Prop} (hq : ∀ offset, Q (src.lineAt offset)) : ∀ t : Tree, ∀ n ∈ t.lines src, Q n
  | .node i cs => by
    rw [lines, List.forall_mem_cons, List.forall_mem_cons]
    exact ⟨hq i.start, hq i.stop, forall_linesIn hq cs⟩

theorem forall_linesIn {Q : Nat → Prop} (hq : ∀ offset, Q (src.lineAt offset)) :
    ∀ cs : List Tree, ∀ n ∈ linesIn src cs, Q n
  | [] => fun _ h => nomatch h
  | c :: rest => by
    rw [linesIn, List.forall_mem_append]
    exact ⟨forall_lines hq c, forall_linesIn hq rest⟩

end

/-- Whether all lines and jumps, and the spans of all nodes with a property that goes down a tree, fit. -/
structure Inherits (src : Source) (P : Site → Prop) (Q : Tree → Prop) : Prop where
  child : ∀ t, Q t → ∀ c ∈ t.children, Q c
  line : ∀ p offset, P (.line p (src.lineAt offset))
  span : ∀ t, Q t → P (.span (t.span src))
  jump : ∀ p kind label, P (.jump p kind label)

mutual

theorem Inherits.fits {Q : Tree → Prop} (h : Inherits src P Q) :
    ∀ t : Tree, Q t → ∀ (p : Scope) (kind : String), t.Fits src P p kind
  | .node i cs, ht, p, kind => by
    have lines (p : Scope) : ∀ n ∈ (node i cs).lines src, P (.line p n) := forall_lines (h.line p) _
    refine fits_iff.2 ⟨lines p, lines _, h.span _ ht, fun _ _ _ => h.jump _ _ _, fun c hc => ?_⟩
    exact h.fitsAll cs (h.child _ ht) c hc _ _

theorem Inherits.fitsAll {Q : Tree → Prop} (h : Inherits src P Q) :
    ∀ cs : List Tree, (∀ c ∈ cs, Q c) → ∀ c ∈ cs, ∀ (p : Scope) (kind : String), c.Fits src P p kind
  | [], _ => fun _ hc => nomatch hc
  | c :: rest, hcs => by
    rw [List.forall_mem_cons] at hcs ⊢
    exact ⟨h.fits c hcs.1, h.fitsAll rest hcs.2⟩

end

end Tree

end ScriptTrace
