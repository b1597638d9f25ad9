import ScriptTrace.Tree
import ScriptTrace.Script.Stmt
/-!
# From trees to scripts

How each kind of node is read. A reader of a node is given the readers of smaller nodes, so none of them
is recursive; `Expr.ofTree` and `Stmt.ofTree` close the circle, once for each level of the tree.
-/
namespace ScriptTrace

/-- The readers of smaller nodes. -/
structure Readers where
  expr : Tree → Expr
  target : Tree → Target

namespace Tree

/-- Kinds that are read as what they enclose. -/
def wrapperKinds : List String :=
  ["parenthesized_expression", "as_expression", "satisfies_expression", "non_null_expression"]

/-- Kinds of function expressions. -/
def functionKinds : List String :=
  ["arrow_function", "function_expression", "function", "generator_function"]

def consoleMethods : List Text := ["log", "info", "warn", "error", "debug"]

/-- The text of the child with a field name. -/
def fieldText (src : Source) (t : Tree) (name : String) : Text :=
  (t.field? name).elim .empty (text src)

def span (src : Source) (t : Tree) : Span :=
  ⟨t.line src, t.endLine src⟩

end Tree

open ScriptTrace.Tree

/-- An expression that may be missing. -/
def Expr.ofPart (expr : Tree → Expr) : Option Tree → Expr
  | none => .undefined
  | some t => expr t

def Key.read (src : Source) (expr : Tree → Expr) (t : Tree) : Key :=
  match t.kind with
  | "string" => .string ⟨(t.text src).codes.tail.dropLast⟩
  | "number" => .number (t.text src)
  | "computed_property_name" => .computed (Expr.ofPart expr t.parts.head?)
  | _ => .fixed (t.text src)

def Key.readField (src : Source) (expr : Tree → Expr) (t : Tree) (name : String) : Key :=
  match t.field? name with
  | some k => Key.read src expr k
  | none => .fixed .empty

def Member.read (src : Source) (expr : Tree → Expr) (t : Tree) : Member :=
  match t.kind with
  | "pair" => .pair (Key.readField src expr t "key") (Expr.ofPart expr (t.field? "value"))
  | "shorthand_property_identifier" => .shorthand (t.line src) (t.text src)
  | "method_definition" => .method (Key.readField src expr t "name")
  | kind => .unsupported (t.line src) kind

def Callee.read (src : Source) (t : Tree) : Callee :=
  match t.kind with
  | "identifier" => .name (t.text src)
  | "member_expression" =>
    match t.field? "object", t.field? "property" with
    | some holder, some method =>
      if holder.kind == "identifier" && holder.text src == "console" &&
        consoleMethods.contains (method.text src) then .console
      else .other (t.text src)
    | _, _ => .other (t.text src)
  | _ => .other (t.text src)

/-- The raw texts between the holes of a template. -/
def templateRaws (src : Source) (t : Tree) (holes : List Tree) : List Text :=
  let starts := (t.info.start + 1) :: holes.map (·.info.stop)
  let stops := holes.map (·.info.start) ++ [t.info.stop - 1]
  List.zipWith src.slice starts stops

/-- Reading a property access: the holder and how the property is named. -/
def readAccess (src : Source) (expr : Tree → Expr) (t : Tree) : Expr × Key :=
  let holder := Expr.ofPart expr (t.field? "object")
  if t.kind == "member_expression" then (holder, .fixed (t.fieldText src "property"))
  else (holder, .computed (Expr.ofPart expr (t.field? "index")))

def Target.readField (sub : Readers) (t : Tree) (name : String) : Target :=
  (t.field? name).elim default sub.target

def Expr.readNode (src : Source) (sub : Readers) (t : Tree) : Expr :=
  let line := t.line src
  let part (name : String) : Expr := Expr.ofPart sub.expr (t.field? name)
  match t.kind with
  | "identifier" => .name line (t.text src)
  | "number" => .number (t.text src)
  | "string" => .string ⟨(t.text src).codes.tail.dropLast⟩
  | "template_string" =>
    let holes := t.children.filter (·.kind == "template_substitution")
    .template (templateRaws src t holes) (holes.map fun c => Expr.ofPart sub.expr c.parts.head?)
  | "true" => .bool true
  | "false" => .bool false
  | "null" => .null
  | "undefined" => .undefined
  | "type_assertion" => Expr.ofPart sub.expr t.parts.getLast?
  | "unary_expression" => .unary line (UnaryOp.ofText (t.fieldText src "operator")) (part "argument")
  | "binary_expression" =>
    .binary line (Operator.ofText (t.fieldText src "operator")) (part "left") (part "right")
  | "ternary_expression" => .conditional (part "condition") (part "consequence") (part "alternative")
  | "update_expression" =>
    let isPrefix := (t.children.head?).any fun c => c.kind == "++" || c.kind == "--"
    .update (t.fieldText src "operator" == "++") isPrefix (Target.readField sub t "argument")
  | "assignment_expression" => .assign (Target.readField sub t "left") (part "right")
  | "augmented_assignment_expression" =>
    let spelling : Text := ⟨(t.fieldText src "operator").codes.dropLast⟩
    .augment line (Target.readField sub t "left") (Operator.ofText spelling) (part "right")
  | "array" => .array (t.parts.map sub.expr)
  | "object" => .object (t.parts.map (Member.read src sub.expr))
  | "member_expression" | "subscript_expression" =>
    let (holder, key) := readAccess src sub.expr t
    .property line holder key
  | "call_expression" =>
    let callee := (t.field? "function").elim (.other "?") (Callee.read src)
    .call line callee ((t.field? "arguments").elim [] fun a => a.parts.map sub.expr)
  | "sequence_expression" => .sequence (t.parts.map sub.expr)
  | "spread_element" => .spread
  | kind =>
    if wrapperKinds.contains kind then Expr.ofPart sub.expr t.parts.head?
    else if functionKinds.contains kind then
      .function ((t.field? "name").elim Value.anonymous (Tree.text src))
    else .unsupported line kind

def Target.read (src : Source) (sub : Readers) (t : Tree) : Target :=
  match t.kind with
  | "identifier" => .name (t.line src) (t.text src)
  | "member_expression" | "subscript_expression" =>
    let (holder, key) := readAccess src sub.expr t
    .property (t.line src) holder key
  | "parenthesized_expression" =>
    match t.parts.head? with
    | some inner => sub.target inner
    | none => .invalid (t.line src) t.kind .undefined
  | kind => .invalid (t.line src) kind (Expr.readNode src sub t)

/-- Readers for trees of at most the given height. -/
def Readers.upTo (src : Source) : Nat → Readers
  | 0 => ⟨fun t => .unsupported (t.line src) t.kind, fun t => .invalid (t.line src) t.kind .undefined⟩
  | n + 1 => ⟨Expr.readNode src (upTo src n), Target.read src (upTo src n)⟩

def Expr.ofTree (src : Source) (t : Tree) : Expr :=
  (Readers.upTo src t.height).expr t

def Target.ofTree (src : Source) (t : Tree) : Target :=
  (Readers.upTo src t.height).target t

def Snippet.ofTree (src : Source) (t : Tree) : Snippet :=
  ⟨t.text src, Expr.ofTree src t⟩

/-- The pattern and the default value of a parameter. -/
def parameterParts (t : Tree) : Option Tree × Option Tree :=
  let (pattern, default) :=
    if t.kind == "required_parameter" || t.kind == "optional_parameter" then
      (t.field? "pattern", t.field? "value")
    else (some t, none)
  match pattern with
  | some p =>
    if p.kind == "assignment_pattern" then (p.field? "left", p.field? "right") else (pattern, default)
  | none => (pattern, default)

/-- Adds a parameter to a routine; only plain names are parameters of the language. -/
def Routine.addParameter {σ : Type} (src : Source) (r : Routine σ) (t : Tree) : Routine σ :=
  let unsupported : Routine σ := { r with ignored := r.ignored ++ [(t.kind, t.line src)] }
  match parameterParts t with
  | (some p, default) =>
    if p.kind == "identifier" then
      let name := p.text src
      { r with
        params := r.params ++ [name]
        defaults := default.elim r.defaults fun d => r.defaults.insert name (Snippet.ofTree src d) }
    else unsupported
  | (none, _) => unsupported

/-- The routine of a function node. -/
def Routine.read {σ : Type} (src : Source) (stmt : Tree → σ) (t : Tree) : Routine σ :=
  let body := t.field? "body"
  let isBlock := body.any (·.kind == "statement_block")
  let bare : Routine σ :=
    { params := []
      defaults := []
      ignored := []
      body := if isBlock then body.elim [] fun b => b.parts.map stmt else []
      result := if isBlock then none else body.map (Snippet.ofTree src)
      span := t.span src }
  match (t.field? "parameters").or (t.field? "parameter") with
  | none => bare
  | some p =>
    if p.kind == "identifier" then { bare with params := [p.text src] }
    else p.parts.foldl (Routine.addParameter src) bare

def Declarator.read {σ : Type} (src : Source) (stmt : Tree → σ) (t : Tree) : Declarator σ :=
  match t.field? "name" with
  | none => .pattern (t.line src)
  | some name =>
    if name.kind == "identifier" then
      .bind (name.text src) <|
        match t.field? "value" with
        | none => .absent
        | some v =>
          if functionKinds.contains v.kind then .routine (Routine.read src stmt v)
          else .value (Expr.ofTree src v)
    else .pattern (t.line src)

def Declaration.read {σ : Type} (src : Source) (stmt : Tree → σ) (t : Tree) : Declaration σ where
  keeps := t.kind == "variable_declaration"
  constant := ((t.field? "kind").or t.children.head?).any fun (k : Tree) => k.text src == ("const" : Text)
  declarators := (t.parts.filter (·.kind == "variable_declarator")).map (Declarator.read src stmt)

/-- Whether a kind is a declaration of variables. -/
def isDeclarationKind (kind : String) : Bool :=
  kind == "lexical_declaration" || kind == "variable_declaration"

/-- A clause in the head of a counting loop, if it is there. -/
def clause? (t : Tree) (name : String) : Option Tree :=
  match t.field? name with
  | none => none
  | some c =>
    if c.kind == "empty_statement" || c.kind == ";" then none
    else if c.kind == "expression_statement" then c.parts.head?
    else some c

def Opening.read {σ : Type} (src : Source) (stmt : Tree → σ) : Option Tree → Opening σ
  | none => .absent
  | some c =>
    if isDeclarationKind c.kind then .declare (Declaration.read src stmt c)
    else .eval (Expr.ofTree src c)

/-- Statements that do nothing when run. -/
def skippedKinds : List String :=
  ["empty_statement", "hash_bang_line", "function_signature", "comment", "html_comment",
    "interface_declaration", "type_alias_declaration", "ambient_declaration", "import_statement"]

/-- The body of a loop, a branch or a labelled statement, and its span. -/
def readBody (src : Source) (stmt : Tree → Stmt) (t : Tree) (name : String) : Span × Stmt :=
  match t.field? name with
  | some b => (b.span src, stmt b)
  | none => (t.span src, .skipped (t.span src) "empty_statement")

def Stmt.readNode (src : Source) (stmt : Tree → Stmt) (t : Tree) : Stmt :=
  let span := t.span src
  let part (name : String) : Expr := Expr.ofPart (Expr.ofTree src) (t.field? name)
  match t.kind with
  | "lexical_declaration" | "variable_declaration" => .declare span (Declaration.read src stmt t)
  | "expression_statement" => .expression span (t.parts.head?.map (Expr.ofTree src))
  | "statement_block" => .block span (t.parts.map stmt)
  | "if_statement" =>
    let (yesSpan, yes) := readBody src stmt t "consequence"
    match t.field? "alternative" with
    | none => .ifThen span (part "condition") yesSpan yes
    | some a =>
      match a.parts.head? with
      | none => .ifThen span (part "condition") yesSpan yes
      | some branch => .ifElse span (part "condition") yesSpan yes (a.span src) (stmt branch)
  | "for_statement" =>
    let (bodySpan, body) := readBody src stmt t "body"
    let update := (clause? t "increment").or (clause? t "update")
    .forLoop span (Opening.read src stmt (clause? t "initializer"))
      ((clause? t "condition").map (Expr.ofTree src)) (update.map (Expr.ofTree src)) bodySpan body
  | "while_statement" =>
    let (bodySpan, body) := readBody src stmt t "body"
    .whileLoop span (part "condition") bodySpan body
  | "do_statement" =>
    let (bodySpan, body) := readBody src stmt t "body"
    let testLine := (t.field? "condition").elim span.first (Tree.line src)
    .doLoop span testLine (part "condition") bodySpan body
  | "break_statement" => .jump span .leave ((t.field? "label").map (Tree.text src))
  | "continue_statement" => .jump span .next ((t.field? "label").map (Tree.text src))
  | "return_statement" => .answer span (t.parts.head?.map (Expr.ofTree src))
  | "function_declaration" => .function span false (t.fieldText src "name") (Routine.read src stmt t)
  | "generator_function_declaration" =>
    .function span true (t.fieldText src "name") (Routine.read src stmt t)
  | "labeled_statement" => .labeled span (t.fieldText src "label") (readBody src stmt t "body").2
  | kind => if skippedKinds.contains kind then .skipped span kind else .unsupported span kind

/-- The reader of statements for trees of at most the given height. -/
def Stmt.readUpTo (src : Source) : Nat → Tree → Stmt
  | 0, t => .unsupported (t.span src) t.kind
  | n + 1, t => Stmt.readNode src (readUpTo src n) t

def Stmt.ofTree (src : Source) (t : Tree) : Stmt :=
  Stmt.readUpTo src t.height t

/-- The top-level statements of a program. -/
def Stmt.program (src : Source) (t : Tree) : List Stmt :=
  t.parts.map (Stmt.ofTree src)

end ScriptTrace
