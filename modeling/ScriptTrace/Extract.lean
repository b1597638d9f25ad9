import ScriptTrace.ErrorReport
/-!
# Extraction of functions

A tree is **accepted** if its language is known and nothing in it is wrong. The text of a function can be cut out of an
accepted program by name: of a function node that has the name itself, or of a function that a declarator of that name
is given. The first in preorder is taken.
-/
namespace ScriptTrace.Tree

/-- The tree of a program in a named language, unless the language or the tree is refused. -/
def accept (language : Text) (src : Source) (t : Tree) : Except ErrorReport Tree :=
  match Options.languageOf (.text language) with
  | .error e => .error e.report
  | .ok _ =>
    match t.refusal? src with
    | some r => .error r.report
    | none => .ok t

theorem accept_of_known {language : Text} (known : (Language.ofText? language).isSome) (src : Source) (t : Tree) :
    t.accept language src = (t.refusal? src).elim (.ok t) fun r => .error r.report := by
  obtain ⟨l, hl⟩ := Option.isSome_iff_exists.1 known
  have language : Options.languageOf (.text language) = .ok l := by simp only [Options.languageOf, hl]
  rw [accept, language]
  cases t.refusal? src with
  | none => rfl
  | some r => rfl

/-- Kinds of nodes that are functions. -/
def extractableKinds : List String :=
  ["function_declaration", "generator_function_declaration", "function_expression", "arrow_function",
    "method_definition"]

/-- The function that a node itself stands for under a name. -/
def functionHere? (src : Source) (name : Text) (t : Tree) : Option Tree :=
  let isNamed := (t.field? "name").any fun n => n.text src = name
  if extractableKinds.contains t.kind && isNamed then some t
  else if t.kind == "variable_declarator" && isNamed then
    (t.field? "value").filter fun v => extractableKinds.contains v.kind
  else none

mutual

/-- The first function of a name, in preorder. -/
def findFunction? (src : Source) (name : Text) : Tree → Option Tree
  | .node i cs =>
    match functionHere? src name (.node i cs) with
    | some f => some f
    | none => findFunctionIn? src name cs

def findFunctionIn? (src : Source) (name : Text) : List Tree → Option Tree
  | [] => none
  | c :: rest =>
    match findFunction? src name c with
    | some f => some f
    | none => findFunctionIn? src name rest

end

/-- What is told about a name that no function has. -/
def notFound (name : Text) : ErrorReport where
  cls := .badValue
  text := Text.concat ["Function '", name, "' not found in source"]

/-- The source text of the first function of a name. -/
def functionText? (src : Source) (name : Text) (t : Tree) : Option Text :=
  (findFunction? src name t).map (text src)

/-- The source text of the first function of a name in a program, if the program is accepted and has one. -/
def extract (language : Text) (src : Source) (name : Text) (t : Tree) : Except ErrorReport Text :=
  match t.accept language src with
  | .error e => .error e
  | .ok t =>
    match t.functionText? src name with
    | some function => .ok function
    | none => .error (notFound name)

theorem extract_of_known {language : Text} (known : (Language.ofText? language).isSome) (src : Source) (name : Text)
    {t : Tree} (sound : t.info.hasError = false) :
    t.extract language src name =
      (findFunction? src name t).elim (.error (notFound name)) fun f => .ok (f.text src) := by
  have accepted : t.accept language src = .ok t := by
    rw [accept_of_known known, refusal?, sound]
    rfl
  simp only [extract, accepted, functionText?]
  cases findFunction? src name t with
  | none => rfl
  | some f => rfl

end ScriptTrace.Tree
