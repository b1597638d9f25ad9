import ScriptTrace.Fault
import ScriptTrace.Script.Expr
/-!
# Statements

A statement covers a **span** of lines. A **routine** is the body of a function with its parameters; it
becomes callable when the statement that introduces it runs.
-/
namespace ScriptTrace

/-- The first and the last line of a construct. -/
structure Span where
  first : Nat
  last : Nat
deriving DecidableEq, Repr, Inhabited

/-- A function's parameters and body. -/
structure Routine (σ : Type) where
  params : List Text
  /-- Default values, by the name of the parameter. -/
  defaults : Assoc Text Snippet
  /-- Parameters outside the language: kind and line. -/
  ignored : List (String × Nat)
  body : List σ
  /-- The expression a body without braces consists of. -/
  result : Option Snippet
  span : Span
deriving Inhabited

/-- What a declared name starts with. -/
inductive Initial (σ : Type)
  | absent
  | routine (r : Routine σ)
  | value (e : Expr)

inductive Declarator (σ : Type)
  | bind (name : Text) (init : Initial σ)
  /-- A pattern in place of a name. -/
  | pattern (line : Nat)

structure Declaration (σ : Type) where
  /-- Whether a name that is bound keeps its value if none is given. -/
  keeps : Bool
  constant : Bool
  declarators : List (Declarator σ)

/-- The first clause of a counting loop. -/
inductive Opening (σ : Type)
  | absent
  | declare (d : Declaration σ)
  | eval (e : Expr)

inductive Stmt
  /-- A construct that does nothing when run. -/
  | skipped (span : Span) (kind : String)
  | unsupported (span : Span) (kind : String)
  | declare (span : Span) (d : Declaration Stmt)
  | expression (span : Span) (e : Option Expr)
  | block (span : Span) (body : List Stmt)
  | ifThen (span : Span) (test : Expr) (yesSpan : Span) (yes : Stmt)
  | ifElse (span : Span) (test : Expr) (yesSpan : Span) (yes : Stmt) (noSpan : Span) (no : Stmt)
  | forLoop (span : Span) (opening : Opening Stmt) (test update : Option Expr) (bodySpan : Span)
    (body : Stmt)
  | whileLoop (span : Span) (test : Expr) (bodySpan : Span) (body : Stmt)
  | doLoop (span : Span) (testLine : Nat) (test : Expr) (bodySpan : Span) (body : Stmt)
  | jump (span : Span) (kind : Jump) (label : Option Text)
  | answer (span : Span) (value : Option Expr)
  | function (span : Span) (generator : Bool) (name : Text) (r : Routine Stmt)
  | labeled (span : Span) (label : Text) (body : Stmt)

namespace Stmt

instance : Inhabited Stmt := ⟨.skipped ⟨1, 1⟩ "empty_statement"⟩

def span : Stmt → Span
  | .skipped s _ | .unsupported s _ | .declare s _ | .expression s _ | .block s _ => s
  | .ifThen s .. | .ifElse s .. | .forLoop s .. | .whileLoop s .. | .doLoop s .. => s
  | .jump s .. | .answer s _ | .function s .. | .labeled s .. => s

/-- The line on which a statement starts. -/
def line (s : Stmt) : Nat :=
  s.span.first

/-- The name of a statement's kind in the grammar. -/
def kindName : Stmt → String
  | .skipped _ kind | .unsupported _ kind => kind
  | .declare _ d => if d.keeps then "variable_declaration" else "lexical_declaration"
  | .expression .. => "expression_statement"
  | .block .. => "statement_block"
  | .ifThen .. | .ifElse .. => "if_statement"
  | .forLoop .. => "for_statement"
  | .whileLoop .. => "while_statement"
  | .doLoop .. => "do_statement"
  | .jump _ .leave _ => "break_statement"
  | .jump _ .next _ => "continue_statement"
  | .answer .. => "return_statement"
  | .function _ generator .. =>
    if generator then "generator_function_declaration" else "function_declaration"
  | .labeled .. => "labeled_statement"

def isSkipped : Stmt → Bool
  | .skipped .. => true
  | _ => false

def isBlock : Stmt → Bool
  | .block .. => true
  | _ => false

def isLoop : Stmt → Bool
  | .forLoop .. | .whileLoop .. | .doLoop .. => true
  | _ => false

end Stmt

end ScriptTrace
