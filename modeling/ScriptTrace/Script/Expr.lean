import ScriptTrace.Value.Operator
/-!
# Expressions

Parentheses and type annotations leave no trace in an expression; a part that is not there is
`undefined`. A construct outside the language is kept by the name of its kind, since running it is
reported. Line numbers stand where a message or a failure names one.
-/
namespace ScriptTrace

/-- Operators that may leave their right operand alone. -/
inductive LogicalOp
  | and
  | or
  | coalesce
deriving DecidableEq, Repr

inductive Operator
  | strict (op : BinaryOp)
  | logical (op : LogicalOp)
  | unsupported (spelling : Text)
deriving DecidableEq, Repr

def Operator.ofText (spelling : Text) : Operator :=
  if spelling = "&&" then .logical .and
  else if spelling = "||" then .logical .or
  else if spelling = "??" then .logical .coalesce
  else
    match BinaryOp.ofText? spelling with
    | some op => .strict op
    | none => .unsupported spelling

inductive UnaryOp
  | minus
  | plus
  | not
  | complement
  | typeName
  | void
  | unsupported (spelling : Text)
deriving DecidableEq, Repr

def UnaryOp.ofText (spelling : Text) : UnaryOp :=
  if spelling = "-" then .minus
  else if spelling = "+" then .plus
  else if spelling = "!" then .not
  else if spelling = "~" then .complement
  else if spelling = "typeof" then .typeName
  else if spelling = "void" then .void
  else .unsupported spelling

/-- What stands before the arguments of a call. -/
inductive Callee
  /-- A console method; its arguments are queued as output. -/
  | console
  | name (x : Text)
  /-- Anything else, by its source text. -/
  | other (text : Text)
deriving DecidableEq, Repr

mutual

inductive Expr
  | name (line : Nat) (x : Text)
  | number (literal : Text)
  /-- A string literal, by the raw text between its quotes. -/
  | string (raw : Text)
  /-- A template: raw texts and the expressions between them. -/
  | template (raws : List Text) (holes : List Expr)
  | bool (b : Bool)
  | null
  | undefined
  | unary (line : Nat) (op : UnaryOp) (operand : Expr)
  | binary (line : Nat) (op : Operator) (left right : Expr)
  | conditional (test yes no : Expr)
  | update (up isPrefix : Bool) (target : Target)
  | assign (target : Target) (right : Expr)
  | augment (line : Nat) (target : Target) (op : Operator) (right : Expr)
  | array (items : List Expr)
  | object (members : List Member)
  | property (line : Nat) (holder : Expr) (key : Key)
  | call (line : Nat) (callee : Callee) (args : List Expr)
  | sequence (items : List Expr)
  | spread
  | function (name : Text)
  | unsupported (line : Nat) (kind : String)

/-- How a property is named: by a word, by a literal, or by an expression. -/
inductive Key
  | fixed (name : Text)
  | string (raw : Text)
  | number (literal : Text)
  | computed (e : Expr)

/-- A member of an object literal. -/
inductive Member
  | pair (key : Key) (value : Expr)
  | shorthand (line : Nat) (x : Text)
  | method (key : Key)
  | unsupported (line : Nat) (kind : String)

/-- What an assignment writes to. -/
inductive Target
  | name (line : Nat) (x : Text)
  | property (line : Nat) (holder : Expr) (key : Key)
  | invalid (line : Nat) (kind : String) (e : Expr)

end

instance : Inhabited Expr := ⟨.undefined⟩

instance : Inhabited Target := ⟨.invalid 0 "" .undefined⟩

/-- An expression together with its source text. -/
structure Snippet where
  text : Text
  expr : Expr
deriving Inhabited

end ScriptTrace
