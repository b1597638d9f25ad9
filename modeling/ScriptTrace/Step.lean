import ScriptTrace.Plain.Basic
/-!
# Steps

A **step** is one observable point of a run: a source line, the variables as plain data, what kind of
event it was, and, where there is one, the block it stands in, console output, a message and the outcome
of a test.
-/
namespace ScriptTrace

inductive BlockKind
  | function
  | forLoop
  | whileLoop
  | ifBranch
  | elseBranch
deriving DecidableEq, Repr

namespace BlockKind

def name : BlockKind → Text
  | .function => "function"
  | .forLoop => "for"
  | .whileLoop => "while"
  | .ifBranch => "if"
  | .elseBranch => "else"

def all : List BlockKind := [.function, .forLoop, .whileLoop, .ifBranch, .elseBranch]

def ofText? (t : Text) : Option BlockKind :=
  all.find? (·.name = t)

end BlockKind

/-- A range of lines and what it is. -/
structure Block where
  kind : BlockKind
  first : Int
  last : Int
deriving DecidableEq, Repr

inductive StepKind
  | statement
  | condition
  | loopInit
  | loopUpdate
  | loopComplete
  | control
  | call
  | functionEnter
  | functionReturn
  | functionExit
  | diagnostic
  | error
  | programEnd
deriving DecidableEq, Repr

namespace StepKind

def name : StepKind → Text
  | .statement => "statement"
  | .condition => "condition"
  | .loopInit => "loop_init"
  | .loopUpdate => "loop_update"
  | .loopComplete => "loop_complete"
  | .control => "control"
  | .call => "call"
  | .functionEnter => "function_enter"
  | .functionReturn => "function_return"
  | .functionExit => "function_exit"
  | .diagnostic => "diagnostic"
  | .error => "error"
  | .programEnd => "program_end"

def all : List StepKind :=
  [.statement, .condition, .loopInit, .loopUpdate, .loopComplete, .control, .call, .functionEnter,
    .functionReturn, .functionExit, .diagnostic, .error, .programEnd]

def ofText? (t : Text) : Option StepKind :=
  all.find? (·.name = t)

/-- Kinds that a later step of the same line does not replace. -/
def isSticky : StepKind → Bool
  | .diagnostic | .error => true
  | _ => false

end StepKind

structure Step where
  line : Nat
  code : Text
  vars : List (Text × Plain)
  kind : StepKind
  block : Option Block
  output : Option Plain
  message : Option Text
  condition : Option Bool
deriving Repr

namespace Step

/-- How a block is written on the wire. -/
def wireBlock (b : Block) : List (Text × Plain) :=
  [("blockType", .text b.kind.name),
    ("blockRange", .record [("start", .number (.int b.first)), ("end", .number (.int b.last))])]

/-- The fields of a step on the wire, in order. -/
def wire (s : Step) : List (Text × Plain) :=
  List.flatten [
    [("line", .number (.int s.line)), ("code", .text s.code),
      ("variables", .record (Plain.wireFields s.vars)), ("kind", .text s.kind.name)],
    s.block.elim [] wireBlock,
    s.output.toList.map fun o => ("output", o.wire),
    s.message.toList.map fun m => ("message", .text m),
    s.condition.toList.map fun c => ("condition", .bool c)]

end Step

end ScriptTrace
