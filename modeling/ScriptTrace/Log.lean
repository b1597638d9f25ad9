import ScriptTrace.Text.Basic
/-!
# Log lines

What a run tells besides its steps. A line names the part of the program that wrote it.
-/
namespace ScriptTrace

inductive Level
  | info
  | warning
deriving DecidableEq, Repr

/-- The parts that write log lines. -/
inductive Origin
  | evaluator
  | functions
  | loops
  | parser
  | recorder
  | run
  | statements
deriving DecidableEq, Repr

def Origin.name : Origin → Text
  | .evaluator => "evaluator"
  | .functions => "functions"
  | .loops => "loops"
  | .parser => "parser"
  | .recorder => "recorder"
  | .run => "run"
  | .statements => "statements"

structure Log where
  origin : Origin
  level : Level
  text : Text
deriving DecidableEq, Repr

/-- A line after the name of its origin. -/
def Log.labelled (l : Log) : Text :=
  Text.concat [l.origin.name, ": ", l.text]

end ScriptTrace
