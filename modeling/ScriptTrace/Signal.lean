import ScriptTrace.Value.Basic
/-!
# Signals

How a statement ended: normally, or by a jump that some statement around it has to take up.
-/
namespace ScriptTrace

inductive Signal
  | normal
  | leave (label : Option Text)
  | next (label : Option Text)
  | answer (v : Value)
deriving DecidableEq, Repr

namespace Signal

def isNormal : Signal → Bool
  | .normal => true
  | _ => false

def label : Signal → Option Text
  | .leave l | .next l => l
  | .normal | .answer _ => none

def value : Signal → Value
  | .answer v => v
  | _ => .undefined

def name : Signal → Text
  | .normal => "normal"
  | .leave _ => "break"
  | .next _ => "continue"
  | .answer _ => "return"

/-- Whether a loop that carries `loopLabel` may take up this signal. -/
def targets (s : Signal) (loopLabel : Option Text) : Bool :=
  s.label.isNone || s.label == loopLabel

/-- Whether the signal of its body ends a loop. -/
def exits (s : Signal) (loopLabel : Option Text) : Bool :=
  match s with
  | .normal => false
  | .next _ => !s.targets loopLabel
  | .leave _ | .answer _ => true

/-- What an ended loop passes on: a break meant for it is used up. -/
def settle (s : Signal) (loopLabel : Option Text) : Signal :=
  match s with
  | .leave _ => if s.targets loopLabel then .normal else s
  | s => s

end Signal

end ScriptTrace
