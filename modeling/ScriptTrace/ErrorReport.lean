import ScriptTrace.Run.Loop
import ScriptTrace.Tree
import ScriptTrace.Validation
/-!
# Error reports

What a caller is told when something ends badly: the class of the error, a plain text, and the place. The
**message** is the text with the place behind it. An error is **fatal** if it ends a whole run.
-/
namespace ScriptTrace

inductive ErrorClass
  /-- An error of no class in particular. -/
  | general
  | refusal
  | violation
  | failure
  | trip
  | invalid
  /-- A value that cannot be used; it has no place. -/
  | badValue
  /-- Something of a kind that cannot be used; it has no place. -/
  | badType
  /-- The native stack is used up; it has no place. -/
  | exhausted
  /-- A limit that cannot be set; it has no place. -/
  | overflow
deriving DecidableEq, Repr

def ErrorClass.isFatal : ErrorClass → Bool
  | .refusal | .violation | .invalid => true
  | .general | .failure | .trip | .badValue | .badType | .exhausted | .overflow => false

/-- Whether an error of the class can name a place in the program. -/
def ErrorClass.hasPlace : ErrorClass → Bool
  | .general | .refusal | .violation | .failure | .trip | .invalid => true
  | .badValue | .badType | .exhausted | .overflow => false

structure ErrorReport where
  cls : ErrorClass
  text : Text
  line : Option Int := none
  column : Option Int := none
  guard : Text := .empty
deriving DecidableEq, Repr

namespace ErrorReport

/-- The place as it stands behind the text. -/
def place (r : ErrorReport) : Text :=
  match r.line with
  | none => .empty
  | some line =>
    if r.cls = .refusal then
      Text.concat [" (line ", Text.ofInt line, ", column ", (r.column.map Text.ofInt).getD "None", ")"]
    else Text.concat [" (line ", Text.ofInt line, ")"]

def message (r : ErrorReport) : Text :=
  r.text ++ r.place

end ErrorReport

def Tree.Refusal.report (r : Tree.Refusal) : ErrorReport where
  cls := .refusal
  text := r.message
  line := some r.line
  column := some r.column

def Fault.report : Fault → ErrorReport
  | .failure cause line => { cls := .failure, text := cause.message, line := line.map Int.ofNat }
  | .violation why line => { cls := .violation, text := why.message, line := some line }
  | .badIndex b => { cls := .badValue, text := b.message }
  | .misfit m => { cls := .badType, text := m.message }
  | .exhausted => { cls := .exhausted, text := exhaustedMessage }

def Obstacle.report (o : Obstacle) : ErrorReport where
  cls := if o = .exhausted then .exhausted else .badValue
  text := o.message

def Headroom.report : ErrorReport where
  cls := .overflow
  text := refusal

def Trip.report (cfg : Config) (line : Int) (t : Trip) : ErrorReport where
  cls := .trip
  text := t.message cfg
  line := some line
  guard := t.name

def Invalid.report (i : Invalid) : ErrorReport where
  cls := .invalid
  text := i.message
  line := i.line?.map Int.ofNat

def OptionError.report (e : OptionError) : ErrorReport where
  cls :=
    match e with
    | .unknown _ _ => .badType
    | _ => .badValue
  text := e.message

end ScriptTrace
