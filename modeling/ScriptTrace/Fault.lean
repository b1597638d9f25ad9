import ScriptTrace.Number.Numeral
import ScriptTrace.Text.Inspect
/-!
# Faults

What cuts the evaluation of an expression or a statement short.

* A **failure** belongs to the script and is contained by the innermost statement around it.
* A **violation** is a jump with nowhere to go; it ends the run.
* A **bad index** is a key that looks like a number and cannot be read as one, and a **misfit** is something
  in the heap that no script can have put there; no statement contains them, only the top level of the program
  does.
* The evaluation is **exhausted** when it has used up the native stack; the innermost call around it answers that, and
  the top level of the program if there is none.
-/
namespace ScriptTrace

/-- Why a statement failed. -/
inductive Cause
  | textTooLong
  | constantAssignment
  /-- Writing a property of null or undefined. -/
  | nullishWrite (holder key : Text)
  | invalidLength
deriving DecidableEq, Repr

def Cause.message : Cause → Text
  | .textTooLong => "RangeError: Invalid string length"
  | .constantAssignment => "TypeError: Assignment to constant variable."
  | .nullishWrite holder key =>
    Text.concat ["TypeError: Cannot set properties of ", holder, " (setting '", key, "')"]
  | .invalidLength => "RangeError: Invalid array length"

/-- The two statements that jump. -/
inductive Jump
  | leave
  | next
deriving DecidableEq, Repr

def Jump.keyword : Jump → Text
  | .leave => "break"
  | .next => "continue"

/-- Why a jump has nowhere to go. -/
inductive Violation
  | undefinedLabel (jump : Jump) (label : Text)
  | outsideLoop (jump : Jump)
deriving DecidableEq, Repr

def Violation.message : Violation → Text
  | .undefinedLabel jump label =>
    Text.concat ["Undefined label '", label, "' in ", jump.keyword, " statement"]
  | .outsideLoop jump => Text.concat ["Illegal ", jump.keyword, " statement outside of a loop"]

/-- A key that looks like a number and cannot be read as one. -/
structure BadIndex where
  key : Text
  why : Numeral.Unreadable
deriving DecidableEq, Repr

def BadIndex.message (b : BadIndex) : Text :=
  match b.why with
  | .noNumeral => "invalid literal for int() with base 10: " ++ b.key.inspect.take 200
  | .tooManyDigits count =>
    Text.concat ["Exceeds the limit (", (Numeral.maxDigits : Text),
      " digits) for integer string conversion: value has ", (count : Text),
      " digits; use sys.set_int_max_str_digits() to increase the limit"]

/-- What an operation cannot deal with. -/
inductive Misfit
  /-- Something that is no script value. -/
  | notAValue
  /-- An entry of an object under something that has no name in JSON. -/
  | unnamedKey (name : Text)
deriving DecidableEq, Repr

def Misfit.message : Misfit → Text
  | .notAValue => "Not a runtime value: 1j"
  | .unnamedKey name => "keys must be str, int, float, bool or None, not " ++ name

inductive Fault
  | failure (cause : Cause) (line : Option Nat)
  | violation (why : Violation) (line : Nat)
  | badIndex (b : BadIndex)
  | misfit (m : Misfit)
  | exhausted
deriving DecidableEq, Repr

def Fault.exhaustedMessage : Text := "maximum recursion depth exceeded"

end ScriptTrace
