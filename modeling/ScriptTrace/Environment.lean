import ScriptTrace.Fault
import ScriptTrace.Value.Basic
/-!
# Environments

The variables of the one active frame: bindings in order of first declaration, and which of them are
constants. There is no outer scope; a call gets an environment of its own.
-/
namespace ScriptTrace

structure Environment where
  bindings : Assoc Text Value
  constants : List Text
deriving Repr, Inhabited

namespace Environment

def empty : Environment := ⟨[], []⟩

def has (env : Environment) (name : Text) : Bool :=
  env.bindings.contains name

def lookup? (env : Environment) (name : Text) : Option Value :=
  env.bindings.get? name

/-- Binds a name anew; it is a constant from now on exactly if `constant` says so. -/
def declare (env : Environment) (name : Text) (v : Value) (constant : Bool) : Environment where
  bindings := env.bindings.insert name v
  constants :=
    let others := env.constants.filter (· ≠ name)
    if constant then name :: others else others

/-- Rebinds a name, or adds it; a constant cannot be assigned. -/
def assign (env : Environment) (name : Text) (v : Value) : Except Cause Environment :=
  if env.constants.contains name then .error .constantAssignment
  else .ok { env with bindings := env.bindings.insert name v }

end Environment

end ScriptTrace
