import ScriptTrace.Assoc
import ScriptTrace.Datum
/-!
# Configurations

The limits of a run and how it records. **Options** are what a caller asks for, as loose data; they make a
configuration when every limit is a positive integer and the language is known. A truth value counts as
the integer zero or one; a **limit** that was given as one is shown as it was given.
-/
namespace ScriptTrace

inductive Language
  | javascript
  | typescript
deriving DecidableEq, Repr, Inhabited

namespace Language

def name : Language → Text
  | .javascript => "javascript"
  | .typescript => "typescript"

def ofText? (t : Text) : Option Language :=
  if t = name .javascript then some .javascript
  else if t = name .typescript then some .typescript
  else none

end Language

/-- A bound of a run. -/
structure Limit where
  count : Nat
  /-- Whether the bound was given as the truth value true, which stands for one. -/
  fromTruth : Bool := false
deriving DecidableEq, Repr, Inhabited

namespace Limit

instance (n : Nat) : OfNat Limit n := ⟨⟨n, false⟩⟩

/-- The text of a limit in a message. -/
def shown (l : Limit) : Text := if l.fromTruth then "True" else (l.count : Text)

end Limit

structure Config where
  maxIterations : Limit := 1000
  maxLoopDepth : Limit := 10
  timeoutMs : Limit := 5000
  maxCallDepth : Limit := 50
  maxSteps : Limit := 1000
  maxStringLength : Limit := 200
  deduplicate : Bool := true
  language : Language := .javascript
deriving DecidableEq, Repr, Inhabited

/-- What options promise of a configuration: every limit is positive. -/
structure Config.Valid (c : Config) : Prop where
  maxIterations : 0 < c.maxIterations.count
  maxLoopDepth : 0 < c.maxLoopDepth.count
  timeoutMs : 0 < c.timeoutMs.count
  maxCallDepth : 0 < c.maxCallDepth.count
  maxSteps : 0 < c.maxSteps.count
  maxStringLength : 0 < c.maxStringLength.count

/-- The options of a run. -/
structure Options where
  maxIterations : Datum := .number 1000
  maxLoopDepth : Datum := .number 10
  timeoutMs : Datum := .number 5000
  maxCallDepth : Datum := .number 50
  maxSteps : Datum := .number 1000
  maxStringLength : Datum := .number 200
  deduplicate : Datum := .bool true
  language : Datum := .text Language.javascript.name
deriving Inhabited

/-- Why options make no configuration. -/
inductive OptionError
  /-- `taker` has no option of that name. -/
  | unknown (taker option : Text)
  | notPositive (option : Text) (value : Datum)
  | unsupportedLanguage (value : Datum)

def OptionError.message : OptionError → Text
  | .unknown taker option =>
    Text.concat [taker, "() got an unexpected keyword argument '", option, "'"]
  | .notPositive option value =>
    Text.concat [option, " must be a positive integer, got ", value.inspect]
  | .unsupportedLanguage value => "Unsupported language: " ++ value.shown

namespace Datum

/-- The limit a datum stands for: it is positive. -/
def limit? : Datum → Option Limit
  | .bool true => some ⟨1, true⟩
  | .number (.int (.ofNat (n + 1))) => some ⟨n + 1, false⟩
  | _ => none

/-- Whether a datum counts as true. -/
def truthy : Datum → Bool
  | .undefined | .null => false
  | .bool b => b
  | .number n => !n.isZero
  | .text t => !t.isEmpty
  | .list items => !items.isEmpty
  | .record fields => !fields.isEmpty
  | .function _ | .foreign | .cycle _ => true

end Datum

namespace Options

/-- The options by name. -/
def fields (o : Options) : List (Text × Datum) :=
  [("max_iterations", o.maxIterations), ("max_loop_depth", o.maxLoopDepth), ("timeout_ms", o.timeoutMs),
    ("max_call_depth", o.maxCallDepth), ("max_steps", o.maxSteps),
    ("max_string_length", o.maxStringLength), ("deduplicate", o.deduplicate), ("language", o.language)]

/-- Options by name; those that are not given keep their defaults. -/
def ofFields (given : Assoc Text Datum) : Options :=
  let o : Options := {}
  let option (name : Text) (default : Datum) : Datum := (given.get? name).getD default
  { maxIterations := option "max_iterations" o.maxIterations
    maxLoopDepth := option "max_loop_depth" o.maxLoopDepth
    timeoutMs := option "timeout_ms" o.timeoutMs
    maxCallDepth := option "max_call_depth" o.maxCallDepth
    maxSteps := option "max_steps" o.maxSteps
    maxStringLength := option "max_string_length" o.maxStringLength
    deduplicate := option "deduplicate" o.deduplicate
    language := option "language" o.language }

/-- The names of all options. -/
def names : List Text :=
  (fields {}).map Prod.fst

/-- The names of the options that are most in use. -/
def common : List Text :=
  ["language", "max_steps", "max_iterations", "timeout_ms", "deduplicate"]

/-- Options by name; the first name that is not known is refused. -/
def read (taker : Text) (known : List Text) (given : Assoc Text Datum) : Except OptionError Options :=
  match given.find? fun (name, _) => !known.contains name with
  | some (name, _) => .error (.unknown taker name)
  | none => .ok (ofFields given)

def limit (option : Text) (value : Datum) : Except OptionError Limit :=
  match value.limit? with
  | some l => .ok l
  | none => .error (.notPositive option value)

def languageOf (value : Datum) : Except OptionError Language :=
  match value with
  | .text t =>
    match Language.ofText? t with
    | some l => .ok l
    | none => .error (.unsupportedLanguage value)
  | _ => .error (.unsupportedLanguage value)

/-- The limits are checked in order, and the language last. -/
def toConfig (o : Options) : Except OptionError Config := do
  let maxIterations ← limit "max_iterations" o.maxIterations
  let maxLoopDepth ← limit "max_loop_depth" o.maxLoopDepth
  let timeoutMs ← limit "timeout_ms" o.timeoutMs
  let maxCallDepth ← limit "max_call_depth" o.maxCallDepth
  let maxSteps ← limit "max_steps" o.maxSteps
  let maxStringLength ← limit "max_string_length" o.maxStringLength
  let language ← languageOf o.language
  return ⟨maxIterations, maxLoopDepth, timeoutMs, maxCallDepth, maxSteps, maxStringLength,
    o.deduplicate.truthy, language⟩

theorem limit_pos {option : Text} {value : Datum} {l : Limit} (h : limit option value = .ok l) : 0 < l.count := by
  unfold limit at h
  split at h <;> cases h
  rename_i known
  unfold Datum.limit? at known
  split at known <;> cases known
  · exact Nat.one_pos
  · exact Nat.succ_pos _

theorem valid_of_toConfig {o : Options} {c : Config} (h : o.toConfig = .ok c) : c.Valid := by
  have step {α β : Type} {x : Except OptionError α} {f : α → Except OptionError β} {b : β}
      (h : (x >>= f) = .ok b) : ∃ a, x = .ok a ∧ f a = .ok b := by
    cases x with
    | error e => cases h
    | ok a => exact ⟨a, rfl, h⟩
  obtain ⟨maxIterations, iterations, h⟩ := step h
  obtain ⟨maxLoopDepth, loopDepth, h⟩ := step h
  obtain ⟨timeoutMs, timeout, h⟩ := step h
  obtain ⟨maxCallDepth, callDepth, h⟩ := step h
  obtain ⟨maxSteps, steps, h⟩ := step h
  obtain ⟨maxStringLength, stringLength, h⟩ := step h
  obtain ⟨language, -, h⟩ := step h
  cases h
  exact ⟨limit_pos iterations, limit_pos loopDepth, limit_pos timeout, limit_pos callDepth, limit_pos steps,
    limit_pos stringLength⟩

end Options

/-- A configuration with another language, if one is named. -/
def Config.withLanguage (c : Config) (language : Text) : Except OptionError Config :=
  if language.isEmpty || language == c.language.name then .ok c
  else (Options.languageOf (.text language)).map fun l => { c with language := l }

end ScriptTrace
