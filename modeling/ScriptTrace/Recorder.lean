import ScriptTrace.Config
import ScriptTrace.Source
import ScriptTrace.Step
/-!
# The recorder

An **entry** is what a run hands over to be recorded. The recorder appends a step for it, or, when
coalescing is on and line and variables are those of the last step, lets it supersede that step. A
superseding step carries the console captures of both, and a diagnostic is never downgraded. Once the
recorder is full, entries that would append are dropped.
-/
namespace ScriptTrace

structure Entry where
  line : Nat
  kind : StepKind
  block : Option Block
  captures : List Plain
  vars : List (Text × Plain)
  message : Option Text
  condition : Option Bool
deriving Repr

structure Recorder where
  steps : Array Step
  /-- The captures behind the output of the last step. -/
  captures : List Plain
  /-- Whether an entry has been dropped. -/
  truncated : Bool
  /-- How many steps there were when one was last appended. -/
  counted : Nat
deriving Repr

/-- What became of an entry. -/
inductive Stored
  | kept (s : Step)
  | dropped (first : Bool)

namespace Recorder

def empty : Recorder := ⟨#[], [], false, 0⟩

def isFull (cfg : Config) (r : Recorder) : Bool :=
  cfg.maxSteps.count ≤ r.steps.size

/-- One capture is the output itself; several form a list. -/
def pack : List Plain → Option Plain
  | [] => none
  | [a] => some a
  | captures => some (.list captures)

/-- The step of an entry with the given captures. -/
def stepOf (src : Source) (e : Entry) (captures : List Plain) : Step where
  line := e.line
  code := src.line e.line
  vars := e.vars
  kind := e.kind
  block := e.block
  output := pack captures
  message := e.message
  condition := e.condition

/-- What a superseding step takes over: a diagnostic with its message, else a missing message. -/
def merge (previous step : Step) : Step :=
  if previous.kind.isSticky && !step.kind.isSticky then
    { step with kind := previous.kind, message := previous.message }
  else if step.message.isNone then { step with message := previous.message }
  else step

/-- Whether an entry supersedes a step. -/
def supersedes (cfg : Config) (e : Entry) (previous : Step) : Bool :=
  cfg.deduplicate && previous.line == e.line && Plain.sameFields previous.vars e.vars

/-- The recorder with a new step for an entry. -/
def grown (src : Source) (e : Entry) (r : Recorder) : Recorder :=
  let steps := r.steps.push (stepOf src e e.captures)
  { r with steps := steps, captures := e.captures, counted := steps.size }

@[simp] theorem grown_steps (src : Source) (e : Entry) (r : Recorder) :
    (r.grown src e).steps = r.steps.push (stepOf src e e.captures) := rfl

@[simp] theorem grown_captures (src : Source) (e : Entry) (r : Recorder) : (r.grown src e).captures = e.captures := rfl

@[simp] theorem grown_truncated (src : Source) (e : Entry) (r : Recorder) :
    (r.grown src e).truncated = r.truncated := rfl

def append (cfg : Config) (src : Source) (e : Entry) (r : Recorder) : Recorder × Stored :=
  if r.isFull cfg then ({ r with truncated := true }, .dropped (!r.truncated))
  else (r.grown src e, .kept (stepOf src e e.captures))

/-- Records an entry. -/
def add (cfg : Config) (src : Source) (e : Entry) (r : Recorder) : Recorder × Stored :=
  match r.steps.back? with
  | none => r.append cfg src e
  | some previous =>
    if supersedes cfg e previous then
      let captures := r.captures ++ e.captures
      let step := merge previous (stepOf src e captures)
      ({ r with steps := r.steps.pop.push step, captures := captures }, .kept step)
    else r.append cfg src e

/-- Without coalescing every entry is appended. -/
theorem add_of_off {cfg : Config} (off : cfg.deduplicate = false) (src : Source) (e : Entry) (r : Recorder) :
    r.add cfg src e = r.append cfg src e := by
  unfold add
  split
  · rfl
  · simp [supersedes, off]

end Recorder

end ScriptTrace
