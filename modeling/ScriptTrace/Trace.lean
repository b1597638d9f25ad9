import ScriptTrace.ErrorReport
import ScriptTrace.Report
/-!
# Traces

A **trace** is what a whole run leaves: its steps, its counts and what it said about itself. Running a program
checks its tree, makes room for it on the native stack, executes its statements and validates the steps; each of the
four can refuse. No other run is active at the time.
-/
namespace ScriptTrace

structure Trace where
  steps : List Step
  stats : Stats
  language : Language
  report : Report

/-- Why there is no trace. -/
inductive TraceError
  | refused (r : Tree.Refusal)
  /-- The call depth needs more of the native stack than there can be. -/
  | noRoom
  /-- A fault that nothing contained. -/
  | fault (f : Fault)
  | invalid (i : Invalid)

def TraceError.report : TraceError → ErrorReport
  | .refused r => r.report
  | .noRoom => Headroom.report
  | .fault f => f.report
  | .invalid i => i.report

namespace Trace

/-- The console output of a trace, in order. -/
def outputs (t : Trace) : List Plain :=
  t.steps.filterMap Step.output

/-- The variables at the last step. -/
def final (t : Trace) : List (Text × Plain) :=
  t.steps.getLast?.elim [] Step.vars

/-- A log line about the progress of a run. -/
def progress (origin : Origin) (parts : List Text) : Log :=
  ⟨origin, .info, Text.concat parts⟩

def refusalLog (r : Tree.Refusal) : Log :=
  progress .parser
    ["Parse failed at ", (r.line : Text), ":", (r.column : Text), " (", Text.ofString r.kind, ")"]

def parsedLog (statements : Nat) : Log :=
  progress .run ["Parsed ", (statements : Text), " top-level statements in 0.0ms"]

def recordedLog (steps : Nat) (counts : Counts) : Log :=
  progress .run ["Recorded ", (steps : Text), " steps (", (counts.iterations : Text), " loop iterations, ",
    (counts.calls : Text), " calls) in 0.0ms"]

/-- The trace of a run that ended in a state. -/
def ofState (cfg : Config) (src : Source) (statements : Nat) (s : State) : Trace where
  steps := s.recorder.steps.toList
  stats := s.stats
  language := cfg.language
  report :=
    { sourceBytes := src.text.size8
      sourceLines := src.lineCount
      language := cfg.language.name
      statements := statements
      tally := s.stats.tally }

end Trace

open Trace in
/-- Runs a program under a configuration, from a clock: the trace, and the log lines. -/
def trace (cfg : Config) (src : Source) (tree : Tree) (clock : Clock) :
    Except TraceError Trace × List Log :=
  match tree.refusal? src with
  | some r => (.error (.refused r), [refusalLog r])
  | none =>
    let statements := (Stmt.program src tree).length
    if ((Headroom.idle Headroom.nativeLimit).enter cfg.maxCallDepth.count).1 = false then
      (.error .noRoom, [parsedLog statements])
    else
      let (outcome, s) := runTree cfg src tree clock
      let logs := parsedLog statements :: s.logs.toList
      match outcome with
      | .error f => (.error (.fault f), logs)
      | .ok () =>
        let t := ofState cfg src statements s
        match validate src (t.steps.map Step.loose) with
        | some i => (.error (.invalid i), logs)
        | none => (.ok t, logs ++ [recordedLog t.steps.length s.counts])

section

variable {cfg : Config} {src : Source} {tree : Tree} {clock : Clock}

/-- A fault that keeps a trace back is the one that ended the run. -/
theorem runTree_of_trace_fault {f : Fault} (h : (trace cfg src tree clock).1 = .error (.fault f)) :
    (runTree cfg src tree clock).1 = .error f := by
  unfold trace at h
  split at h
  · cases h
  dsimp only at h
  split at h
  · cases h
  · rcases hr : runTree cfg src tree clock with ⟨outcome, s⟩
    rw [hr] at h
    dsimp only at h
    split at h
    · cases h
      rfl
    · split at h <;> cases h

/-- A trace that is refused for its steps is refused for those of the run. -/
theorem validate_of_trace_invalid {i : Invalid} (h : (trace cfg src tree clock).1 = .error (.invalid i)) :
    validate src ((runTree cfg src tree clock).2.recorder.steps.toList.map Step.loose) = some i := by
  unfold trace at h
  split at h
  · cases h
  dsimp only at h
  split at h
  · cases h
  · rcases hr : runTree cfg src tree clock with ⟨outcome, s⟩
    rw [hr] at h
    dsimp only at h
    split at h
    · cases h
    · split at h
      · cases h
        assumption
      · cases h

/-- A trace is that of a run that came to its end. -/
theorem runTree_of_trace {t : Trace} (h : (trace cfg src tree clock).1 = .ok t) :
    (runTree cfg src tree clock).1 = .ok () ∧
      t = .ofState cfg src (Stmt.program src tree).length (runTree cfg src tree clock).2 := by
  unfold trace at h
  split at h
  · cases h
  dsimp only at h
  split at h
  · cases h
  · rcases hr : runTree cfg src tree clock with ⟨outcome, s⟩
    rw [hr] at h
    dsimp only at h
    split at h
    · cases h
    · split at h
      · cases h
      · cases h
        exact ⟨rfl, rfl⟩

end

end ScriptTrace
