import ScriptTrace.Run.Exec
import ScriptTrace.Script.Read
/-!
# Programs

The top level runs statement after statement, each shielded from the others. A `return` ends the program; a
jump that reaches the top level is an error of its statement; so are a bad index, a misfit and a native stack that is
used up.
-/
namespace ScriptTrace

open Act Op Run

/-- Records that a top-level statement was cut short; the program goes on. -/
def recordCut (ctx : Context) (line : Nat) (kind message : Text) : Run Signal := do
  warn .run ["Top-level statement at line ", (line : Text), " failed: ", message]
  ctx.noteOutput { line := line, kind := .error, message := some (Text.concat [kind, ": ", message]) }
  return .normal

/-- Runs one top-level statement; what no statement contains is recorded, unless it ends the run. -/
def runTopLevel (ctx : Context) (stmt : Stmt) : Run Signal :=
  (stmt.exec ctx).handle fun
    | .badIndex b => some (recordCut ctx stmt.line "ValueError" b.message)
    | .misfit m => some (recordCut ctx stmt.line "TypeError" m.message)
    | .exhausted => some (recordCut ctx stmt.line "RecursionError" Fault.exhaustedMessage)
    | _ => none

/-- Declares what a statement introduces, without running or recording it. -/
def Stmt.introduce (ctx : Context) : Stmt → Run Unit
  | .function _ _ name r => register name r
  | .declare _ d => declareAll ctx d
  | _ => pure ()

/-- Runs the statements of a program. -/
def runProgram (ctx : Context) : List Stmt → Run Unit
  | [] => pure ()
  | stmt :: rest => do
    match ← runTopLevel ctx stmt with
    | .answer v =>
      let shown ← describe v
      ctx.note { line := stmt.line, kind := .programEnd, message := some ("Program returned " ++ shown) }
      log .info .run ["Top-level return at line ", (stmt.line : Text), "; stopping"]
    | .normal => runProgram ctx rest
    | .leave label | .next label =>
      ctx.note { line := stmt.line, kind := .error,
                 message := some (Text.concat ["Label '", label.getD "None", "' does not name an enclosing loop"]) }
      runProgram ctx rest

/-- How many native frames a run may take: as many as its call depth needs, above those that there are without it. -/
def Config.frames (cfg : Config) : Nat :=
  Headroom.needed Headroom.nativeLimit cfg.maxCallDepth.count

/-- Runs the program of a tree from a clock: how it ends, and the state it leaves. -/
def runTree (cfg : Config) (src : Source) (tree : Tree) (clock : Clock) : Except Fault Unit × State :=
  (runProgram (.top cfg src) (Stmt.program src tree)).exec (.start clock cfg.frames)

/-- The counts of a finished run, with those of its recorder. -/
structure Stats where
  steps : Int
  counts : Counts
  truncated : Bool
deriving Repr

/-- The counts by name. -/
def Stats.wire (s : Stats) : List (Text × Plain) :=
  let count (n : Nat) : Plain := .number (.int n)
  [("steps", .number (.int s.steps)), ("statements", count s.counts.statements),
    ("loop_iterations", count s.counts.iterations), ("function_calls", count s.counts.calls),
    ("max_call_depth_reached", count s.counts.deepestCall), ("guard_trips", count s.counts.trips),
    ("runtime_failures", count s.counts.failures), ("steps_truncated", .bool s.truncated)]

def State.stats (s : State) : Stats :=
  ⟨s.recorder.counted, s.counts, s.recorder.truncated⟩

end ScriptTrace
