import ScriptTrace.Run.State
/-!
# Loops under guard

Before each round a loop asks its **guard**, which stops it when it has had all its rounds, has taken too
long, or the recorder is full, in this order. A loop nested too deeply is stopped before it starts. A
stopped loop ends normally, and its last step says what stopped it.

`Rounds.testFirst` and `Rounds.bodyFirst` are the two shapes of loops. They recurse on the number
of rounds that are left.
-/
namespace ScriptTrace

open Act Op Run

/-- What stopped a loop. -/
inductive Trip
  | iterations
  | timeout
  | depth
  | steps
deriving DecidableEq, Repr

namespace Trip

def name : Trip → Text
  | .iterations => "iterations"
  | .timeout => "timeout"
  | .depth => "depth"
  | .steps => "steps"

def message (cfg : Config) : Trip → Text
  | .iterations => Text.concat ["Loop exceeded maximum iterations (", cfg.maxIterations.shown, ")"]
  | .timeout => Text.concat ["Loop exceeded timeout (", cfg.timeoutMs.shown, "ms)"]
  | .depth => Text.concat ["Loop nesting exceeded maximum depth (", cfg.maxLoopDepth.shown, ")"]
  | .steps => Text.concat ["Step cap reached (", cfg.maxSteps.shown, ")"]

end Trip

/-- The part of the guard that looks at the clock and the recorder, for a loop entered at `start`. -/
def overrun? (cfg : Config) (start : Float) : Run (Option Trip) := do
  let now ← readClock
  if Binary64.exceeds ((now - start) * 1000) cfg.timeoutMs.count then return some .timeout
  else if (← get).recorder.isFull cfg then return some .steps
  else return none

theorem exec_overrun (cfg : Config) (start : Float) (s : State) :
    (overrun? cfg start).exec s =
      (.ok (if Binary64.exceeds ((s.clock.reading s.clock.used s.clock.now - start) * 1000)
            cfg.timeoutMs.count then some .timeout
        else if s.recorder.isFull cfg then some .steps else none), (readClock.exec s).2) := by
  rw [overrun?, exec_bind_ok (show readClock.exec s = (.ok _, _) from rfl)]
  split
  · rfl
  · rw [exec_bind_ok exec_get]
    show (if s.recorder.isFull cfg then _ else _ : Run (Option Trip)).exec _ = _
    split <;> rfl

/-- The whole guard, with so many rounds left. -/
def guardCheck (cfg : Config) (start : Float) (left : Nat) : Run (Option Trip) :=
  if left = 0 then pure (some .iterations) else overrun? cfg start

/-- How a loop ended. -/
inductive Ending
  | finished (s : Signal)
  | stopped (t : Trip)

/-- A loop as its guard sees it. -/
structure Rounds where
  config : Config
  label : Option Text
  /-- The reading of the clock when the loop was entered. -/
  start : Float
  test : Run Bool
  body : Run Signal
  /-- What comes between a body and the next test. -/
  after : Signal → Run Unit

/-- The guard lets one more round begin. -/
def countRound : Run Unit :=
  modify fun s => { s with counts := { s.counts with rounds := s.counts.rounds + 1 } }

namespace Rounds

/-- One guarded run of the body: how the loop ends with it, or the signal with which it goes on. -/
def once (r : Rounds) : Run (Ending ⊕ Signal) := do
  match ← overrun? r.config r.start with
  | some trip => return .inl (.stopped trip)
  | none =>
    countRound
    let s ← r.body
    if s.exits r.label then return .inl (.finished (s.settle r.label)) else return .inr s

/-- How many rounds were begun when `once` ends the loop. -/
def begun (done : Nat) : Ending → Nat
  | .stopped _ => done
  | .finished _ => done + 1

/-- A loop that tests before each round; with its ending comes the number of rounds. -/
def testFirst (r : Rounds) : Nat → Nat → Run (Ending × Nat)
  | left, done => do
    if ← r.test then
      match left with
      | 0 => return (.stopped .iterations, done)
      | left + 1 =>
        match ← r.once with
        | .inl ending => return (ending, begun done ending)
        | .inr s =>
          r.after s
          testFirst r left (done + 1)
    else return (.finished .normal, done)

/-- A loop that tests after each round. -/
def bodyFirst (r : Rounds) : Nat → Nat → Run (Ending × Nat)
  | 0, done => return (.stopped .iterations, done)
  | left + 1, done => do
    match ← r.once with
    | .inl ending => return (ending, begun done ending)
    | .inr _ =>
      if ← r.test then bodyFirst r left (done + 1) else return (.finished .normal, done + 1)

end Rounds

/-- The message of a loop's last step. -/
def completion (cfg : Config) (done : Nat) (trip : Option Trip) : Text :=
  let count := Text.concat [(done : Text), if done = 1 then " iteration" else " iterations"]
  match trip with
  | none => "Loop completed after " ++ count
  | some t => Text.concat ["Loop stopped after ", count, " (", t.name, " guard): ", t.message cfg]

def recordCompletion (ctx : Context) (span : Span) (done : Nat) (trip : Option Trip) : Run Unit :=
  ctx.noteOutput
    { line := span.last, kind := .loopComplete, message := some (completion ctx.config done trip) }

/-- Counts and reports that a guard stopped the loop on a line. -/
def noteTrip (ctx : Context) (line : Nat) (trip : Trip) : Run Unit := do
  modify fun s => { s with counts := { s.counts with trips := s.counts.trips + 1 } }
  warn .loops ["Loop at line ", (line : Text), " stopped early: ", trip.message ctx.config]

/-- A loop starts, with no round begun. -/
def State.enterLoop (s : State) : State :=
  { s with loopDepth := s.loopDepth + 1, counts := { s.counts with rounds := 0 } }

/-- A loop is left, and its rounds join the iterations of the run. -/
def State.leaveLoop (outer s : State) : State :=
  { s with
    loopDepth := s.loopDepth - 1
    counts := { s.counts with
      iterations := s.counts.iterations + s.counts.rounds
      rounds := outer.counts.rounds } }

/-- Runs a loop, given how it goes round from a reading of the clock. -/
def runLoop (ctx : Context) (span : Span) (go : Float → Run (Ending × Nat)) : Run Signal := do
  let start ← readClock
  if (ctx.config.maxLoopDepth.count : Int) ≤ (← get).loopDepth then
    noteTrip ctx span.first .depth
    recordCompletion ctx span 0 (some .depth)
    return .normal
  else
    let (ending, done) ← bracket State.enterLoop (go start) State.leaveLoop
    match ending with
    | .finished s =>
      recordCompletion ctx span done none
      return s
    | .stopped trip =>
      noteTrip ctx span.first trip
      recordCompletion ctx span done (some trip)
      return .normal

/-- A loop that tests before each round. -/
def loopTestFirst (ctx : Context) (span : Span) (label : Option Text) (opening : Run Unit) (test : Run Bool)
    (body : Run Signal) (after : Signal → Run Unit) : Run Signal :=
  runLoop ctx span fun start => do
    opening
    Rounds.testFirst ⟨ctx.config, label, start, test, body, after⟩ ctx.config.maxIterations.count 0

/-- A loop that tests after each round. -/
def loopBodyFirst (ctx : Context) (span : Span) (label : Option Text) (test : Run Bool) (body : Run Signal) :
    Run Signal :=
  runLoop ctx span fun start =>
    Rounds.bodyFirst ⟨ctx.config, label, start, test, body, fun _ => pure ()⟩ ctx.config.maxIterations.count 0

end ScriptTrace
