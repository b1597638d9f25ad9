import ScriptTrace.Environment
import ScriptTrace.Headroom
import ScriptTrace.Log
import ScriptTrace.Recorder
import ScriptTrace.Run.Act
import ScriptTrace.Script.Stmt
import ScriptTrace.Signal
import ScriptTrace.Value.Snapshot
import ScriptTrace.Value.Stranger
/-!
# The state of a run

Everything a run changes is in its **state**, and the state survives every outcome: when a fault cuts an
evaluation short, what was recorded before it is still there. The state has a **memory**, which the operations
of the language work on, and a **control** part, which says where in the program the run is. A **run** is an
act on the whole state, an **operation** one on the memory alone.

Nothing is assumed about how time passes: a clock can give any sequence of readings.

The **journal** holds every moment that was offered to the recorder, every value that the console was given and
every call that was refused, in order. The steps of a run are what the recorder makes of its journal.
-/
namespace ScriptTrace

/-- A clock: the time it shows, in seconds, where each reading moves it on to, and how many have been taken. -/
structure Clock where
  now : Float
  /-- The time that the reading of that number gives, after the time shown before it. -/
  reading : Nat → Float → Float
  used : Nat

/-- A clock that moves on by `tick` seconds before each reading. -/
def Clock.ticking (tick : Float) : Clock :=
  ⟨0, fun _ now => now + tick, 0⟩

/-- The same clock `seconds` later. -/
def Clock.advance (c : Clock) (seconds : Float) : Clock :=
  { c with now := c.now + seconds }

/-- A call in progress. -/
structure Frame where
  function : Text
  line : Nat
deriving DecidableEq, Repr

/-- Counts kept during a run. -/
structure Counts where
  statements : Nat := 0
  /-- The rounds of all loops that have been left. -/
  iterations : Nat := 0
  /-- How many rounds the innermost running loop of the running function has begun. -/
  rounds : Nat := 0
  calls : Nat := 0
  deepestCall : Nat := 0
  trips : Nat := 0
  failures : Nat := 0
deriving DecidableEq, Repr, Inhabited

/-- Something to be recorded. -/
structure Event where
  line : Nat
  kind : StepKind := .statement
  /-- The block to record; the running one if none is given. -/
  block : Option Block := none
  captured : List Value := []
  message : Option Text := none
  condition : Option Bool := none

/-- An event with the entry made of it, and how deep in loops and calls it happened. -/
structure Moment where
  event : Event
  entry : Entry
  loopDepth : Int
  callDepth : Nat

/-- What a journal holds. -/
inductive Note
  | moment (m : Moment)
  /-- A value that a console call queued. -/
  | printed (v : Value)
  /-- A call of a function that there was, when too many calls were open already. -/
  | refused (x : Text) (line : Nat)

def Note.isRefusal : Note → Bool
  | .refused _ _ => true
  | .moment _ | .printed _ => false

/-- What the operations of the language work on. -/
structure Memory where
  heap : Heap
  env : Environment
  /-- The callable functions by name. -/
  functions : Assoc Text (Routine Stmt)
  /-- Console output that no step carries yet. -/
  pending : List Value
  logs : Array Log

/-- Where in the program a run is. -/
structure Control where
  callStack : List Frame
  /-- How many loops of the running function are open. -/
  loopDepth : Int
  /-- The labels around the current statement, innermost first. -/
  labels : List Text
  /-- The innermost block that is running. -/
  block : Option Block
deriving DecidableEq, Repr

structure State extends Memory, Control where
  recorder : Recorder
  journal : Array Note
  counts : Counts
  clock : Clock
  /-- How many failures operations have raised, contained or not. -/
  raised : Nat

/-- The state that a run starts in, on a native stack of so many frames. -/
def State.start (clock : Clock) (frames : Nat := Headroom.nativeLimit) : State where
  heap := .empty frames
  env := .empty
  functions := []
  callStack := []
  loopDepth := 0
  labels := []
  pending := []
  block := none
  recorder := .empty
  journal := #[]
  counts := {}
  clock := clock
  raised := 0
  logs := #[]

/-! ## Operations -/

/-- A computation on the memory of a run. -/
abbrev Op := Act Memory

/-- The strangers of a heap, if a caller has put anything into it. -/
abbrev Strangers := Option (List Value)

namespace Op

/-- The outcome of an operation on values. -/
def ofFault {α : Type} (r : Except Fault α) : Op α :=
  match r with
  | .ok a => pure a
  | .error fault => throw fault

def log (level : Level) (origin : Origin) (parts : List Text) : Op Unit :=
  modify fun m => { m with logs := m.logs.push ⟨origin, level, Text.concat parts⟩ }

def warn (origin : Origin) (parts : List Text) : Op Unit :=
  log .warning origin parts

def newArray (items : List Value) : Op Value := do
  let m ← get
  let (v, heap) := m.heap.newArray items
  set { m with heap := heap }
  return v

def newObject (entries : Entries) : Op Value := do
  let m ← get
  let (v, heap) := m.heap.newObject entries
  set { m with heap := heap }
  return v

/-- Takes the queued console output. -/
def drain : Op (List Value) := do
  let m ← get
  set { m with pending := [] }
  return m.pending

/-- Ends with the misfit that a look at the strangers ends with. -/
def screen (strangers : Strangers) (look : List Value → Heap → Look) : Op Unit :=
  match strangers with
  | none => pure ()
  | some strangers => do
    match look strangers (← get).heap with
    | .error (some m) => throw (.misfit m)
    | _ => return ()

/-- How a message shows a value. -/
def describe (v : Value) : Op Text :=
  return v.describe (← get).heap

/-- How a message shows the arguments of a call. -/
def describeAll (vs : List Value) : Op Text := do
  let h := (← get).heap
  return Text.join ", " (vs.map (·.describe h))

end Op

/-! ## Runs -/

/-- A computation on the state of a run. -/
abbrev Run := Act State

/-- The fault that cut a computation short, if one did. -/
def cut? {α : Type} : Except Fault α → Option Fault
  | .ok _ => none
  | .error fault => some fault

/-- One if a computation was cut short by a failure, else zero. -/
def failuresIn : Option Fault → Nat
  | some (.failure _ _) => 1
  | _ => 0

/-- An operation as a part of a run: it leaves all but the memory alone. If it ends by a failure, one more
has been raised. -/
@[inline] def Op.asRun {α : Type} (x : Op α) : Run α where
  exec s := match x.exec s.toMemory with
    | (outcome, m) => (outcome, { s with toMemory := m, raised := s.raised + failuresIn (cut? outcome) })
  passes s t := ∃ p : Memory × Nat,
    (x.passes s.toMemory p.1 ∧ p.2 = s.raised ∨
      p = ((x.exec s.toMemory).2, s.raised + failuresIn (cut? (x.exec s.toMemory).1))) ∧
      t = { s with toMemory := p.1, raised := p.2 }
  passes_first s := ⟨(s.toMemory, s.raised), .inl ⟨x.passes_first _, rfl⟩, rfl⟩
  passes_last _ := ⟨_, .inr rfl, rfl⟩

instance : MonadLift Op Run := ⟨Op.asRun⟩

namespace Run

open Act

/-- Takes a reading of the clock. -/
def readClock : Run Float :=
  modifyGet fun s =>
    let now := s.clock.reading s.clock.used s.clock.now
    (now, { s with clock := { s.clock with now := now, used := s.clock.used + 1 } })

/-- Queues console output. -/
def print (v : Value) : Run Unit :=
  modify fun s => { s with pending := s.pending ++ [v], journal := s.journal.push (.printed v) }

/-- Notes that a call is refused. -/
def refuse (x : Text) (line : Nat) : Run Unit :=
  modify fun s => { s with journal := s.journal.push (.refused x line) }

/-- Runs `act` inside a block. -/
def within {α : Type} (kind : BlockKind) (span : Span) (act : Run α) : Run α :=
  bracket (fun s => { s with block := some ⟨kind, span.first, span.last⟩ }) act
    fun outer s => { s with block := outer.block }

end Run

/-- The entry that an event makes in a state. -/
def Event.entry (cfg : Config) (s : State) (e : Event) : Entry where
  line := e.line
  kind := e.kind
  block := e.block.or s.block
  captures := e.captured.map (·.snapshot s.heap cfg.maxStringLength.count)
  vars := Value.snapshotAll s.heap cfg.maxStringLength.count s.env.bindings
  message := e.message
  condition := e.condition

/-- Hands an event over to the recorder. -/
def Run.store (cfg : Config) (src : Source) (e : Event) : Run Stored :=
  modifyGet fun s =>
    let entry := e.entry cfg s
    let (recorder, stored) := s.recorder.add cfg src entry
    let moment : Moment := ⟨e, entry, s.loopDepth, s.callStack.length⟩
    (stored, { s with recorder := recorder, journal := s.journal.push (.moment moment) })

/-- Records an event; the step it became, or none if it was dropped. Line zero is no line. -/
def Run.record (cfg : Config) (src : Source) (e : Event) : Run (Option Step) := do
  if e.line = 0 then return none
  else
    match ← Run.store cfg src e with
    | .kept step => return some step
    | .dropped first =>
      if first then
        Op.warn .recorder ["Step cap of ", (cfg.maxSteps.count : Text), " reached; further steps are dropped"]
      return none

/-- How a function is called: under which name, with which arguments, and from which line. -/
abbrev Caller := Text → Routine Stmt → List Value → Nat → Run Value

/-- What does not change during a run: its configuration, its source, how a function is called, and the strangers
of the heap. -/
structure Context where
  config : Config
  source : Source
  call : Caller
  strangers : Strangers := none

namespace Context

def note (ctx : Context) (e : Event) : Run Unit :=
  discard (Run.record ctx.config ctx.source e)

/-- Records an event that carries the queued console output. -/
def noteOutput (ctx : Context) (e : Event) : Run Unit := do
  let captured ← Op.drain
  ctx.note { e with captured := captured }

/-- Reports something the language does not do; its value is undefined. -/
def diagnose (ctx : Context) (line : Nat) (message : Text) : Run Value := do
  Op.warn .functions [message, " (line ", (line : Text), ")"]
  ctx.note { line := line, kind := .diagnostic, message := some message }
  return .undefined

end Context

/-- The state after an event has been recorded. -/
def State.noted (cfg : Config) (src : Source) (e : Event) (s : State) : State :=
  if e.line = 0 then s
  else
    let added := s.recorder.add cfg src (e.entry cfg s)
    { s with
      recorder := added.1
      journal := s.journal.push (.moment ⟨e, e.entry cfg s, s.loopDepth, s.callStack.length⟩)
      logs := match added.2 with
        | .dropped true => s.logs.push ⟨.recorder, .warning, Text.concat
            ["Step cap of ", (cfg.maxSteps.count : Text), " reached; further steps are dropped"]⟩
        | _ => s.logs }

theorem Context.exec_note (ctx : Context) (e : Event) (s : State) :
    (ctx.note e).exec s = (.ok (), s.noted ctx.config ctx.source e) := by
  by_cases h : e.line = 0
  · simp only [Context.note, Run.record, State.noted, if_pos h]
    rfl
  · simp only [State.noted, if_neg h]
    rcases hs : s.recorder.add ctx.config ctx.source (e.entry ctx.config s) with ⟨recorder, stored⟩
    have hstore : (Run.store ctx.config ctx.source e).exec s = (.ok stored, { s with
        recorder := recorder
        journal := s.journal.push
          (.moment ⟨e, e.entry ctx.config s, s.loopDepth, s.callStack.length⟩) }) := by
      simp only [Run.store, Act.exec_modifyGet, hs]
    have hnote {step : Option Step} {t : State}
        (ht : (Run.record ctx.config ctx.source e).exec s = (.ok step, t)) :
        (ctx.note e).exec s = (.ok (), t) := Act.exec_bind_ok ht
    rw [Run.record, if_neg h, Act.exec_bind_ok hstore] at hnote
    cases stored with
    | kept step => exact hnote rfl
    | dropped first =>
      cases first with
      | false => exact hnote rfl
      | true => exact hnote rfl

end ScriptTrace
