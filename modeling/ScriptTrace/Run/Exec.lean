import ScriptTrace.Run.Eval
import ScriptTrace.Run.Loop
/-!
# Execution of statements

`Stmt.run` follows the shape of the statement. Most statements are run by way of `execute`, which counts them
and contains failures; the body of a labelled loop is not.

Calls go through the context. `callWithin last n` is how a function is called when the recursion may go `n`
calls deeper, with `last` in place of the call after them; the whole interpreter is defined by recursion on
that number. No run gets to `last` if the recursion may go as deep as the configuration lets calls nest.
-/
namespace ScriptTrace

open Act Op Run

/-! ## Containment -/

def countStatement : Run Unit :=
  modify fun s => { s with counts := { s.counts with statements := s.counts.statements + 1 } }

def countFailure : Run Unit :=
  modify fun s => { s with counts := { s.counts with failures := s.counts.failures + 1 } }

/-- Records the failure of the statement on a line. -/
def recordFailure (ctx : Context) (line : Nat) (cause : Cause) (at? : Option Nat) : Run Signal := do
  countFailure
  warn .statements ["Runtime failure at line ", (line : Text), ": ", cause.message]
  let place := at?.getD line
  ctx.noteOutput
    { line := if place = 0 then line else place, kind := .error, message := some cause.message }
  return .normal

/-- Runs a statement of the given line; a failure is recorded and the statement ends normally. -/
def contain (ctx : Context) (line : Nat) (act : Run Signal) : Run Signal :=
  act.handle fun
    | .failure cause at? => some (recordFailure ctx line cause at?)
    | _ => none

/-- Runs a statement as one of a sequence. -/
def execute (ctx : Context) (stmt : Stmt) (act : Run Signal) : Run Signal :=
  if stmt.isSkipped then pure .normal
  else do
    countStatement
    contain ctx stmt.line act

/-- Runs a statement as the body of a loop or a branch: a block is not counted. -/
def executeBody (ctx : Context) (stmt : Stmt) (act : Run Signal) : Run Signal :=
  if stmt.isBlock then act else execute ctx stmt act

/-! ## Functions and declarations -/

/-- Makes a routine callable by a name. -/
def register (name : Text) (r : Routine Stmt) : Op Unit := do
  r.ignored.forM fun (kind, line) =>
    warn .functions ["Unsupported parameter '", Text.ofString kind, "' at line ", (line : Text)]
  modify fun m => { m with functions := m.functions.insert name r }

def declareName (name : Text) (v : Value) (constant : Bool) : Op Unit :=
  modify fun m => { m with env := m.env.declare name v constant }

def isBound (name : Text) : Op Bool :=
  return (← get).env.has name

def declareOne (ctx : Context) (keeps constant : Bool) : Declarator Stmt → Run Unit
  | .pattern line =>
    warn .statements ["Destructuring declaration not supported (line ", (line : Text), ")"]
  | .bind name init => do
    match init with
    | .absent =>
      if keeps && (← isBound name) then return ()
      else declareName name .undefined constant
    | .routine r =>
      register name r
      declareName name (.function name) constant
    | .value e =>
      let v ← e.eval ctx
      declareName name v constant

def declareAll (ctx : Context) (d : Declaration Stmt) : Run Unit :=
  d.declarators.forM (declareOne ctx d.keeps d.constant)

/-! ## Tests and jumps -/

/-- Evaluates a test and records its outcome on a line. -/
def runTest (ctx : Context) (line : Nat) (test : Expr) : Run Bool := do
  let result := (← tested ctx.strangers (← test.eval ctx)).truthy
  ctx.noteOutput { line := line, kind := .condition, condition := some result }
  return result

/-- Refuses a jump that has nowhere to go. -/
def checkJump (line : Nat) (kind : Jump) (label : Option Text) : Run Unit := do
  let s ← get
  match label with
  | some l =>
    if !s.labels.contains l then throw (.violation (.undefinedLabel kind l) line)
    else if s.loopDepth = 0 && kind == .next then throw (.violation (.outsideLoop kind) line)
  | none => if s.loopDepth = 0 then throw (.violation (.outsideLoop kind) line)

def runJump (ctx : Context) (line : Nat) (kind : Jump) (label : Option Text) : Run Signal := do
  checkJump line kind label
  ctx.note { line := line, kind := .control }
  return match kind with
    | .leave => .leave label
    | .next => .next label

def State.pushLabel (label : Text) (s : State) : State :=
  { s with labels := label :: s.labels }

def State.popLabel (s : State) : State :=
  { s with labels := s.labels.tail }

/-- Runs a statement under a label, which uses up a break to that label. -/
def runLabeled (label : Text) (act : Run Signal) : Run Signal := do
  let s ← bracket (State.pushLabel label) act fun _ => State.popLabel
  return if s = .leave (some label) then .normal else s

/-! ## The clauses of a counting loop -/

def runOpening (ctx : Context) (line : Nat) : Opening Stmt → Run Unit
  | .absent => pure ()
  | .declare d => do
    declareAll ctx d
    ctx.noteOutput { line := line, kind := .loopInit }
  | .eval e => do
    discard (e.eval ctx)
    ctx.noteOutput { line := line, kind := .loopInit }

/-- A missing test is true and is not recorded. -/
def runClauseTest (ctx : Context) (line : Nat) : Option Expr → Run Bool
  | none => pure true
  | some test => runTest ctx line test

/-- The update is recorded unless the round was cut short. -/
def runUpdate (ctx : Context) (line : Nat) (update : Option Expr) (s : Signal) : Run Unit := do
  match update with
  | none => return ()
  | some e =>
    discard (e.eval ctx)
    match s with
    | .next _ => return ()
    | _ => ctx.noteOutput { line := line, kind := .loopUpdate }

/-! ## The executor -/

mutual

/-- Runs a statement; a loop is given the label it carries. -/
def Stmt.run (ctx : Context) (label : Option Text) : Stmt → Run Signal
  | .skipped _ _ => pure .normal
  | .unsupported span kind => do
    warn .statements
      ["Unsupported statement type '", Text.ofString kind, "' at line ", (span.first : Text)]
    ctx.note { line := span.first, kind := .diagnostic,
               message := some ("Unsupported statement: " ++ Text.ofString kind) }
    return .normal
  | .declare span d => do
    declareAll ctx d
    ctx.noteOutput { line := span.first }
    return .normal
  | .expression span e => do
    match e with
    | none => pure ()
    | some e => discard (e.eval ctx)
    ctx.noteOutput { line := span.first }
    return .normal
  | .block _ body => Stmt.runAll ctx body
  | .ifThen span test yesSpan yes => do
    if ← runTest ctx span.first test then
      within .ifBranch yesSpan (executeBody ctx yes (yes.run ctx none))
    else return .normal
  | .ifElse span test yesSpan yes noSpan no => do
    if ← runTest ctx span.first test then
      within .ifBranch yesSpan (executeBody ctx yes (yes.run ctx none))
    else within .elseBranch noSpan (executeBody ctx no (no.run ctx none))
  | .forLoop span opening test update bodySpan body =>
    loopTestFirst ctx span label (runOpening ctx span.first opening) (runClauseTest ctx span.first test)
      (within .forLoop bodySpan (executeBody ctx body (body.run ctx none))) (runUpdate ctx span.first update)
  | .whileLoop span test bodySpan body =>
    loopTestFirst ctx span label (pure ()) (runTest ctx span.first test)
      (within .whileLoop bodySpan (executeBody ctx body (body.run ctx none))) fun _ => pure ()
  | .doLoop span testLine test bodySpan body =>
    loopBodyFirst ctx span label (runTest ctx testLine test)
      (within .whileLoop bodySpan (executeBody ctx body (body.run ctx none)))
  | .jump span kind target => runJump ctx span.first kind target
  | .answer span value => do
    let v ←
      match value with
      | none => pure .undefined
      | some e => e.eval ctx
    ctx.noteOutput { line := span.first, kind := .control }
    return .answer v
  | .function span _ name r => do
    register name r
    declareName name (.function name) false
    ctx.note { line := span.first, block := some ⟨.function, span.first, span.last⟩ }
    return .normal
  | .labeled _ name body =>
    runLabeled name <|
      if body.isLoop then body.run ctx (some name) else execute ctx body (body.run ctx none)

/-- Runs statements until one does not end normally. -/
def Stmt.runAll (ctx : Context) : List Stmt → Run Signal
  | [] => pure .normal
  | stmt :: rest => do
    let s ← execute ctx stmt (stmt.run ctx none)
    if s.isNormal then Stmt.runAll ctx rest else return s

end

/-- Runs a statement as one of a sequence. -/
def Stmt.exec (ctx : Context) (stmt : Stmt) : Run Signal :=
  execute ctx stmt (stmt.run ctx none)

/-! ## Calls -/

/-- Reports a call with too few or too many arguments. -/
def checkArity (ctx : Context) (name : Text) (r : Routine Stmt) (count line : Nat) : Run Unit := do
  let missing := (r.params.drop count).filter fun p => !r.defaults.contains p
  if count ≤ r.params.length && missing.isEmpty then return ()
  else
    let wanted := r.params.length
    let message := Text.concat [name, " expects ", (wanted : Text), " argument",
      if wanted = 1 then "" else "s", ", got ", (count : Text)]
    warn .functions ["Arity mismatch at line ", (line : Text), ": ", message]
    ctx.note { line := line, kind := .diagnostic, message := some message }

/-- Binds parameters to arguments in order; a default is evaluated in place of `undefined`. -/
def bindParameters (ctx : Context) (r : Routine Stmt) : List Text → List Value → Run Unit
  | [], _ => pure ()
  | p :: params, args => do
    let given := args.headD .undefined
    let v ←
      match given, r.defaults.get? p with
      | .undefined, some d => d.expr.eval ctx
      | given, _ => pure given
    declareName p v false
    bindParameters ctx r params args.tail

/-- The value a routine gives. -/
def runRoutine (ctx : Context) (r : Routine Stmt) : Run Value := do
  match r.result with
  | some e => e.expr.eval ctx
  | none =>
    match ← Stmt.runAll ctx r.body with
    | .answer v => return v
    | _ => return .undefined

/-- Opens a frame of its own for a call. -/
def State.enterFrame (name : Text) (r : Routine Stmt) (line : Nat) (s : State) : State :=
  let stack := ⟨name, line⟩ :: s.callStack
  { s with
    env := .empty
    loopDepth := 0
    labels := []
    pending := []
    block := some ⟨.function, r.span.first, r.span.last⟩
    callStack := stack
    counts := { s.counts with
      rounds := 0
      calls := s.counts.calls + 1
      deepestCall := max s.counts.deepestCall stack.length } }

/-- Closes the frame of a call and gives the caller its own back. -/
def State.leaveFrame (caller s : State) : State :=
  { s with
    env := caller.env
    loopDepth := caller.loopDepth
    labels := caller.labels
    pending := caller.pending
    block := caller.block
    callStack := s.callStack.tail
    counts := { s.counts with rounds := caller.counts.rounds } }

/-- Runs `act` in a frame of its own; the caller gets its own frame back on every way out. -/
def inFrame (ctx : Context) (name : Text) (r : Routine Stmt) (line : Nat) (act : Run Value) : Run Value :=
  ensuring (bracket (State.enterFrame name r line) act State.leaveFrame) <|
    ctx.note { line := line, kind := .functionExit, message := some ("Exiting " ++ name) }

/-- What happens between entering and leaving a frame. -/
def runFrame (ctx : Context) (name : Text) (r : Routine Stmt) (args : List Value) : Run Value := do
  bindParameters ctx r r.params args
  ctx.note { line := r.span.first, kind := .functionEnter, message := some ("Entering " ++ name) }
  let v ← runRoutine ctx r
  let shown ← describe v
  let message : Text :=
    if v = .undefined then name ++ (" completed" : Text) else Text.concat [name, " returned ", shown]
  ctx.noteOutput { line := r.span.last, kind := .functionReturn, message := some message }
  return v

/-- Calls a function; the context is the one its body runs in. -/
def callFunction (ctx : Context) : Caller := fun name r args line => do
  checkArity ctx name r args.length line
  let shown ← describeAll args
  ctx.note { line := line, kind := .call, message := some (Text.concat ["Calling ", name, "(", shown, ")"]) }
  inFrame ctx name r line (runFrame ctx name r args)

/-- How functions are called when the recursion may go so many calls deeper. -/
def callWithin (cfg : Config) (src : Source) (last : Caller) : Nat → Caller
  | 0 => last
  | n + 1 => fun name r args line =>
    callFunction { config := cfg, source := src, call := callWithin cfg src last n } name r args line

/-- The context in which the recursion may go so many calls deep. -/
def Context.within (cfg : Config) (src : Source) (last : Caller) (n : Nat) : Context where
  config := cfg
  source := src
  call := callWithin cfg src last n

/-- A call that does nothing. -/
def Caller.idle : Caller := fun _ _ _ _ => pure .undefined

/-- The context of the top level of a program. -/
def Context.top (cfg : Config) (src : Source) : Context :=
  .within cfg src .idle cfg.maxCallDepth.count

end ScriptTrace
