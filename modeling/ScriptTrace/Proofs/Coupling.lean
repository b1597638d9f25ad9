import ScriptTrace.Run.Program
/-!
# Couplings of runs

A **coupling** relates runs of one context to runs of another, in such a way that related parts make
related sequences. Whether it relates the runs of every program in the two contexts depends on a few
facts only: what it says of the operations on the memory, of a recorded event, of a call, and of each
construct that changes where in the program the run is. `Coupling.Records` lists them for what is done
and recorded in one place of the program, `Coupling.Evaluates` adds those for expressions and
`Coupling.Executes` those for statements. Where both contexts have the same limits, `Coupling.Moves` and
`Coupling.Loops` list what is enough for calls and for loops.

* `Evaluates.eval`: an expression is related to itself in the two contexts.
* `Executes.run`, `Executes.exec`: so is a statement.
* `Executes.runFrame`: so is the body of a function between the opening and the closing of its frame.
* `Executes.runProgram`: so is a program.

The induction over expressions and statements is made here once. A property of single runs is a
coupling that looks at the first run only.
-/
namespace ScriptTrace

open Act Op Run

/-- The operations that evaluation and execution are made of, on a heap with these strangers. -/
inductive Op.Elementary (strangers : Strangers) : {α : Type} → Op α → Prop
  | log (level : Level) (origin : Origin) (parts : List Text) : Elementary strangers (log level origin parts)
  | capped (t : Text) : Elementary strangers (ofFault (Value.capped t))
  | lookupName (line : Nat) (x : Text) : Elementary strangers (lookupName line x)
  | resolve (x : Text) : Elementary strangers (resolve? x)
  | isBound (name : Text) : Elementary strangers (isBound name)
  | declareName (name : Text) (v : Value) (constant : Bool) : Elementary strangers (declareName name v constant)
  | register (name : Text) (r : Routine Stmt) : Elementary strangers (register name r)
  | applyUnary (line : Nat) (op : UnaryOp) (v : Value) : Elementary strangers (applyUnary strangers line op v)
  | applyBinary (op : BinaryOp) (l r : Value) : Elementary strangers (applyBinary strangers op l r)
  | tested (v : Value) : Elementary strangers (tested strangers v)
  | shownText (v : Value) : Elementary strangers (shownText strangers v)
  | readProperty (line : Nat) (holder key : Value) : Elementary strangers (readProperty strangers line holder key)
  | write (p : Place) (v : Value) : Elementary strangers (p.write strangers v)
  | step (p : Place) (up isPrefix : Bool) (current : Value) :
    Elementary strangers (p.step strangers up isPrefix current)
  | newArray (items : List Value) : Elementary strangers (newArray items)
  | newObject (entries : Entries) : Elementary strangers (newObject entries)
  | captured (args : List Value) : Elementary strangers (captured args)
  | describe (v : Value) : Elementary strangers (describe v)
  | describeAll (vs : List Value) : Elementary strangers (describeAll vs)
  | drain : Elementary strangers drain

/-- A relation between runs that sequences respect. Related runs are cut short by some faults only. -/
structure Coupling where
  rel {α : Type} : Run α → Run α → Prop
  faults : Fault → Prop
  violations (why : Violation) (line : Nat) : faults (.violation why line)
  done {α : Type} (outcome : Except Fault α) :
    (∀ fault, outcome = .error fault → faults fault) → rel (done outcome) (done outcome)
  follow {α β : Type} {x x' : Run α} {next next' : Except Fault α → Run β} :
    rel x x' → (∀ outcome, (∀ fault, outcome = .error fault → faults fault) → rel (next outcome) (next' outcome)) →
      rel (x.follow next) (x'.follow next')

namespace Coupling

variable (C : Coupling) {ctx ctx' : Context}

theorem pure {α : Type} (a : α) : C.rel (pure a) (pure a) :=
  C.done _ fun _ h => nomatch h

theorem violate {α : Type} (why : Violation) (line : Nat) :
    C.rel (throw (.violation why line) : Run α) (throw (.violation why line)) := by
  refine C.done _ fun fault h => ?_
  cases h
  exact C.violations why line

theorem bind {α β : Type} {x x' : Run α} {f f' : α → Run β} (hx : C.rel x x')
    (hf : ∀ a, C.rel (f a) (f' a)) : C.rel (x >>= f) (x' >>= f') := by
  refine C.follow hx fun outcome admitted => ?_
  cases outcome with
  | ok a => exact hf a
  | error fault =>
    refine C.done _ fun _ h => ?_
    cases h
    exact admitted fault rfl

theorem handle {α : Type} {x x' : Run α} {handler handler' : Fault → Option (Run α)} (hx : C.rel x x')
    (h : ∀ fault, C.faults fault → Option.Rel C.rel (handler fault) (handler' fault)) :
    C.rel (x.handle handler) (x'.handle handler') := by
  refine C.follow hx fun outcome admitted => ?_
  cases outcome with
  | ok a => exact C.pure a
  | error fault =>
    have hr := h fault (admitted fault rfl)
    dsimp only
    generalize handler fault = y, handler' fault = y' at hr
    cases hr with
    | none => exact C.done _ admitted
    | some hy => exact hy

theorem ensuring {α : Type} {x x' : Run α} {cleanup cleanup' : Run Unit} (hx : C.rel x x')
    (hc : C.rel cleanup cleanup') : C.rel (x.ensuring cleanup) (x'.ensuring cleanup') :=
  C.follow hx fun _ admitted => C.bind hc fun _ => C.done _ admitted

theorem discard {α : Type} {x x' : Run α} (h : C.rel x x') : C.rel (discard x) (discard x') :=
  C.bind h fun _ => C.pure _

theorem ite {α : Type} {p : Prop} [Decidable p] {x x' y y' : Run α} (hx : C.rel x x')
    (hy : C.rel y y') : C.rel (if p then x else y) (if p then x' else y') := by
  split
  · exact hx
  · exact hy

theorem forM {β : Type} {f f' : β → Run Unit} (h : ∀ b, C.rel (f b) (f' b)) :
    ∀ l : List β, C.rel (l.forM f) (l.forM f')
  | [] => C.pure _
  | b :: l => C.bind (h b) fun _ => forM h l

/-! ## Rounds of a loop -/

section Rounds

variable {C} {cfg cfg' : Config} {label : Option Text} {start : Float} {test test' : Run Bool}
  {body body' : Run Signal} {after after' : Signal → Run Unit}
  (hoverrun : C.rel (overrun? cfg start) (overrun? cfg' start)) (hcount : C.rel countRound countRound)
  (htest : C.rel test test') (hbody : C.rel body body') (hafter : ∀ s, C.rel (after s) (after' s))

include hoverrun hcount hbody

theorem once : C.rel (Rounds.once ⟨cfg, label, start, test, body, after⟩)
    (Rounds.once ⟨cfg', label, start, test', body', after'⟩) := by
  refine C.bind hoverrun fun trip => ?_
  cases trip with
  | some trip => exact C.pure _
  | none => exact C.bind hcount fun _ => C.bind hbody fun _ => C.ite (C.pure _) (C.pure _)

include htest

theorem bodyFirst : ∀ left done,
    C.rel (Rounds.bodyFirst ⟨cfg, label, start, test, body, after⟩ left done)
      (Rounds.bodyFirst ⟨cfg', label, start, test', body', after'⟩ left done)
  | 0, _ => C.pure _
  | left + 1, done => by
    refine C.bind (once hoverrun hcount hbody) fun end? => ?_
    cases end? with
    | inl ending => exact C.pure _
    | inr s => exact C.bind htest fun _ => C.ite (bodyFirst left _) (C.pure _)

include hafter

theorem testFirst : ∀ left done,
    C.rel (Rounds.testFirst ⟨cfg, label, start, test, body, after⟩ left done)
      (Rounds.testFirst ⟨cfg', label, start, test', body', after'⟩ left done)
  | 0, done => C.bind htest fun _ => C.ite (C.pure _) (C.pure _)
  | left + 1, done => by
    refine C.bind htest fun _ => C.ite ?_ (C.pure _)
    refine C.bind (once hoverrun hcount hbody) fun end? => ?_
    cases end? with
    | inl ending => exact C.pure _
    | inr s => exact C.bind (hafter s) fun _ => testFirst left _

end Rounds

/-! ## Operations and events -/

/-- What a coupling has to relate for operations and events. -/
structure Records (ctx ctx' : Context) : Prop where
  strangers : ctx'.strangers = ctx.strangers
  op {α : Type} {x : Op α} : x.Elementary ctx.strangers → C.rel x.asRun x.asRun
  print (v : Value) : C.rel (print v) (print v)
  note (e : Event) : C.rel (ctx.note e) (ctx'.note e)

namespace Records

variable {C}

theorem noteOutput (h : C.Records ctx ctx') (e : Event) :
    C.rel (ctx.noteOutput e) (ctx'.noteOutput e) :=
  C.bind (h.op .drain) fun _ => h.note _

theorem diagnose (h : C.Records ctx ctx') (line : Nat) (message : Text) :
    C.rel (ctx.diagnose line message) (ctx'.diagnose line message) :=
  C.bind (h.op (.log ..)) fun _ => C.bind (h.note _) fun _ => C.pure _

/-- A call that is shielded from exhaustion. If it may be exhausted, both contexts have to show the same limit. -/
theorem shielded (h : C.Records ctx ctx')
    (limit : C.faults .exhausted → ctx'.config.maxCallDepth = ctx.config.maxCallDepth) (line : Nat) (x : Text)
    {call call' : Run Value} (hcall : C.rel call call') :
    C.rel (shielded ctx line x call) (shielded ctx' line x call') := by
  refine C.handle hcall fun fault admitted => ?_
  cases fault with
  | exhausted =>
    refine .some ?_
    rw [Context.overflow, Context.overflow, limit admitted]
    exact h.diagnose line _
  | failure | violation | badIndex | misfit => exact .none

theorem queueOutput (h : C.Records ctx ctx') (args : List Value) :
    C.rel (queueOutput args) (queueOutput args) :=
  C.bind (h.op (.captured ..)) fun v => C.bind (h.print v) fun _ => C.pure _

theorem checkArity (h : C.Records ctx ctx') (name : Text) (r : Routine Stmt) (count line : Nat) :
    C.rel (checkArity ctx name r count line) (checkArity ctx' name r count line) :=
  C.ite (C.pure _) (C.bind (h.op (.log ..)) fun _ => h.note _)

end Records

/-! ## Expressions -/

/-- What a coupling has to relate for the evaluation of expressions. -/
structure Evaluates (ctx ctx' : Context) : Prop extends C.Records ctx ctx' where
  invoke (line : Nat) (x : Text) {args args' : Run (List Value)} :
    C.rel args args' → C.rel (invoke ctx line x args) (invoke ctx' line x args')

namespace Evaluates

variable {C}

mutual

theorem eval (h : C.Evaluates ctx ctx') : ∀ e : Expr, C.rel (e.eval ctx) (e.eval ctx')
  | .name line x => by
    simp only [Expr.eval]
    exact h.op (.lookupName ..)
  | .number _ | .string _ | .bool _ | .null | .undefined | .spread | .function _ => C.pure _
  | .template raws holes => by
    simp only [Expr.eval]
    exact C.bind (h.evalTexts holes) fun _ => C.bind (h.op (.capped ..)) fun _ => C.pure _
  | .unary line op operand => by
    simp only [Expr.eval, h.strangers]
    exact C.bind (h.eval operand) fun _ => h.op (.applyUnary ..)
  | .binary line op left right => by
    simp only [Expr.eval, h.strangers]
    refine C.bind (h.eval left) fun l => ?_
    cases op with
    | logical op => exact C.bind (h.op (.tested ..)) fun _ => C.ite (C.pure _) (h.eval right)
    | strict op => exact C.bind (h.eval right) fun _ => h.op (.applyBinary ..)
    | unsupported spelling =>
      exact C.bind (C.discard (h.eval right)) fun _ => C.bind (h.op (.log ..)) fun _ => C.pure _
  | .conditional test yes no => by
    simp only [Expr.eval, h.strangers]
    exact C.bind (h.eval test) fun _ => C.bind (h.op (.tested ..)) fun _ => C.ite (h.eval yes) (h.eval no)
  | .update up isPrefix target => by
    simp only [Expr.eval, h.strangers]
    exact C.bind (h.place target) fun p => C.bind (h.current target p) fun _ => h.op (.step ..)
  | .assign target right => by
    simp only [Expr.eval, h.strangers]
    exact C.bind (h.place target) fun _ => C.bind (h.eval right) fun _ => h.op (.write ..)
  | .augment line target op right => by
    simp only [Expr.eval, h.strangers]
    refine C.bind (h.place target) fun p => C.bind (h.current target p) fun v => ?_
    cases op with
    | logical op =>
      exact C.bind (h.op (.tested ..)) fun _ => C.ite (C.pure _) (C.bind (h.eval right) fun _ => h.op (.write ..))
    | strict op => exact C.bind (h.eval right) fun _ => C.bind (h.op (.applyBinary ..)) fun _ => h.op (.write ..)
    | unsupported spelling => exact C.bind (h.op (.log ..)) fun _ => C.pure _
  | .array items => by
    simp only [Expr.eval]
    exact C.bind (h.evalAll items) fun _ => h.op (.newArray ..)
  | .object members => by
    simp only [Expr.eval]
    exact C.bind (h.evalMembers members []) fun _ => h.op (.newObject ..)
  | .property line holder key => by
    simp only [Expr.eval, h.strangers]
    exact C.bind (h.eval holder) fun _ => C.bind (h.evalKey key) fun _ => h.op (.readProperty ..)
  | .call line callee args => by
    cases callee with
    | console =>
      simp only [Expr.eval]
      exact C.bind (h.evalAll args) fun _ => h.queueOutput _
    | name x =>
      simp only [Expr.eval]
      exact h.invoke line x (h.evalAll args)
    | other text =>
      simp only [Expr.eval]
      exact h.diagnose line _
  | .sequence items => by
    simp only [Expr.eval]
    exact C.bind (h.evalAll items) fun _ => C.pure _
  | .unsupported line kind => by
    simp only [Expr.eval]
    exact C.bind (h.op (.log ..)) fun _ => C.pure _

theorem evalAll (h : C.Evaluates ctx ctx') : ∀ es : List Expr,
    C.rel (Expr.evalAll ctx es) (Expr.evalAll ctx' es)
  | [] => C.pure _
  | e :: rest => by
    simp only [Expr.evalAll]
    exact C.bind (h.eval e) fun _ => C.bind (h.evalAll rest) fun _ => C.pure _

theorem evalTexts (h : C.Evaluates ctx ctx') : ∀ es : List Expr,
    C.rel (Expr.evalTexts ctx es) (Expr.evalTexts ctx' es)
  | [] => C.pure _
  | e :: rest => by
    simp only [Expr.evalTexts, h.strangers]
    refine C.bind (h.eval e) fun _ => C.bind (h.op (.shownText ..)) fun _ => ?_
    exact C.bind (h.evalTexts rest) fun _ => C.pure _

theorem evalKey (h : C.Evaluates ctx ctx') : ∀ k : Key, C.rel (k.eval ctx) (k.eval ctx')
  | .fixed _ | .string _ | .number _ => C.pure _
  | .computed e => by
    simp only [Key.eval]
    exact h.eval e

theorem evalMembers (h : C.Evaluates ctx ctx') : ∀ (ms : List Member) (entries : Entries),
    C.rel (Member.evalAll ctx ms entries) (Member.evalAll ctx' ms entries)
  | [], _ => C.pure _
  | .pair key value :: rest, entries => by
    simp only [Member.evalAll, h.strangers]
    refine C.bind (h.evalKey key) fun _ => C.bind (h.op (.shownText ..)) fun _ => ?_
    exact C.bind (h.eval value) fun _ => h.evalMembers rest _
  | .shorthand line x :: rest, entries => by
    simp only [Member.evalAll]
    exact C.bind (h.op (.lookupName ..)) fun _ => h.evalMembers rest _
  | .method key :: rest, entries => by
    simp only [Member.evalAll, h.strangers]
    exact C.bind (h.evalKey key) fun _ => C.bind (h.op (.shownText ..)) fun _ => h.evalMembers rest _
  | .unsupported line kind :: rest, entries => by
    simp only [Member.evalAll]
    exact C.bind (h.op (.log ..)) fun _ => h.evalMembers rest _

theorem place (h : C.Evaluates ctx ctx') : ∀ t : Target, C.rel (t.place ctx) (t.place ctx')
  | .name _ _ | .invalid _ _ _ => C.pure _
  | .property line holder key => by
    simp only [Target.place]
    exact C.bind (h.eval holder) fun _ => C.bind (h.evalKey key) fun _ => C.pure _

theorem current (h : C.Evaluates ctx ctx') : ∀ (t : Target) (p : Place),
    C.rel (t.current ctx p) (t.current ctx' p)
  | .invalid _ _ e, p => by
    simp only [Target.current]
    exact h.eval e
  | .name _ _, p => by
    cases p <;> simp only [Target.current, h.strangers]
    · exact h.op (.lookupName ..)
    · exact h.op (.readProperty ..)
    · exact C.pure _
  | .property _ _ _, p => by
    cases p <;> simp only [Target.current, h.strangers]
    · exact h.op (.lookupName ..)
    · exact h.op (.readProperty ..)
    · exact C.pure _

end

end Evaluates

/-! ## Statements -/

/-- What a coupling has to relate for the execution of statements. -/
structure Executes (ctx ctx' : Context) : Prop extends C.Evaluates ctx ctx' where
  countStatement : C.rel countStatement countStatement
  countFailure : C.rel countFailure countFailure
  /-- What looks at the state for its place in the program only. -/
  get {α : Type} {f f' : State → Run α} :
    (∀ s s', s'.toControl = s.toControl → C.rel (f s) (f' s')) → C.rel (get >>= f) (get >>= f')
  within {α : Type} (kind : BlockKind) (span : Span) {x x' : Run α} :
    C.rel x x' → C.rel (within kind span x) (within kind span x')
  labeled (label : Text) {x x' : Run Signal} :
    C.rel x x' → C.rel (runLabeled label x) (runLabeled label x')
  loopTestFirst (span : Span) (label : Option Text) {opening opening' : Run Unit}
    {test test' : Run Bool} {body body' : Run Signal} {after after' : Signal → Run Unit} :
    C.rel opening opening' → C.rel test test' → C.rel body body' →
      (∀ s, C.rel (after s) (after' s)) →
      C.rel (loopTestFirst ctx span label opening test body after)
        (loopTestFirst ctx' span label opening' test' body' after')
  loopBodyFirst (span : Span) (label : Option Text) {test test' : Run Bool} {body body' : Run Signal} :
    C.rel test test' → C.rel body body' →
      C.rel (loopBodyFirst ctx span label test body) (loopBodyFirst ctx' span label test' body')

namespace Executes

variable {C}

theorem contain (h : C.Executes ctx ctx') (line : Nat) {x x' : Run Signal} (hx : C.rel x x') :
    C.rel (contain ctx line x) (contain ctx' line x') := by
  refine C.handle hx fun fault _ => ?_
  cases fault with
  | failure cause at? =>
    refine .some (C.bind h.countFailure fun _ => C.bind (h.op (.log ..)) fun _ => ?_)
    exact C.bind (h.noteOutput _) fun _ => C.pure _
  | violation | badIndex | misfit | exhausted => exact .none

theorem execute (h : C.Executes ctx ctx') (stmt : Stmt) {x x' : Run Signal} (hx : C.rel x x') :
    C.rel (execute ctx stmt x) (execute ctx' stmt x') :=
  C.ite (C.pure _) (C.bind h.countStatement fun _ => h.contain _ hx)

theorem executeBody (h : C.Executes ctx ctx') (stmt : Stmt) {x x' : Run Signal} (hx : C.rel x x') :
    C.rel (executeBody ctx stmt x) (executeBody ctx' stmt x') :=
  C.ite hx (h.execute stmt hx)

theorem declareAll (h : C.Executes ctx ctx') (d : Declaration Stmt) :
    C.rel (declareAll ctx d) (declareAll ctx' d) := by
  refine C.forM (fun declarator => ?_) d.declarators
  cases declarator with
  | pattern line =>
    simp only [declareOne]
    exact h.op (.log ..)
  | bind name init =>
    simp only [declareOne]
    cases init with
    | absent => exact C.bind (h.op (.isBound ..)) fun _ => C.ite (C.pure _) (h.op (.declareName ..))
    | routine r => exact C.bind (h.op (.register ..)) fun _ => h.op (.declareName ..)
    | value e => exact C.bind (h.eval e) fun _ => h.op (.declareName ..)

theorem runTest (h : C.Executes ctx ctx') (line : Nat) (test : Expr) :
    C.rel (runTest ctx line test) (runTest ctx' line test) := by
  simp only [ScriptTrace.runTest, h.strangers]
  exact C.bind (h.eval test) fun _ => C.bind (h.op (.tested ..)) fun _ => C.bind (h.noteOutput _) fun _ => C.pure _

theorem checkJump (h : C.Executes ctx ctx') (line : Nat) (kind : Jump) (label : Option Text) :
    C.rel (checkJump line kind label) (checkJump line kind label) := by
  refine h.get fun s s' place => ?_
  have depth : s'.loopDepth = s.loopDepth := congrArg Control.loopDepth place
  have labels : s'.labels = s.labels := congrArg Control.labels place
  rw [depth, labels]
  cases label with
  | some l => exact C.ite (C.violate _ _) (C.ite (C.violate _ _) (C.pure _))
  | none => exact C.ite (C.violate _ _) (C.pure _)

theorem runOpening (h : C.Executes ctx ctx') (line : Nat) (opening : Opening Stmt) :
    C.rel (runOpening ctx line opening) (runOpening ctx' line opening) := by
  cases opening with
  | absent => exact C.pure _
  | declare d => exact C.bind (h.declareAll d) fun _ => h.noteOutput _
  | eval e => exact C.bind (C.discard (h.eval e)) fun _ => h.noteOutput _

theorem runClauseTest (h : C.Executes ctx ctx') (line : Nat) (test : Option Expr) :
    C.rel (runClauseTest ctx line test) (runClauseTest ctx' line test) := by
  cases test with
  | none => exact C.pure _
  | some test => exact h.runTest line test

theorem runUpdate (h : C.Executes ctx ctx') (line : Nat) (update : Option Expr) (s : Signal) :
    C.rel (runUpdate ctx line update s) (runUpdate ctx' line update s) := by
  cases update with
  | none => exact C.pure _
  | some e =>
    refine C.bind (C.discard (h.eval e)) fun _ => ?_
    cases s with
    | next label => exact C.pure _
    | normal | leave | answer => exact h.noteOutput _

mutual

theorem run (h : C.Executes ctx ctx') : ∀ (label : Option Text) (stmt : Stmt),
    C.rel (stmt.run ctx label) (stmt.run ctx' label)
  | _, .skipped _ _ => C.pure _
  | _, .unsupported span kind => by
    simp only [Stmt.run]
    exact C.bind (h.op (.log ..)) fun _ => C.bind (h.note _) fun _ => C.pure _
  | _, .declare span d => by
    simp only [Stmt.run]
    exact C.bind (h.declareAll d) fun _ => C.bind (h.noteOutput _) fun _ => C.pure _
  | _, .expression span none => by
    simp only [Stmt.run]
    exact C.bind (h.noteOutput _) fun _ => C.pure _
  | _, .expression span (some e) => by
    simp only [Stmt.run]
    exact C.bind (C.discard (h.eval e)) fun _ => C.bind (h.noteOutput _) fun _ => C.pure _
  | _, .block _ body => by
    simp only [Stmt.run]
    exact h.runAll body
  | _, .ifThen span test yesSpan yes => by
    simp only [Stmt.run]
    exact C.bind (h.runTest _ _) fun _ =>
      C.ite (h.within _ _ (h.executeBody yes (h.run none yes))) (C.pure _)
  | _, .ifElse span test yesSpan yes noSpan no => by
    simp only [Stmt.run]
    refine C.bind (h.runTest _ _) fun _ => C.ite ?_ ?_
    · exact h.within _ _ (h.executeBody yes (h.run none yes))
    · exact h.within _ _ (h.executeBody no (h.run none no))
  | label, .forLoop span opening test update bodySpan body => by
    simp only [Stmt.run]
    exact h.loopTestFirst _ _ (h.runOpening _ _) (h.runClauseTest _ _)
      (h.within _ _ (h.executeBody body (h.run none body))) (h.runUpdate _ _)
  | label, .whileLoop span test bodySpan body => by
    simp only [Stmt.run]
    exact h.loopTestFirst _ _ (C.pure _) (h.runTest _ _)
      (h.within _ _ (h.executeBody body (h.run none body))) fun _ => C.pure _
  | label, .doLoop span testLine test bodySpan body => by
    simp only [Stmt.run]
    exact h.loopBodyFirst _ _ (h.runTest _ _) (h.within _ _ (h.executeBody body (h.run none body)))
  | _, .jump span kind target => by
    simp only [Stmt.run, runJump]
    exact C.bind (h.checkJump _ _ _) fun _ => C.bind (h.note _) fun _ => C.pure _
  | _, .answer span none => by
    simp only [Stmt.run]
    exact C.bind (C.pure _) fun _ => C.bind (h.noteOutput _) fun _ => C.pure _
  | _, .answer span (some e) => by
    simp only [Stmt.run]
    exact C.bind (h.eval e) fun _ => C.bind (h.noteOutput _) fun _ => C.pure _
  | _, .function span _ name r => by
    simp only [Stmt.run]
    exact C.bind (h.op (.register ..)) fun _ =>
      C.bind (h.op (.declareName ..)) fun _ => C.bind (h.note _) fun _ => C.pure _
  | _, .labeled _ name body => by
    simp only [Stmt.run]
    exact h.labeled name (C.ite (h.run (some name) body) (h.execute body (h.run none body)))

theorem runAll (h : C.Executes ctx ctx') : ∀ stmts : List Stmt,
    C.rel (Stmt.runAll ctx stmts) (Stmt.runAll ctx' stmts)
  | [] => C.pure _
  | stmt :: rest => by
    simp only [Stmt.runAll]
    exact C.bind (h.execute stmt (h.run none stmt)) fun _ => C.ite (h.runAll rest) (C.pure _)

end

theorem exec (h : C.Executes ctx ctx') (stmt : Stmt) : C.rel (stmt.exec ctx) (stmt.exec ctx') :=
  h.execute stmt (h.run none stmt)

/-! ## Calls -/

theorem bindParameters (h : C.Executes ctx ctx') (r : Routine Stmt) :
    ∀ (params : List Text) (args : List Value),
      C.rel (bindParameters ctx r params args) (bindParameters ctx' r params args)
  | [], _ => C.pure _
  | p :: params, args => by
    simp only [ScriptTrace.bindParameters]
    split
    · exact C.bind (h.eval _) fun _ => C.bind (h.op (.declareName ..)) fun _ => h.bindParameters r params _
    · exact C.bind (C.pure _) fun _ => C.bind (h.op (.declareName ..)) fun _ => h.bindParameters r params _

theorem runRoutine (h : C.Executes ctx ctx') (r : Routine Stmt) :
    C.rel (runRoutine ctx r) (runRoutine ctx' r) := by
  simp only [ScriptTrace.runRoutine]
  split
  · exact h.eval _
  · refine C.bind (h.runAll r.body) fun s => ?_
    cases s with
    | normal | leave | next | answer => exact C.pure _

theorem runFrame (h : C.Executes ctx ctx') (name : Text) (r : Routine Stmt) (args : List Value) :
    C.rel (runFrame ctx name r args) (runFrame ctx' name r args) :=
  C.bind (h.bindParameters r r.params args) fun _ => C.bind (h.note _) fun _ =>
    C.bind (h.runRoutine r) fun _ => C.bind (h.op (.describe ..)) fun _ => C.bind (h.noteOutput _) fun _ => C.pure _

theorem callFunction (h : C.Executes ctx ctx') (name : Text) (r : Routine Stmt)
    (args : List Value) (line : Nat)
    (frame : ∀ {x x' : Run Value}, C.rel x x' →
      C.rel (bracket (State.enterFrame name r line) x State.leaveFrame)
        (bracket (State.enterFrame name r line) x' State.leaveFrame)) :
    C.rel (callFunction ctx name r args line) (callFunction ctx' name r args line) :=
  C.bind (h.checkArity name r _ line) fun _ => C.bind (h.op (.describeAll ..)) fun _ => C.bind (h.note _) fun _ =>
    C.ensuring (frame (h.runFrame name r args)) (h.note _)

/-! ## Programs -/

theorem runTopLevel (h : C.Executes ctx ctx') (stmt : Stmt) :
    C.rel (runTopLevel ctx stmt) (runTopLevel ctx' stmt) := by
  have cut (kind message : Text) :
      C.rel (recordCut ctx stmt.line kind message) (recordCut ctx' stmt.line kind message) :=
    C.bind (h.op (.log ..)) fun _ => C.bind (h.noteOutput _) fun _ => C.pure _
  refine C.handle (h.exec stmt) fun fault _ => ?_
  cases fault with
  | badIndex b => exact .some (cut _ _)
  | misfit m => exact .some (cut _ _)
  | exhausted => exact .some (cut _ _)
  | failure | violation => exact .none

theorem runProgram (h : C.Executes ctx ctx') : ∀ program : List Stmt,
    C.rel (runProgram ctx program) (runProgram ctx' program)
  | [] => C.pure _
  | stmt :: rest => by
    simp only [ScriptTrace.runProgram]
    refine C.bind (h.runTopLevel stmt) fun s => ?_
    cases s with
    | answer v => exact C.bind (h.op (.describe ..)) fun _ => C.bind (h.note _) fun _ => h.op (.log ..)
    | normal => exact h.runProgram rest
    | leave | next => exact C.bind (h.note _) fun _ => h.runProgram rest

end Executes

/-! ## Contexts with the same limits -/

/-- Whether calls are related, of whatever function. -/
def Calls (call call' : Caller) : Prop :=
  ∀ name r args line, C.rel (call name r args line) (call' name r args line)

/-- What a coupling has to relate of the moves of a state, where calls and loops may nest equally deep. -/
structure Moves (ctx ctx' : Context) : Prop extends C.Records ctx ctx' where
  maxCallDepth : ctx'.config.maxCallDepth = ctx.config.maxCallDepth
  maxLoopDepth : ctx'.config.maxLoopDepth = ctx.config.maxLoopDepth
  get {α : Type} {f f' : State → Run α} :
    (∀ s s', s'.toControl = s.toControl → C.rel (f s) (f' s')) → C.rel (get >>= f) (get >>= f')
  within {α : Type} (kind : BlockKind) (span : Span) {x x' : Run α} :
    C.rel x x' → C.rel (within kind span x) (within kind span x')
  labeled (label : Text) {x x' : Run Signal} : C.rel x x' → C.rel (runLabeled label x) (runLabeled label x')
  countStatement : C.rel countStatement countStatement
  countFailure : C.rel countFailure countFailure
  readClock : C.rel readClock readClock
  refuse (x : Text) (line : Nat) : C.rel (refuse x line) (refuse x line)
  message (trip : Trip) : trip.message ctx'.config = trip.message ctx.config
  countTrip : C.rel (modify fun s => { s with counts := { s.counts with trips := s.counts.trips + 1 } })
    (modify fun s => { s with counts := { s.counts with trips := s.counts.trips + 1 } })

namespace Moves

variable {C}

theorem evaluates (h : C.Moves ctx ctx') (calls : C.Calls ctx.call ctx'.call) : C.Evaluates ctx ctx' where
  toRecords := h.toRecords
  invoke line x args args' hargs := by
    refine C.bind (h.op (.resolve x)) fun target => ?_
    cases target with
    | none => exact h.diagnose line _
    | some target =>
      refine h.get fun s s' place => ?_
      have stack : s'.callStack = s.callStack := congrArg Control.callStack place
      rw [stack, h.maxCallDepth]
      refine C.ite (C.bind (h.refuse x line) fun _ => ?_) (C.bind hargs fun vs => ?_)
      · rw [Context.overflow, Context.overflow, h.maxCallDepth]
        exact h.diagnose line _
      · exact h.shielded (fun _ => h.maxCallDepth) line x (calls _ _ vs line)

theorem noteTrip (h : C.Moves ctx ctx') (line : Nat) (trip : Trip) :
    C.rel (noteTrip ctx line trip) (noteTrip ctx' line trip) := by
  rw [ScriptTrace.noteTrip, ScriptTrace.noteTrip, h.message]
  exact C.bind h.countTrip fun _ => h.op (.log ..)

theorem recordCompletion (h : C.Moves ctx ctx') (span : Span) (done : Nat) (trip : Option Trip) :
    C.rel (recordCompletion ctx span done trip) (recordCompletion ctx' span done trip) := by
  have reported : completion ctx'.config done trip = completion ctx.config done trip := by
    cases trip <;> simp only [completion, h.message]
  rw [ScriptTrace.recordCompletion, ScriptTrace.recordCompletion, reported]
  exact h.noteOutput _

theorem runLoop (h : C.Moves ctx ctx') (span : Span) {go go' : Float → Run (Ending × Nat)}
    (rounds : ∀ start, C.rel (bracket State.enterLoop (go start) State.leaveLoop)
      (bracket State.enterLoop (go' start) State.leaveLoop)) :
    C.rel (runLoop ctx span go) (runLoop ctx' span go') := by
  have stop (done : Nat) (trip : Trip) : C.rel
      (ScriptTrace.noteTrip ctx span.first trip >>= fun _ =>
        ScriptTrace.recordCompletion ctx span done (some trip) >>= fun _ => Pure.pure Signal.normal)
      (ScriptTrace.noteTrip ctx' span.first trip >>= fun _ =>
        ScriptTrace.recordCompletion ctx' span done (some trip) >>= fun _ => Pure.pure Signal.normal) :=
    C.bind (h.noteTrip _ trip) fun _ => C.bind (h.recordCompletion span done _) fun _ => C.pure _
  refine C.bind h.readClock fun start => h.get fun s s' place => ?_
  have depth : s'.loopDepth = s.loopDepth := congrArg Control.loopDepth place
  rw [depth, h.maxLoopDepth]
  refine C.ite (stop 0 .depth) (C.bind (rounds start) fun (ending, done) => ?_)
  cases ending with
  | finished signal => exact C.bind (h.recordCompletion span done none) fun _ => C.pure _
  | stopped trip => exact stop done trip

end Moves

/-- What a coupling has to relate further for the rounds of a loop, where there may be equally many. -/
structure Loops (ctx ctx' : Context) : Prop extends C.Moves ctx ctx' where
  maxIterations : ctx'.config.maxIterations = ctx.config.maxIterations
  overrun (start : Float) : C.rel (overrun? ctx.config start) (overrun? ctx'.config start)
  countRound : C.rel countRound countRound
  inside {x x' : Run (Ending × Nat)} : C.rel x x' →
    C.rel (bracket State.enterLoop x State.leaveLoop) (bracket State.enterLoop x' State.leaveLoop)

namespace Loops

variable {C}

theorem loopTestFirst (h : C.Loops ctx ctx') (span : Span) (label : Option Text) {opening opening' : Run Unit}
    {test test' : Run Bool} {body body' : Run Signal} {after after' : Signal → Run Unit}
    (hopening : C.rel opening opening') (htest : C.rel test test') (hbody : C.rel body body')
    (hafter : ∀ s, C.rel (after s) (after' s)) :
    C.rel (loopTestFirst ctx span label opening test body after)
      (loopTestFirst ctx' span label opening' test' body' after') := by
  refine h.runLoop span fun start => h.inside (C.bind hopening fun _ => ?_)
  rw [h.maxIterations]
  exact testFirst (h.overrun start) h.countRound htest hbody hafter _ _

theorem loopBodyFirst (h : C.Loops ctx ctx') (span : Span) (label : Option Text) {test test' : Run Bool}
    {body body' : Run Signal} (htest : C.rel test test') (hbody : C.rel body body') :
    C.rel (loopBodyFirst ctx span label test body) (loopBodyFirst ctx' span label test' body') := by
  refine h.runLoop span fun start => h.inside ?_
  rw [h.maxIterations]
  exact bodyFirst (h.overrun start) h.countRound htest hbody _ _

theorem executes (h : C.Loops ctx ctx') (calls : C.Calls ctx.call ctx'.call) : C.Executes ctx ctx' :=
  { h.evaluates calls, h.toMoves with
    loopTestFirst := h.loopTestFirst
    loopBodyFirst := h.loopBodyFirst }

end Loops

/-! ## The recursion -/

/-- Two recursions of one depth are related if a frame is, what stands at their ends is, and a context
is whenever its calls are. -/
theorem executes_within {cfg cfg' : Config} {src : Source} {last last' : Caller}
    (frame : ∀ {x x' : Run Value} (name : Text) (r : Routine Stmt) (line : Nat), C.rel x x' →
      C.rel (bracket (State.enterFrame name r line) x State.leaveFrame)
        (bracket (State.enterFrame name r line) x' State.leaveFrame))
    (ends : C.Calls last last')
    (step : ∀ {n}, C.Calls (callWithin cfg src last n) (callWithin cfg' src last' n) →
      C.Executes (.within cfg src last n) (.within cfg' src last' n)) :
    ∀ n, C.Executes (.within cfg src last n) (.within cfg' src last' n)
  -- the calls of a recursion are those of one that may go one call less deep, inside a frame
  | 0 => step ends
  | n + 1 => step fun name r args line =>
    (executes_within frame ends step n).callFunction name r args line (frame name r line)

end Coupling

end ScriptTrace
