import ScriptTrace.Proofs.Standards
import ScriptTrace.Run.Program
/-!
# Runs keep to standards

In a context whose calls keep to a standard, expressions, statements, calls and programs that spell texts in order keep
to it as well: from a state that is in order they pass through such states only, and the values they give are in
order. The induction over the syntax is made here once.

* `Context.Conforms.eval`, `Context.Conforms.run`, `Context.Conforms.callFunction`: what one level of calls keeps.
* `conforms_within`: so every depth of the recursion is such a context.
* `Context.Conforms.runProgram`: a program keeps to the standard in every state that it passes through.
-/
namespace ScriptTrace

open Act Op Run

namespace Standard

variable {S : Standard} {α : Type} {R : α → Prop} {v : Value}

def AdmitsState (S : Standard) (s : State) : Prop :=
  S.AdmitsMemory s.toMemory

def AdmitsSignal (S : Standard) : Signal → Prop
  | .answer v => S.Admits v
  | .normal | .leave _ | .next _ => True

/-! ## Parts of runs -/

theorem op {x : Op α} (h : x.Yields S.AdmitsMemory R) : x.asRun.Yields S.AdmitsState R :=
  h.asRun

/-- What changes nothing in the memory. -/
theorem aside {f : State → α × State} (h : ∀ s, (f s).2.toMemory = s.toMemory := by intro; rfl) :
    (modifyGet f : Run α).Yields S.AdmitsState fun _ => True := by
  refine .modifyGet fun s hs => ⟨?_, trivial⟩
  unfold AdmitsState
  rw [h]
  exact hs

variable (S)

theorem record (cfg : Config) (src : Source) (e : Event) :
    (Run.record cfg src e).Yields S.AdmitsState fun _ => True := by
  have store : (Run.store cfg src e).Yields S.AdmitsState fun _ => True := aside
  refine .ite (.pure trivial) (store.bind fun stored _ => ?_)
  cases stored with
  | kept step => exact .pure trivial
  | dropped first => exact .ite ((op (S.warn _ _)).bind fun _ _ => .pure trivial) (.pure trivial)

theorem note (ctx : Context) (e : Event) : (ctx.note e).Yields S.AdmitsState fun _ => True :=
  (S.record _ _ e).discard

theorem noteOutput (ctx : Context) (e : Event) : (ctx.noteOutput e).Yields S.AdmitsState fun _ => True :=
  (op S.drain).bind fun _ _ => S.note ctx _

theorem diagnose (ctx : Context) (line : Nat) (message : Text) :
    (ctx.diagnose line message).Yields S.AdmitsState S.Admits :=
  (op (S.warn _ _)).bind fun _ _ => (S.note ctx _).bind fun _ _ => .pure trivial

theorem print (hv : S.Admits v) : (print v).Yields S.AdmitsState fun _ => True :=
  .modify fun _ hs => ⟨hs.heap, hs.bindings,
    List.forall_mem_append.2 ⟨hs.pending, List.forall_mem_singleton.2 hv⟩, hs.functions⟩

theorem queueOutput {args : List Value} (ha : ∀ v ∈ args, S.Admits v) :
    (queueOutput args).Yields S.AdmitsState S.Admits :=
  (op (S.captured ha)).bind fun _ hv => (S.print hv).bind fun _ _ => .pure trivial

theorem within (kind : BlockKind) (span : Span) {x : Run α} (hx : x.Yields S.AdmitsState R) :
    (within kind span x).Yields S.AdmitsState R :=
  hx.bracket (fun _ hs => hs) fun _ _ _ ht => ht

end Standard

/-- Whether the calls of a context keep to a standard. -/
def Context.Conforms (ctx : Context) (S : Standard) : Prop :=
  ∀ name r args line, S.AdmitsRoutine r → (∀ v ∈ args, S.Admits v) →
    (ctx.call name r args line).Yields S.AdmitsState S.Admits

namespace Context.Conforms

open Standard

variable {S : Standard} {ctx : Context}

/-! ## Expressions -/

theorem shielded (line : Nat) (x : Text) {call : Run Value} (hcall : call.Yields S.AdmitsState S.Admits) :
    (shielded ctx line x call).Yields S.AdmitsState S.Admits := by
  refine hcall.handle fun fault y hy => ?_
  cases fault with
  | exhausted =>
    cases hy
    exact S.diagnose ctx line _
  | failure | violation | badIndex | misfit => cases hy

theorem invoke (h : ctx.Conforms S) (line : Nat) (x : Text) {args : Run (List Value)}
    (ha : args.Yields S.AdmitsState fun vs => ∀ v ∈ vs, S.Admits v) :
    (invoke ctx line x args).Yields S.AdmitsState S.Admits := by
  have refused : (refuse x line).Yields S.AdmitsState fun _ => True := aside
  refine (op (S.resolve? x)).bind fun found hf => ?_
  cases found with
  | none => exact S.diagnose ctx line _
  | some found =>
    exact .get fun _ _ => .ite (refused.bind fun _ _ => S.diagnose ctx line _)
      (ha.bind fun vs hvs => shielded line x (h found.1 found.2 vs line (hf found rfl) hvs))

mutual

theorem eval (h : ctx.Conforms S) : ∀ e : Expr, S.AdmitsExpr e → (e.eval ctx).Yields S.AdmitsState S.Admits
  | .name line x, _ => by
    simp only [Expr.eval]
    exact op (S.lookupName line x)
  | .number literal, _ => .pure (Standard.literal literal)
  | .string raw, he => .pure he
  | .template raws holes, he => by
    simp only [Expr.eval]
    exact (h.evalTexts holes he).bind fun _ _ => (op (S.ofFault fun _ ht => capped ht)).bind fun _ ht => .pure ht
  | .bool _, _ | .null, _ | .undefined, _ | .function _, _ => .pure trivial
  | .spread, _ => .pure (S.short _ (by decide))
  | .unary line op' operand, he => by
    simp only [Expr.eval]
    exact (h.eval operand he).bind fun v hv => op (S.applyUnary _ line op' hv)
  | .binary line op' left right, he => by
    simp only [Expr.eval]
    refine (h.eval left he.1).bind fun l hl => ?_
    cases op' with
    | logical op' => exact (op (S.tested _ l)).bind fun _ _ => .ite (.pure hl) (h.eval right he.2)
    | strict op' => exact (h.eval right he.2).bind fun r _ => op (S.applyBinary _ op' l r)
    | unsupported spelling =>
      exact (h.eval right he.2).discard.bind fun _ _ => (op (S.warn _ _)).bind fun _ _ => .pure trivial
  | .conditional test yes no, he => by
    simp only [Expr.eval]
    exact (h.eval test he.1).bind fun v _ => (op (S.tested _ v)).bind fun _ _ =>
      .ite (h.eval yes he.2.1) (h.eval no he.2.2)
  | .update up isPrefix target, he => by
    simp only [Expr.eval]
    exact (h.place target he).bind fun p _ => (h.current target p he).bind fun _ hv => op (S.step _ p up isPrefix hv)
  | .assign target right, he => by
    simp only [Expr.eval]
    exact (h.place target he.1).bind fun p _ => (h.eval right he.2).bind fun _ hv => op (S.write _ p hv)
  | .augment line target op' right, he => by
    simp only [Expr.eval]
    refine (h.place target he.1).bind fun p _ => (h.current target p he.1).bind fun current hc => ?_
    cases op' with
    | logical op' =>
      exact (op (S.tested _ current)).bind fun _ _ =>
        .ite (.pure hc) ((h.eval right he.2).bind fun _ hv => op (S.write _ p hv))
    | strict op' =>
      exact (h.eval right he.2).bind fun r _ => (op (S.applyBinary _ op' current r)).bind fun _ hv =>
        op (S.write _ p hv)
    | unsupported spelling => exact (op (S.warn _ _)).bind fun _ _ => .pure trivial
  | .array items, he => by
    simp only [Expr.eval]
    exact (h.evalAll items he).bind fun _ hvs => op (S.newArray hvs)
  | .object members, he => by
    simp only [Expr.eval]
    exact (h.evalMembers members [] he (List.forall_mem_nil _)).bind fun _ hes => op (S.newObject hes)
  | .property line holder key, he => by
    simp only [Expr.eval]
    exact (h.eval holder he.1).bind fun v _ => (h.evalKey key he.2).bind fun k _ => op (S.readProperty _ line v k)
  | .call line callee args, he => by
    cases callee with
    | console =>
      simp only [Expr.eval]
      exact (h.evalAll args he).bind fun _ hvs => S.queueOutput hvs
    | name x =>
      simp only [Expr.eval]
      exact h.invoke line x (h.evalAll args he)
    | other text =>
      simp only [Expr.eval]
      exact S.diagnose ctx line _
  | .sequence items, he => by
    simp only [Expr.eval]
    refine (h.evalAll items he).bind fun vs hvs => .pure ?_
    cases hl : vs.getLast? with
    | none =>
      rw [List.getLastD_eq_getLast?, hl]
      trivial
    | some v =>
      rw [List.getLastD_eq_getLast?, hl]
      exact hvs v (List.mem_of_getLast? hl)
  | .unsupported line kind, _ => by
    simp only [Expr.eval]
    exact (op (S.warn _ _)).bind fun _ _ => .pure trivial

theorem evalAll (h : ctx.Conforms S) : ∀ es : List Expr, Expr.SpellsAll S.text es →
    (Expr.evalAll ctx es).Yields S.AdmitsState fun vs => ∀ v ∈ vs, S.Admits v
  | [], _ => .pure (List.forall_mem_nil _)
  | e :: rest, he => by
    simp only [Expr.evalAll]
    exact (h.eval e he.1).bind fun _ hv => (h.evalAll rest he.2).bind fun _ hvs =>
      .pure (List.forall_mem_cons.2 ⟨hv, hvs⟩)

theorem evalTexts (h : ctx.Conforms S) : ∀ es : List Expr, Expr.SpellsAll S.text es →
    (Expr.evalTexts ctx es).Yields S.AdmitsState fun _ => True
  | [], _ => .pure trivial
  | e :: rest, he => by
    simp only [Expr.evalTexts]
    exact (h.eval e he.1).bind fun v _ => (op (S.shownText _ v)).bind fun _ _ =>
      (h.evalTexts rest he.2).bind fun _ _ => .pure trivial

theorem evalKey (h : ctx.Conforms S) : ∀ k : Key, k.Spells S.text → (k.eval ctx).Yields S.AdmitsState S.Admits
  | .fixed _, hk | .string _, hk => .pure hk
  | .number literal, _ => .pure (Standard.literal literal)
  | .computed e, hk => by
    simp only [Key.eval]
    exact h.eval e hk

theorem evalMembers (h : ctx.Conforms S) : ∀ (ms : List Member) (entries : Entries), Member.SpellsAll S.text ms →
    (∀ e ∈ entries, S.Admits e.2) →
    (Member.evalAll ctx ms entries).Yields S.AdmitsState fun entries => ∀ e ∈ entries, S.Admits e.2
  | [], _, _, he => .pure he
  | .pair key value :: rest, entries, hm, he => by
    simp only [Member.evalAll]
    exact (h.evalKey key hm.1.1).bind fun k _ => (op (S.shownText _ k)).bind fun _ _ =>
      (h.eval value hm.1.2).bind fun _ hv => h.evalMembers rest _ hm.2 (Standard.insert he _ hv)
  | .shorthand line x :: rest, entries, hm, he => by
    simp only [Member.evalAll]
    exact (op (S.lookupName line x)).bind fun _ hv => h.evalMembers rest _ hm.2 (Standard.insert he _ hv)
  | .method key :: rest, entries, hm, he => by
    simp only [Member.evalAll]
    exact (h.evalKey key hm.1).bind fun k _ => (op (S.shownText _ k)).bind fun name _ =>
      h.evalMembers rest _ hm.2 (Standard.insert he (.text name) (v := .function name) trivial)
  | .unsupported line kind :: rest, entries, hm, he => by
    simp only [Member.evalAll]
    exact (op (S.warn _ _)).bind fun _ _ => h.evalMembers rest _ hm.2 he

theorem place (h : ctx.Conforms S) : ∀ t : Target, t.Spells S.text →
    (t.place ctx).Yields S.AdmitsState fun _ => True
  | .name _ _, _ | .invalid _ _ _, _ => .pure trivial
  | .property line holder key, ht => by
    simp only [Target.place]
    exact (h.eval holder ht.1).bind fun _ _ => (h.evalKey key ht.2).bind fun _ _ => .pure trivial

theorem current (h : ctx.Conforms S) : ∀ (t : Target) (p : Place), t.Spells S.text →
    (t.current ctx p).Yields S.AdmitsState S.Admits
  | .invalid _ _ e, _, ht => by
    simp only [Target.current]
    exact h.eval e ht
  | .name _ _, p, _ | .property _ _ _, p, _ => by
    cases p <;> simp only [Target.current]
    · exact op (S.lookupName _ _)
    · exact op (S.readProperty _ _ _ _)
    · exact .pure trivial

end

/-! ## Statements -/

theorem recordFailure (ctx : Context) (line : Nat) (cause : Cause) (at? : Option Nat) :
    (recordFailure ctx line cause at?).Yields S.AdmitsState S.AdmitsSignal := by
  have count : countFailure.Yields S.AdmitsState fun _ => True := aside
  exact count.bind fun _ _ => (op (S.warn _ _)).bind fun _ _ => (S.noteOutput ctx _).bind fun _ _ => .pure trivial

theorem execute {stmt : Stmt} {x : Run Signal} (hx : x.Yields S.AdmitsState S.AdmitsSignal) :
    (execute ctx stmt x).Yields S.AdmitsState S.AdmitsSignal := by
  have count : countStatement.Yields S.AdmitsState fun _ => True := aside
  refine .ite (.pure trivial) (count.bind fun _ _ => hx.handle fun fault y hy => ?_)
  cases fault with
  | failure cause at? =>
    cases hy
    exact recordFailure ctx _ cause at?
  | violation | badIndex | misfit | exhausted => cases hy

theorem executeBody {stmt : Stmt} {x : Run Signal} (hx : x.Yields S.AdmitsState S.AdmitsSignal) :
    (executeBody ctx stmt x).Yields S.AdmitsState S.AdmitsSignal :=
  .ite hx (execute hx)

theorem declareOne (h : ctx.Conforms S) (keeps constant : Bool) {d : Declarator Stmt} (hd : d.Each S.AdmitsExpr) :
    (declareOne ctx keeps constant d).Yields S.AdmitsState fun _ => True := by
  cases d with
  | pattern line => exact op (S.warn _ _)
  | bind name init =>
    cases init with
    | absent =>
      exact (op (S.isBound name)).bind fun _ _ => .ite (.pure trivial) (op (S.declareName name constant trivial))
    | routine r => exact (op (S.register name hd)).bind fun _ _ => op (S.declareName name constant trivial)
    | value e => exact (h.eval e hd).bind fun _ hv => op (S.declareName name constant hv)

theorem declareAll (h : ctx.Conforms S) {d : Declaration Stmt} (hd : d.Each S.AdmitsExpr) :
    (declareAll ctx d).Yields S.AdmitsState fun _ => True :=
  .forM fun declarator hm => h.declareOne _ _ (Declaration.each_iff.1 hd declarator hm)

theorem runTest (h : ctx.Conforms S) (line : Nat) {test : Expr} (ht : S.AdmitsExpr test) :
    (runTest ctx line test).Yields S.AdmitsState fun _ => True :=
  (h.eval test ht).bind fun v _ => (op (S.tested _ v)).bind fun _ _ => (S.noteOutput ctx _).bind fun _ _ =>
    .pure trivial

theorem runJump (ctx : Context) (line : Nat) (kind : Jump) (label : Option Text) :
    (runJump ctx line kind label).Yields S.AdmitsState S.AdmitsSignal := by
  have check : (checkJump line kind label).Yields S.AdmitsState fun _ => True := by
    refine .get fun s _ => ?_
    cases label with
    | none => exact .ite (.throw _) (.pure trivial)
    | some l => exact .ite (.throw _) (.ite (.throw _) (.pure trivial))
  refine check.bind fun _ _ => (S.note ctx _).bind fun _ _ => .pure ?_
  cases kind with
  | leave | next => trivial

theorem runOpening (h : ctx.Conforms S) (line : Nat) {opening : Opening Stmt} (ho : opening.Each S.AdmitsExpr) :
    (runOpening ctx line opening).Yields S.AdmitsState fun _ => True := by
  cases opening with
  | absent => exact .pure trivial
  | declare d => exact (h.declareAll ho).bind fun _ _ => S.noteOutput ctx _
  | eval e => exact (h.eval e ho).discard.bind fun _ _ => S.noteOutput ctx _

theorem runClauseTest (h : ctx.Conforms S) (line : Nat) {test : Option Expr} (ht : ∀ e ∈ test, S.AdmitsExpr e) :
    (runClauseTest ctx line test).Yields S.AdmitsState fun _ => True := by
  cases test with
  | none => exact .pure trivial
  | some test => exact h.runTest line (ht test rfl)

theorem runUpdate (h : ctx.Conforms S) (line : Nat) {update : Option Expr} (hu : ∀ e ∈ update, S.AdmitsExpr e)
    (s : Signal) : (runUpdate ctx line update s).Yields S.AdmitsState fun _ => True := by
  cases update with
  | none => exact .pure trivial
  | some e =>
    refine (h.eval e (hu e rfl)).discard.bind fun _ _ => ?_
    cases s with
    | next label => exact .pure trivial
    | normal | leave | answer => exact S.noteOutput ctx _

theorem settle {s : Signal} (hs : S.AdmitsSignal s) (label : Option Text) : S.AdmitsSignal (s.settle label) := by
  unfold Signal.settle
  split
  · split
    · trivial
    · exact hs
  · exact hs

theorem overrun (cfg : Config) (start : Float) : (overrun? cfg start).Yields S.AdmitsState fun _ => True := by
  have read : readClock.Yields S.AdmitsState fun _ => True := aside
  exact read.bind fun _ _ => .ite (.pure trivial) (.get fun _ _ => .ite (.pure trivial) (.pure trivial))

theorem runLoop (ctx : Context) (span : Span) {go : Float → Run (Ending × Nat)}
    (hgo : ∀ start, (go start).Yields S.AdmitsState fun r => r.1.Has S.AdmitsSignal) :
    (runLoop ctx span go).Yields S.AdmitsState S.AdmitsSignal := by
  have read : readClock.Yields S.AdmitsState fun _ => True := aside
  have trip (t : Trip) : (noteTrip ctx span.first t).Yields S.AdmitsState fun _ => True := by
    have count : (modify fun s => { s with counts := { s.counts with trips := s.counts.trips + 1 } } :
        Run Unit).Yields S.AdmitsState fun _ => True := aside
    exact count.bind fun _ _ => op (S.warn _ _)
  refine read.bind fun start _ => .get fun s _ => .ite ?_ ?_
  · exact (trip _).bind fun _ _ => (S.noteOutput ctx _).bind fun _ _ => .pure trivial
  · have rounds : (bracket State.enterLoop (go start) State.leaveLoop).Yields S.AdmitsState
        fun r => r.1.Has S.AdmitsSignal := (hgo start).bracket (fun _ hs => hs) fun _ _ _ ht => ht
    refine rounds.bind fun r hr => ?_
    obtain ⟨ending, done⟩ := r
    cases ending with
    | finished signal => exact (S.noteOutput ctx _).bind fun _ _ => .pure hr
    | stopped t => exact (trip t).bind fun _ _ => (S.noteOutput ctx _).bind fun _ _ => .pure trivial

theorem loopTestFirst (ctx : Context) (span : Span) (label : Option Text) {opening : Run Unit} {test : Run Bool}
    {body : Run Signal} {after : Signal → Run Unit} (ho : opening.Yields S.AdmitsState fun _ => True)
    (ht : test.Yields S.AdmitsState fun _ => True) (hb : body.Yields S.AdmitsState S.AdmitsSignal)
    (ha : ∀ s, (after s).Yields S.AdmitsState fun _ => True) :
    (loopTestFirst ctx span label opening test body after).Yields S.AdmitsState S.AdmitsSignal :=
  runLoop ctx span fun _ => ho.bind fun _ _ =>
    .testFirst (overrun _ _) aside ht hb ha trivial (fun _ hs => settle hs label) _ _

theorem loopBodyFirst (ctx : Context) (span : Span) (label : Option Text) {test : Run Bool} {body : Run Signal}
    (ht : test.Yields S.AdmitsState fun _ => True) (hb : body.Yields S.AdmitsState S.AdmitsSignal) :
    (loopBodyFirst ctx span label test body).Yields S.AdmitsState S.AdmitsSignal :=
  runLoop ctx span fun _ => .bodyFirst (overrun _ _) aside ht hb trivial (fun _ hs => settle hs label) _ _

theorem labeled (label : Text) {x : Run Signal} (hx : x.Yields S.AdmitsState S.AdmitsSignal) :
    (runLabeled label x).Yields S.AdmitsState S.AdmitsSignal := by
  have inside : (bracket (State.pushLabel label) x fun _ => State.popLabel).Yields S.AdmitsState S.AdmitsSignal :=
    hx.bracket (fun _ hs => hs) fun _ _ _ ht => ht
  refine inside.bind fun s hs => .pure ?_
  split
  · trivial
  · exact hs

mutual

theorem run (h : ctx.Conforms S) (label : Option Text) : ∀ stmt : Stmt, stmt.Each S.AdmitsExpr →
    (stmt.run ctx label).Yields S.AdmitsState S.AdmitsSignal
  | .skipped _ _, _ => .pure trivial
  | .unsupported span kind, _ => by
    simp only [Stmt.run]
    exact (op (S.warn _ _)).bind fun _ _ => (S.note ctx _).bind fun _ _ => .pure trivial
  | .declare span d, hs => by
    simp only [Stmt.run]
    exact (h.declareAll hs).bind fun _ _ => (S.noteOutput ctx _).bind fun _ _ => .pure trivial
  | .expression span none, _ => by
    simp only [Stmt.run]
    exact (S.noteOutput ctx _).bind fun _ _ => .pure trivial
  | .expression span (some e), hs => by
    simp only [Stmt.run]
    exact (h.eval e (hs e rfl)).discard.bind fun _ _ => (S.noteOutput ctx _).bind fun _ _ => .pure trivial
  | .block _ body, hs => by
    simp only [Stmt.run]
    exact h.runAll body hs
  | .ifThen span test yesSpan yes, hs => by
    simp only [Stmt.run]
    exact (h.runTest _ hs.1).bind fun _ _ => .ite (S.within _ _ (executeBody (h.run none yes hs.2))) (.pure trivial)
  | .ifElse span test yesSpan yes noSpan no, hs => by
    simp only [Stmt.run]
    exact (h.runTest _ hs.1).bind fun _ _ => .ite (S.within _ _ (executeBody (h.run none yes hs.2.1)))
      (S.within _ _ (executeBody (h.run none no hs.2.2)))
  | .forLoop span opening test update bodySpan body, hs => by
    simp only [Stmt.run]
    exact loopTestFirst ctx span label (h.runOpening _ hs.1) (h.runClauseTest _ hs.2.1)
      (S.within _ _ (executeBody (h.run none body hs.2.2.2))) (h.runUpdate _ hs.2.2.1)
  | .whileLoop span test bodySpan body, hs => by
    simp only [Stmt.run]
    exact loopTestFirst ctx span label (.pure trivial) (h.runTest _ hs.1)
      (S.within _ _ (executeBody (h.run none body hs.2))) fun _ => .pure trivial
  | .doLoop span testLine test bodySpan body, hs => by
    simp only [Stmt.run]
    exact loopBodyFirst ctx span label (h.runTest _ hs.1) (S.within _ _ (executeBody (h.run none body hs.2)))
  | .jump span kind target, _ => by
    simp only [Stmt.run]
    exact runJump ctx _ kind target
  | .answer span none, _ => by
    have missing : (pure .undefined : Run Value).Yields S.AdmitsState S.Admits := .pure trivial
    simp only [Stmt.run]
    exact missing.bind fun _ hv => (S.noteOutput ctx _).bind fun _ _ => .pure hv
  | .answer span (some e), hs => by
    simp only [Stmt.run]
    exact (h.eval e (hs e rfl)).bind fun _ hv => (S.noteOutput ctx _).bind fun _ _ => .pure hv
  | .function span _ name r, hs => by
    simp only [Stmt.run]
    exact (op (S.register name hs)).bind fun _ _ =>
      (op (S.declareName name false (v := .function name) trivial)).bind fun _ _ =>
        (S.note ctx _).bind fun _ _ => .pure trivial
  | .labeled _ name body, hs => by
    simp only [Stmt.run]
    exact labeled name (.ite (h.run (some name) body hs) (execute (h.run none body hs)))

theorem runAll (h : ctx.Conforms S) : ∀ stmts : List Stmt, Stmt.EachAll S.AdmitsExpr stmts →
    (Stmt.runAll ctx stmts).Yields S.AdmitsState S.AdmitsSignal
  | [], _ => .pure trivial
  | stmt :: rest, hs => by
    simp only [Stmt.runAll]
    exact (execute (h.run none stmt hs.1)).bind fun _ hsignal => .ite (h.runAll rest hs.2) (.pure hsignal)

end

/-! ## Calls -/

theorem bindParameters (h : ctx.Conforms S) {r : Routine Stmt} (hr : S.AdmitsRoutine r) :
    ∀ (params : List Text) (args : List Value), (∀ v ∈ args, S.Admits v) →
      (bindParameters ctx r params args).Yields S.AdmitsState fun _ => True
  | [], _, _ => .pure trivial
  | p :: params, args, ha => by
    have given : S.Admits (args.headD .undefined) := by
      cases args with
      | nil => trivial
      | cons v rest => exact (List.forall_mem_cons.1 ha).1
    have rest {v : Value} (hv : S.Admits v) : (do
        declareName p v false
        ScriptTrace.bindParameters ctx r params args.tail : Run Unit).Yields S.AdmitsState fun _ => True :=
      (op (S.declareName p false hv)).bind fun _ _ => h.bindParameters hr params _ fun v hv =>
        ha v (List.mem_of_mem_tail hv)
    simp only [ScriptTrace.bindParameters]
    split
    · rename_i d _ hd
      exact (h.eval _ ((Routine.each_iff.1 hr).1 _ (Assoc.mem_of_get? hd))).bind fun _ hv => rest hv
    · exact (Yields.pure given).bind fun _ hv => rest hv

theorem runRoutine (h : ctx.Conforms S) {r : Routine Stmt} (hr : S.AdmitsRoutine r) :
    (runRoutine ctx r).Yields S.AdmitsState S.Admits := by
  obtain ⟨-, result, body⟩ := Routine.each_iff.1 hr
  unfold ScriptTrace.runRoutine
  split
  · rename_i e he
    exact h.eval e.expr (result e he)
  · refine (h.runAll r.body (eachAll_iff.2 body)).bind fun s hs => ?_
    cases s with
    | answer v => exact .pure hs
    | normal | leave | next => exact .pure trivial

theorem runFrame (h : ctx.Conforms S) (name : Text) {r : Routine Stmt} (hr : S.AdmitsRoutine r) {args : List Value}
    (ha : ∀ v ∈ args, S.Admits v) : (runFrame ctx name r args).Yields S.AdmitsState S.Admits :=
  (h.bindParameters hr r.params args ha).bind fun _ _ => (S.note ctx _).bind fun _ _ =>
    (h.runRoutine hr).bind fun v hv => (op (S.describe v)).bind fun _ _ => (S.noteOutput ctx _).bind fun _ _ => .pure hv

/-- A frame starts with nothing in it, and the caller gets back what it had. -/
theorem inFrame (name : Text) (r : Routine Stmt) (line : Nat) {x : Run Value}
    (hx : x.Yields S.AdmitsState S.Admits) : (inFrame ctx name r line x).Yields S.AdmitsState S.Admits := by
  refine (hx.bracket (fun s hs => ?_) fun s t hs ht => ?_).ensuring (S.note ctx _)
  · exact ⟨hs.heap, List.forall_mem_nil _, List.forall_mem_nil _, hs.functions⟩
  · exact ⟨ht.heap, hs.bindings, hs.pending, ht.functions⟩

theorem checkArity (ctx : Context) (name : Text) (r : Routine Stmt) (count line : Nat) :
    (checkArity ctx name r count line).Yields S.AdmitsState fun _ => True :=
  .ite (.pure trivial) ((op (S.warn _ _)).bind fun _ _ => S.note ctx _)

theorem callFunction (h : ctx.Conforms S) (name : Text) {r : Routine Stmt} (hr : S.AdmitsRoutine r)
    {args : List Value} (ha : ∀ v ∈ args, S.Admits v) (line : Nat) :
    (callFunction ctx name r args line).Yields S.AdmitsState S.Admits :=
  (checkArity ctx name r _ line).bind fun _ _ => (op (S.describeAll args)).bind fun _ _ =>
    (S.note ctx _).bind fun _ _ => inFrame name r line (h.runFrame name hr ha)

/-! ## Programs -/

theorem runTopLevel (h : ctx.Conforms S) {stmt : Stmt} (hs : stmt.Each S.AdmitsExpr) :
    (runTopLevel ctx stmt).Yields S.AdmitsState S.AdmitsSignal := by
  have cut (kind message : Text) : (recordCut ctx stmt.line kind message).Yields S.AdmitsState S.AdmitsSignal :=
    (op (S.warn _ _)).bind fun _ _ => (S.noteOutput ctx _).bind fun _ _ => .pure trivial
  have exec : (stmt.exec ctx).Yields S.AdmitsState S.AdmitsSignal := execute (h.run none stmt hs)
  refine exec.handle fun fault y hy => ?_
  cases fault with
  | badIndex | misfit | exhausted =>
    cases hy
    exact cut _ _
  | failure | violation => cases hy

theorem runProgram (h : ctx.Conforms S) : ∀ program : List Stmt, (∀ stmt ∈ program, stmt.Each S.AdmitsExpr) →
    (runProgram ctx program).Yields S.AdmitsState fun _ => True
  | [], _ => .pure trivial
  | stmt :: rest, hs => by
    obtain ⟨hstmt, hrest⟩ := List.forall_mem_cons.1 hs
    have next := h.runProgram rest hrest
    simp only [ScriptTrace.runProgram]
    refine (h.runTopLevel hstmt).bind fun s _ => ?_
    cases s with
    | answer v => exact (op (S.describe v)).bind fun _ _ => (S.note ctx _).bind fun _ _ => op (S.log _ _ _)
    | normal => exact next
    | leave | next => exact (S.note ctx _).bind fun _ _ => next

end Context.Conforms

/-! ## The recursion -/

theorem conforms_within (S : Standard) (cfg : Config) (src : Source) :
    ∀ n, (Context.within cfg src .idle n).Conforms S
  | 0 => fun _ _ _ _ _ _ => .pure trivial
  | n + 1 => fun name _ _ line hr ha => (conforms_within S cfg src n).callFunction name hr ha line

theorem Standard.start (S : Standard) (clock : Clock) (frames : Nat) : S.AdmitsState (.start clock frames) :=
  ⟨⟨by simp [State.start, Heap.empty], by simp [State.start, Heap.empty]⟩, List.forall_mem_nil _, List.forall_mem_nil _,
    List.forall_mem_nil _⟩

end ScriptTrace
