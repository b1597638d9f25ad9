import ScriptTrace.Proofs.Course
import ScriptTrace.Run.Program
/-!
# The interpreter follows courses

Expressions, statements, calls and programs that fit follow courses in a context whose calls do
(`Context.Governed`). The induction over the syntax is made here once. Every depth of the recursion is such a
context, and so the run of a program follows a course: `runTree_course`.
-/
namespace ScriptTrace

open Act Op Run

variable {P : Site → Prop} {cfg : Config} {src : Source} {ctx : Context} {p : Scope}

/-! ## Expressions -/

/-- Whether the calls of a context follow courses, if they are of fitting functions, and its heap has no
strangers. -/
structure Context.Governed (P : Site → Prop) (ctx : Context) : Prop where
  strangers : ctx.strangers = none
  call {p : Scope} {line : Nat} (name : Text) (r : Routine Stmt) (args : List Value) : r.Fits P →
    P (.line p line) → Follows P ctx p (ctx.call name r args line)

theorem resolve_fits {m : Memory} {x name : Text} {r : Routine Stmt} (hm : ∀ f ∈ m.functions, f.2.Fits P)
    (h : m.resolve? x = some (name, r)) : r.Fits P := by
  have found {k : Text} {r : Routine Stmt} (hk : m.functions.get? k = some r) : r.Fits P :=
    hm _ (Assoc.mem_of_get? hk)
  have own (h : (m.functions.get? x).map (x, ·) = some (name, r)) : r.Fits P := by
    obtain ⟨r', hr, he⟩ := Option.map_eq_some_iff.1 h
    cases he
    exact found hr
  unfold Memory.resolve? at h
  dsimp only at h
  split at h
  · split at h
    · rename_i hk
      cases h
      exact found hk
    · exact own h
  · exact own h

/-- The place of a fitting target fits. -/
theorem place_fits {target : Target} (ht : ∀ n ∈ target.lines, P (.line p n)) {q : Place}
    (h : ∃ s t, (target.place ctx).exec s = (.ok q, t)) : q.Fits (Somewhere P) := by
  obtain ⟨s, t, h⟩ := h
  cases target with
  | name line x =>
    simp only [Target.place] at h
    cases h
    exact ⟨p, ht line List.mem_cons_self⟩
  | property line holder key =>
    simp only [Target.place, exec_bind] at h
    split at h
    · split at h <;> cases h
      exact ⟨p, ht line List.mem_cons_self⟩
    · cases h
  | invalid line kind e =>
    simp only [Target.place] at h
    cases h
    trivial

namespace Context.Governed

open Follows

theorem invoke (h : ctx.Governed P) (x : Text) {line : Nat} (hl : P (.line p line)) {args : Run (List Value)}
    (ha : Follows P ctx p args) : Follows P ctx p (invoke ctx line x args) := by
  intro s hs
  have refused : Follows P ctx p (refuse x line) := fun _ _ => .refuse x line
  have resolve : (liftM (resolve? x) : Run _).exec s = (.ok (s.resolve? x), s) := rfl
  unfold ScriptTrace.invoke
  rw [exec_bind_ok resolve]
  cases hr : s.resolve? x with
  | none => exact Follows.diagnose hl _ s hs
  | some found =>
    have fits : found.2.Fits P := resolve_fits hs hr
    exact Follows.get (fun _ => ite (refused.bind fun _ => Follows.diagnose hl _)
      (ha.bind fun vs => Follows.shielded hl x (h.call found.1 found.2 vs fits hl))) s hs

mutual

theorem eval (h : ctx.Governed P) : ∀ e : Expr, (∀ n ∈ e.lines, P (.line p n)) → Follows P ctx p (e.eval ctx)
  | .name line x, _ => by
    simp only [Expr.eval]
    exact op (.lookupName line x)
  | .number _, _ | .string _, _ | .bool _, _ | .null, _ | .undefined, _ | .spread, _ | .function _, _ => pure _
  | .template raws holes, he => by
    simp only [Expr.eval]
    exact (h.evalTexts holes he).bind fun _ =>
      (op (.ofFault (Value.capped_raises Fault.Raisable.failure _))).bind fun _ => pure _
  | .unary line op' operand, he => by
    simp only [Expr.eval, h.strangers]
    exact (h.eval operand he).bind fun v => op (.applyUnary line op' v)
  | .binary line op' left right, he => by
    obtain ⟨hl, hr⟩ := List.forall_mem_append.1 he
    simp only [Expr.eval, h.strangers]
    refine (h.eval left hl).bind fun l => ?_
    cases op' with
    | logical op' => exact (op (.tested l)).bind fun _ => ite (pure _) (h.eval right hr)
    | strict op' => exact (h.eval right hr).bind fun r => op (.applyBinary op' l r)
    | unsupported spelling =>
      exact (discard (h.eval right hr)).bind fun _ => (op (.warn _ _)).bind fun _ => pure _
  | .conditional test yes no, he => by
    obtain ⟨ht, he⟩ := List.forall_mem_append.1 he
    obtain ⟨hy, hn⟩ := List.forall_mem_append.1 he
    simp only [Expr.eval, h.strangers]
    exact (h.eval test ht).bind fun v => (op (.tested v)).bind fun _ => ite (h.eval yes hy) (h.eval no hn)
  | .update up isPrefix target, he => by
    simp only [Expr.eval, h.strangers]
    exact (h.place target he).bind_of fun q hq => (h.current target q he).bind fun v =>
      op (.step (place_fits he hq) up isPrefix v)
  | .assign target right, he => by
    obtain ⟨ht, hr⟩ := List.forall_mem_append.1 he
    simp only [Expr.eval, h.strangers]
    exact (h.place target ht).bind_of fun q hq => (h.eval right hr).bind fun v => op (.write (place_fits ht hq) v)
  | .augment line target op' right, he => by
    obtain ⟨ht, hr⟩ := List.forall_mem_append.1 he
    simp only [Expr.eval, h.strangers]
    refine (h.place target ht).bind_of fun q hq => (h.current target q ht).bind fun current => ?_
    have write (v : Value) : Follows P ctx p (q.write none v).asRun := op (.write (place_fits ht hq) v)
    cases op' with
    | logical op' =>
      exact (op (.tested _)).bind fun _ => ite (pure _) ((h.eval right hr).bind fun v => write v)
    | strict op' =>
      exact (h.eval right hr).bind fun r => (op (.applyBinary op' current r)).bind fun v => write v
    | unsupported spelling => exact (op (.warn _ _)).bind fun _ => pure _
  | .array items, he => by
    simp only [Expr.eval]
    exact (h.evalAll items he).bind fun vs => op (.newArray vs)
  | .object members, he => by
    simp only [Expr.eval]
    exact (h.evalMembers members [] he).bind fun entries => op (.newObject entries)
  | .property line holder key, he => by
    obtain ⟨hh, hk⟩ := List.forall_mem_append.1 he
    simp only [Expr.eval, h.strangers]
    exact (h.eval holder hh).bind fun v => (h.evalKey key hk).bind fun k => op (.readProperty line v k)
  | .call line callee args, he => by
    obtain ⟨hl, ha⟩ := List.forall_mem_cons.1 he
    cases callee with
    | console =>
      simp only [Expr.eval]
      exact (h.evalAll args ha).bind fun vs => Follows.queueOutput vs
    | name x =>
      simp only [Expr.eval]
      exact h.invoke x hl (h.evalAll args ha)
    | other text =>
      simp only [Expr.eval]
      exact Follows.diagnose hl _
  | .sequence items, he => by
    simp only [Expr.eval]
    exact (h.evalAll items he).bind fun _ => pure _
  | .unsupported line kind, _ => by
    simp only [Expr.eval]
    exact (op (.warn _ _)).bind fun _ => pure _

theorem evalAll (h : ctx.Governed P) : ∀ es : List Expr, (∀ n ∈ Expr.linesAll es, P (.line p n)) →
    Follows P ctx p (Expr.evalAll ctx es)
  | [], _ => pure _
  | e :: rest, he => by
    obtain ⟨hfirst, hrest⟩ := List.forall_mem_append.1 he
    simp only [Expr.evalAll]
    exact (h.eval e hfirst).bind fun _ => (h.evalAll rest hrest).bind fun _ => pure _

theorem evalTexts (h : ctx.Governed P) : ∀ es : List Expr, (∀ n ∈ Expr.linesAll es, P (.line p n)) →
    Follows P ctx p (Expr.evalTexts ctx es)
  | [], _ => pure _
  | e :: rest, he => by
    obtain ⟨hfirst, hrest⟩ := List.forall_mem_append.1 he
    simp only [Expr.evalTexts, h.strangers]
    exact (h.eval e hfirst).bind fun v => (op (.shownText v)).bind fun _ =>
      (h.evalTexts rest hrest).bind fun _ => pure _

theorem evalKey (h : ctx.Governed P) : ∀ k : Key, (∀ n ∈ k.lines, P (.line p n)) → Follows P ctx p (k.eval ctx)
  | .fixed _, _ | .string _, _ | .number _, _ => pure _
  | .computed e, he => by
    simp only [Key.eval]
    exact h.eval e he

theorem evalMembers (h : ctx.Governed P) : ∀ (ms : List Member) (entries : Entries),
    (∀ n ∈ Member.linesAll ms, P (.line p n)) → Follows P ctx p (Member.evalAll ctx ms entries)
  | [], _, _ => pure _
  | .pair key value :: rest, entries, hm => by
    obtain ⟨hm, hrest⟩ := List.forall_mem_append.1 hm
    obtain ⟨hk, hv⟩ := List.forall_mem_append.1 hm
    simp only [Member.evalAll, h.strangers]
    exact (h.evalKey key hk).bind fun k => (op (.shownText k)).bind fun _ => (h.eval value hv).bind fun _ =>
      h.evalMembers rest _ hrest
  | .shorthand line x :: rest, entries, hm => by
    simp only [Member.evalAll]
    exact (op (.lookupName line x)).bind fun _ => h.evalMembers rest _ (List.forall_mem_append.1 hm).2
  | .method key :: rest, entries, hm => by
    obtain ⟨hk, hrest⟩ := List.forall_mem_append.1 hm
    simp only [Member.evalAll, h.strangers]
    exact (h.evalKey key hk).bind fun k => (op (.shownText k)).bind fun _ => h.evalMembers rest _ hrest
  | .unsupported line kind :: rest, entries, hm => by
    simp only [Member.evalAll]
    exact (op (.warn _ _)).bind fun _ => h.evalMembers rest _ (List.forall_mem_append.1 hm).2

theorem place (h : ctx.Governed P) : ∀ t : Target, (∀ n ∈ t.lines, P (.line p n)) → Follows P ctx p (t.place ctx)
  | .name _ _, _ | .invalid _ _ _, _ => pure _
  | .property line holder key, ht => by
    obtain ⟨hh, hk⟩ := List.forall_mem_append.1 (List.forall_mem_cons.1 ht).2
    simp only [Target.place]
    exact (h.eval holder hh).bind fun _ => (h.evalKey key hk).bind fun _ => pure _

theorem current (h : ctx.Governed P) : ∀ (t : Target) (q : Place), (∀ n ∈ t.lines, P (.line p n)) →
    Follows P ctx p (t.current ctx q)
  | .invalid _ _ e, _, ht => by
    simp only [Target.current]
    exact h.eval e ht
  | .name _ _, q, _ => by
    cases q <;> simp only [Target.current, h.strangers]
    · exact op (.lookupName _ _)
    · exact op (.readProperty _ _ _)
    · exact pure _
  | .property _ _ _, q, _ => by
    cases q <;> simp only [Target.current, h.strangers]
    · exact op (.lookupName _ _)
    · exact op (.readProperty _ _ _)
    · exact pure _

end

/-! ## Statements -/

theorem declareOne (h : ctx.Governed P) (keeps constant : Bool) {d : Declarator Stmt} (hd : d.Fits P p) :
    Follows P ctx p (declareOne ctx keeps constant d) := by
  cases d with
  | pattern line => exact op (.warn _ _)
  | bind name init =>
    cases init with
    | absent => exact (op (.isBound name)).bind fun _ => ite (pure _) (op (.declareName _ _ _))
    | routine r => exact (Follows.register hd).bind fun _ => op (.declareName _ _ _)
    | value e => exact (h.eval e (forall_lines_iff.1 hd)).bind fun v => op (.declareName _ _ _)

theorem declareAll (h : ctx.Governed P) {d : Declaration Stmt}
    (hd : ∀ declarator ∈ d.declarators, declarator.Fits P p) : Follows P ctx p (declareAll ctx d) :=
  forM fun declarator hm => h.declareOne _ _ (hd declarator hm)

theorem runTest (h : ctx.Governed P) {line : Nat} {test : Expr} (hl : P (.line p line))
    (ht : ∀ n ∈ test.lines, P (.line p n)) : Follows P ctx p (runTest ctx line test) := by
  simp only [ScriptTrace.runTest, h.strangers]
  exact (h.eval test ht).bind fun v => (op (.tested v)).bind fun _ =>
    (Follows.noteOutput (Event.fits_of_line hl rfl) rfl).bind fun _ => pure _

theorem runJump {span : Span} {kind : Jump} {label : Option Text} (hs : span.Fits P p)
    (hj : P (.jump p kind label)) : Follows P ctx p (runJump ctx span.first kind label) := by
  have check : Follows P ctx p (checkJump span.first kind label) := by
    intro s _
    rcases checkJump_exec span.first kind label s with h | ⟨why, h⟩ <;> rw [h]
    · exact .refl
    · exact .stray span.first kind label why hj h
  exact check.bind fun _ => (Follows.note (Event.fits_of_line hs.1 rfl) rfl rfl).bind fun _ => pure _

theorem runOpening (h : ctx.Governed P) {line : Nat} {opening : Opening Stmt} (hl : P (.line p line))
    (ho : opening.Fits P p) : Follows P ctx p (runOpening ctx line opening) := by
  have noted : Follows P ctx p (ctx.noteOutput { line := line, kind := .loopInit }) :=
    Follows.noteOutput (Event.fits_of_line hl rfl) rfl
  cases opening with
  | absent => exact pure _
  | declare d => exact (h.declareAll (Declaration.forall_sites_iff.1 ho)).bind fun _ => noted
  | eval e => exact (discard (h.eval e (forall_lines_iff.1 ho))).bind fun _ => noted

theorem runClauseTest (h : ctx.Governed P) {line : Nat} {test : Option Expr} (hl : P (.line p line))
    (ht : ∀ n ∈ Expr.linesOf test, P (.line p n)) : Follows P ctx p (runClauseTest ctx line test) := by
  cases test with
  | none => exact pure _
  | some test => exact h.runTest hl ht

theorem runUpdate (h : ctx.Governed P) {line : Nat} {update : Option Expr} (hl : P (.line p line))
    (hu : ∀ n ∈ Expr.linesOf update, P (.line p n)) (s : Signal) : Follows P ctx p (runUpdate ctx line update s) := by
  cases update with
  | none => exact pure _
  | some e =>
    refine (discard (h.eval e hu)).bind fun _ => ?_
    cases s with
    | next label => exact pure _
    | normal | leave | answer => exact Follows.noteOutput (Event.fits_of_line hl rfl) rfl

mutual

theorem run (h : ctx.Governed P) {p : Scope} (label : Option Text) : ∀ stmt : Stmt, stmt.Fits P p →
    Follows P ctx p (stmt.run ctx label)
  | .skipped _ _, _ => pure _
  | .unsupported span kind, hs => by
    have ends := forall_ends_iff.1 hs
    simp only [Stmt.run]
    exact (op (.warn _ _)).bind fun _ => (Follows.note (Event.fits_of_line ends.1 rfl) rfl rfl).bind fun _ => pure _
  | .declare span d, hs => by
    obtain ⟨ends, hd⟩ := Stmt.fits_iff.1 hs
    simp only [Stmt.run]
    exact (h.declareAll hd).bind fun _ => (Follows.noteOutput (Event.fits_of_line ends.1 rfl) rfl).bind fun _ => pure _
  | .expression span none, hs => by
    obtain ⟨ends, -⟩ := Stmt.fits_iff.1 hs
    simp only [Stmt.run]
    exact (Follows.noteOutput (Event.fits_of_line ends.1 rfl) rfl).bind fun _ => pure _
  | .expression span (some e), hs => by
    obtain ⟨ends, he⟩ := Stmt.fits_iff.1 hs
    simp only [Stmt.run]
    exact (discard (h.eval e he)).bind fun _ =>
      (Follows.noteOutput (Event.fits_of_line ends.1 rfl) rfl).bind fun _ => pure _
  | .block _ body, hs => by
    simp only [Stmt.run]
    exact h.runAll body (Stmt.fits_iff.1 hs).2
  | .ifThen span test yesSpan yes, hs => by
    obtain ⟨ends, ht, hspan, hy⟩ := Stmt.fits_iff.1 hs
    simp only [Stmt.run]
    exact (h.runTest ends.1 ht).bind fun _ =>
      ite (Follows.within _ hspan (Follows.executeBody hy (h.run none yes hy))) (pure _)
  | .ifElse span test yesSpan yes noSpan no, hs => by
    obtain ⟨ends, ht, hys, hy, hns, hn⟩ := Stmt.fits_iff.1 hs
    simp only [Stmt.run]
    refine (h.runTest ends.1 ht).bind fun _ => ite ?_ ?_
    · exact Follows.within _ hys (Follows.executeBody hy (h.run none yes hy))
    · exact Follows.within _ hns (Follows.executeBody hn (h.run none no hn))
  | .forLoop span opening test update bodySpan body, hs => by
    obtain ⟨ends, hl, ho, ht, hu, hspan, hb⟩ := Stmt.fits_iff.1 hs
    simp only [Stmt.run]
    exact Follows.runLoop ends.2 fun _ => (h.runOpening hl ho).bind fun _ =>
      Follows.testFirst (h.runClauseTest hl ht) (Follows.within _ hspan (Follows.executeBody hb (h.run none body hb)))
        (h.runUpdate hl hu) _ _
  | .whileLoop span test bodySpan body, hs => by
    obtain ⟨ends, hl, ht, hspan, hb⟩ := Stmt.fits_iff.1 hs
    simp only [Stmt.run]
    exact Follows.runLoop ends.2 fun _ => (Follows.pure _).bind fun _ =>
      Follows.testFirst (h.runTest hl ht) (Follows.within _ hspan (Follows.executeBody hb (h.run none body hb)))
        (fun _ => Follows.pure _) _ _
  | .doLoop span testLine test bodySpan body, hs => by
    obtain ⟨ends, hl, ht, hspan, hb⟩ := Stmt.fits_iff.1 hs
    simp only [Stmt.run]
    exact Follows.runLoop ends.2 fun _ =>
      Follows.bodyFirst (h.runTest hl ht) (Follows.within _ hspan (Follows.executeBody hb (h.run none body hb))) _ _
  | .jump span kind target, hs => by
    obtain ⟨hj, ends⟩ := Stmt.fits_iff.1 hs
    simp only [Stmt.run]
    exact runJump ends hj
  | .answer span none, hs => by
    obtain ⟨ends, -⟩ := Stmt.fits_iff.1 hs
    simp only [Stmt.run]
    exact (Follows.pure _).bind fun _ => (Follows.noteOutput (Event.fits_of_line ends.1 rfl) rfl).bind fun _ => pure _
  | .answer span (some e), hs => by
    obtain ⟨ends, he⟩ := Stmt.fits_iff.1 hs
    simp only [Stmt.run]
    exact (h.eval e he).bind fun _ => (Follows.noteOutput (Event.fits_of_line ends.1 rfl) rfl).bind fun _ => pure _
  | .function span _ name r, hs => by
    obtain ⟨hspan, ends, hr⟩ := Stmt.fits_iff.1 hs
    have event : Event.Fits P p { line := span.first, block := some ⟨.function, span.first, span.last⟩ } := by
      refine ⟨.inl ends.1, fun b hb => ?_, fun b hb => ?_⟩
      · cases hb
        exact ⟨span, hspan, rfl, rfl⟩
      · cases hb
        rfl
    simp only [Stmt.run]
    exact (Follows.register hr).bind fun _ => (op (.declareName _ _ _)).bind fun _ =>
      (Follows.note event rfl rfl).bind fun _ => pure _
  | .labeled _ name body, hs => by
    obtain ⟨-, hb⟩ := Stmt.fits_iff.1 hs
    simp only [Stmt.run]
    exact Follows.labeled name (ite (h.run (some name) body hb) (Follows.execute hb (h.run none body hb)))

theorem runAll (h : ctx.Governed P) {p : Scope} : ∀ stmts : List Stmt, (∀ stmt ∈ stmts, stmt.Fits P p) →
    Follows P ctx p (Stmt.runAll ctx stmts)
  | [], _ => pure _
  | stmt :: rest, hs => by
    obtain ⟨hstmt, hrest⟩ := List.forall_mem_cons.1 hs
    simp only [Stmt.runAll]
    exact (Follows.execute hstmt (h.run none stmt hstmt)).bind fun _ => ite (h.runAll rest hrest) (pure _)

end

theorem exec (h : ctx.Governed P) {stmt : Stmt} (hs : stmt.Fits P p) : Follows P ctx p (stmt.exec ctx) :=
  Follows.execute hs (h.run none stmt hs)

/-! ## Calls -/

theorem bindParameters (h : ctx.Governed P) {r : Routine Stmt} (hr : r.Fits P) :
    ∀ (params : List Text) (args : List Value), Follows P ctx [.body r.span] (bindParameters ctx r params args)
  | [], _ => pure _
  | x :: params, args => by
    have rest (v : Value) : Follows P ctx [.body r.span] (do
        declareName x v false
        ScriptTrace.bindParameters ctx r params args.tail) :=
      (op (.declareName _ _ _)).bind fun _ => h.bindParameters hr params _
    simp only [ScriptTrace.bindParameters]
    split
    · rename_i d _ hd
      exact (h.eval _ ((Routine.fits_iff.1 hr).2.2.1 _ (Assoc.mem_of_get? hd))).bind fun v => rest v
    · exact (Follows.pure _).bind fun v => rest v

theorem runRoutine (h : ctx.Governed P) {r : Routine Stmt} (hr : r.Fits P) :
    Follows P ctx [.body r.span] (runRoutine ctx r) := by
  obtain ⟨-, -, -, hresult, hbody⟩ := Routine.fits_iff.1 hr
  unfold ScriptTrace.runRoutine
  split
  · rename_i e he
    rw [he] at hresult
    exact h.eval e.expr hresult
  · refine (h.runAll r.body hbody).bind fun s => ?_
    cases s with
    | normal | leave | next | answer => exact pure _

/-- What a function does up to its result. -/
def giveResult (ctx : Context) (name : Text) (r : Routine Stmt) (args : List Value) : Run Value := do
  ScriptTrace.bindParameters ctx r r.params args
  ctx.note { line := r.span.first, kind := .functionEnter, message := some ("Entering " ++ name) }
  ScriptTrace.runRoutine ctx r

theorem giveResult_follows (h : ctx.Governed P) (name : Text) {r : Routine Stmt} (hr : r.Fits P)
    (args : List Value) : Follows P ctx [.body r.span] (giveResult ctx name r args) := by
  obtain ⟨-, ends, -⟩ := Routine.fits_iff.1 hr
  exact (h.bindParameters hr r.params args).bind fun _ =>
    (Follows.note (Event.fits_of_line ends.1 rfl) rfl rfl).bind fun _ => h.runRoutine hr

theorem exec_runFrame (ctx : Context) (name : Text) (r : Routine Stmt) (args : List Value) (s : State) :
    (∃ v t message, (giveResult ctx name r args).exec s = (.ok v, t) ∧
      (runFrame ctx name r args).exec s =
        (.ok v, t.notedOutput ctx.config ctx.source (.returned message r.span.last))) ∨
    ∃ fault t, (giveResult ctx name r args).exec s = (.error fault, t) ∧
      (runFrame ctx name r args).exec s = (.error fault, t) := by
  let finish (v : Value) : Run Value := do
    let shown ← describe v
    ctx.noteOutput (.returned (if v = .undefined then name ++ (" completed" : Text)
      else Text.concat [name, " returned ", shown]) r.span.last)
    return v
  have parts : (runFrame ctx name r args).exec s = (giveResult ctx name r args >>= finish).exec s := by
    rw [giveResult, exec_bind_assoc, runFrame, exec_bind, exec_bind]
    rcases (ScriptTrace.bindParameters ctx r r.params args).exec s with ⟨_ | _, s'⟩
    · rfl
    · exact (exec_bind_assoc _ _ finish s').symm
  have finished (v : Value) (t : State) : ∃ message, (finish v).exec t =
      (.ok v, t.notedOutput ctx.config ctx.source (.returned message r.span.last)) :=
    ⟨_, (exec_bind_ok rfl).trans (exec_bind_ok (Follows.exec_noteOutput _ _ _))⟩
  rcases he : (giveResult ctx name r args).exec s with ⟨fault | v, t⟩
  · exact .inr ⟨fault, t, rfl, parts.trans (exec_bind_error he)⟩
  · obtain ⟨message, h⟩ := finished v t
    exact .inl ⟨v, t, message, rfl, parts.trans ((exec_bind_ok he).trans h)⟩

/-- A call, from the moment when it is recorded. -/
theorem enter (h : ctx.Governed P) (name shown : Text) {r : Routine Stmt} (hr : r.Fits P) (args : List Value)
    {line : Nat} (hl : P (.line p line)) : Follows P ctx p (do
      ctx.note (.called name shown line)
      inFrame ctx name r line (runFrame ctx name r args)) := by
  intro s hs
  let caller := s.noted ctx.config ctx.source (.called name shown line)
  have course := h.giveResult_follows name hr args (caller.enterFrame name r line) (by
    simpa [caller, State.Fits, State.enterFrame] using hs)
  rw [exec_bind_ok (Context.exec_note _ _ _)]
  unfold inFrame ensuring
  rw [exec_follow, exec_bracket]
  rcases exec_runFrame ctx name r args (caller.enterFrame name r line) with
    ⟨v, t, message, hg, hf⟩ | ⟨fault, t, hg, hf⟩ <;> rw [hg] at course <;> rw [hf] <;>
    rw [exec_bind_ok (Context.exec_note _ _ _)]
  · exact .call name shown message r line hr hl course
  · exact .cutCall name shown r line fault hr hl course

theorem callFunction (h : ctx.Governed P) (name : Text) {r : Routine Stmt} (hr : r.Fits P) (args : List Value)
    {line : Nat} (hl : P (.line p line)) : Follows P ctx p (callFunction ctx name r args line) :=
  (Follows.checkArity hl name r _).bind fun _ => (op (.describeAll args)).bind fun shown =>
    h.enter name shown hr args hl

/-! ## Programs -/

theorem runTopLevel (h : ctx.Governed P) {stmt : Stmt} (hs : stmt.Fits P p) (hl : P (.line p stmt.line)) :
    Follows P ctx p (runTopLevel ctx stmt) := by
  intro s hs'
  have course := h.exec hs s hs'
  have cut (kind message : Text) : Follows P ctx p (recordCut ctx stmt.line kind message) :=
    (op (.warn _ _)).bind fun _ => (Follows.noteOutput (Event.fits_of_line hl rfl) rfl).bind fun _ => pure _
  unfold ScriptTrace.runTopLevel Act.handle
  rw [exec_follow]
  rcases he : (stmt.exec ctx).exec s with ⟨fault | signal, t⟩ <;> rw [he] at course
  · cases fault with
    | badIndex b => exact (course.recover _ (.badIndex b)).trans (cut _ _ t (course.fits hs'))
    | exhausted => exact (course.recover _ .exhausted).trans (cut _ _ t (course.fits hs'))
    | misfit m =>
      rcases course.fault with impossible | ⟨_, _, impossible⟩ <;> cases impossible
    | failure | violation => exact course
  · exact course

theorem runProgram (h : ctx.Governed P) : ∀ program : List Stmt, (∀ stmt ∈ program, stmt.Fits P p) →
    Follows P ctx p (runProgram ctx program)
  | [], _ => pure _
  | stmt :: rest, hs => by
    obtain ⟨hstmt, hrest⟩ := List.forall_mem_cons.1 hs
    have next := h.runProgram rest hrest
    cases hk : stmt.isSkipped with
    | true =>
      have skip (s : State) : (ScriptTrace.runProgram ctx (stmt :: rest)).exec s =
          (ScriptTrace.runProgram ctx rest).exec s := by
        have : (ScriptTrace.runTopLevel ctx stmt).exec s = (.ok .normal, s) := by
          simp only [ScriptTrace.runTopLevel, Stmt.exec, ScriptTrace.execute, hk, if_true]
          rfl
        exact exec_bind_ok this
      intro s hs
      rw [skip]
      exact next s hs
    | false =>
      have hl := hstmt.line hk
      simp only [ScriptTrace.runProgram]
      refine (h.runTopLevel hstmt hl).bind fun s => ?_
      cases s with
      | answer v =>
        exact (op (.describe v)).bind fun _ => (Follows.note (Event.fits_of_line hl rfl) rfl rfl).bind fun _ =>
          op (.log _ _ _)
      | normal => exact next
      | leave | next => exact (Follows.note (Event.fits_of_line hl rfl) rfl rfl).bind fun _ => next

end Context.Governed

/-! ## The recursion -/

/-- At every depth of the recursion calls follow courses. -/
theorem governed_within (P : Site → Prop) (cfg : Config) (src : Source) :
    ∀ n, (Context.within cfg src .idle n).Governed P
  | 0 => ⟨rfl, fun _ _ _ _ _ => Follows.pure _⟩
  | n + 1 => ⟨rfl, fun name _ args hr hl => (governed_within P cfg src n).callFunction name hr args hl⟩

/-- The run of a program whose tree fits follows a course. -/
theorem runTree_course {tree : Tree} (h : ∀ stmt ∈ Stmt.program src tree, stmt.Fits P []) (clock : Clock) :
    Course P cfg src [] (.start clock cfg.frames) (cut? (runTree cfg src tree clock).1)
      (runTree cfg src tree clock).2 :=
  (governed_within P cfg src _).runProgram _ h _ fun _ hf => nomatch hf

end ScriptTrace
