import ScriptTrace.Proofs.Following
import ScriptTrace.Proofs.Journal
import ScriptTrace.Proofs.Queue
import ScriptTrace.Proofs.Reading
import ScriptTrace.Trace
/-!
# Console output

What a console call prints is queued in the function that runs, and the next step of that function that carries
output carries all of the queue. A **desk** follows this through a journal: it has the queue of the running function,
those of its callers, and what was still queued when a function was left. `Desk.replay` reads a journal in this way,
and stops at a moment that captured anything but the queue.

A function that returns has carried off its queue before it is left. One that a fault cuts short has not, if what it
evaluates stands in no statement of its own: the body of an arrow function that is an expression, or the default of a
parameter. Its queue is lost then (`console_output_lost`). Nothing else is.

* `Desk.replay_conserves`: what is printed is captured, queued or lost.
* `Course.replays`: the journal of a run can be replayed; only a call that is cut short loses output.
* `statement_output_stays`: the output of a statement is in its own moments, and none is left for a later one.
* `console_output_kept_unless_cut`: what becomes of the output of a whole run.
-/
namespace ScriptTrace

open Act

/-! ## Desks -/

structure Desk where
  /-- What the running function has printed and no moment has captured yet. -/
  queue : List Value
  /-- The queues of the functions that wait for it, innermost first. -/
  waiting : List (List Value)
  /-- What was queued in a function when it was left. -/
  lost : List Value
deriving DecidableEq, Repr

namespace Desk

def empty : Desk := ⟨[], [], []⟩

/-- A moment captures nothing, or all of the queue. -/
def carry (d : Desk) (captured : List Value) : Option Desk :=
  if captured = [] then some d
  else if captured = d.queue then some { d with queue := [] }
  else none

/-- A call starts with a queue of its own, and the caller gets its own back. -/
def move (d : Desk) : StepKind → Option Desk
  | .call => some ⟨[], d.queue :: d.waiting, d.lost⟩
  | .functionExit =>
    match d.waiting with
    | [] => none
    | queue :: waiting => some ⟨queue, waiting, d.lost ++ d.queue⟩
  | _ => some d

def read (d : Desk) : Note → Option Desk
  | .printed v => some { d with queue := d.queue ++ [v] }
  | .refused _ _ => some d
  | .moment m => (d.carry m.event.captured).bind fun d => d.move m.event.kind

def replay (d : Desk) (notes : List Note) : Option Desk :=
  notes.foldlM read d

end Desk

def Note.printed? : Note → Option Value
  | .printed v => some v
  | .moment _ | .refused _ _ => none

/-- What the notes of a journal say was printed. -/
def printed (notes : List Note) : List Value :=
  notes.filterMap Note.printed?

/-- What the moments of a journal captured. -/
def captured (notes : List Note) : List Value :=
  (moments notes).flatMap fun m => m.event.captured

/-- How many moments of a journal are of a kind. -/
def countOf (kind : StepKind) (notes : List Note) : Nat :=
  (moments notes).countP fun m => m.event.kind = kind

section Notes

variable (notes more : List Note)

@[simp] theorem printed_append : printed (notes ++ more) = printed notes ++ printed more :=
  List.filterMap_append

@[simp] theorem captured_append : captured (notes ++ more) = captured notes ++ captured more := by
  simp [captured]

@[simp] theorem countOf_append (kind : StepKind) :
    countOf kind (notes ++ more) = countOf kind notes + countOf kind more := by
  simp [countOf]

@[simp] theorem printed_moment (m : Moment) : printed [.moment m] = [] :=
  rfl

@[simp] theorem captured_moment (m : Moment) : captured [.moment m] = m.event.captured :=
  List.append_nil _

theorem countOf_moment (kind : StepKind) (m : Moment) :
    countOf kind (.moment m :: notes) = (if m.event.kind = kind then 1 else 0) + countOf kind notes := by
  simp [countOf, moments, Note.moment?, List.countP_cons, Nat.add_comm]

@[simp] theorem countOf_nil (kind : StepKind) : countOf kind [] = 0 :=
  rfl

end Notes

namespace Desk

variable {d d' : Desk} {notes more : List Note}

/-- All that is on a desk. -/
def all (d : Desk) : List Value :=
  d.queue ++ d.waiting.flatten ++ d.lost

theorem replay_append (notes more : List Note) (d : Desk) :
    d.replay (notes ++ more) = (d.replay notes).bind fun d => d.replay more :=
  List.foldlM_append

theorem replay_cons (n : Note) (notes : List Note) (d : Desk) :
    d.replay (n :: notes) = (d.read n).bind fun d => d.replay notes :=
  rfl

theorem carry_conserves {c : List Value} (h : d.carry c = some d') (v : Value) :
    d.all.count v = c.count v + d'.all.count v := by
  unfold carry at h
  split at h
  · rename_i none
    cases h
    simp [none]
  · split at h
    · rename_i whole
      cases h
      simp [all, whole]
    · cases h

theorem move_conserves {kind : StepKind} (h : d.move kind = some d') (v : Value) :
    d'.all.count v = d.all.count v := by
  unfold move at h
  split at h
  · cases h
    simp [all]
  · split at h
    · cases h
    · rename_i waits
      cases h
      simp [all, waits]
      omega
  · cases h
    rfl

theorem read_conserves {n : Note} (h : d.read n = some d') (v : Value) :
    d.all.count v + (printed [n]).count v = (captured [n]).count v + d'.all.count v := by
  cases n with
  | printed w =>
    cases h
    show d.all.count v + [w].count v = 0 + _
    simp only [all, List.count_append]
    omega
  | refused x line =>
    cases h
    show d.all.count v + 0 = 0 + _
    omega
  | moment m =>
    obtain ⟨d₁, carried, moved⟩ := Option.bind_eq_some_iff.1 h
    have first := carry_conserves carried v
    have second := move_conserves moved v
    rw [printed_moment, captured_moment, List.count_nil]
    omega

/-- What is printed is captured, queued or lost. -/
theorem replay_conserves (h : d.replay notes = some d') (v : Value) :
    d.all.count v + (printed notes).count v = (captured notes).count v + d'.all.count v := by
  induction notes generalizing d with
  | nil =>
    cases h
    simp [printed, captured, moments]
  | cons n notes ih =>
    rw [replay_cons] at h
    obtain ⟨d₁, first, rest⟩ := Option.bind_eq_some_iff.1 h
    have one := read_conserves first v
    have more := ih rest
    rw [← List.singleton_append, printed_append, captured_append, List.count_append, List.count_append]
    omega

/-- From an empty desk to one with empty queues, what is printed is captured or lost. -/
theorem perm_of_replay {lost : List Value} (h : empty.replay notes = some ⟨[], [], lost⟩) :
    (printed notes).Perm (captured notes ++ lost) := by
  refine List.perm_iff_count.2 fun v => ?_
  have conserved := replay_conserves h v
  simpa [all, empty] using conserved

end Desk

/-! ## Journals of runs -/

/-- Whether the journal of a run goes on from one state to another with notes that a desk can read, and which of the
output is lost in them. -/
structure Replays (s t : State) (notes : List Note) (lost : List Value) : Prop where
  journal : t.journal.toList = s.journal.toList ++ notes
  desk : ∀ waiting gone, Desk.replay ⟨s.pending, waiting, gone⟩ notes = some ⟨t.pending, waiting, gone ++ lost⟩

/-- No more calls return than are made, and if all of them do, nothing is lost. -/
structure Balanced (notes : List Note) (lost : List Value) : Prop where
  returns : countOf .functionReturn notes ≤ countOf .call notes
  lossless : countOf .functionReturn notes = countOf .call notes → lost = []

namespace Balanced

variable {notes more : List Note} {lost lost' : List Value}

theorem lossy_free (h : countOf .functionReturn notes ≤ countOf .call notes) : Balanced notes [] :=
  ⟨h, fun _ => rfl⟩

theorem plain {m : Moment} (h : m.event.kind.isOfCall = false) : Balanced [.moment m] [] := by
  refine .lossy_free ?_
  have other : m.event.kind ≠ .functionReturn := by
    intro hk
    rw [hk] at h
    cases h
  rw [countOf_moment, if_neg other]
  exact Nat.zero_le _

theorem append (first : Balanced notes lost) (second : Balanced more lost') :
    Balanced (notes ++ more) (lost ++ lost') := by
  have less := first.returns
  have less' := second.returns
  refine ⟨?_, fun same => ?_⟩ <;> simp only [countOf_append] at *
  · omega
  · rw [first.lossless (by omega), second.lossless (by omega)]
    rfl

variable {c m x : Moment}

/-- A call that returns has carried off its queue. -/
theorem returned (h : Balanced notes lost) (hc : c.event.kind = .call) (hm : m.event.kind = .functionReturn)
    (hx : x.event.kind = .functionExit) :
    Balanced (.moment c :: ((notes ++ [.moment m]) ++ [.moment x])) lost := by
  have less := h.returns
  refine ⟨?_, fun same => h.lossless ?_⟩ <;> simp [countOf_moment, hc, hm, hx] at * <;> omega

/-- A call that is cut short does not return. -/
theorem cut (h : Balanced notes lost) (hc : c.event.kind = .call) (hx : x.event.kind = .functionExit)
    (queue : List Value) : Balanced (.moment c :: (notes ++ [.moment x])) (lost ++ queue) := by
  have less := h.returns
  have more : countOf .functionReturn (.moment c :: (notes ++ [.moment x])) <
      countOf .call (.moment c :: (notes ++ [.moment x])) := by
    simp [countOf_moment, hc, hx]
    omega
  exact ⟨Nat.le_of_lt more, fun same => absurd same (Nat.ne_of_lt more)⟩

end Balanced

namespace Desk

variable (d : Desk)

theorem carry_nil : d.carry [] = some d :=
  if_pos rfl

/-- A moment that carries output off takes all of the queue. -/
theorem carry_queue : d.carry d.queue = some { d with queue := [] } := by
  unfold carry
  by_cases h : d.queue = []
  · rw [if_pos h, ← h]
  · rw [if_neg h, if_pos rfl]

theorem move_plain {kind : StepKind} (h : kind.isOfCall = false) : d.move kind = some d := by
  cases kind <;> first | rfl | cases h

/-- Between a call and the exit from it the queue is that of the function. -/
theorem replay_frame {notes : List Note} {queue q lost : List Value} {c x : Moment}
    (hc : c.event.kind = .call) (hc' : c.event.captured = []) (hx : x.event.kind = .functionExit)
    (hx' : x.event.captured = [])
    (inside : ∀ waiting gone, replay ⟨[], waiting, gone⟩ notes = some ⟨q, waiting, gone ++ lost⟩)
    (waiting : List (List Value)) (gone : List Value) :
    replay ⟨queue, waiting, gone⟩ (.moment c :: (notes ++ [.moment x])) =
      some ⟨queue, waiting, gone ++ (lost ++ q)⟩ := by
  have enters : read ⟨queue, waiting, gone⟩ (.moment c) = some ⟨[], queue :: waiting, gone⟩ := by
    rw [read, hc', carry_nil, hc]
    rfl
  have exits : read ⟨q, queue :: waiting, gone ++ lost⟩ (.moment x) = some ⟨queue, waiting, gone ++ (lost ++ q)⟩ := by
    rw [read, hx', carry_nil, hx, ← List.append_assoc]
    rfl
  rw [replay_cons, enters, Option.bind_some, replay_append, inside, Option.bind_some, replay_cons, exits]
  rfl

end Desk

namespace Replays

variable {cfg : Config} {src : Source} {s t u : State} {notes more : List Note} {lost lost' : List Value} {e : Event}

theorem still (journal : t.journal = s.journal) (pending : t.pending = s.pending) : Replays s t [] [] where
  journal := by rw [journal, List.append_nil]
  desk waiting gone := by
    rw [pending, List.append_nil]
    rfl

theorem trans (first : Replays s t notes lost) (second : Replays t u more lost') :
    Replays s u (notes ++ more) (lost ++ lost') where
  journal := by rw [second.journal, first.journal, List.append_assoc]
  desk waiting gone := by
    rw [Desk.replay_append, first.desk, Option.bind_some, second.desk, List.append_assoc]

/-- A note that is read without loss. -/
theorem one {n : Note} (journal : t.journal.toList = s.journal.toList ++ [n])
    (desk : ∀ waiting gone, Desk.read ⟨s.pending, waiting, gone⟩ n = some ⟨t.pending, waiting, gone⟩) :
    Replays s t [n] [] where
  journal := journal
  desk waiting gone := by
    rw [Desk.replay_cons, desk, List.append_nil]
    rfl

theorem print (v : Value) :
    Replays s { s with pending := s.pending ++ [v], journal := s.journal.push (.printed v) } [.printed v] [] :=
  .one (Array.toList_push ..) fun _ _ => rfl

theorem refuse (x : Text) (line : Nat) :
    Replays s { s with journal := s.journal.push (.refused x line) } [.refused x line] [] :=
  .one (Array.toList_push ..) fun _ _ => rfl

theorem noted (hl : e.line ≠ 0) (bare : e.captured = []) (stays : ∀ d : Desk, d.move e.kind = some d) :
    Replays s (s.noted cfg src e) [.moment (e.momentIn cfg s)] [] := by
  refine .one (noted_journal hl s) fun waiting gone => ?_
  show (Desk.carry _ e.captured).bind _ = _
  rw [bare, Desk.carry_nil, noted_pending]
  exact stays _

theorem notedOutput (hl : e.line ≠ 0) (stays : ∀ d : Desk, d.move e.kind = some d) :
    ∃ m : Moment, m.event.kind = e.kind ∧ Replays s (s.notedOutput cfg src e) [.moment m] [] := by
  let carrying : Event := { e with captured := s.pending }
  refine ⟨carrying.momentIn cfg { s with pending := [] }, rfl, .one (noted_journal (e := carrying) hl _) ?_⟩
  intro waiting gone
  show (Desk.carry _ s.pending).bind _ = _
  rw [Desk.carry_queue ⟨s.pending, waiting, gone⟩, notedOutput_pending]
  exact stays _

/-- A call: what its function leaves queued is lost. -/
theorem framed {name shown : Text} {r : Routine Stmt} {line : Nat} (hl : line ≠ 0)
    (inside : Replays ((s.noted cfg src (.called name shown line)).enterFrame name r line) t notes lost) :
    ∃ c x : Moment, c.event.kind = .call ∧ x.event.kind = .functionExit ∧
      Replays s (((s.noted cfg src (.called name shown line)).leaveFrame t).noted cfg src (.exited name line))
        (.moment c :: (notes ++ [.moment x])) (lost ++ t.pending) := by
  have calls : (Event.called name shown line).line ≠ 0 := hl
  have exits : (Event.exited name line).line ≠ 0 := hl
  have entered : ((s.noted cfg src (.called name shown line)).enterFrame name r line).journal.toList = _ :=
    noted_journal calls s
  have queue : ((s.noted cfg src (.called name shown line)).leaveFrame t).pending = s.pending :=
    noted_pending _ _
  refine ⟨(Event.called name shown line).momentIn cfg s, (Event.exited name line).momentIn cfg
    ((s.noted cfg src (.called name shown line)).leaveFrame t), rfl, rfl, ?_, ?_⟩
  · rw [noted_journal exits]
    show t.journal.toList ++ _ = _
    rw [inside.journal, entered]
    simp only [List.append_assoc, List.cons_append, List.nil_append]
  · rw [noted_pending, queue]
    exact Desk.replay_frame rfl rfl rfl rfl inside.desk

end Replays

/-! ## Runs -/

/-- Lines are counted from one. -/
def Site.IsNumbered : Site → Prop
  | .line _ n => n ≠ 0
  | .span _ | .jump _ _ _ => True

instance : DecidablePred Site.IsNumbered
  | .line _ n => inferInstanceAs (Decidable (n ≠ 0))
  | .span _ | .jump _ _ _ => .isTrue trivial

section

variable {cfg : Config} {src : Source} {p : Scope} {s t : State} {o : Option Fault}

/-- The journal of a run can be replayed, and only calls that are cut short lose output. -/
theorem Course.replays (h : Course Site.IsNumbered cfg src p s o t) :
    ∃ notes lost, Replays s t notes lost ∧ Balanced notes lost := by
  induction h with
  | refl | define | tick | tally | stray => exact ⟨[], [], .still rfl rfl, .lossy_free (Nat.le_refl 0)⟩
  | operate m o functions pending => exact ⟨[], [], .still rfl pending, .lossy_free (Nat.le_refl 0)⟩
  | trans _ _ first second =>
    obtain ⟨notes, lost, replays, balanced⟩ := first
    obtain ⟨more, lost', replays', balanced'⟩ := second
    exact ⟨_, _, replays.trans replays', balanced.append balanced'⟩
  | print v => exact ⟨_, _, .print v, .lossy_free (Nat.le_refl 0)⟩
  | refuse x line => exact ⟨_, _, .refuse x line, .lossy_free (Nat.le_refl 0)⟩
  | note e event plain bare =>
    obtain ⟨_, numbered⟩ := event.somewhere
    exact ⟨_, _, .noted numbered bare fun d => d.move_plain plain, .plain plain⟩
  | noteOutput e event plain =>
    obtain ⟨_, numbered⟩ := event.somewhere
    obtain ⟨m, kind, replays⟩ := Replays.notedOutput numbered (fun d => d.move_plain plain) (e := e)
    exact ⟨_, _, replays, .plain (kind ▸ plain)⟩
  | contain cause line body ih =>
    obtain ⟨notes, lost, replays, balanced⟩ := ih
    exact ⟨notes, lost, ⟨replays.journal, replays.desk⟩, balanced⟩
  | recover fault passing body ih => exact ih
  | within _ _ _ _ ih | loop _ ih | label _ _ ih =>
    obtain ⟨notes, lost, replays, balanced⟩ := ih
    exact ⟨notes, lost, ⟨replays.journal, replays.desk⟩, balanced⟩
  | call name shown message r line routine site body ih =>
    obtain ⟨notes, lost, replays, balanced⟩ := ih
    have last := (Routine.fits_iff.1 routine).2.1.2
    obtain ⟨m, returns, output⟩ := Replays.notedOutput (e := .returned message r.span.last) last fun _ => rfl
    obtain ⟨c, x, calls, exits, framed⟩ := Replays.framed site (replays.trans output)
    refine ⟨_, _, framed, ?_⟩
    rw [notedOutput_pending, List.append_nil, List.append_nil]
    exact balanced.returned calls returns exits
  | cutCall name shown r line fault routine site body ih =>
    obtain ⟨notes, lost, replays, balanced⟩ := ih
    obtain ⟨c, x, calls, exits, framed⟩ := Replays.framed site replays
    exact ⟨_, _, framed, balanced.cut calls exits _⟩

end

/-! ## Statements -/

/-- A statement that begins with an empty queue and ends, whichever way, leaves an empty queue. If lines are counted from
one in it and in the functions it may call, its moments have captured nothing but what was printed in it, and everything
that was, but for what a call that was cut short has lost; nothing is lost if every call in it returned. Where nothing
is coalesced and nothing has been dropped, it has added one step for each of these moments. -/
theorem statement_output_stays (cfg : Config) (src : Source) (n : Nat) (stmt : Stmt) (s t : State) (signal : Signal)
    (empty : s.pending = []) (returns : (stmt.exec (.within cfg src .idle n)).exec s = (.ok signal, t)) :
    t.pending = [] ∧
    (stmt.Fits Site.IsNumbered [] → s.Fits Site.IsNumbered → ∃ notes lost,
      t.journal.toList = s.journal.toList ++ notes ∧ Desk.empty.replay notes = some ⟨[], [], lost⟩ ∧
      (printed notes).Perm (captured notes ++ lost) ∧
      (countOf .functionReturn notes = countOf .call notes → lost = []) ∧
      (s.Recorded cfg src → cfg.deduplicate = false → t.recorder.truncated = false →
        t.recorder.steps.toList = s.recorder.steps.toList ++ stepsOf src notes)) := by
  have drained : t.pending = [] := stmt.exec_drains _ s signal t empty returns
  refine ⟨drained, fun numbered functions => ?_⟩
  have course := (governed_within Site.IsNumbered cfg src n).exec numbered s functions
  rw [returns] at course
  obtain ⟨notes, lost, replays, balanced⟩ := course.replays
  have replayed : Desk.replay ⟨s.pending, [], []⟩ notes = some ⟨t.pending, [], [] ++ lost⟩ := replays.desk [] []
  rw [empty, drained, List.nil_append] at replayed
  refine ⟨notes, lost, replays.journal, replayed, Desk.perm_of_replay replayed, balanced.lossless, ?_⟩
  intro recorded off whole
  exact recorded.steps_eq (course.recorded recorded) off whole replays.journal

/-- A counting loop whose update prints, and whose only round is cut short: no step is recorded for the update. -/
def printingUpdate : Stmt :=
  .forLoop ⟨1, 2⟩ (.declare ⟨false, false, [.bind "i" (.value (.number "0"))]⟩)
    (some (.binary 1 (.strict .lt) (.name 1 "i") (.number "1")))
    (some (.sequence [.call 1 .console [.name 1 "i"], .update true false (.name 1 "i")])) ⟨2, 2⟩
    (.jump ⟨2, 2⟩ .next none)

theorem statement_output_stays_printing_update :
    ∃ t, (printingUpdate.exec (.top {} ⟨.empty⟩)).exec (.start (.ticking 0)) = (.ok .normal, t) ∧ t.pending = [] ∧
      printed t.journal.toList = [.number (.int 0)] ∧
      ∃ lost, (printed t.journal.toList).Perm (captured t.journal.toList ++ lost) := by
  have ends : ((printingUpdate.exec (.top {} ⟨.empty⟩)).exec (.start (.ticking 0))).1.toOption = some .normal := by
    decide +kernel
  have prints : printed ((printingUpdate.exec (.top {} ⟨.empty⟩)).exec (.start (.ticking 0))).2.journal.toList =
      [.number (.int 0)] := by
    decide +kernel
  have numbered : ∀ site ∈ printingUpdate.sites [], site.IsNumbered := by decide +kernel
  cases he : (printingUpdate.exec (.top {} ⟨.empty⟩)).exec (.start (.ticking 0)) with
  | mk outcome t =>
    rw [he] at ends prints
    cases outcome with
    | error fault => cases ends
    | ok signal =>
      obtain rfl : signal = .normal := Option.some.inj ends
      rw [Context.top] at he
      obtain ⟨drained, origin⟩ := statement_output_stays _ _ _ printingUpdate _ t .normal rfl he
      obtain ⟨notes, lost, journal, -, kept, -⟩ := origin numbered fun _ h => nomatch h
      have all : t.journal.toList = notes := journal
      exact ⟨t, rfl, drained, prints, lost, all ▸ kept⟩

/-! ## Programs -/

/-- Whether a value is what a console call prints for its arguments: a single one as it is, others as a list. -/
def Prints (h : Heap) (args : List Value) (v : Value) : Prop :=
  args = [v] ∨ args.length ≠ 1 ∧ ∃ ref, v = .array ref ∧ h.array ref = args

theorem captured_exec (args : List Value) (m : Memory) :
    ∃ v h, (Op.captured args).exec m = (.ok v, { m with heap := h }) ∧ Prints h args v := by
  match args with
  | [v] => exact ⟨v, m.heap, rfl, .inl rfl⟩
  | [] => exact ⟨_, _, rfl, .inr ⟨by simp, _, rfl, by simp [Heap.array]⟩⟩
  | a :: b :: rest => exact ⟨_, _, rfl, .inr ⟨by simp, _, rfl, by simp [Heap.array]⟩⟩

/-- A console call prints one value. -/
theorem consoleCall_exec (ctx : Context) (line : Nat) {args : List Expr} {s u : State} {vs : List Value}
    (h : (Expr.evalAll ctx args).exec s = (.ok vs, u)) :
    ∃ v t, ((Expr.call line .console args).eval ctx).exec s = (.ok .undefined, t) ∧
      t.journal = u.journal.push (.printed v) ∧ t.pending = u.pending ++ [v] ∧ Prints t.heap vs v := by
  obtain ⟨v, heap, made, prints⟩ := captured_exec vs u.toMemory
  have lifted : (Op.captured vs : Run Value).exec u = (.ok v, { u with heap := heap }) := by
    show (Op.asRun (Op.captured vs)).exec u = _
    rw [Op.asRun]
    simp only [made]
    rfl
  refine ⟨v, { u with heap := heap, pending := u.pending ++ [v], journal := u.journal.push (.printed v) },
    ?_, rfl, rfl, prints⟩
  rw [Expr.eval, exec_bind_ok h, queueOutput, exec_bind_ok lifted]
  rfl

/-- The run of a program on numbered lines. -/
theorem runTree_numbered (cfg : Config) (src : Source) (tree : Tree) (clock : Clock) :
    Course Site.IsNumbered cfg src [] (.start clock cfg.frames) (cut? (runTree cfg src tree clock).1)
      (runTree cfg src tree clock).2 := by
  have inherits : Tree.Inherits src Site.IsNumbered fun _ => True := by
    refine ⟨fun _ _ _ _ => trivial, fun _ offset => ?_, fun _ _ => trivial, fun _ _ _ => trivial⟩
    exact Nat.ne_of_gt (src.lineAt_pos offset)
  exact runTree_course (fits_program (inherits.fits tree trivial [] "program")) clock

theorem runTree_replays (cfg : Config) (src : Source) (tree : Tree) (clock : Clock) :
    ∃ notes lost, Replays (.start clock cfg.frames) (runTree cfg src tree clock).2 notes lost ∧ Balanced notes lost :=
  (runTree_numbered cfg src tree clock).replays

theorem runTree_recorded (cfg : Config) (src : Source) (tree : Tree) (clock : Clock) :
    (runTree cfg src tree clock).2.Recorded cfg src := by
  have fits : ∀ stmt ∈ Stmt.program src tree, stmt.Fits (fun _ => True) [] := fun _ _ _ _ => trivial
  have course : Course (fun _ => True) cfg src [] _ _ _ := runTree_course fits clock
  exact course.recorded (.start clock _)

/-- Every console call prints one value. In a run that gives a whole trace, the journal can be replayed to its end, with
no output left in a queue: so each value that was printed has been captured by one moment, or is lost. If every call
that was made returned, none is. And each moment went into one step, whose output is what its moments captured. -/
theorem console_output_kept_unless_cut (cfg : Config) (src : Source) (tree : Tree) (clock : Clock) (t : Trace)
    (ht : (trace cfg src tree clock).1 = .ok t) (whole : t.stats.truncated = false) :
    let notes := (runTree cfg src tree clock).2.journal.toList
    (∀ (ctx : Context) (line : Nat) (args : List Expr) (s u : State) (vs : List Value),
      (Expr.evalAll ctx args).exec s = (.ok vs, u) →
        ∃ v s', ((Expr.call line .console args).eval ctx).exec s = (.ok .undefined, s') ∧
          s'.journal = u.journal.push (.printed v) ∧ s'.pending = u.pending ++ [v] ∧ Prints s'.heap vs v) ∧
    (∃ lost, Desk.empty.replay notes = some ⟨[], [], lost⟩ ∧
      (printed notes).Perm (captured notes ++ lost) ∧
      (countOf .functionReturn notes = countOf .call notes → lost = [])) ∧
    ∃ bunches : List (List Moment), bunches.flatten = moments notes ∧
      t.steps.map Step.output = bunches.map (fun b => Recorder.pack (Recorder.capturesOf b)) ∧
      ∀ m ∈ moments notes, ∃ heap : Heap,
        m.entry.captures = m.event.captured.map (·.snapshot heap cfg.maxStringLength.count) := by
  intro notes
  obtain ⟨completes, rfl⟩ := runTree_of_trace ht
  refine ⟨fun ctx line args s u vs h => consoleCall_exec ctx line h, ?_, ?_⟩
  · obtain ⟨read, lost, replays, balanced⟩ := runTree_replays cfg src tree clock
    have journal : notes = read := replays.journal
    have drained : (runTree cfg src tree clock).2.pending = [] :=
      runProgram_drains _ _ () _ rfl (Prod.ext completes rfl)
    have replayed : Desk.empty.replay read = some ⟨_, [], [] ++ lost⟩ := replays.desk [] []
    rw [drained, List.nil_append] at replayed
    rw [journal]
    refine ⟨lost, replayed, List.perm_iff_count.2 fun v => ?_, balanced.lossless⟩
    have conserved := Desk.replay_conserves replayed v
    simpa [Desk.all, Desk.empty] using conserved
  · have recorded := runTree_recorded cfg src tree clock
    have kept : (Recorder.ofMoments cfg src (moments notes)).truncated = false := recorded.recorder ▸ whole
    obtain ⟨bunches, flat, -, bunched⟩ := Recorder.exists_bunches kept
    refine ⟨bunches, flat, ?_, fun m hm => ?_⟩
    · rw [← recorded.recorder] at bunched
      exact bunched.outputs
    · obtain ⟨u, happened⟩ := recorded.entries m hm
      exact ⟨u.heap, by rw [happened]; rfl⟩

/-- A function that prints its argument and then gives a value, and a call of it. -/
def printingSource (value : Text) : Source :=
  ⟨"const f = x => (console.log(x), " ++ value ++ (");\nf(1);\n" : Text)⟩

/-- Its tree, if the value takes ten bytes. -/
def printingTree (value : (String → Option String → Nat → Nat → List Tree → Tree) → Tree) : Tree :=
  let node (kind : String) (field : Option String) (start stop : Nat) (children : List Tree) : Tree :=
    .node ⟨true, false, false, false, kind, field, start, stop⟩ children
  node "program" none 0 51 [
    node "lexical_declaration" none 0 44 [
      node "variable_declarator" none 6 43 [
        node "identifier" "name" 6 7 [],
        node "arrow_function" "value" 10 43 [
          node "identifier" "parameter" 10 11 [],
          node "parenthesized_expression" "body" 15 43 [
            node "sequence_expression" none 16 42 [
              node "call_expression" none 16 30 [
                node "member_expression" "function" 16 27 [
                  node "identifier" "object" 16 23 [],
                  node "property_identifier" "property" 24 27 []],
                node "arguments" "arguments" 27 30 [node "identifier" none 28 29 []]],
              value node]]]]],
    node "expression_statement" none 45 50 [
      node "call_expression" none 45 49 [
        node "identifier" "function" 45 46 [],
        node "arguments" "arguments" 46 49 [node "number" none 47 48 []]]]]

theorem console_output_kept_unless_cut_returned :
    let source := printingSource "1234567890"
    let tree := printingTree fun node => node "number" none 32 42 []
    let notes := (runTree {} source tree (.ticking 0)).2.journal.toList
    ∃ t, (trace {} source tree (.ticking 0)).1 = .ok t ∧ t.stats.truncated = false ∧
      countOf .functionReturn notes = countOf .call notes ∧ (printed notes).Perm (captured notes) ∧
      printed notes = [.number (.int 1)] := by
  intro source tree notes
  have made : (trace {} source tree (.ticking 0)).1.toOption.map (fun t => t.stats.truncated) = some false := by
    decide +kernel
  have returned : countOf .functionReturn notes = countOf .call notes := by
    decide +kernel
  obtain ⟨t, ht, whole⟩ : ∃ t, (trace {} source tree (.ticking 0)).1 = .ok t ∧ t.stats.truncated = false := by
    cases ht : (trace {} source tree (.ticking 0)).1 with
    | error => rw [ht] at made; cases made
    | ok t => rw [ht] at made; exact ⟨t, rfl, Option.some.inj made⟩
  obtain ⟨-, ⟨lost, -, kept, lossless⟩, -⟩ :=
    console_output_kept_unless_cut {} source tree (.ticking 0) t ht whole
  rw [lossless returned, List.append_nil] at kept
  exact ⟨t, ht, whole, returned, kept, by decide +kernel⟩

/-- Output is lost when a failure leaves a function whose body is an expression. -/
theorem console_output_lost :
    let source := printingSource "null.x = 1"
    let tree := printingTree fun node => node "assignment_expression" none 32 42 [
      node "member_expression" "left" 32 38 [
        node "null" "object" 32 36 [],
        node "property_identifier" "property" 37 38 []],
      node "number" "right" 41 42 []]
    let notes := (runTree { deduplicate := false } source tree (.ticking 0)).2.journal.toList
    (trace { deduplicate := false } source tree (.ticking 0)).1.toOption.map
      (fun t => (t.stats.truncated, t.outputs)) = some (false, []) ∧
    printed notes = [.number (.int 1)] ∧ captured notes = [] ∧
    Desk.empty.replay notes = some ⟨[], [], [.number (.int 1)]⟩ := by
  decide +kernel

end ScriptTrace
