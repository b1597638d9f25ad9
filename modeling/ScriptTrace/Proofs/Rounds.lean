import Mathlib.Algebra.Ring.Int.Defs
import ScriptTrace.Proofs.Journal
import ScriptTrace.Proofs.Signals
/-!
# The rounds of a loop

A loop goes from one **station** to the next: its opening, a test, the guard, a body, an update, until it is over. The
three kinds of loops pass their stations in different orders, but only the guard lets a round begin. `Loop.step` is
that machine, and a `Trail` lists the stations of one execution.

The guard has a count of its own, which joins the iterations of the run when the loop is left, on whatever way. Loops
and calls inside a loop give it back as they found it.

* `Loop.does_go`: the machine does what the loop does.
* `Trail.bodies`, `Trail.rounds_le`: a loop starts its body as often as its guard has let it, which is no more than the
  limit allows.
* `Trail.counted`, `Trail.iterations`: that is what the guard has counted, whatever loops and calls inside have counted.
* `Trail.stopped_iff`: the limit on iterations stops a loop where one more round was to begin, and nowhere else.
* `Trail.no_body_after_full`: once the recorder is full, no body is started.
* `loop_rounds_counted`: all this of every execution of a loop statement.
-/
namespace ScriptTrace

open Act Run

/-! ## The loop as a machine -/

/-- What a loop does next, or how it has ended. -/
inductive Phase
  | opening
  | test
  | guard
  | body
  | update (sent : Signal)
  | ended (how : Except Fault Ending)

namespace Phase

def isGuard : Phase → Bool
  | guard => true
  | _ => false

def isBody : Phase → Bool
  | body => true
  | _ => false

def isOver : Phase → Bool
  | ended _ => true
  | _ => false

theorem eq_guard {phase : Phase} (h : phase.isGuard = true) : phase = .guard := by
  cases phase with
  | guard => rfl
  | _ => cases h

end Phase

structure Station where
  phase : Phase
  /-- How many rounds have begun. -/
  rounds : Nat
  state : State

namespace Station

/-- Does what is next, and goes on as its result says. -/
def next {α : Type} (x : Station) (act : Run α) (phase : α → Phase) : Station :=
  match act.exec x.state with
  | (.ok a, s) => ⟨phase a, x.rounds, s⟩
  | (.error fault, s) => ⟨.ended (.error fault), x.rounds, s⟩

theorem next_state {α : Type} (x : Station) (act : Run α) (phase : α → Phase) :
    (x.next act phase).state = (act.exec x.state).2 := by
  unfold next
  rcases act.exec x.state with ⟨_ | _, _⟩ <;> rfl

end Station

/-- A loop with what comes before its rounds. -/
structure Loop extends Rounds where
  opening : Run Unit
  /-- Whether there is a test before the first round. -/
  testsFirst : Bool

namespace Loop

def limit (l : Loop) : Nat := l.config.maxIterations.count

/-- The guard of a loop in which so many rounds have begun. -/
def ask (l : Loop) (rounds : Nat) : Run (Option Trip) :=
  guardCheck l.config l.start (l.limit - rounds)

def step (l : Loop) (x : Station) : Station :=
  match x.phase with
  | .opening => x.next l.opening fun _ => if l.testsFirst then .test else .guard
  | .test => x.next l.test fun goes => if goes then .guard else .ended (.ok (.finished .normal))
  | .guard =>
    match (l.ask x.rounds).exec x.state with
    | (.ok none, s) => ⟨.body, x.rounds + 1, (countRound.exec s).2⟩
    | (.ok (some trip), s) => ⟨.ended (.ok (.stopped trip)), x.rounds, s⟩
    | (.error fault, s) => ⟨.ended (.error fault), x.rounds, s⟩
  | .body => x.next l.body fun sent =>
    if sent.exits l.label then .ended (.ok (.finished (sent.settle l.label))) else .update sent
  | .update sent => x.next (l.after sent) fun _ => .test
  | .ended _ => x

/-- The stations that a loop passes from one on, how it ends, after how many rounds, and in which state. -/
inductive Trail (l : Loop) : Station → List Station → Except Fault Ending → Nat → State → Prop
  | ended (how : Except Fault Ending) (rounds : Nat) (s : State) : Trail l ⟨.ended how, rounds, s⟩ [] how rounds s
  | step {x : Station} {trail : List Station} {how : Except Fault Ending} {rounds : Nat} {t : State}
      (running : x.phase.isOver = false) (rest : Trail l (l.step x) trail how rounds t) :
      Trail l x (x :: trail) how rounds t

def go (l : Loop) : Run (Ending × Nat) := do
  l.opening
  if l.testsFirst then l.testFirst l.limit 0 else l.bodyFirst l.limit 0

/-! ## The machine does what the loop does -/

/-- Whether the machine does from a station what an act does. -/
def Does (l : Loop) (x : Station) (act : Run (Ending × Nat)) : Prop :=
  ∃ trail how rounds t, l.Trail x trail how rounds t ∧ act.exec x.state = (how.map (·, rounds), t)

variable {l : Loop} {x y : Station} {act act' : Run (Ending × Nat)} {s t : State} {left done : Nat}

theorem Does.ended (how : Except Fault Ending) (he : act.exec s = (how.map (·, done), s)) :
    l.Does ⟨.ended how, done, s⟩ act :=
  ⟨[], how, done, s, .ended how done s, he⟩

theorem Does.step (h : l.Does y act') (running : x.phase.isOver = false) (hy : l.step x = y)
    (he : act.exec x.state = act'.exec y.state) : l.Does x act := by
  obtain ⟨trail, how, rounds, t, rest, ends⟩ := h
  exact ⟨x :: trail, how, rounds, t, .step running (hy ▸ rest), he.trans ends⟩

/-- A part of the loop is run, and a fault in it ends the loop. -/
theorem Does.next {α : Type} {part : Run α} {phase : α → Phase} {rest : α → Run (Ending × Nat)}
    (running : x.phase.isOver = false) (hx : l.step x = x.next part phase)
    (h : ∀ a t, l.Does ⟨phase a, x.rounds, t⟩ (rest a)) : l.Does x (part >>= rest) := by
  rcases he : part.exec x.state with ⟨fault | a, t⟩
  · have cut : l.Does ⟨.ended (.error fault), x.rounds, t⟩ (Act.done (.error fault)) := .ended _ rfl
    refine cut.step running ?_ ?_
    · rw [hx, Station.next, he]
    · rw [exec_bind_error he]
      rfl
  · refine (h a t).step running ?_ (exec_bind_ok he)
    rw [hx, Station.next, he]

/-- The guard that has no round left. -/
theorem does_exhausted (hd : done = l.limit) : l.Does ⟨.guard, done, s⟩ (pure (.stopped .iterations, done)) := by
  have stopped : l.Does ⟨.ended (.ok (.stopped .iterations)), done, s⟩ (pure (.stopped .iterations, done)) :=
    .ended _ rfl
  refine stopped.step rfl ?_ rfl
  have refused : (l.ask done).exec s = (.ok (some .iterations), s) := by
    rw [ask, guardCheck, if_pos (by omega)]
    rfl
  simp only [Loop.step, refused]

theorem ask_eq (hd : done < l.limit) : l.ask done = overrun? l.config l.start := by
  rw [ask, guardCheck, if_neg (by omega)]

/-- A round that the guard lets begin. -/
theorem exec_once_bind {r : Rounds} {next : Ending ⊕ Signal → Run (Ending × Nat)}
    (asked : (overrun? r.config r.start).exec s = (.ok none, t)) :
    (r.once >>= next).exec s = (r.body >>= fun sent =>
      next (if sent.exits r.label then .inl (.finished (sent.settle r.label)) else .inr sent)).exec
        (countRound.exec t).2 := by
  rw [Rounds.once, exec_bind_assoc, exec_bind_ok asked, exec_bind_assoc, exec_bind_ok rfl, exec_bind_assoc]
  show (r.body >>= _).exec (countRound.exec t).2 = _
  rcases sends : r.body.exec (countRound.exec t).2 with ⟨fault | sent, u⟩
  · rw [exec_bind_error sends, exec_bind_error sends]
  · rw [exec_bind_ok sends, exec_bind_ok sends]
    split <;> exact exec_bind_ok rfl

/-- The guard that has a round left, with the round that it lets begin. -/
theorem does_round {next : Ending ⊕ Signal → Run (Ending × Nat)} (hd : done < l.limit)
    (ends : ∀ ending, next (.inl ending) = pure (ending, Rounds.begun done ending))
    (goes : ∀ sent t, l.Does ⟨.update sent, done + 1, t⟩ (next (.inr sent))) :
    l.Does ⟨.guard, done, s⟩ (l.once >>= next) := by
  obtain ⟨trip, t, asked⟩ : ∃ trip t, (overrun? l.config l.start).exec s = (.ok trip, t) :=
    ⟨_, _, exec_overrun _ _ _⟩
  cases trip with
  | some trip =>
    have stopped : l.Does ⟨.ended (.ok (.stopped trip)), done, t⟩ (next (.inl (.stopped trip))) :=
      .ended _ (by rw [ends]; rfl)
    refine stopped.step rfl (by simp only [Loop.step, ask_eq hd, asked]) ?_
    rw [Rounds.once, exec_bind_assoc, exec_bind_ok asked]
    rfl
  | none =>
    have begun : l.step ⟨.guard, done, s⟩ = ⟨.body, done + 1, (countRound.exec t).2⟩ := by
      simp only [Loop.step, ask_eq hd, asked]
    have body : l.Does ⟨.body, done + 1, (countRound.exec t).2⟩ (l.body >>= fun sent =>
        next (if sent.exits l.label then .inl (.finished (sent.settle l.label)) else .inr sent)) := by
      refine Does.next rfl rfl fun sent u => ?_
      by_cases exits : sent.exits l.label = true
      · rw [if_pos exits, if_pos exits, ends]
        exact .ended _ rfl
      · rw [if_neg exits, if_neg exits]
        exact goes sent u
    exact body.step rfl begun (exec_once_bind asked)

/-- After the update of a loop that tests first. -/
theorem does_testFirst : ∀ (left : Nat) {done : Nat} (s : State), done + left = l.limit →
    l.Does ⟨.test, done, s⟩ (l.testFirst left done)
  | 0, done, s, hd => by
    rw [Rounds.testFirst]
    refine Does.next rfl rfl fun goes t => ?_
    cases goes with
    | true => exact does_exhausted hd
    | false => exact .ended _ rfl
  | left + 1, done, s, hd => by
    have room : done < l.limit := by omega
    have fewer : done + 1 + left = l.limit := by omega
    rw [Rounds.testFirst]
    refine Does.next rfl rfl fun goes t => ?_
    cases goes with
    | true =>
      exact does_round room (fun _ => rfl) fun sent u => Does.next rfl rfl fun _ v => does_testFirst left v fewer
    | false => exact .ended _ rfl

/-- A loop that tests last does nothing between a body and its test. -/
theorem does_bodyFirst (idle : ∀ sent, l.after sent = pure ()) : ∀ (left : Nat) {done : Nat} (s : State),
    done + left = l.limit → l.Does ⟨.guard, done, s⟩ (l.bodyFirst left done)
  | 0, done, s, hd => does_exhausted hd
  | left + 1, done, s, hd => by
    have room : done < l.limit := by omega
    have fewer : done + 1 + left = l.limit := by omega
    rw [Rounds.bodyFirst]
    refine does_round room (fun _ => rfl) fun sent t => ?_
    have tested : l.Does ⟨.test, done + 1, t⟩
        (l.test >>= fun goes => if goes then l.bodyFirst left (done + 1) else pure (.finished .normal, done + 1)) := by
      refine Does.next rfl rfl fun goes u => ?_
      cases goes with
      | true => exact does_bodyFirst idle left u fewer
      | false => exact .ended _ rfl
    refine tested.step rfl ?_ rfl
    simp only [Loop.step, Station.next, idle, exec_pure]

/-- The machine does what the loop does. -/
theorem does_go (l : Loop) (idle : l.testsFirst = false → ∀ sent, l.after sent = pure ()) (s : State) :
    l.Does ⟨.opening, 0, s⟩ l.go := by
  refine Does.next rfl rfl fun _ t => ?_
  cases first : l.testsFirst with
  | true => exact does_testFirst l.limit t (Nat.zero_add _)
  | false => exact does_bodyFirst (idle first) l.limit t (Nat.zero_add _)

/-! ## One step -/

/-- What the iterations of the run gain in one step. -/
def gained (l : Loop) (x : Station) : Int :=
  (l.step x).state.counts.iterations - x.state.counts.iterations

/-- No round begins with a part of the loop other than the guard, and none of them stops the loop. -/
theorem step_part (running : x.phase.isOver = false) (part : x.phase.isGuard = false) :
    (l.step x).rounds = x.rounds ∧ (l.step x).phase.isBody = false ∧
      ∀ trip, (l.step x).phase ≠ .ended (.ok (.stopped trip)) := by
  have next {α : Type} (act : Run α) (phase : α → Phase)
      (h : ∀ a, (phase a).isBody = false ∧ ∀ trip, phase a ≠ .ended (.ok (.stopped trip))) :
      (x.next act phase).rounds = x.rounds ∧ (x.next act phase).phase.isBody = false ∧
        ∀ trip, (x.next act phase).phase ≠ .ended (.ok (.stopped trip)) := by
    unfold Station.next
    rcases act.exec x.state with ⟨fault | a, s⟩
    · exact ⟨rfl, rfl, by simp⟩
    · exact ⟨rfl, h a⟩
  unfold step
  cases here : x.phase with
  | opening => exact next _ _ fun _ => by split <;> exact ⟨rfl, by simp⟩
  | test => exact next _ _ fun _ => by split <;> exact ⟨rfl, by simp⟩
  | body => exact next _ _ fun _ => by split <;> exact ⟨rfl, by simp⟩
  | update => exact next _ _ fun _ => ⟨rfl, by simp⟩
  | guard =>
    rw [here] at part
    cases part
  | ended =>
    rw [here] at running
    cases running

/-- What the guard does: it stops the loop that has had all its rounds, stops it for another reason, or lets a round
begin, and then the recorder has room. -/
theorem step_guard (l : Loop) (rounds : Nat) (s : State) :
    (l.limit ≤ rounds ∧ l.step ⟨.guard, rounds, s⟩ = ⟨.ended (.ok (.stopped .iterations)), rounds, s⟩) ∨
    (rounds < l.limit ∧ ∃ trip, trip ≠ .iterations ∧
      l.step ⟨.guard, rounds, s⟩ = ⟨.ended (.ok (.stopped trip)), rounds, (readClock.exec s).2⟩) ∨
    (rounds < l.limit ∧ s.recorder.isFull l.config = false ∧
      l.step ⟨.guard, rounds, s⟩ = ⟨.body, rounds + 1, (countRound.exec (readClock.exec s).2).2⟩) := by
  by_cases room : rounds < l.limit
  · have asked := exec_overrun l.config l.start s
    by_cases late : Binary64.exceeds ((s.clock.reading s.clock.used s.clock.now - l.start) * 1000)
        l.config.timeoutMs.count = true
    · rw [if_pos late] at asked
      exact .inr (.inl ⟨room, .timeout, by decide, by simp only [step, ask_eq room, asked]⟩)
    rw [if_neg late] at asked
    by_cases full : s.recorder.isFull l.config = true
    · rw [if_pos full] at asked
      exact .inr (.inl ⟨room, .steps, by decide, by simp only [step, ask_eq room, asked]⟩)
    · rw [if_neg full] at asked
      exact .inr (.inr ⟨room, by simpa using full, by simp only [step, ask_eq room, asked]⟩)
  · have refused : (l.ask rounds).exec s = (.ok (some .iterations), s) := by
      rw [ask, guardCheck, if_pos (by omega)]
      rfl
    exact .inl ⟨by omega, by simp only [step, refused]⟩

/-- A round is begun with its body, and never beyond the limit. -/
theorem step_rounds (l : Loop) (running : x.phase.isOver = false) :
    (l.step x).rounds = x.rounds + (if (l.step x).phase.isBody then 1 else 0) ∧
      (x.rounds ≤ l.limit → (l.step x).rounds ≤ l.limit) := by
  cases here : x.phase.isGuard with
  | false =>
    obtain ⟨same, idle, -⟩ := step_part (l := l) running here
    simp [same, idle]
  | true =>
    obtain ⟨phase, rounds, s⟩ := x
    obtain rfl := Phase.eq_guard here
    obtain ⟨_, e⟩ | ⟨_, trip, -, e⟩ | ⟨room, -, e⟩ := l.step_guard rounds s <;> rw [e]
    · exact ⟨rfl, id⟩
    · exact ⟨rfl, id⟩
    · exact ⟨rfl, fun _ => room⟩

/-- The guard counts the round that it lets begin, and nothing else. -/
theorem counts_guard (l : Loop) (h : x.phase.isGuard = true) :
    (l.step x).state.counts.rounds + x.rounds = x.state.counts.rounds + (l.step x).rounds ∧ l.gained x = 0 := by
  obtain ⟨phase, rounds, s⟩ := x
  obtain rfl := Phase.eq_guard h
  unfold gained
  obtain ⟨_, e⟩ | ⟨_, trip, -, e⟩ | ⟨room, -, e⟩ := l.step_guard rounds s <;> rw [e]
  · exact ⟨rfl, Int.sub_self _⟩
  · exact ⟨rfl, Int.sub_self _⟩
  · refine ⟨?_, Int.sub_self _⟩
    show s.counts.rounds + 1 + rounds = s.counts.rounds + (rounds + 1)
    omega

/-- A body begins only while the recorder has room. -/
theorem step_room (l : Loop) (running : x.phase.isOver = false) (begins : (l.step x).phase.isBody = true) :
    (l.step x).state.recorder.isFull l.config = false := by
  cases here : x.phase.isGuard with
  | false =>
    rw [(step_part running here).2.1] at begins
    cases begins
  | true =>
    obtain ⟨phase, rounds, s⟩ := x
    obtain rfl := Phase.eq_guard here
    obtain ⟨_, e⟩ | ⟨_, trip, -, e⟩ | ⟨_, room, e⟩ := l.step_guard rounds s <;> rw [e] at begins ⊢
    · cases begins
    · cases begins
    · exact room

/-! ## Whole trails -/

namespace Trail

variable {trail : List Station} {how : Except Fault Ending} {rounds : Nat}

/-- Each round that has begun has started the body once. -/
theorem bodies (h : l.Trail x trail how rounds t) :
    trail.countP (·.phase.isBody) + x.rounds = rounds + if x.phase.isBody then 1 else 0 := by
  induction h with
  | ended how rounds s => simp [Phase.isBody]
  | step running rest ih =>
    have begun := (l.step_rounds running).1
    rw [List.countP_cons]
    omega

theorem rounds_le (h : l.Trail x trail how rounds t) (hx : x.rounds ≤ l.limit) : rounds ≤ l.limit := by
  induction h with
  | ended => exact hx
  | step running rest ih => exact ih ((l.step_rounds running).2 hx)

/-- Until a loop is left, only parts other than its guard add to the iterations. -/
theorem iterations (h : l.Trail x trail how rounds t) : (t.counts.iterations : Int) =
    x.state.counts.iterations + ((trail.filter (!·.phase.isGuard)).map l.gained).sum := by
  induction h with
  | ended => simp
  | @step x trail how rounds t running rest ih =>
    have step : l.gained x = (l.step x).state.counts.iterations - x.state.counts.iterations := rfl
    rw [List.filter_cons]
    cases here : x.phase.isGuard with
    | true =>
      have none := (l.counts_guard here).2
      simp only [Bool.not_true, Bool.false_eq_true, if_false]
      omega
    | false =>
      simp only [Bool.not_false, if_true, List.map_cons, List.sum_cons]
      omega

/-- The limit stops a loop where one more round was to begin, and nowhere else. -/
theorem stopped_iff (h : l.Trail x trail how rounds t) (hx : x.rounds ≤ l.limit)
    (fresh : x.phase ≠ .ended (.ok (.stopped .iterations))) :
    how = .ok (.stopped .iterations) ↔ ∃ y ∈ trail, y.phase = .guard ∧ y.rounds = l.limit := by
  induction h with
  | ended how rounds s => simpa using fun e => fresh (by rw [e])
  | @step x trail how rounds t running rest ih =>
    have next := (l.step_rounds running).2 hx
    cases here : x.phase.isGuard with
    | false =>
      have elsewhere : x.phase ≠ .guard := fun e => by rw [e] at here; cases here
      rw [ih next ((step_part running here).2.2 _)]
      simp [elsewhere]
    | true =>
      obtain ⟨phase, begun, s⟩ := x
      obtain rfl := Phase.eq_guard here
      obtain ⟨out, e⟩ | ⟨room, trip, other, e⟩ | ⟨room, -, e⟩ := l.step_guard begun s <;> rw [e] at rest ih next
      · cases rest with
        | ended => simpa using Nat.le_antisymm hx out
        | step going => cases going
      · have below : begun ≠ l.limit := by omega
        rw [ih next (by simpa using other)]
        simp [below]
      · have below : begun ≠ l.limit := by omega
        rw [ih next (by simp)]
        simp [below]

/-- A loop whose test turns false ends by itself. -/
theorem finished_of_test (h : l.Trail x trail how rounds t) {y : Station} (hy : y ∈ trail) (here : y.phase = .test)
    (fails : (l.test.exec y.state).1 = .ok false) : how = .ok (.finished .normal) := by
  induction h with
  | ended => cases hy
  | @step x trail how rounds t running rest ih =>
    rcases List.mem_cons.1 hy with rfl | hy
    · have last : (l.step y).phase = .ended (.ok (.finished .normal)) := by
        rcases he : l.test.exec y.state with ⟨outcome, u⟩
        rw [he] at fails
        simp only at fails
        subst fails
        simp [Loop.step, here, Station.next, he]
      generalize l.step y = z at rest last
      cases rest with
      | ended => simpa using last
      | step going =>
        rw [last] at going
        cases going
    · exact ih hy

end Trail

end Loop

/-! ## The recorder only grows -/

section Growth

variable {P : Site → Prop} {cfg : Config} {src : Source} {ctx : Context} {p : Scope} {s t : State} {o : Option Fault}

theorem Recorder.size_le_add (cfg : Config) (src : Source) (e : Entry) (r : Recorder) :
    r.steps.size ≤ (r.add cfg src e).1.steps.size := by
  obtain ⟨previous, last, -, added⟩ | ⟨-, -, added⟩ | ⟨-, -, added⟩ := r.add_cases cfg src e
  · have some : 0 < r.steps.size := by
      by_contra none
      have empty : r.steps = #[] := Array.eq_empty_of_size_eq_zero (by omega)
      rw [empty] at last
      cases last
    simp only [added, Array.size_push, Array.size_pop]
    omega
  · simp only [added, Recorder.grown_steps, Array.size_push]
    omega
  · simp only [added, Nat.le_refl]

theorem State.size_le_noted (e : Event) (s : State) :
    s.recorder.steps.size ≤ (s.noted cfg src e).recorder.steps.size := by
  unfold State.noted
  split
  · exact Nat.le_refl _
  · exact Recorder.size_le_add _ _ _ _

theorem State.size_le_notedOutput (e : Event) (s : State) :
    s.recorder.steps.size ≤ (s.notedOutput cfg src e).recorder.steps.size :=
  State.size_le_noted _ { s with pending := [] }

theorem Course.size_le (h : Course P cfg src p s o t) : s.recorder.steps.size ≤ t.recorder.steps.size := by
  induction h with
  | refl | operate | define | print | refuse | tick | tally | stray => exact Nat.le_refl _
  | trans _ _ first second => exact Nat.le_trans first second
  | note e => exact State.size_le_noted e _
  | noteOutput e => exact State.size_le_notedOutput e _
  | contain _ _ _ ih | recover _ _ _ ih | within _ _ _ _ ih | loop _ ih | label _ _ ih => exact ih
  | @call p s t name shown message r line routine site body ih =>
    calc s.recorder.steps.size
      _ ≤ (s.noted cfg src (.called name shown line)).recorder.steps.size := State.size_le_noted _ s
      _ ≤ t.recorder.steps.size := ih
      _ ≤ (t.notedOutput cfg src (.returned message r.span.last)).recorder.steps.size := State.size_le_notedOutput _ t
      _ ≤ _ := State.size_le_noted _ (State.leaveFrame _ _)
  | @cutCall p s t name shown r line fault routine site body ih =>
    calc s.recorder.steps.size
      _ ≤ (s.noted cfg src (.called name shown line)).recorder.steps.size := State.size_le_noted _ s
      _ ≤ t.recorder.steps.size := ih
      _ ≤ _ := State.size_le_noted _ (State.leaveFrame _ _)

theorem Follows.size_le {α : Type} {x : Run α} (h : Follows (fun _ => True) ctx p x) (s : State) :
    s.recorder.steps.size ≤ (x.exec s).2.recorder.steps.size :=
  (h s fun _ _ _ _ => trivial).size_le

theorem Recorder.isFull_mono {r r' : Recorder} (h : r.steps.size ≤ r'.steps.size) (full : r.isFull cfg = true) :
    r'.isFull cfg = true := by
  simp only [Recorder.isFull, decide_eq_true_eq] at full ⊢
  omega

end Growth

namespace Loop

/-- Whether all parts of a loop but its guard take a state to one that is related to it. -/
structure Each (l : Loop) (R : State → State → Prop) : Prop where
  opening : ∀ s, R s (l.opening.exec s).2
  test : ∀ s, R s (l.test.exec s).2
  body : ∀ s, R s (l.body.exec s).2
  after : ∀ sent s, R s ((l.after sent).exec s).2

/-- Whether no part of a loop takes steps away from the recorder. -/
abbrev Grows (l : Loop) : Prop :=
  l.Each fun s t => s.recorder.steps.size ≤ t.recorder.steps.size

/-- Whether no part of a loop but its guard touches what the guard has counted. -/
abbrev Spares (l : Loop) : Prop :=
  l.Each fun s t => t.counts.rounds = s.counts.rounds

variable {l : Loop} {x : Station} {trail : List Station} {how : Except Fault Ending} {rounds : Nat} {t : State}

theorem Each.step {R : State → State → Prop} (h : l.Each R) (running : x.phase.isOver = false)
    (part : x.phase.isGuard = false) : R x.state (l.step x).state := by
  have next {α : Type} {act : Run α} (phase : α → Phase) (h : ∀ s, R s (act.exec s).2) :
      R x.state (x.next act phase).state := by
    rw [Station.next_state]
    exact h x.state
  obtain ⟨phase, rounds, s⟩ := x
  cases phase with
  | opening => exact next _ h.opening
  | test => exact next _ h.test
  | body => exact next _ h.body
  | update sent => exact next _ (h.after sent)
  | guard => cases part
  | ended => cases running

theorem Grows.step (h : l.Grows) (running : x.phase.isOver = false) :
    x.state.recorder.steps.size ≤ (l.step x).state.recorder.steps.size := by
  cases here : x.phase.isGuard with
  | false => exact Each.step h running here
  | true =>
    obtain ⟨phase, rounds, s⟩ := x
    obtain rfl := Phase.eq_guard here
    obtain ⟨_, e⟩ | ⟨_, trip, -, e⟩ | ⟨_, -, e⟩ := l.step_guard rounds s <;> rw [e] <;> exact Nat.le_refl _

namespace Trail

/-- The guard has counted the rounds that have begun. -/
theorem counted (h : l.Trail x trail how rounds t) (spares : l.Spares) :
    t.counts.rounds + x.rounds = x.state.counts.rounds + rounds := by
  induction h with
  | ended => rfl
  | @step x trail how rounds t running rest ih =>
    cases here : x.phase.isGuard with
    | true =>
      have begun := (l.counts_guard here).1
      omega
    | false =>
      have same := (step_part (l := l) running here).1
      have spared : (l.step x).state.counts.rounds = x.state.counts.rounds := Each.step spares running here
      omega

theorem size_le (h : l.Trail x trail how rounds t) (grows : l.Grows) :
    (∀ y ∈ trail, x.state.recorder.steps.size ≤ y.state.recorder.steps.size) ∧
      trail.Pairwise fun y z => y.state.recorder.steps.size ≤ z.state.recorder.steps.size := by
  induction h with
  | ended => exact ⟨List.forall_mem_nil _, .nil⟩
  | @step x trail how rounds t running rest ih =>
    have later (y : Station) (hy : y ∈ trail) : x.state.recorder.steps.size ≤ y.state.recorder.steps.size :=
      Nat.le_trans (grows.step running) (ih.1 y hy)
    exact ⟨List.forall_mem_cons.2 ⟨Nat.le_refl _, later⟩, .cons later ih.2⟩

/-- A body that starts finds room in the recorder. -/
theorem room_at_body (h : l.Trail x trail how rounds t)
    (hx : x.phase.isBody = true → x.state.recorder.isFull l.config = false) :
    ∀ y ∈ trail, y.phase.isBody = true → y.state.recorder.isFull l.config = false := by
  induction h with
  | ended => exact List.forall_mem_nil _
  | step running rest ih => exact List.forall_mem_cons.2 ⟨hx, ih (l.step_room running)⟩

/-- Once the recorder is full, no body is started. -/
theorem no_body_after_full (h : l.Trail x trail how rounds t) (grows : l.Grows) (hx : x.phase.isBody = false) :
    (x.state.recorder.isFull l.config = true → ∀ y ∈ trail, y.phase.isBody = false) ∧
      trail.Pairwise fun y z => y.state.recorder.isFull l.config = true → z.phase.isBody = false := by
  have room := h.room_at_body fun begins => by rw [hx] at begins; cases begins
  have none {s : State} {z : Station} (hz : z ∈ trail) (le : s.recorder.steps.size ≤ z.state.recorder.steps.size)
      (full : s.recorder.isFull l.config = true) : z.phase.isBody = false := by
    by_contra begins
    have free := room z hz (by simpa using begins)
    rw [Recorder.isFull_mono le full] at free
    cases free
  obtain ⟨fromStart, between⟩ := h.size_le grows
  exact ⟨fun full y hy => none hy (fromStart y hy) full, between.imp_of_mem fun _ hz le => none hz le⟩

end Trail

end Loop

/-! ## Loops and calls inside a loop -/

/-- A run leaves what the guard of the loop around it has counted; the second run is not asked. -/
def sparing : Coupling where
  rel x _ := ∀ s, (x.exec s).2.counts.rounds = s.counts.rounds
  faults _ := True
  violations _ _ := trivial
  done _ _ _ := rfl
  follow hx h s := (h _ (fun _ _ => trivial) _).trans (hx s)

theorem sparing_update {α : Type} {g : State → α × State}
    (kept : ∀ s, (g s).2.counts.rounds = s.counts.rounds := by intro; rfl) : sparing.rel (modifyGet g) (modifyGet g) :=
  kept

section Sparing

variable {cfg : Config} {src : Source} {last : Caller} {n : Nat}

theorem sparing_records : sparing.Records (.within cfg src last n) (.within cfg src last n) where
  strangers := rfl
  op _ _ := rfl
  print _ _ := rfl
  note e s := by rw [Context.exec_note, noted_counts]

theorem sparing_moves : sparing.Moves (.within cfg src last n) (.within cfg src last n) where
  toRecords := sparing_records
  maxCallDepth := rfl
  maxLoopDepth := rfl
  get h s := h s s rfl s
  within _ _ := fun hx s => hx _
  labeled _ := fun hx => sparing.bind (fun s => hx (s.pushLabel _)) fun _ => sparing.pure _
  countStatement := sparing_update
  countFailure := sparing_update
  readClock := sparing_update
  refuse _ _ := sparing_update
  message _ := rfl
  countTrip := sparing_update

/-- Whatever goes on in a loop, it is left with the count that it was entered with. -/
theorem sparing_runLoop (span : Span) (go go' : Float → Run (Ending × Nat)) :
    sparing.rel (runLoop (.within cfg src last n) span go) (runLoop (.within cfg src last n) span go') :=
  sparing_moves.runLoop span fun _ _ => rfl

theorem sparing_executes (calls : sparing.Calls (callWithin cfg src last n) (callWithin cfg src last n)) :
    sparing.Executes (.within cfg src last n) (.within cfg src last n) :=
  have moves : sparing.Moves (.within cfg src last n) (.within cfg src last n) := sparing_moves
  { moves.evaluates calls, moves with
    loopTestFirst := fun span _ => fun _ _ _ _ => sparing_runLoop span _ _
    loopBodyFirst := fun span _ => fun _ _ => sparing_runLoop span _ _ }

theorem spares_within (cfg : Config) (src : Source) (n : Nat) :
    sparing.Executes (.within cfg src .idle n) (.within cfg src .idle n) :=
  sparing.executes_within (fun _ _ _ _ _ => rfl) (fun _ _ _ _ => sparing.pure _) sparing_executes n

end Sparing

/-! ## Loop statements -/

/-- A statement as a loop that is entered at a reading of the clock. -/
def Stmt.loop (ctx : Context) (label : Option Text) (start : Float) (stmt : Stmt) : Loop :=
  let loop (opening : Run Unit) (testsFirst : Bool) (test : Run Bool) (after : Signal → Run Unit) : Loop :=
    ⟨⟨ctx.config, label, start, test, stmt.round ctx, after⟩, opening, testsFirst⟩
  match stmt with
  | .forLoop span opening test update _ _ =>
    loop (runOpening ctx span.first opening) true (runClauseTest ctx span.first test) (runUpdate ctx span.first update)
  | .whileLoop span test _ _ => loop (pure ()) true (runTest ctx span.first test) fun _ => pure ()
  | .doLoop _ line test _ _ => loop (pure ()) false (runTest ctx line test) fun _ => pure ()
  | _ => loop (pure ()) true (pure false) fun _ => pure ()

/-- What a loop reports when its guard stops it. -/
def reportTrip (ctx : Context) (span : Span) (rounds : Nat) (trip : Trip) : Run Unit := do
  noteTrip ctx span.first trip
  recordCompletion ctx span rounds (some trip)

/-- How a loop statement ends when it has been left. -/
def closeLoop (ctx : Context) (span : Span) (rounds : Nat) (how : Except Fault Ending) (t : State) :
    Except Fault Signal × State :=
  match how with
  | .ok (.finished sent) => (.ok sent, ((recordCompletion ctx span rounds none).exec t).2)
  | .ok (.stopped trip) => (.ok .normal, ((reportTrip ctx span rounds trip).exec t).2)
  | .error fault => (.error fault, t)

section Statements

variable {ctx : Context} {stmt : Stmt} {s t : State} {label : Option Text}

theorem recordCompletion_counts (span : Span) (rounds : Nat) (trip : Option Trip) (s : State) :
    ((recordCompletion ctx span rounds trip).exec s).2.counts = s.counts := by
  obtain ⟨u, he, same⟩ := recordCompletion_exec ctx span rounds trip s
  rw [he]
  exact same

theorem reportTrip_iterations (span : Span) (rounds : Nat) (trip : Trip) (s : State) :
    ((reportTrip ctx span rounds trip).exec s).2.counts.iterations = s.counts.iterations := by
  obtain ⟨u, he, counts⟩ := noteTrip_exec ctx span.first trip s
  rw [reportTrip, exec_bind_ok he, recordCompletion_counts, counts]

theorem closeLoop_iterations (span : Span) (rounds : Nat) (how : Except Fault Ending) (t : State) :
    (closeLoop ctx span rounds how t).2.counts.iterations = t.counts.iterations := by
  rcases how with fault | sent | trip
  · rfl
  · exact congrArg Counts.iterations (recordCompletion_counts span rounds none t)
  · exact reportTrip_iterations span rounds trip t

variable {go : Float → Run (Ending × Nat)}

theorem reportTrip_ok (span : Span) (rounds : Nat) (trip : Trip) (s : State) :
    (reportTrip ctx span rounds trip).exec s = (.ok (), ((reportTrip ctx span rounds trip).exec s).2) := by
  obtain ⟨u, he, -⟩ := noteTrip_exec ctx span.first trip s
  obtain ⟨v, completed, -⟩ := recordCompletion_exec ctx span rounds (some trip) u
  rw [reportTrip, exec_bind_ok he, completed]

/-- A loop that is nested too deeply is reported, and that is all. -/
theorem exec_runLoop_tooDeep (span : Span) (deep : (ctx.config.maxLoopDepth.count : Int) ≤ s.loopDepth) :
    (runLoop ctx span go).exec s = (.ok .normal, ((reportTrip ctx span 0 .depth).exec (readClock.exec s).2).2) := by
  have clock : readClock.exec s = (.ok s.loopStart.1, (readClock.exec s).2) := rfl
  have depth : (readClock.exec s).2.loopDepth = s.loopDepth := rfl
  rw [runLoop, exec_bind_ok clock, exec_bind_ok exec_get, if_pos (by rw [depth]; exact deep), ← exec_bind_assoc]
  exact exec_bind_ok (reportTrip_ok span 0 .depth _)

theorem exec_runLoop (span : Span) (room : s.loopDepth < ctx.config.maxLoopDepth.count) {how : Except Fault Ending}
    {rounds : Nat} (goes : (go s.loopStart.1).exec s.loopStart.2 = (how.map (·, rounds), t)) :
    (runLoop ctx span go).exec s = closeLoop ctx span rounds how (s.leaveLoop t) := by
  have clock : readClock.exec s = (.ok s.loopStart.1, (readClock.exec s).2) := rfl
  have depth : (readClock.exec s).2.loopDepth = s.loopDepth := rfl
  have inside : (bracket State.enterLoop (go s.loopStart.1) State.leaveLoop).exec (readClock.exec s).2 =
      (how.map (·, rounds), s.leaveLoop t) := by
    rw [exec_bracket]
    show (((go s.loopStart.1).exec s.loopStart.2).1, s.leaveLoop ((go s.loopStart.1).exec s.loopStart.2).2) = _
    rw [goes]
  rw [runLoop, exec_bind_ok clock, exec_bind_ok exec_get, if_neg (by rw [depth]; omega)]
  rcases how with fault | sent | trip
  · exact exec_bind_error inside
  · rw [exec_bind_ok inside]
    obtain ⟨u, completed, -⟩ := recordCompletion_exec ctx span rounds none (s.leaveLoop t)
    rw [closeLoop, completed]
    exact exec_bind_ok completed
  · rw [exec_bind_ok inside, closeLoop]
    show (noteTrip ctx span.first trip >>= fun _ => recordCompletion ctx span rounds (some trip) >>= fun _ =>
      pure Signal.normal).exec (s.leaveLoop t) = _
    rw [← exec_bind_assoc]
    exact exec_bind_ok (reportTrip_ok span rounds trip (s.leaveLoop t))

/-- A loop statement closes what the machine of its loop does. -/
theorem Stmt.run_closes (ctx : Context) (label : Option Text) (loop : stmt.isLoop)
    (room : s.loopDepth < ctx.config.maxLoopDepth.count) :
    ∃ trail how rounds t,
      (stmt.loop ctx label s.loopStart.1).Trail ⟨.opening, 0, s.loopStart.2⟩ trail how rounds t ∧
      (stmt.run ctx label).exec s = closeLoop ctx stmt.span rounds how (s.leaveLoop t) := by
  have idle : (stmt.loop ctx label s.loopStart.1).testsFirst = false →
      ∀ sent, (stmt.loop ctx label s.loopStart.1).after sent = pure () := by
    cases stmt with
    | doLoop => exact fun _ _ => rfl
    | forLoop => exact fun first => by cases first
    | _ => simp [Stmt.isLoop, Stmt.loop] at loop ⊢
  obtain ⟨trail, how, rounds, t, passed, goes⟩ := Loop.does_go _ idle s.loopStart.2
  refine ⟨trail, how, rounds, t, passed, ?_⟩
  cases stmt with
  | forLoop | whileLoop =>
    rw [Stmt.run]
    exact exec_runLoop _ room goes
  | doLoop =>
    rw [Loop.go, exec_bind_ok rfl] at goes
    rw [Stmt.run]
    exact exec_runLoop _ room goes
  | _ => simp [Stmt.isLoop] at loop

theorem Stmt.run_tooDeep (loop : stmt.isLoop) (deep : (ctx.config.maxLoopDepth.count : Int) ≤ s.loopDepth) :
    (stmt.run ctx label).exec s =
      (.ok .normal, ((reportTrip ctx stmt.span 0 .depth).exec (readClock.exec s).2).2) := by
  cases stmt with
  | forLoop | whileLoop | doLoop =>
    rw [Stmt.run]
    exact exec_runLoop_tooDeep _ deep
  | _ => simp [Stmt.isLoop] at loop

theorem Stmt.loop_config (ctx : Context) (label : Option Text) (start : Float) (stmt : Stmt) :
    (stmt.loop ctx label start).config = ctx.config := by
  cases stmt <;> rfl

theorem Stmt.loop_grows (h : ctx.Governed fun _ => True) (label : Option Text) (start : Float) (stmt : Stmt) :
    (stmt.loop ctx label start).Grows := by
  have same {α : Type} (a : α) (s : State) :
      s.recorder.steps.size ≤ ((pure a : Run α).exec s).2.recorder.steps.size := Nat.le_refl _
  have body := (Stmt.round_follows (p := []) h stmt).size_le
  have test (line : Nat) (test : Expr) (s : State) :
      s.recorder.steps.size ≤ ((runTest ctx line test).exec s).2.recorder.steps.size :=
    (h.runTest (p := []) trivial fun _ _ => trivial).size_le s
  cases stmt with
  | forLoop span opening clause update bodySpan inner =>
    exact ⟨(h.runOpening (p := []) trivial fun _ _ => trivial).size_le,
      (h.runClauseTest (p := []) trivial fun _ _ => trivial).size_le, body,
      fun sent => (h.runUpdate (p := []) trivial (fun _ _ => trivial) sent).size_le⟩
  | whileLoop | doLoop => exact ⟨same (), test _ _, body, fun _ => same ()⟩
  | _ => exact ⟨same (), same false, body, fun _ => same ()⟩

theorem Stmt.loop_spares (h : sparing.Executes ctx ctx) (label : Option Text) (start : Float) (stmt : Stmt) :
    (stmt.loop ctx label start).Spares := by
  have body (kind : BlockKind) (span : Span) (body : Stmt) : sparing.rel
      (within kind span (executeBody ctx body (body.run ctx none))) _ :=
    h.within kind span (h.executeBody body (h.run none body))
  cases stmt with
  | forLoop span opening test update bodySpan inner =>
    exact ⟨h.runOpening _ _, h.runClauseTest _ _, body _ _ _, h.runUpdate _ _⟩
  | whileLoop | doLoop => exact ⟨sparing.pure (), h.runTest _ _, body _ _ _, fun _ => sparing.pure ()⟩
  | _ => exact ⟨sparing.pure (), sparing.pure false, sparing.pure Signal.normal, fun _ => sparing.pure ()⟩

end Statements

/-- In every context of a run, for every loop statement, label and state. A loop that is nested too deeply goes no round
and adds none. Any other passes a trail of stations, at whose end it reports its rounds: it has started its body once
in each, no more than the limit allows, and its guard has counted that number, which is added to the iterations,
whatever the parts of the loop have added for the loops in them. The limit stops it exactly if its guard was asked for
one round more; a test that turns false ends it otherwise. A full recorder stays full, and after that no body is
started. -/
theorem loop_rounds_counted (cfg : Config) (src : Source) (n : Nat) (stmt : Stmt) (loop : stmt.isLoop)
    (label : Option Text) (s : State) :
    let ctx := Context.within cfg src .idle n
    let run := (stmt.run ctx label).exec s
    ((cfg.maxLoopDepth.count : Int) ≤ s.loopDepth →
      run = (.ok .normal, ((reportTrip ctx stmt.span 0 .depth).exec (readClock.exec s).2).2) ∧
      run.2.counts.iterations = s.counts.iterations) ∧
    (s.loopDepth < cfg.maxLoopDepth.count →
      let l := stmt.loop ctx label s.loopStart.1
      ∃ trail how rounds t, l.Trail ⟨.opening, 0, s.loopStart.2⟩ trail how rounds t ∧
        run = closeLoop ctx stmt.span rounds how (s.leaveLoop t) ∧
        trail.countP (·.phase.isBody) = rounds ∧
        t.counts.rounds = rounds ∧
        rounds ≤ cfg.maxIterations.count ∧
        (run.2.counts.iterations : Int) =
          s.counts.iterations + rounds + ((trail.filter (!·.phase.isGuard)).map l.gained).sum ∧
        (how = .ok (.stopped .iterations) ↔ ∃ y ∈ trail, y.phase = .guard ∧ y.rounds = cfg.maxIterations.count) ∧
        (∀ y ∈ trail, y.phase = .test → (l.test.exec y.state).1 = .ok false → how = .ok (.finished .normal)) ∧
        (s.recorder.isFull cfg = true → ∀ y ∈ trail, y.phase.isBody = false) ∧
        trail.Pairwise fun y z => y.state.recorder.isFull cfg = true → z.phase.isBody = false) ∧
    (s.recorder.isFull cfg = true → run.2.recorder.isFull cfg = true) := by
  intro ctx run
  have h : ctx.Governed fun _ => True := governed_within _ cfg src n
  refine ⟨fun deep => ?_, fun room => ?_, ?_⟩
  · have closes : run = _ := Stmt.run_tooDeep loop deep
    exact ⟨closes, by rw [closes]; exact reportTrip_iterations stmt.span 0 .depth (readClock.exec s).2⟩
  · obtain ⟨trail, how, rounds, t, passed, closes⟩ := Stmt.run_closes ctx label loop room
    have config : (stmt.loop ctx label s.loopStart.1).config = cfg := Stmt.loop_config ..
    have limit : (stmt.loop ctx label s.loopStart.1).limit = cfg.maxIterations.count := by rw [Loop.limit, config]
    have full := passed.no_body_after_full (Stmt.loop_grows h label _ stmt) rfl
    rw [config] at full
    have counted : t.counts.rounds = rounds := by
      have counted := passed.counted (Stmt.loop_spares (spares_within cfg src n) label _ stmt)
      rwa [Nat.add_zero, show s.loopStart.2.counts.rounds = 0 from rfl, Nat.zero_add] at counted
    refine ⟨trail, how, rounds, t, passed, closes, ?_, counted, ?_, ?_, ?_, ?_, full⟩
    · simpa [Phase.isBody] using passed.bodies
    · exact limit ▸ passed.rounds_le (Nat.zero_le _)
    · have inside : (t.counts.iterations : Int) = s.counts.iterations + _ := passed.iterations
      have left : (s.leaveLoop t).counts.iterations = t.counts.iterations + t.counts.rounds := rfl
      rw [show run = _ from closes, closeLoop_iterations, left, counted]
      omega
    · exact limit ▸ passed.stopped_iff (Nat.zero_le _) Phase.noConfusion
    · exact fun y hy here fails => passed.finished_of_test hy here fails
  · exact Recorder.isFull_mono ((h.run label stmt fun _ _ => trivial : Follows _ ctx [] _).size_le s)

/-- A loop that only a guard can stop. -/
def endless : Stmt :=
  .doLoop ⟨1, 1⟩ 1 (.bool true) ⟨1, 1⟩ (.block ⟨1, 1⟩ [])

theorem loop_rounds_counted_endless :
    let ctx := Context.within { maxIterations := 2 } ⟨.empty⟩ .idle 0
    let s := State.start (.ticking 0)
    let run := (endless.run ctx none).exec s
    endless.isLoop = true ∧ run.2.counts.iterations = 2 ∧ run.2.counts.trips = 1 ∧
      ∃ trail how rounds t,
        (endless.loop ctx none s.loopStart.1).Trail ⟨.opening, 0, s.loopStart.2⟩ trail how rounds t ∧
        run = closeLoop ctx endless.span rounds how (s.leaveLoop t) ∧
        trail.countP (·.phase.isBody) = rounds ∧ rounds ≤ 2 := by
  intro ctx s run
  refine ⟨rfl, by decide +kernel, by decide +kernel, ?_⟩
  obtain ⟨-, loops, -⟩ := loop_rounds_counted { maxIterations := 2 } ⟨.empty⟩ 0 endless rfl none s
  obtain ⟨trail, how, rounds, t, passed, closes, bodies, -, most, -⟩ := loops (by decide)
  exact ⟨trail, how, rounds, t, passed, closes, bodies, most⟩

end ScriptTrace
