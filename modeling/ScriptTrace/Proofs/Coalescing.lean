import Mathlib.Data.List.SplitBy
import ScriptTrace.Proofs.Coupling
/-!
# Coalescing is observation only

Two runs of one program that differ only in whether the recorder coalesces go through the same states
but for their recorders, as long as the run that coalesces nothing has room for all its steps. The
recorder that coalesces then shows, of each run of equal views in the other one, the last.

The **view** of a step is its line with its variables: what decides whether a step is superseded.
`collapse` keeps the last of each maximal run of equal views.

* `Coalesced.add`: the two recorders stay in step when they are given the same entry.
* `coalescing_observes_only`: so do the two runs of a program.
-/
namespace ScriptTrace

open Act Op Run

/-! ## Collapsed lists -/

/-- The last elements of the maximal runs of neighbours that are the same. -/
def collapse {α : Type} (same : α → α → Bool) (l : List α) : List α :=
  (l.splitBy same).filterMap List.getLast?

section Collapse

variable {α : Type} {same : α → α → Bool} {l : List α} {u v : α}

theorem collapse_concat_of_not (h : ∀ u ∈ l.getLast?, same u v = false) :
    collapse same (l ++ [v]) = collapse same l ++ [v] := by
  unfold collapse
  rw [List.splitBy_append_cons [] h, List.filterMap_append]
  rfl

/-- The last run ends with the last element. -/
theorem splitBy_eq_concat (same : α → α → Bool) (hu : l.getLast? = some u) :
    ∃ runs run, l.splitBy same = runs ++ [run] ∧ run.getLast? = some u := by
  rcases List.eq_nil_or_concat' (l.splitBy same) with hn | ⟨runs, run, hs⟩
  · rw [List.splitBy_eq_nil.mp hn] at hu
    cases hu
  · refine ⟨runs, run, hs, ?_⟩
    have hl := List.flatten_splitBy same l
    have hrun : run ≠ [] := List.ne_nil_of_mem_splitBy (by rw [hs]; simp)
    rw [hs, List.flatten_append, List.flatten_singleton] at hl
    rw [← hu, ← hl, List.getLast?_append_of_ne_nil _ hrun]

/-- An element that is the same as the last one joins its run. -/
theorem splitBy_concat_of_same {runs : List (List α)} {run : List α}
    (hs : l.splitBy same = runs ++ [run]) (hu : run.getLast? = some u) (h : same u v = true) :
    (l ++ [v]).splitBy same = runs ++ [run ++ [v]] := by
  obtain ⟨hl, nonempty, chains, breaks⟩ := List.splitBy_eq_iff.mp hs
  rw [List.splitBy_eq_iff]
  refine ⟨by simp [hl], by simp_all, ?_, ?_⟩
  · intro m hm
    rcases List.mem_append.mp hm with hm | hm
    · exact chains m (List.mem_append_left _ hm)
    · rw [List.mem_singleton.mp hm]
      refine List.IsChain.append (chains run (by simp)) (List.isChain_singleton v) ?_
      simp [hu, h]
  · -- the last run grows at its end only, so the one before it still differs from its first element
    rw [List.isChain_append] at breaks ⊢
    refine ⟨breaks.1, List.isChain_singleton _, ?_⟩
    simp only [List.head?_cons, Option.mem_some_iff, forall_eq'] at breaks ⊢
    intro before hb
    obtain ⟨hbefore, hrun, hbreak⟩ := breaks.2.2 before hb
    exact ⟨hbefore, by simp, by rwa [List.head_append_of_ne_nil hrun]⟩

theorem collapse_concat_of_same (hu : l.getLast? = some u) (h : same u v = true) :
    collapse same (l ++ [v]) = (collapse same l).dropLast ++ [v] := by
  obtain ⟨runs, run, hs, hrun⟩ := splitBy_eq_concat same hu
  unfold collapse
  rw [splitBy_concat_of_same hs hrun h, hs, List.filterMap_append, List.filterMap_append]
  simp [hrun]

theorem getLast?_collapse : (collapse same l).getLast? = l.getLast? := by
  cases hu : l.getLast? with
  | none =>
    rw [List.getLast?_eq_none_iff.mp hu]
    rfl
  | some u =>
    obtain ⟨runs, run, hs, hrun⟩ := splitBy_eq_concat same hu
    unfold collapse
    simp [hs, hrun]

theorem length_collapse_le (same : α → α → Bool) (l : List α) :
    (collapse same l).length ≤ l.length := by
  induction l using List.reverseRecOn with
  | nil => exact Nat.le_refl 0
  | append_singleton l v ih =>
    by_cases h : ∃ u, l.getLast? = some u ∧ same u v = true
    · obtain ⟨u, hu, h⟩ := h
      rw [collapse_concat_of_same hu h, List.length_append, List.length_append, List.length_dropLast]
      omega
    · have differs : ∀ u ∈ l.getLast?, same u v = false :=
        fun u hu => Bool.eq_false_iff.mpr fun hs => h ⟨u, hu, hs⟩
      rw [collapse_concat_of_not differs, List.length_append, List.length_append]
      omega

end Collapse

/-! ## Two recorders -/

/-- What decides whether a step is superseded. -/
def Step.view (s : Step) : Nat × List (Text × Plain) :=
  (s.line, s.vars)

/-- Equal lines with the same variables. -/
def sameView (a b : Nat × List (Text × Plain)) : Bool :=
  a.1 == b.1 && Plain.sameFields a.2 b.2

def Recorder.views (r : Recorder) : List (Nat × List (Text × Plain)) :=
  r.steps.toList.map Step.view

/-- The configuration with coalescing switched on or off. -/
def Config.coalescing (cfg : Config) (on : Bool) : Config :=
  { cfg with deduplicate := on }

variable {cfg : Config} {src : Source} {e : Entry} {r r' : Recorder}

theorem view_stepOf (captures : List Plain) :
    (Recorder.stepOf src e captures).view = (e.line, e.vars) := rfl

theorem view_merge (previous step : Step) : (Recorder.merge previous step).view = step.view := by
  unfold Recorder.merge
  split
  · rfl
  · split <;> rfl

theorem append_of_room {on : Bool} (h : r.steps.size < cfg.maxSteps.count) :
    r.append (cfg.coalescing on) src e =
      (r.grown src e, .kept (Recorder.stepOf src e e.captures)) := by
  have room : r.isFull (cfg.coalescing on) = false := decide_eq_false (Nat.not_le_of_lt h)
  simp only [Recorder.append, room, Bool.false_eq_true, if_false]

theorem add_of_off : r.add (cfg.coalescing false) src e = r.append (cfg.coalescing false) src e :=
  Recorder.add_of_off rfl src e r

/-- A recorder that coalesces nothing never has fewer steps. -/
theorem size_le_add_of_off : r.steps.size ≤ (r.add (cfg.coalescing false) src e).1.steps.size := by
  rw [add_of_off, Recorder.append]
  split
  · exact Nat.le_refl _
  · simp

theorem getLast?_views (r : Recorder) : r.views.getLast? = r.steps.back?.map Step.view := by
  rw [Recorder.views, List.getLast?_map, Array.getLast?_toList]

/-- A recorder that coalesces and has room keeps an entry: in place of the last view if that is the
same, else after it. -/
theorem add_of_on (src : Source) (e : Entry) (h : r.steps.size < cfg.maxSteps.count) :
    ∃ steps captures counted step,
      r.add (cfg.coalescing true) src e = (⟨steps, captures, r.truncated, counted⟩, .kept step) ∧
      ((∃ u, r.views.getLast? = some u ∧ sameView u (e.line, e.vars) = true ∧
          steps.toList.map Step.view = r.views.dropLast ++ [(e.line, e.vars)]) ∨
        (∀ u ∈ r.views.getLast?, sameView u (e.line, e.vars) = false) ∧
          steps.toList.map Step.view = r.views ++ [(e.line, e.vars)]) := by
  have appended : r.append (cfg.coalescing true) src e = _ := append_of_room h
  rw [getLast?_views]
  cases hb : r.steps.back? with
  | none =>
    simp only [Recorder.add, hb, appended]
    refine ⟨_, _, _, _, rfl, .inr ⟨nofun, ?_⟩⟩
    simp [Recorder.views, view_stepOf]
  | some previous =>
    by_cases hs : sameView previous.view (e.line, e.vars)
    · have supersedes : Recorder.supersedes (cfg.coalescing true) e previous = true := by
        simpa [Recorder.supersedes, Config.coalescing, sameView, Step.view] using hs
      simp only [Recorder.add, hb, if_pos supersedes]
      refine ⟨_, _, _, _, rfl, .inl ⟨previous.view, rfl, hs, ?_⟩⟩
      simp [Recorder.views, view_merge, view_stepOf, List.map_dropLast]
    · have appends : ¬Recorder.supersedes (cfg.coalescing true) e previous = true := by
        simpa [Recorder.supersedes, Config.coalescing, sameView, Step.view] using hs
      simp only [Recorder.add, hb, if_neg appends, appended]
      refine ⟨_, _, _, _, rfl, .inr ⟨?_, ?_⟩⟩
      · simpa using hs
      · simp [Recorder.views, view_stepOf]

/-- Nothing was dropped, and the second recorder shows the last of each run of equal views in the
first. -/
structure Coalesced (r r' : Recorder) : Prop where
  views : r'.views = collapse sameView r.views
  truncated : r.truncated = false
  truncated' : r'.truncated = false

theorem Coalesced.size_le (h : Coalesced r r') : r'.steps.size ≤ r.steps.size := by
  have := length_collapse_le sameView r.views
  rw [← h.views] at this
  simpa [Recorder.views] using this

/-- Where a recorder that coalesces nothing has room for an entry, both keep it, and they stay in
step. -/
theorem Coalesced.add (h : Coalesced r r')
    (room : (r.add (cfg.coalescing false) src e).1.steps.size < cfg.maxSteps.count) :
    Coalesced (r.add (cfg.coalescing false) src e).1 (r'.add (cfg.coalescing true) src e).1 ∧
      (∃ step, (r.add (cfg.coalescing false) src e).2 = .kept step) ∧
      ∃ step, (r'.add (cfg.coalescing true) src e).2 = .kept step := by
  have size : r.steps.size < cfg.maxSteps.count := Nat.lt_of_le_of_lt size_le_add_of_off room
  obtain ⟨steps, captures, counted, step, added, views⟩ :=
    add_of_on src e (Nat.lt_of_le_of_lt h.size_le size)
  rw [add_of_off, append_of_room size, added]
  have pushed : (r.grown src e).views = r.views ++ [(e.line, e.vars)] := by
    simp [Recorder.views, view_stepOf]
  refine ⟨⟨?_, h.truncated, h.truncated'⟩, ⟨_, rfl⟩, _, rfl⟩
  rw [pushed]
  -- the last views of the two recorders are equal, so both see the same neighbour of the new one
  rcases views with ⟨u, hu, hs, views⟩ | ⟨hu, views⟩
  · rw [h.views, getLast?_collapse] at hu
    rw [collapse_concat_of_same hu hs, ← h.views]
    exact views
  · rw [h.views, getLast?_collapse] at hu
    rw [collapse_concat_of_not hu, ← h.views]
    exact views

/-! ## Two runs -/

/-- The states differ in their recorders only, and these are in step. -/
def InStep (s s' : State) : Prop :=
  ∃ r', s' = { s with recorder := r' } ∧ Coalesced s.recorder r'

/-- The first run never loses steps, and where it has room for all of them the two runs stay in step
and end alike. -/
structure Shadows (cfg : Config) {α : Type} (x x' : Run α) : Prop where
  grows : ∀ s, s.recorder.steps.size ≤ (x.exec s).2.recorder.steps.size
  same : ∀ s s', InStep s s' → (x.exec s).2.recorder.steps.size < cfg.maxSteps.count →
    (x'.exec s').1 = (x.exec s).1 ∧ InStep (x.exec s).2 (x'.exec s').2

/-- Runs that stay in step. -/
def shadowing (cfg : Config) : Coupling where
  rel := Shadows cfg
  faults _ := True
  violations _ _ := trivial
  done _ _ := ⟨fun _ => Nat.le_refl _, fun _ _ h _ => ⟨rfl, h⟩⟩
  follow {_ _ x x' next next'} hx h := by
    replace h outcome := h outcome fun _ _ => trivial
    refine ⟨fun s => Nat.le_trans (hx.grows s) ((h _).grows _), fun s s' hs room => ?_⟩
    rw [exec_follow] at room
    obtain ⟨outcome, hs⟩ := hx.same s s' hs (Nat.lt_of_le_of_lt ((h _).grows _) room)
    rw [exec_follow, exec_follow, outcome]
    exact (h _).same _ _ hs room

theorem shadowing_update {α : Type} {g : State → α × State}
    (keeps : ∀ s, (g s).2.recorder = s.recorder := by intro; rfl)
    (alike : ∀ s r, g { s with recorder := r } = ((g s).1, { (g s).2 with recorder := r }) := by
      intros; rfl) :
    (shadowing cfg).rel (modifyGet g) (modifyGet g) where
  grows s := by rw [exec_modifyGet, keeps]
  same := by
    rintro s _ ⟨r', rfl, h⟩ -
    rw [exec_modifyGet, exec_modifyGet, alike]
    exact ⟨rfl, r', rfl, by rwa [keeps]⟩

/-- What looks at the state, but not at its recorder. -/
theorem shadowing_get {α : Type} {f f' : State → Run α}
    (h : ∀ s r, (shadowing cfg).rel (f s) (f' { s with recorder := r })) :
    (shadowing cfg).rel (get >>= f) (get >>= f') where
  grows s := (h s s.recorder).grows s
  same := by
    rintro s _ ⟨r', rfl, hr⟩ room
    exact (h s r').same s _ ⟨r', rfl, hr⟩ room

theorem shadowing_bracket {α : Type} {x x' : Run α} {enter : State → State}
    {leave : State → State → State} (hx : (shadowing cfg).rel x x')
    (entered : ∀ s r, enter { s with recorder := r } = { enter s with recorder := r } := by intros; rfl)
    (entered_keeps : ∀ s, (enter s).recorder = s.recorder := by intro; rfl)
    (left : ∀ s r t r', leave { s with recorder := r } { t with recorder := r' } =
      { leave s t with recorder := r' } := by intros; rfl)
    (left_keeps : ∀ s t, (leave s t).recorder = t.recorder := by intros; rfl) :
    (shadowing cfg).rel (bracket enter x leave) (bracket enter x' leave) where
  grows s := by
    rw [exec_bracket, left_keeps, ← entered_keeps s]
    exact hx.grows _
  same := by
    rintro s _ ⟨r', rfl, hr⟩ room
    rw [exec_bracket, left_keeps] at room
    obtain ⟨outcome, r₁, hs, hr₁⟩ := hx.same (enter s) _ ⟨r', rfl, by rwa [entered_keeps]⟩ room
    rw [exec_bracket, exec_bracket, entered, hs, left, outcome]
    exact ⟨rfl, r₁, rfl, by rwa [left_keeps]⟩

variable {last : Caller} {n : Nat}

theorem size_le_noted (e : Event) (s : State) :
    s.recorder.steps.size ≤ (s.noted (cfg.coalescing false) src e).recorder.steps.size := by
  unfold State.noted
  split
  · exact Nat.le_refl _
  · exact size_le_add_of_off

theorem InStep.noted {s s' : State} (h : InStep s s') (e : Event)
    (room : (s.noted (cfg.coalescing false) src e).recorder.steps.size < cfg.maxSteps.count) :
    InStep (s.noted (cfg.coalescing false) src e) (s'.noted (cfg.coalescing true) src e) := by
  obtain ⟨r', rfl, hr⟩ := h
  by_cases hl : e.line = 0
  · simp only [State.noted, if_pos hl]
    exact ⟨r', rfl, hr⟩
  · simp only [State.noted, if_neg hl] at room ⊢
    obtain ⟨added, ⟨step, kept⟩, step', kept'⟩ := hr.add room
    have entry : e.entry (cfg.coalescing true) { s with recorder := r' } =
        e.entry (cfg.coalescing false) s := rfl
    simp only [entry, kept, kept']
    exact ⟨_, rfl, added⟩

theorem shadowing_records : (shadowing cfg).Records (.within (cfg.coalescing false) src last n)
    (.within (cfg.coalescing true) src last n) where
  strangers := rfl
  op _ := by
    refine ⟨fun _ => Nat.le_refl _, ?_⟩
    rintro s _ ⟨r', rfl, h⟩ -
    exact ⟨rfl, r', rfl, h⟩
  print v := shadowing_update
  note e := by
    constructor
    · intro s
      rw [Context.exec_note]
      exact size_le_noted e s
    · intro s s' h room
      rw [Context.exec_note] at room
      rw [Context.exec_note, Context.exec_note]
      exact ⟨rfl, h.noted e room⟩

theorem shadowing_overrun (start : Float) : (shadowing cfg).rel (overrun? (cfg.coalescing false) start)
    (overrun? (cfg.coalescing true) start) where
  grows s := by rw [exec_overrun]; exact Nat.le_refl _
  same := by
    rintro s _ ⟨r', rfl, h⟩ room
    rw [exec_overrun] at room
    -- only here does a run look at its recorder; neither of the two is full
    have size : s.recorder.steps.size < cfg.maxSteps.count := room
    have open₁ : s.recorder.isFull (cfg.coalescing false) = false :=
      decide_eq_false (Nat.not_le_of_lt size)
    have open₂ : r'.isFull (cfg.coalescing true) = false :=
      decide_eq_false (Nat.not_le_of_lt (Nat.lt_of_le_of_lt h.size_le size))
    simp only [exec_overrun, open₁, open₂]
    exact ⟨rfl, r', rfl, h⟩

theorem shadowing_loops : (shadowing cfg).Loops (.within (cfg.coalescing false) src last n)
    (.within (cfg.coalescing true) src last n) where
  toRecords := shadowing_records
  maxCallDepth := rfl
  maxLoopDepth := rfl
  get h := shadowing_get fun s _ => h s _ rfl
  within _ _ := fun hx => shadowing_bracket hx
  labeled _ := fun hx => (shadowing cfg).bind (shadowing_bracket hx) fun _ => (shadowing cfg).pure _
  countStatement := shadowing_update
  countFailure := shadowing_update
  readClock := shadowing_update
  refuse _ _ := shadowing_update
  message _ := rfl
  countTrip := shadowing_update
  maxIterations := rfl
  overrun := shadowing_overrun
  countRound := shadowing_update
  inside := fun hx => shadowing_bracket hx

theorem start_inStep (clock : Clock) (frames : Nat) : InStep (.start clock frames) (.start clock frames) :=
  ⟨.empty, rfl, rfl, rfl, rfl⟩

theorem runTree_inStep (src : Source) (tree : Tree) (clock : Clock)
    (room : (runTree (cfg.coalescing false) src tree clock).2.recorder.steps.size <
      cfg.maxSteps.count) :
    (runTree (cfg.coalescing true) src tree clock).1 =
        (runTree (cfg.coalescing false) src tree clock).1 ∧
      InStep (runTree (cfg.coalescing false) src tree clock).2
        (runTree (cfg.coalescing true) src tree clock).2 := by
  have executes : (shadowing cfg).Executes (.top (cfg.coalescing false) src)
      (.top (cfg.coalescing true) src) := by
    refine (shadowing cfg).executes_within ?_ ?_ shadowing_loops.executes cfg.maxCallDepth.count
    · exact fun _ _ _ hx => shadowing_bracket hx
    · exact fun _ _ _ _ => (shadowing cfg).pure _
  exact (executes.runProgram (Stmt.program src tree)).same _ _ (start_inStep clock _) room

/-- If the run that coalesces nothing has room for all its steps, the run that coalesces ends with the
same outcome and in the same state but for its recorder. So it has the same variables, functions,
counts and journal, and handed the same entries over to the recorder in the same order. Its views are
those of the other run with each maximal run of equal views collapsed. -/
theorem coalescing_observes_only (cfg : Config) (src : Source) (tree : Tree) (clock : Clock) (s : State)
    (outcome : Except Fault Unit)
    (hs : runTree { cfg with deduplicate := false } src tree clock = (outcome, s))
    (room : s.recorder.steps.size < cfg.maxSteps.count) :
    ∃ recorder : Recorder,
      runTree { cfg with deduplicate := true } src tree clock =
        (outcome, { s with recorder := recorder }) ∧
      recorder.truncated = s.recorder.truncated ∧
      recorder.views = collapse sameView s.recorder.views := by
  have off : runTree (cfg.coalescing false) src tree clock = (outcome, s) := hs
  obtain ⟨ends, recorder, leaves, coalesced⟩ := runTree_inStep src tree clock (by rwa [off])
  rw [off] at ends leaves coalesced
  refine ⟨recorder, Prod.ext ends leaves, ?_, coalesced.views⟩
  exact coalesced.truncated'.trans coalesced.truncated.symm

/-- Two statements on one line. -/
def oneLineSource : Source := ⟨"1;1"⟩

def oneLineTree : Tree :=
  let node (kind : String) (start stop : Nat) (children : List Tree) : Tree :=
    .node ⟨true, false, false, false, kind, none, start, stop⟩ children
  node "program" 0 3 [
    node "expression_statement" 0 2 [node "number" 0 1 []],
    node "expression_statement" 2 3 [node "number" 2 3 []]]

theorem coalescing_observes_only_one_line :
    (runTree { deduplicate := false } oneLineSource oneLineTree
      (.ticking 0)).2.recorder.steps.size = 2 ∧
    (runTree { deduplicate := true } oneLineSource oneLineTree
      (.ticking 0)).2.recorder.steps.size = 1 ∧
    (runTree { deduplicate := true } oneLineSource oneLineTree (.ticking 0)).2.recorder.views =
      collapse sameView
        (runTree { deduplicate := false } oneLineSource oneLineTree (.ticking 0)).2.recorder.views := by
  have size : (runTree { deduplicate := false } oneLineSource oneLineTree
      (.ticking 0)).2.recorder.steps.size = 2 := by
    decide +kernel
  have room : (runTree { deduplicate := false } oneLineSource oneLineTree
      (.ticking 0)).2.recorder.steps.size < 1000 :=
    size ▸ by decide
  obtain ⟨recorder, same, -, views⟩ :=
    coalescing_observes_only {} oneLineSource oneLineTree (.ticking 0) _ _ rfl room
  exact ⟨size, by decide +kernel, same ▸ views⟩

end ScriptTrace
