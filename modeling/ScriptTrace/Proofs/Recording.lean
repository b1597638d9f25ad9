import ScriptTrace.Proofs.Coalescing
import ScriptTrace.Proofs.Console
/-!
# What a recorder holds

The memory of a run and its place in the program may change in any way between two events. Whatever happens, and
whether the recorder is full or not, it has no more steps than it may have, its last step shows the captures it
keeps, and if it coalesces no two neighbours have the same view.

An entry that supersedes a step puts its own variables in the place of the old ones, and these need not be equal. They
have the same canonical form, though, and so the step before differs from the new one as it did from the old one.

* `sameView_iff`: views are the same if their canonical forms are equal.
* `Recorder.InOrder.add`: what one entry keeps.
* `afterMoves_recorded`: the moments of any sequence of moves are what its recorder was given.
* `recorder_in_order`: what holds after all moves, and of all traces.
-/
namespace ScriptTrace

open Act

variable {cfg : Config} {src : Source} {s : State}

/-! ## The same view -/

theorem Plain.sameFields_iff {as bs : List (Text × Plain)} :
    Plain.sameFields as bs = true ↔ Plain.canonicalFields as = Plain.canonicalFields bs :=
  ⟨Plain.eq_of_beqFields _ _, fun h => by rw [Plain.sameFields, h, Plain.beqFields_refl]⟩

theorem sameView_iff {a b : Nat × List (Text × Plain)} :
    sameView a b = true ↔ a.1 = b.1 ∧ Plain.canonicalFields a.2 = Plain.canonicalFields b.2 := by
  rw [sameView, Bool.and_eq_true, beq_iff_eq, Plain.sameFields_iff]

/-- What is the same as one of two views that are the same is the same as the other. -/
theorem sameView_congr {a b : Nat × List (Text × Plain)} (h : sameView a b = true)
    (c : Nat × List (Text × Plain)) : sameView c a = sameView c b := by
  obtain ⟨line, vars⟩ := sameView_iff.1 h
  rw [Bool.eq_iff_iff, sameView_iff, sameView_iff, line, vars]

theorem supersedes_eq (cfg : Config) (e : Entry) (previous : Step) :
    Recorder.supersedes cfg e previous = (cfg.deduplicate && sameView previous.view (e.line, e.vars)) := by
  rw [Recorder.supersedes, Bool.and_assoc]
  rfl

/-! ## One entry -/

namespace Recorder

/-- What holds of a recorder at all times. -/
structure InOrder (cfg : Config) (r : Recorder) : Prop where
  size_le : r.steps.size ≤ cfg.maxSteps.count
  counted : r.counted = r.steps.size
  output : ∀ last ∈ r.steps.back?, last.output = pack r.captures
  distinct : cfg.deduplicate = true → r.views.IsChain fun a b => sameView a b = false

namespace InOrder

variable {r : Recorder}

theorem empty (cfg : Config) : InOrder cfg .empty :=
  ⟨Nat.zero_le _, rfl, by simp [Recorder.empty], fun _ => .nil⟩

theorem superseded (h : r.InOrder cfg) (src : Source) (e : Entry) {previous : Step}
    (hb : r.steps.back? = some previous) (hs : supersedes cfg e previous = true) :
    InOrder cfg { r with
      steps := r.steps.pop.push (merge previous (stepOf src e (r.captures ++ e.captures)))
      captures := r.captures ++ e.captures } where
  size_le := by
    have one : 0 < r.steps.size := Array.size_pos_of_mem (Array.mem_of_back? hb)
    have fits := h.size_le
    rw [Array.size_push, Array.size_pop]
    omega
  counted := by
    have one : 0 < r.steps.size := Array.size_pos_of_mem (Array.mem_of_back? hb)
    rw [Array.size_push, Array.size_pop, Nat.sub_add_cancel one]
    exact h.counted
  output := by
    simp [output_merge, stepOf]
  distinct on := by
    have same : sameView previous.view (e.line, e.vars) = true := by
      rwa [supersedes_eq, on, Bool.true_and] at hs
    have last : r.views = r.views.dropLast ++ [previous.view] := by
      refine (List.dropLast_append_getLast? _ ?_).symm
      rw [getLast?_views, hb]
      rfl
    have views : Recorder.views { r with
        steps := r.steps.pop.push (merge previous (stepOf src e (r.captures ++ e.captures)))
        captures := r.captures ++ e.captures } = r.views.dropLast ++ [(e.line, e.vars)] := by
      simp [Recorder.views, view_merge, view_stepOf, List.map_dropLast]
    have chain := h.distinct on
    rw [last, List.isChain_append] at chain
    rw [views, List.isChain_append]
    refine ⟨chain.1, List.isChain_singleton _, fun before hb new hn => ?_⟩
    obtain rfl : (e.line, e.vars) = new := by simpa using hn
    rw [← sameView_congr same]
    exact chain.2.2 before hb previous.view rfl

theorem appended (h : r.InOrder cfg) (src : Source) (e : Entry)
    (fresh : ∀ previous ∈ r.steps.back?, supersedes cfg e previous = false) (room : r.isFull cfg = false) :
    (r.grown src e).InOrder cfg where
  size_le := by
    have size : ¬cfg.maxSteps.count ≤ r.steps.size := of_decide_eq_false room
    rw [grown_steps, Array.size_push]
    omega
  counted := rfl
  output := by
    simp [stepOf]
  distinct on := by
    have views : (r.grown src e).views = r.views ++ [(e.line, e.vars)] := by
      simp [Recorder.views, view_stepOf]
    rw [views, List.isChain_append]
    refine ⟨h.distinct on, List.isChain_singleton _, fun last hl new hn => ?_⟩
    obtain rfl : (e.line, e.vars) = new := by simpa using hn
    rw [getLast?_views] at hl
    obtain ⟨previous, hp, rfl⟩ := Option.map_eq_some_iff.1 hl
    have differs := fresh previous hp
    rwa [supersedes_eq, on, Bool.true_and] at differs

theorem add (h : r.InOrder cfg) (src : Source) (e : Entry) : (r.add cfg src e).1.InOrder cfg := by
  rcases add_cases cfg src e r with ⟨previous, hb, hs, added⟩ | ⟨fresh, room, added⟩ | ⟨-, -, added⟩ <;> rw [added]
  · exact h.superseded src e hb hs
  · exact h.appended src e fresh room
  · exact ⟨h.size_le, h.counted, h.output, h.distinct⟩

end InOrder

theorem ofMoments_inOrder (cfg : Config) (src : Source) (ms : List Moment) : (ofMoments cfg src ms).InOrder cfg := by
  induction ms using List.reverseRecOn with
  | nil => exact .empty cfg
  | append_singleton ms m ih =>
    rw [ofMoments_concat]
    exact ih.add src m.entry

theorem InOrder.neighbours {r : Recorder} (h : r.InOrder cfg) (on : cfg.deduplicate = true) :
    r.steps.toList.IsChain fun a b => ¬(a.line = b.line ∧ Plain.sameFields a.vars b.vars = true) := by
  refine ((List.isChain_map Step.view).1 (h.distinct on)).imp ?_
  rintro a b differs ⟨line, vars⟩
  have same : sameView a.view b.view = true := sameView_iff.2 ⟨line, Plain.sameFields_iff.1 vars⟩
  exact Bool.false_ne_true (differs.symm.trans same)

end Recorder

/-! ## Any sequence of moves -/

/-- What can happen from one event to the next, and the events. -/
inductive Move
  /-- Variables, objects, functions and queued output change. -/
  | memory (m : Memory)
  /-- The run goes on elsewhere in the program. -/
  | control (c : Control)
  | record (e : Event)

def Move.act (cfg : Config) (src : Source) : Move → Run Unit
  | .memory m => modify fun s => { s with toMemory := m }
  | .control c => modify fun s => { s with toControl := c }
  | .record e => discard (Run.record cfg src e)

/-- The state that moves lead to. -/
def State.afterMoves (cfg : Config) (src : Source) (s : State) (moves : List Move) : State :=
  ((moves.forM (Move.act cfg src)).exec s).2

theorem afterMoves_cons (s : State) (move : Move) (moves : List Move) (h : ((move.act cfg src).exec s).1 = .ok ()) :
    s.afterMoves cfg src (move :: moves) = ((move.act cfg src).exec s).2.afterMoves cfg src moves :=
  congrArg Prod.snd (exec_bind_ok (Prod.ext h rfl))

theorem exec_record (cfg : Config) (src : Source) (e : Event) (s : State) :
    ((Move.record e).act cfg src).exec s = (.ok (), s.noted cfg src e) :=
  Context.exec_note (.top cfg src) e s

/-- A recorder is given the moments of the journal, whatever else happens. -/
theorem afterMoves_recorded (h : s.Recorded cfg src) (moves : List Move) :
    (s.afterMoves cfg src moves).Recorded cfg src := by
  induction moves generalizing s with
  | nil => exact h
  | cons move moves ih =>
    cases move with
    | memory m =>
      rw [afterMoves_cons s _ _ rfl]
      exact ih ⟨h.recorder, h.entries⟩
    | control c =>
      rw [afterMoves_cons s _ _ rfl]
      exact ih ⟨h.recorder, h.entries⟩
    | record e =>
      rw [afterMoves_cons s _ _ (by rw [exec_record]), exec_record]
      exact ih (h.noted e)

theorem State.Recorded.inOrder (h : s.Recorded cfg src) : s.recorder.InOrder cfg := by
  rw [h.recorder]
  exact Recorder.ofMoments_inOrder cfg src _

/-- After any changes of the memory and of the place in the program, with any events among them, a recorder has at
most as many steps as it may have. The statistics count them, the last one shows what the recorder keeps as captures,
and if it coalesces no two neighbours have one line and the same variables. So it is in the trace of any run that
coalesces, and there are no neighbours in it with one line and equal variables in particular. -/
theorem recorder_in_order (cfg : Config) (src : Source) (clock : Clock) :
    (∀ moves : List Move,
      let s := (State.start clock cfg.frames).afterMoves cfg src moves
      s.recorder.steps.size ≤ cfg.maxSteps.count ∧
      s.stats.steps = s.recorder.steps.size ∧
      (∀ last ∈ s.recorder.steps.back?, last.output = Recorder.pack s.recorder.captures) ∧
      (cfg.deduplicate = true → s.recorder.steps.toList.IsChain fun a b =>
        ¬(a.line = b.line ∧ Plain.sameFields a.vars b.vars = true))) ∧
    ∀ (tree : Tree) (t : Trace), cfg.deduplicate = true → (trace cfg src tree clock).1 = .ok t →
      t.steps.IsChain fun a b =>
        a.line = b.line → ¬Plain.sameFields a.vars b.vars = true ∧ a.vars ≠ b.vars := by
  constructor
  · intro moves s
    have inOrder : s.recorder.InOrder cfg := (afterMoves_recorded (.start clock _) moves).inOrder
    exact ⟨inOrder.size_le, congrArg Int.ofNat inOrder.counted, inOrder.output, inOrder.neighbours⟩
  · intro tree t on ht
    obtain ⟨-, rfl⟩ := runTree_of_trace ht
    have inOrder := (runTree_recorded cfg src tree clock).inOrder
    refine (inOrder.neighbours on).imp fun a b differs line => ?_
    have unlike : ¬Plain.sameFields a.vars b.vars = true := fun same => differs ⟨line, same⟩
    refine ⟨unlike, fun equal => unlike ?_⟩
    rw [equal]
    exact Plain.sameFields_iff.2 rfl

/-- Two statements on one line, and one on the next. -/
def twoLinesSource : Source := ⟨"1;1\n1"⟩

def twoLinesTree : Tree :=
  let node (kind : String) (start stop : Nat) (children : List Tree) : Tree :=
    .node ⟨true, false, false, false, kind, none, start, stop⟩ children
  node "program" 0 5 [
    node "expression_statement" 0 2 [node "number" 0 1 []],
    node "expression_statement" 2 3 [node "number" 2 3 []],
    node "expression_statement" 4 5 [node "number" 4 5 []]]

theorem recorder_in_order_two_lines :
    ∃ t, (trace {} twoLinesSource twoLinesTree (.ticking 0)).1 = .ok t ∧
      t.steps.map Step.line = [1, 2] ∧ t.steps.IsChain fun a b =>
        a.line = b.line → ¬Plain.sameFields a.vars b.vars = true ∧ a.vars ≠ b.vars := by
  have lines : (trace {} twoLinesSource twoLinesTree (.ticking 0)).1.toOption.map (·.steps.map Step.line) =
      some [1, 2] := by
    decide +kernel
  cases ht : (trace {} twoLinesSource twoLinesTree (.ticking 0)).1 with
  | error _ =>
    rw [ht] at lines
    cases lines
  | ok t =>
    rw [ht] at lines
    exact ⟨t, rfl, Option.some.inj lines, (recorder_in_order {} twoLinesSource (.ticking 0)).2 _ t rfl ht⟩

end ScriptTrace
