import ScriptTrace.Proofs.Groups
/-!
# What a cap on the steps leaves

A recorder that may hold few steps has, of the steps that one with room for all of them makes, the first: as many as
it may hold, and each but the last as it would be there. The last may differ. An entry is compared with the last step
that is held, not with the entry before it, and so after others have been dropped one that comes back to the line and
the variables of that step still supersedes it (`cap_reaches_back`).

* `groupsOf_flatten_take`: the entries of the first groups have these groups.
* `groupsOf_append_of_inLast`: entries that belong to the last group go there.
* `Recorder.steps_of_room`: the steps of a recorder that has room for them.
* `cap_truncates_unless_revisited`: what a recorder with a cap holds after any sequence of moves.
-/
namespace ScriptTrace

variable {cfg : Config} {src : Source} {entries : List Entry}

/-! ## The first groups -/

theorem groupsOf_flatten_take (cfg : Config) (entries : List Entry) (n : Nat) :
    groupsOf cfg ((groupsOf cfg entries).take n).flatten = (groupsOf cfg entries).take n := by
  obtain ⟨-, nonempty, chains, breaks⟩ := List.splitBy_eq_iff.1 (rfl : groupsOf cfg entries = groupsOf cfg entries)
  exact List.splitBy_flatten (fun h => nonempty (List.mem_of_mem_take h))
    (fun group h => chains group (List.mem_of_mem_take h)) (breaks.take n)

/-- What follows some groups begins with an entry that belongs to none of them. -/
theorem inLast_head_drop (cfg : Config) (entries : List Entry) (n : Nat) :
    ∀ e ∈ ((groupsOf cfg entries).drop n).flatten.head?, inLast cfg ((groupsOf cfg entries).take n) e = false := by
  intro e he
  obtain ⟨-, -, -, breaks⟩ := List.splitBy_eq_iff.1 (rfl : groupsOf cfg entries = groupsOf cfg entries)
  rw [← List.take_append_drop n (groupsOf cfg entries), List.isChain_append] at breaks
  rw [inLast]
  cases hk : ((groupsOf cfg entries).take n).getLast? with
  | none => rfl
  | some group =>
    cases hr : (groupsOf cfg entries).drop n with
    | nil => simp [hr] at he
    | cons next rest =>
      obtain ⟨full, full', apart⟩ := breaks.2.2 group hk next (by rw [hr]; rfl)
      rw [hr, List.flatten_cons, List.head?_append_of_ne_nil _ full', List.head?_eq_some_head full'] at he
      obtain rfl := Option.some.inj he
      rw [Option.any_some, List.getLast?_eq_some_getLast full]
      exact apart

/-- Entries that belong to the last group go there. -/
theorem groupsOf_append_of_inLast {added : List Entry} (h : ∀ x ∈ added, inLast cfg (groupsOf cfg entries) x = true) :
    groupsOf cfg (entries ++ added) = addLast (groupsOf cfg entries) added := by
  induction added using List.reverseRecOn with
  | nil => rw [List.append_nil, addLast_none]
  | append_singleton added e ih =>
    rw [List.forall_mem_append] at h
    rw [← List.append_assoc, groupsOf_concat, ih h.1, inLast_addLast h.1, if_pos (h.2 e (by simp)), addLast_addLast]

theorem dropLast_addLast (groups : List (List Entry)) (added : List Entry) :
    (addLast groups added).dropLast = groups.dropLast := by
  rcases List.eq_nil_or_concat' groups with rfl | ⟨front, group, rfl⟩ <;> simp

/-! ## With room for all steps -/

/-- The configuration with another cap on the steps. -/
def Config.withRoom (cfg : Config) (room : Limit) : Config :=
  { cfg with maxSteps := room }

variable {room : Limit}

theorem groupsOf_withRoom (cfg : Config) (room : Limit) : groupsOf (cfg.withRoom room) = groupsOf cfg := rfl

/-- What is handed over does not depend on the cap. -/
theorem State.offered_withRoom (cfg : Config) (room : Limit) (s : State) (moves : List Move) :
    s.offered (cfg.withRoom room) moves = s.offered cfg moves := by
  induction moves generalizing s with
  | nil => rfl
  | cons move moves ih =>
    cases move with
    | memory m => exact ih _
    | control c => exact ih _
    | record e =>
      rw [State.offered, State.offered, ih]
      rfl

theorem State.length_offered_le (cfg : Config) (s : State) (moves : List Move) :
    (s.offered cfg moves).length ≤ moves.length := by
  induction moves generalizing s with
  | nil => exact Nat.le_refl 0
  | cons move moves ih =>
    cases move with
    | memory m => exact Nat.le_succ_of_le (ih _)
    | control c => exact Nat.le_succ_of_le (ih _)
    | record e =>
      rw [State.offered]
      split
      · exact Nat.le_succ_of_le (ih s)
      · exact Nat.succ_le_succ (ih s)

/-! ## A cap next to none -/

/-- Whether an entry supersedes the last of some steps. -/
def returnsTo (cfg : Config) (steps : List Step) (e : Entry) : Bool :=
  steps.getLast?.any (Recorder.supersedes cfg e)

theorem returnsTo_of_off (off : cfg.deduplicate = false) (steps : List Step) (e : Entry) :
    returnsTo cfg steps e = false := by
  cases h : steps.getLast? <;> simp [returnsTo, h, Recorder.supersedes, off]

theorem eq_of_map_some {steps more : List Step} (h : steps.map some = more.map some) : steps = more :=
  List.map_injective_iff.2 (fun _ _ => Option.some.inj) h

namespace Recorder

/-- The steps that a recorder with that much room makes of entries. -/
def stepsMade (cfg : Config) (room : Limit) (src : Source) (entries : List Entry) : List Step :=
  (ofEntries (cfg.withRoom room) src entries).steps.toList

/-- A recorder that has room for all entries drops none. -/
theorem truncated_of_room (src : Source) (enough : entries.length ≤ room.count) :
    (ofEntries (cfg.withRoom room) src entries).truncated = false := by
  rw [truncated_ofEntries, groupsOf_withRoom, decide_eq_false_iff_not, Nat.not_lt]
  exact Nat.le_trans (length_groupsOf_le cfg entries) enough

theorem stepsMade_of_room (src : Source) (enough : entries.length ≤ room.count) :
    (stepsMade cfg room src entries).map some = (groupsOf cfg entries).map (groupStep? src) := by
  have fits := Nat.le_trans (length_groupsOf_le cfg entries) enough
  rw [stepsMade, (ofEntries_holds (cfg.withRoom room) src entries).steps, heldGroups_of_le fits, groupsOf_withRoom]

/-- The first steps show the first groups. -/
theorem take_stepsMade (src : Source) (enough : entries.length ≤ room.count) (n : Nat) :
    ((stepsMade cfg room src entries).take n).map some = ((groupsOf cfg entries).take n).map (groupStep? src) := by
  rw [List.map_take, stepsMade_of_room src enough, List.map_take]

/-- The first steps are all that a recorder makes of the entries of the first groups. -/
theorem stepsMade_flatten_take (src : Source) (enough : entries.length ≤ room.count) (n : Nat) :
    stepsMade cfg room src ((groupsOf cfg entries).take n).flatten = (stepsMade cfg room src entries).take n := by
  have short : ((groupsOf cfg entries).take n).flatten.length ≤ room.count := by
    refine Nat.le_trans (List.Sublist.length_le ?_) enough
    nth_rewrite 2 [← List.flatten_splitBy (Entry.joins cfg) entries]
    exact (List.take_sublist n _).flatten
  apply eq_of_map_some
  rw [stepsMade_of_room src short, groupsOf_flatten_take, take_stepsMade src enough]

/-- A cap leaves as many of the first steps as it allows. -/
theorem length_steps_ofEntries (src : Source) (enough : entries.length ≤ room.count) :
    (ofEntries cfg src entries).steps.toList.length =
      ((stepsMade cfg room src entries).take cfg.maxSteps.count).length := by
  have made : (stepsMade cfg room src entries).length = (groupsOf cfg entries).length := by
    simpa using congrArg List.length (stepsMade_of_room src enough)
  rw [Array.length_toList, (ofEntries_holds cfg src entries).size_eq, length_heldGroups, List.length_take, made]

/-- Each of them but the last is as it would be without a cap. -/
theorem dropLast_steps_ofEntries (src : Source) (enough : entries.length ≤ room.count) :
    (ofEntries cfg src entries).steps.toList.dropLast =
      ((stepsMade cfg room src entries).take cfg.maxSteps.count).dropLast := by
  apply eq_of_map_some
  rw [List.map_dropLast, List.map_dropLast, (ofEntries_holds cfg src entries).steps, take_stepsMade src enough,
    ← List.map_dropLast, ← List.map_dropLast, heldGroups, dropLast_addLast]

/-- The entries up to the first that is dropped, with those of the others that return to the last step, give the steps
that a recorder with a cap holds. -/
theorem exists_kept (src : Source) (enough : entries.length ≤ room.count) {first : List Step}
    (hf : first = (stepsMade cfg room src entries).take cfg.maxSteps.count) :
    ∃ kept late, entries = kept ++ late ∧ (∀ e ∈ late.head?, returnsTo cfg first e = false) ∧
      stepsMade cfg room src kept = first ∧
      (ofEntries cfg src entries).steps.toList =
        stepsMade cfg room src (kept ++ late.filter (returnsTo cfg first)) := by
  let groups := (groupsOf cfg entries).take cfg.maxSteps.count
  let late := ((groupsOf cfg entries).drop cfg.maxSteps.count).flatten
  have split : entries = groups.flatten ++ late := by
    rw [← List.flatten_append, List.take_append_drop]
    exact (List.flatten_splitBy _ _).symm
  have groups_kept : groupsOf cfg groups.flatten = groups := groupsOf_flatten_take cfg entries _
  have returns_eq : returnsTo cfg first = inLast cfg groups := by
    funext e
    exact supersedes_getLast? (hf ▸ take_stepsMade src enough cfg.maxSteps.count) e
  refine ⟨groups.flatten, late, split, ?_, hf ▸ stepsMade_flatten_take src enough _, ?_⟩
  · rw [returns_eq]
    exact inLast_head_drop cfg entries _
  · have short : (groups.flatten ++ late.filter (inLast cfg groups)).length ≤ room.count := by
      refine Nat.le_trans (List.Sublist.length_le ?_) enough
      rw [split]
      exact List.filter_sublist.append_left _
    have belong : ∀ e ∈ late.filter (inLast cfg groups), inLast cfg (groupsOf cfg groups.flatten) e = true := by
      rw [groups_kept]
      exact fun e he => (List.mem_filter.1 he).2
    apply eq_of_map_some
    rw [returns_eq, stepsMade_of_room src short, groupsOf_append_of_inLast belong, groups_kept,
      (ofEntries_holds cfg src entries).steps]
    rfl

end Recorder

/-- A recorder with a cap has the first of the steps that it would make with room for all of them, and each but the
last is as it would be. The moves hand over the entries that these steps are made of, and then others, of which the
first begins a step that is dropped. Of these, the ones with line and variables of the last step supersede it, and the
rest change nothing. So the cap only cuts off what comes later if nothing returns to the last step, and in particular
if nothing is coalesced. -/
theorem cap_truncates_unless_revisited (cfg : Config) (src : Source) (clock : Clock) (moves : List Move) (room : Limit)
    (enough : moves.length ≤ room.count) :
    let all := ((State.start clock cfg.frames).afterMoves (cfg.withRoom room) src moves).recorder
    let held := ((State.start clock cfg.frames).afterMoves cfg src moves).recorder.steps.toList
    let first := all.steps.toList.take cfg.maxSteps.count
    all.truncated = false ∧ held.length = first.length ∧ held.dropLast = first.dropLast ∧
      (cfg.deduplicate = false → held = first) ∧
      ∃ kept late, (State.start clock cfg.frames).offered cfg moves = kept ++ late ∧
        (∀ e ∈ late.head?, returnsTo cfg first e = false) ∧
        Recorder.stepsMade cfg room src kept = first ∧
        held = Recorder.stepsMade cfg room src (kept ++ late.filter (returnsTo cfg first)) ∧
        ((∀ e ∈ late, returnsTo cfg first e = false) → held = first) := by
  intro all held first
  have offered : ((State.start clock cfg.frames).offered cfg moves).length ≤ room.count :=
    Nat.le_trans ((State.start clock cfg.frames).length_offered_le cfg moves) enough
  have free : all = .ofEntries (cfg.withRoom room) src ((State.start clock cfg.frames).offered cfg moves) := by
    rw [← State.offered_withRoom cfg room]
    exact recorder_afterMoves_start (cfg.withRoom room) src clock moves
  have capped : held = (Recorder.ofEntries cfg src ((State.start clock cfg.frames).offered cfg moves)).steps.toList :=
    congrArg (·.steps.toList) (recorder_afterMoves_start cfg src clock moves)
  have first_eq : first =
      (Recorder.stepsMade cfg room src ((State.start clock cfg.frames).offered cfg moves)).take cfg.maxSteps.count :=
    congrArg (·.steps.toList.take cfg.maxSteps.count) free
  obtain ⟨kept, late, split, fresh, shown, holds⟩ := Recorder.exists_kept src offered first_eq
  rw [← capped] at holds
  have cut (none : ∀ e ∈ late, returnsTo cfg first e = false) : held = first := by
    rw [holds, List.filter_eq_nil_iff.2 fun e he => by simp [none e he], List.append_nil, shown]
  refine ⟨?_, ?_, ?_, fun off => cut fun e _ => returnsTo_of_off off first e, kept, late, split, fresh, shown, holds,
    cut⟩
  · rw [free]
    exact Recorder.truncated_of_room src offered
  · rw [capped, first_eq]
    exact Recorder.length_steps_ofEntries src offered
  · rw [capped, first_eq]
    exact Recorder.dropLast_steps_ofEntries src offered

/-- A line, another one, and the first again, now with output. -/
def returningMoves : List Move :=
  [.record { line := 1 }, .record { line := 2 }, .record { line := 1, captured := [.bool true] }]

theorem cap_truncates_unless_revisited_returning :
    let cfg : Config := { maxSteps := 1 }
    let start := State.start (.ticking 0) cfg.frames
    let held := (start.afterMoves cfg ⟨"a\nb"⟩ returningMoves).recorder.steps.toList
    let first := (start.afterMoves (cfg.withRoom 3) ⟨"a\nb"⟩ returningMoves).recorder.steps.toList.take 1
    returningMoves.length ≤ 3 ∧ first.map Step.line = [1] ∧ held.length = first.length ∧
      ∃ kept late, start.offered cfg returningMoves = kept ++ late ∧
        (∀ e ∈ late.head?, returnsTo cfg first e = false) ∧ Recorder.stepsMade cfg 3 ⟨"a\nb"⟩ kept = first ∧
        held = Recorder.stepsMade cfg 3 ⟨"a\nb"⟩ (kept ++ late.filter (returnsTo cfg first)) ∧
        ((∀ e ∈ late, returnsTo cfg first e = false) → held = first) := by
  intro cfg start held first
  have enough : returningMoves.length ≤ 3 := by decide
  obtain ⟨-, length, -, -, kept⟩ :=
    cap_truncates_unless_revisited cfg ⟨"a\nb"⟩ (.ticking 0) returningMoves 3 enough
  exact ⟨enough, by decide +kernel, length, kept⟩

/-- Output that belongs to a step that was dropped is shown by the last step that is held. -/
theorem cap_reaches_back :
    let outputs (steps : List Step) := steps.map fun step => (step.line, step.output)
    outputs ((State.start (.ticking 0)).afterMoves { maxSteps := 1 } ⟨"a\nb"⟩ returningMoves).recorder.steps.toList =
      [(1, some (.bool true))] ∧
    outputs (((State.start (.ticking 0)).afterMoves {} ⟨"a\nb"⟩ returningMoves).recorder.steps.toList.take 1) =
      [(1, none)] := by
  decide +kernel

end ScriptTrace
