import Mathlib.Data.List.TakeWhile
import ScriptTrace.Proofs.Diagnostics
/-!
# Groups of entries

A recorder that coalesces takes entries one at a time and merges each with the step before it or appends a step. What
it has at the end can be said at once. The entries fall into **groups**, the maximal runs of neighbours that have one
line and the same variables, and each step stands for a group: it shows the last entry of it, the captures of all, and
the last of its diagnostics and errors.

An entry may repeat the last step of a recorder that is full, also when others have been dropped before it. So the
last group that such a recorder holds goes on with all later entries that have its line and variables.

* `merge_groupStep`: merging an entry with the step of a group gives the step of the longer group.
* `Recorder.Holds.add`: what one entry does to the groups of a recorder.
* `Recorder.ofEntries_holds`: the groups that a recorder holds at the end, with any cap.
* `coalescing_in_closed_form`: if nothing is dropped, the steps are those of the groups.
-/
namespace ScriptTrace

variable {cfg : Config} {src : Source} {group : List Entry} {e last : Entry}

/-! ## The step of a group -/

/-- Whether an entry is a diagnostic or an error. -/
def Entry.isReport (e : Entry) : Bool :=
  e.kind.isSticky

/-- The last message among those of some entries. -/
def lastMessage? (entries : List Entry) : Option Text :=
  (entries.filterMap Entry.message).getLast?

/-- The step that stands for a group with a given last entry. Its kind is that of the last report, if there is one;
its message is the last one among the reports, or if they have none, the last one before them. -/
def groupStep (src : Source) (group : List Entry) (last : Entry) : Step where
  line := last.line
  code := src.line last.line
  vars := last.vars
  kind := ((group.filter Entry.isReport).getLast?.getD last).kind
  block := last.block
  output := Recorder.pack (group.flatMap Entry.captures)
  message := (lastMessage? (group.filter Entry.isReport)).or (lastMessage? (group.takeWhile (!·.isReport)))
  condition := last.condition

/-- The step that stands for a group. -/
def groupStep? (src : Source) (group : List Entry) : Option Step :=
  group.getLast?.map (groupStep src group)

@[simp] theorem lastMessage?_nil : lastMessage? [] = none := rfl

@[simp] theorem lastMessage?_concat (entries : List Entry) (e : Entry) :
    lastMessage? (entries ++ [e]) = e.message.or (lastMessage? entries) := by
  cases h : e.message <;> simp [lastMessage?, h]

@[simp] theorem lastMessage?_singleton (e : Entry) : lastMessage? [e] = e.message := by
  simpa using lastMessage?_concat [] e

/-- The step of a group is a report if an entry of the group is. -/
theorem isSticky_groupStep (hl : group.getLast? = some last) :
    (groupStep src group last).kind.isSticky = group.any Entry.isReport := by
  show ((group.filter Entry.isReport).getLast?.getD last).isReport = _
  cases hr : (group.filter Entry.isReport).getLast? with
  | none =>
    have none : ∀ x ∈ group, x.isReport = false := by
      simpa [List.filter_eq_nil_iff] using List.getLast?_eq_none_iff.1 hr
    rw [List.any_eq_false.2 fun x hx => by simp [none x hx]]
    exact none last (List.mem_of_getLast? hl)
  | some report =>
    obtain ⟨member, sticky⟩ := List.mem_filter.1 (List.mem_of_getLast? hr)
    rw [List.any_eq_true.2 ⟨report, member, sticky⟩]
    exact sticky

/-- What comes before the first report of a group that has one stays the same when the group grows. -/
theorem takeWhile_concat_of_any (h : group.any Entry.isReport = true) (e : Entry) :
    (group ++ [e]).takeWhile (!·.isReport) = group.takeWhile (!·.isReport) := by
  obtain ⟨report, member, sticky⟩ := List.any_eq_true.1 h
  rw [List.takeWhile_append, if_neg fun whole => ?_]
  have all := List.takeWhile_eq_self_iff.1 ((List.takeWhile_prefix _).eq_of_length whole)
  simpa [sticky] using all report member

theorem filter_of_none (h : group.any Entry.isReport = false) : group.filter Entry.isReport = [] :=
  List.filter_eq_nil_iff.2 fun x hx => List.any_eq_false.1 h x hx

theorem takeWhile_of_none (h : group.any Entry.isReport = false) : group.takeWhile (!·.isReport) = group :=
  List.takeWhile_eq_self_iff.2 fun x hx => by simpa using List.any_eq_false.1 h x hx

/-- Merging an entry with the step of a group gives the step of the group with the entry. -/
theorem merge_groupStep (src : Source) (hl : group.getLast? = some last) (e : Entry) :
    Recorder.merge (groupStep src group last)
      (Recorder.stepOf src e (group.flatMap Entry.captures ++ e.captures)) = groupStep src (group ++ [e]) e := by
  have newer : (Recorder.stepOf src e (group.flatMap Entry.captures ++ e.captures)).kind.isSticky = e.isReport := rfl
  unfold Recorder.merge
  rw [isSticky_groupStep hl, newer]
  cases before : group.any Entry.isReport with
  | true =>
    have earlier := takeWhile_concat_of_any before e
    cases report : e.isReport with
    | false =>
      -- the last report stays the last one
      have reports : (group ++ [e]).filter Entry.isReport = group.filter Entry.isReport := by simp [report]
      have some : (group.filter Entry.isReport).getLast?.isSome = true := by
        simpa [List.filter_eq_nil_iff] using List.any_eq_true.1 before
      obtain ⟨latest, hr⟩ := Option.isSome_iff_exists.1 some
      simp only [groupStep, reports, earlier, hr, Option.getD_some]
      simp [Recorder.stepOf]
    | true =>
      cases message : e.message <;> simp [groupStep, Recorder.stepOf, report, earlier, message]
  | false =>
    cases report : e.isReport <;> cases message : e.message <;>
      simp [groupStep, Recorder.stepOf, report, filter_of_none before, takeWhile_of_none before,
        List.takeWhile_append, message]

theorem groupStep?_singleton (src : Source) (e : Entry) :
    groupStep? src [e] = some (Recorder.stepOf src e e.captures) := by
  cases report : e.isReport <;> simp [groupStep?, groupStep, Recorder.stepOf, report]

/-! ## Groups -/

/-- Whether an entry belongs to the group of the one before. -/
def Entry.joins (cfg : Config) (before e : Entry) : Bool :=
  cfg.deduplicate && sameView before.view e.view

/-- The maximal runs of entries that belong together. -/
def groupsOf (cfg : Config) (entries : List Entry) : List (List Entry) :=
  entries.splitBy (Entry.joins cfg)

/-- What belongs to the group of one of two entries that belong together belongs to that of the other. -/
theorem Entry.joins_congr {a b : Entry} (h : a.joins cfg b = true) (c : Entry) : b.joins cfg c = a.joins cfg c := by
  obtain ⟨line, vars⟩ := sameView_iff.1 (Bool.and_eq_true_iff.1 h).2
  unfold Entry.joins
  congr 1
  rw [Bool.eq_iff_iff, sameView_iff, sameView_iff, line, vars]

/-- Whether an entry belongs to the last of some groups. -/
def inLast (cfg : Config) (groups : List (List Entry)) (e : Entry) : Bool :=
  groups.getLast?.any fun group => group.getLast?.any (·.joins cfg e)

/-- Adds entries to the last of some groups. -/
def addLast (groups : List (List Entry)) (entries : List Entry) : List (List Entry) :=
  groups.dropLast ++ (groups.getLast?.map (· ++ entries)).toList

@[simp] theorem addLast_nil (entries : List Entry) : addLast [] entries = [] := rfl

@[simp] theorem addLast_concat (front : List (List Entry)) (group entries : List Entry) :
    addLast (front ++ [group]) entries = front ++ [group ++ entries] := by
  simp [addLast]

@[simp] theorem addLast_none (groups : List (List Entry)) : addLast groups [] = groups := by
  rcases List.eq_nil_or_concat' groups with rfl | ⟨front, group, rfl⟩ <;> simp

@[simp] theorem length_addLast (groups : List (List Entry)) (entries : List Entry) :
    (addLast groups entries).length = groups.length := by
  rcases List.eq_nil_or_concat' groups with rfl | ⟨front, group, rfl⟩ <;> simp

theorem addLast_addLast (groups : List (List Entry)) (entries more : List Entry) :
    addLast (addLast groups entries) more = addLast groups (entries ++ more) := by
  rcases List.eq_nil_or_concat' groups with rfl | ⟨front, group, rfl⟩ <;> simp

@[simp] theorem inLast_concat (cfg : Config) (front : List (List Entry)) (group : List Entry) (e : Entry) :
    inLast cfg (front ++ [group]) e = group.getLast?.any (·.joins cfg e) := by
  simp [inLast]

/-- Adding entries that belong to the last group leaves what belongs to it as it was. -/
theorem inLast_addLast {groups : List (List Entry)} {added : List Entry}
    (h : ∀ x ∈ added, inLast cfg groups x = true) (e : Entry) :
    inLast cfg (addLast groups added) e = inLast cfg groups e := by
  rcases List.eq_nil_or_concat' groups with rfl | ⟨front, group, rfl⟩
  · rfl
  · rcases List.eq_nil_or_concat' added with rfl | ⟨before, latest, rfl⟩
    · rw [addLast_none]
    · have belongs := h latest (by simp)
      rw [inLast_concat] at belongs
      obtain ⟨last, hl, joins⟩ := (Option.any_eq_true _ _).1 belongs
      rw [addLast_concat, inLast_concat, inLast_concat, ← List.append_assoc, List.getLast?_concat, hl]
      exact Entry.joins_congr joins e

theorem groupsOf_concat (cfg : Config) (entries : List Entry) (e : Entry) :
    groupsOf cfg (entries ++ [e]) =
      if inLast cfg (groupsOf cfg entries) e then addLast (groupsOf cfg entries) [e]
      else groupsOf cfg entries ++ [[e]] := by
  cases hl : entries.getLast? with
  | none =>
    obtain rfl := List.getLast?_eq_none_iff.1 hl
    rfl
  | some last =>
    obtain ⟨front, group, groups, ends⟩ := splitBy_eq_concat (Entry.joins cfg) hl
    have belongs : inLast cfg (groupsOf cfg entries) e = last.joins cfg e := by
      rw [groupsOf, groups, inLast_concat, ends, Option.any_some]
    rw [belongs]
    cases joins : last.joins cfg e with
    | true =>
      rw [if_pos rfl, groupsOf, groupsOf, splitBy_concat_of_same groups ends joins, groups, addLast_concat]
    | false =>
      rw [if_neg Bool.false_ne_true]
      exact List.splitBy_append_cons [] (by simpa [hl] using joins)

theorem length_groupsOf_le (cfg : Config) (entries : List Entry) : (groupsOf cfg entries).length ≤ entries.length := by
  induction entries using List.reverseRecOn with
  | nil => exact Nat.le_refl 0
  | append_singleton entries e ih =>
    rw [groupsOf_concat, List.length_append, List.length_singleton]
    split
    · rw [length_addLast]
      omega
    · rw [List.length_append, List.length_singleton]
      omega

/-! ## The groups that there is room for -/

/-- The groups that a recorder holds: as many as it may, and what belongs to the last of them among the rest. -/
def heldGroups (cfg : Config) (entries : List Entry) : List (List Entry) :=
  let groups := groupsOf cfg entries
  let kept := groups.take cfg.maxSteps.count
  addLast kept ((groups.drop cfg.maxSteps.count).flatten.filter (inLast cfg kept))

section Held

variable {entries : List Entry}

theorem heldGroups_of_le (h : (groupsOf cfg entries).length ≤ cfg.maxSteps.count) :
    heldGroups cfg entries = groupsOf cfg entries := by
  simp [heldGroups, List.take_of_length_le h, List.drop_of_length_le h]

theorem length_heldGroups (cfg : Config) (entries : List Entry) :
    (heldGroups cfg entries).length = min cfg.maxSteps.count (groupsOf cfg entries).length := by
  rw [heldGroups, length_addLast, List.length_take]

/-- An entry that changes only groups that are not held is one of the rest. -/
theorem heldGroups_concat_of_rest {e : Entry} {front tail tail' : List (List Entry)}
    (before : groupsOf cfg entries = front ++ tail) (after : groupsOf cfg (entries ++ [e]) = front ++ tail')
    (flat : tail'.flatten = tail.flatten ++ [e]) (full : cfg.maxSteps.count ≤ front.length) :
    heldGroups cfg (entries ++ [e]) =
      if inLast cfg (heldGroups cfg entries) e then addLast (heldGroups cfg entries) [e]
      else heldGroups cfg entries := by
  have same : inLast cfg (heldGroups cfg entries) e =
      inLast cfg ((groupsOf cfg entries).take cfg.maxSteps.count) e :=
    inLast_addLast (fun x hx => (List.mem_filter.1 hx).2) e
  rw [same]
  simp only [heldGroups, before, after, List.take_append_of_le_length full, List.drop_append_of_le_length full,
    List.flatten_append, flat, ← List.append_assoc, List.filter_append, addLast_addLast]
  split
  case isTrue belongs => rw [List.filter_cons_of_pos belongs, List.filter_nil, List.append_assoc]
  case isFalse apart => rw [List.filter_cons_of_neg apart, List.filter_nil, List.append_nil]

theorem heldGroups_concat (cfg : Config) (entries : List Entry) (e : Entry) :
    heldGroups cfg (entries ++ [e]) =
      if inLast cfg (heldGroups cfg entries) e then addLast (heldGroups cfg entries) [e]
      else if cfg.maxSteps.count ≤ (heldGroups cfg entries).length then heldGroups cfg entries
      else heldGroups cfg entries ++ [[e]] := by
  have grown := groupsOf_concat cfg entries e
  have filled (h : cfg.maxSteps.count ≤ (groupsOf cfg entries).length) :
      cfg.maxSteps.count ≤ (heldGroups cfg entries).length := by
    rw [length_heldGroups]
    omega
  cases belongs : inLast cfg (groupsOf cfg entries) e with
  | true =>
    rw [belongs, if_pos rfl] at grown
    rcases Nat.lt_or_ge cfg.maxSteps.count (groupsOf cfg entries).length with more | fits
    · rw [if_pos (filled (Nat.le_of_lt more))]
      obtain ⟨front, group, groups⟩ := (List.eq_nil_or_concat' (groupsOf cfg entries)).resolve_left
        (List.ne_nil_of_length_pos (Nat.zero_lt_of_lt more))
      rw [groups, addLast_concat] at grown
      rw [groups, List.length_append, List.length_singleton] at more
      exact heldGroups_concat_of_rest groups grown (by simp) (Nat.le_of_lt_succ more)
    · rw [heldGroups_of_le fits, belongs, if_pos rfl, heldGroups_of_le (by rwa [grown, length_addLast]), grown]
  | false =>
    rw [belongs, if_neg Bool.false_ne_true] at grown
    rcases Nat.lt_or_ge (groupsOf cfg entries).length cfg.maxSteps.count with room | full
    · rw [heldGroups_of_le (Nat.le_of_lt room), belongs, if_neg Bool.false_ne_true, if_neg (Nat.not_le_of_lt room),
        heldGroups_of_le, grown]
      rwa [grown, List.length_append]
    · rw [if_pos (filled full)]
      exact heldGroups_concat_of_rest (List.append_nil _).symm grown rfl full

end Held

/-! ## What a recorder holds -/

/-- An entry supersedes the last of the steps that some groups have if it belongs to the last group. -/
theorem supersedes_getLast? {steps : List Step} {groups : List (List Entry)}
    (h : steps.map some = groups.map (groupStep? src)) (e : Entry) :
    steps.getLast?.any (Recorder.supersedes cfg e) = inLast cfg groups e := by
  have shown := congrArg List.getLast? h
  rw [List.getLast?_map, List.getLast?_map] at shown
  cases hg : groups.getLast? with
  | none =>
    rw [hg, Option.map_none, Option.map_eq_none_iff] at shown
    rw [shown, inLast, hg]
    rfl
  | some group =>
    rw [hg, Option.map_some] at shown
    obtain ⟨step, hs, shown⟩ := Option.map_eq_some_iff.1 shown
    obtain ⟨last, hl, rfl⟩ := Option.map_eq_some_iff.1 shown.symm
    rw [hs, inLast, hg, Option.any_some, Option.any_some, hl, Option.any_some]
    exact supersedes_eq cfg e _

namespace Recorder

variable {r : Recorder} {groups : List (List Entry)}

/-- Whether the steps of a recorder stand for these groups. -/
structure Holds (src : Source) (r : Recorder) (groups : List (List Entry)) : Prop where
  steps : r.steps.toList.map some = groups.map (groupStep? src)
  captures : r.captures = groups.getLast?.elim [] (·.flatMap Entry.captures)

namespace Holds

theorem size_eq (h : r.Holds src groups) : r.steps.size = groups.length := by
  simpa using congrArg List.length h.steps

theorem supersedes_back? (h : r.Holds src groups) (e : Entry) :
    r.steps.back?.any (supersedes cfg e) = inLast cfg groups e := by
  rw [← Array.getLast?_toList]
  exact supersedes_getLast? h.steps e

theorem appended (h : r.Holds src groups) (e : Entry) :
    (r.grown src e).Holds src (groups ++ [[e]]) where
  steps := by
    rw [grown_steps, Array.toList_push, List.map_append, List.map_append, h.steps, List.map_singleton,
      List.map_singleton, groupStep?_singleton]
  captures := by simp

theorem superseded (h : r.Holds src groups) (e : Entry) {previous : Step} (hb : r.steps.back? = some previous) :
    Holds src { r with
      steps := r.steps.pop.push (merge previous (stepOf src e (r.captures ++ e.captures)))
      captures := r.captures ++ e.captures } (addLast groups [e]) := by
  have steps : r.steps.toList = r.steps.pop.toList ++ [previous] := by
    rw [Array.toList_pop, List.dropLast_append_getLast? _ (by rw [Array.getLast?_toList, hb]; rfl)]
  rcases List.eq_nil_or_concat' groups with rfl | ⟨front, group, rfl⟩
  · rw [List.map_eq_nil_iff.1 h.steps] at steps
    simp at steps
  · have captures : r.captures = group.flatMap Entry.captures := by simpa using h.captures
    have shown := h.steps
    rw [steps, List.map_append, List.map_append] at shown
    obtain ⟨before, latest⟩ := List.append_inj' shown rfl
    obtain ⟨last, hl, rfl⟩ := Option.map_eq_some_iff.1 (List.singleton_inj.1 latest).symm
    rw [addLast_concat]
    constructor
    · rw [Array.toList_push, List.map_append, List.map_append, before, List.map_singleton, List.map_singleton, captures,
        merge_groupStep src hl]
      simp [groupStep?]
    · simp [captures]

/-- What an entry does to the groups of a recorder. -/
theorem add (h : r.Holds src groups) (e : Entry) :
    (r.add cfg src e).1.Holds src
        (if inLast cfg groups e then addLast groups [e]
        else if cfg.maxSteps.count ≤ groups.length then groups
        else groups ++ [[e]]) ∧
      (r.add cfg src e).1.truncated =
        (r.truncated || (!inLast cfg groups e && decide (cfg.maxSteps.count ≤ groups.length))) := by
  have full : r.isFull cfg = true ↔ cfg.maxSteps.count ≤ groups.length := by
    rw [isFull, h.size_eq, decide_eq_true_iff]
  have apart (fresh : ∀ previous ∈ r.steps.back?, supersedes cfg e previous = false) : inLast cfg groups e = false := by
    rw [← h.supersedes_back? e]
    cases hb : r.steps.back? with
    | none => rfl
    | some previous => exact fresh previous hb
  rcases add_cases cfg src e r with ⟨previous, hb, hs, added⟩ | ⟨fresh, room, added⟩ | ⟨fresh, filled, added⟩ <;>
    rw [added]
  · rw [← h.supersedes_back? e, hb, Option.any_some, hs]
    exact ⟨h.superseded e hb, by simp⟩
  · have short : ¬cfg.maxSteps.count ≤ groups.length := by simp [← full, room]
    rw [apart fresh, if_neg Bool.false_ne_true, if_neg short]
    exact ⟨h.appended e, by simp [short]⟩
  · rw [apart fresh, if_neg Bool.false_ne_true, if_pos (full.1 filled)]
    exact ⟨⟨h.steps, h.captures⟩, by simp [full.1 filled]⟩

end Holds

/-! ## All entries -/

/-- The recorder that is handed some entries, in order. -/
def ofEntries (cfg : Config) (src : Source) (entries : List Entry) : Recorder :=
  entries.foldl (fun r e => (r.add cfg src e).1) .empty

theorem ofEntries_concat (entries : List Entry) (e : Entry) :
    ofEntries cfg src (entries ++ [e]) = ((ofEntries cfg src entries).add cfg src e).1 := by
  rw [ofEntries, List.foldl_append]
  rfl

theorem ofMoments_eq (cfg : Config) (src : Source) (ms : List Moment) :
    ofMoments cfg src ms = ofEntries cfg src (ms.map Moment.entry) := by
  rw [ofEntries, List.foldl_map]
  rfl

/-- The groups that a recorder holds at the end. -/
theorem ofEntries_holds (cfg : Config) (src : Source) (entries : List Entry) :
    (ofEntries cfg src entries).Holds src (heldGroups cfg entries) := by
  induction entries using List.reverseRecOn with
  | nil =>
    rw [heldGroups_of_le (Nat.zero_le _)]
    exact ⟨rfl, rfl⟩
  | append_singleton entries e ih =>
    rw [ofEntries_concat, heldGroups_concat]
    exact (ih.add e).1

/-- A recorder has dropped an entry if there are more groups than it may hold. -/
theorem truncated_ofEntries (cfg : Config) (src : Source) (entries : List Entry) :
    (ofEntries cfg src entries).truncated = decide (cfg.maxSteps.count < (groupsOf cfg entries).length) := by
  induction entries using List.reverseRecOn with
  | nil => rfl
  | append_singleton entries e ih =>
    rw [ofEntries_concat, ((ofEntries_holds cfg src entries).add e).2, ih, groupsOf_concat]
    rcases Nat.lt_or_ge cfg.maxSteps.count (groupsOf cfg entries).length with more | fits
    · split <;> simp [more, Nat.lt_succ_of_lt more]
    · rw [heldGroups_of_le fits]
      split
      case isTrue belongs => simp [belongs]
      case isFalse apart =>
        rw [Bool.eq_false_iff.2 apart, decide_eq_false (Nat.not_lt_of_ge fits), Bool.false_or, Bool.not_false,
          Bool.true_and, List.length_append, List.length_singleton]
        exact decide_eq_decide.2 Nat.lt_succ_iff.symm

end Recorder

/-! ## Moves and runs -/

/-- The entries that moves hand over to the recorder. Each shows the memory and the block it finds. -/
def State.offered (cfg : Config) (s : State) : List Move → List Entry
  | [] => []
  | .memory m :: moves => State.offered cfg { s with toMemory := m } moves
  | .control c :: moves => State.offered cfg { s with toControl := c } moves
  | .record e :: moves =>
    if e.line = 0 then s.offered cfg moves else e.entry cfg s :: s.offered cfg moves

/-- What is handed over depends on variables, objects and the block only. -/
theorem State.offered_congr {s t : State} (heap : s.heap = t.heap) (env : s.env = t.env) (block : s.block = t.block)
    (moves : List Move) : s.offered cfg moves = t.offered cfg moves := by
  induction moves generalizing s t with
  | nil => rfl
  | cons move moves ih =>
    cases move with
    | memory m => exact ih rfl rfl block
    | control c => exact ih heap env rfl
    | record e =>
      have entry : e.entry cfg s = e.entry cfg t := by simp only [Event.entry, heap, env, block]
      simp only [State.offered, entry, ih heap env block]

theorem State.offered_noted (s : State) (e : Event) (moves : List Move) :
    (s.noted cfg src e).offered cfg moves = s.offered cfg moves := by
  unfold State.noted
  split
  · rfl
  · apply State.offered_congr <;> rfl

/-- A recorder takes what moves hand over, and nothing else. -/
theorem recorder_afterMoves (s : State) (moves : List Move) :
    (s.afterMoves cfg src moves).recorder =
      (s.offered cfg moves).foldl (fun r e => (r.add cfg src e).1) s.recorder := by
  induction moves generalizing s with
  | nil => rfl
  | cons move moves ih =>
    cases move with
    | memory m =>
      rw [afterMoves_cons s _ _ rfl]
      exact ih _
    | control c =>
      rw [afterMoves_cons s _ _ rfl]
      exact ih _
    | record e =>
      rw [afterMoves_cons s _ _ (by rw [exec_record]), exec_record, ih, State.offered_noted, State.offered]
      by_cases hl : e.line = 0
      · rw [State.noted, if_pos hl, if_pos hl]
      · rw [noted_recorder hl, if_neg hl, List.foldl_cons]

theorem recorder_afterMoves_start (cfg : Config) (src : Source) (clock : Clock) (moves : List Move) :
    ((State.start clock cfg.frames).afterMoves cfg src moves).recorder =
      .ofEntries cfg src ((State.start clock cfg.frames).offered cfg moves) :=
  recorder_afterMoves (State.start clock cfg.frames) moves

/-- A recorder that coalesces and has dropped nothing has the steps of the groups. -/
theorem Recorder.steps_ofEntries (on : cfg.deduplicate = true) {entries : List Entry}
    (whole : (ofEntries cfg src entries).truncated = false) :
    (ofEntries cfg src entries).steps.toList.map some =
      (entries.splitBy fun a b => a.line == b.line && Plain.sameFields a.vars b.vars).map (groupStep? src) := by
  rw [truncated_ofEntries, decide_eq_false_iff_not, Nat.not_lt] at whole
  have together : Entry.joins cfg = fun a b => a.line == b.line && Plain.sameFields a.vars b.vars := by
    funext a b
    rw [Entry.joins, on, Bool.true_and]
    rfl
  rw [← together, (ofEntries_holds cfg src entries).steps, heldGroups_of_le whole]
  rfl

/-- A recorder that coalesces and has dropped nothing has one step for each maximal run of entries that follow each
other with one line and the same variables. It shows line, variables, block and condition of the last of them and the
captures of all. Its kind is that of the last diagnostic or error, or else of the last entry, and its message is the
last one that a diagnostic or error has, or else the last one before these. So it is after any changes of the memory
and of the place in the program with any events among them, and so it is in the trace of any run. -/
theorem coalescing_in_closed_form (cfg : Config) (src : Source) (clock : Clock) (on : cfg.deduplicate = true) :
    (∀ moves : List Move,
      let recorder := ((State.start clock cfg.frames).afterMoves cfg src moves).recorder
      recorder.truncated = false →
        recorder.steps.toList.map some =
          (((State.start clock cfg.frames).offered cfg moves).splitBy fun a b =>
            a.line == b.line && Plain.sameFields a.vars b.vars).map (groupStep? src)) ∧
    ∀ (tree : Tree) (t : Trace), (trace cfg src tree clock).1 = .ok t → t.stats.truncated = false →
      t.steps.map some =
        (((moments (runTree cfg src tree clock).2.journal.toList).map Moment.entry).splitBy fun a b =>
          a.line == b.line && Plain.sameFields a.vars b.vars).map (groupStep? src) := by
  constructor
  · intro moves recorder whole
    have given : recorder = .ofEntries cfg src _ := recorder_afterMoves_start cfg src clock moves
    rw [given] at whole ⊢
    exact Recorder.steps_ofEntries on whole
  · intro tree t ht whole
    obtain ⟨-, rfl⟩ := runTree_of_trace ht
    have recorded := (runTree_recorded cfg src tree clock).recorder
    rw [Recorder.ofMoments_eq] at recorded
    have none : (runTree cfg src tree clock).2.recorder.truncated = false := whole
    show (runTree cfg src tree clock).2.recorder.steps.toList.map some = _
    rw [recorded] at none ⊢
    exact Recorder.steps_ofEntries on none

/-- Two diagnostics on a line, with a statement that prints between them, and then another line. -/
theorem coalescing_in_closed_form_three_in_one :
    let moves := [Move.record { line := 1, kind := .diagnostic, message := some "a", captured := [.bool true] },
      .record { line := 1, message := some "b", captured := [.bool false] },
      .record { line := 1, kind := .diagnostic }, .record { line := 2 }]
    let s := (State.start (.ticking 0)).afterMoves {} ⟨"x\ny"⟩ moves
    s.recorder.truncated = false ∧
    s.recorder.steps.toList.map (fun step => (step.line, step.kind, step.message, step.output)) =
      [(1, StepKind.diagnostic, some ("a" : Text), some (Plain.list [.bool true, .bool false])),
        (2, .statement, none, none)] ∧
    s.recorder.steps.toList.map some =
      (((State.start (.ticking 0)).offered {} moves).splitBy fun a b =>
        a.line == b.line && Plain.sameFields a.vars b.vars).map (groupStep? ⟨"x\ny"⟩) := by
  intro moves s
  exact ⟨rfl, by decide +kernel, (coalescing_in_closed_form {} ⟨"x\ny"⟩ (.ticking 0) rfl).1 moves rfl⟩

end ScriptTrace
