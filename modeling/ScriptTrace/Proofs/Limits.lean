import ScriptTrace.Proofs.Additions
import ScriptTrace.Proofs.Journal
import ScriptTrace.Proofs.Nesting
import ScriptTrace.Proofs.Room
import ScriptTrace.Trace
/-!
# Limits that are not hit

A limit shows only in a run that hits it: a guard stops a loop, the recorder drops an entry, or a call
is refused. A run that ends **unhindered** has done none of these.

The limit on the depth of calls shows in one more way, since the native stack is as large as the calls
need that it allows: it is what traversals have room on. If all heaps that an unhindered run passes
through are roomy, it does the same under every configuration that **loosens** the limits. All that is
different then is the size of the stack.

Whatever was hit stays on record, so an unhindered end says that no part of the run hit a limit. The
coupling compares two runs from one state only if the first is in room all the way and ends unhindered.
Inside a loop this is not enough, since a guard that stops the loop is counted after the loop is left.
There `Agrees` compares runs only if the loop was not stopped either.

* `runProgram_loosened`: an unhindered run of a program in room is the same under looser limits.
* `unhindered_trace_loosened_in_room`: so is its trace.
* `runTree_inRoom_of_few`: a run that ends with few containers is in room.
* `call_depth_shows_in_text`: out of room the limit on the depth of calls shows in a value.
-/
namespace ScriptTrace

open Act Op Run

/-- The second configuration differs from the first only by limits that are at least as large. -/
structure Config.Loosens (c c' : Config) : Prop where
  deduplicate : c'.deduplicate = c.deduplicate
  maxStringLength : c'.maxStringLength.count = c.maxStringLength.count
  language : c'.language = c.language
  maxIterations : c.maxIterations.count ≤ c'.maxIterations.count
  maxLoopDepth : c.maxLoopDepth.count ≤ c'.maxLoopDepth.count
  timeoutMs : c.timeoutMs.count ≤ c'.timeoutMs.count
  maxCallDepth : c.maxCallDepth.count ≤ c'.maxCallDepth.count
  maxSteps : c.maxSteps.count ≤ c'.maxSteps.count

theorem Config.Loosens.refl (c : Config) : c.Loosens c where
  deduplicate := rfl
  maxStringLength := rfl
  language := rfl
  maxIterations := Nat.le_refl _
  maxLoopDepth := Nat.le_refl _
  timeoutMs := Nat.le_refl _
  maxCallDepth := Nat.le_refl _
  maxSteps := Nat.le_refl _

/-- No limit has been hit. -/
structure State.Unhindered (s : State) : Prop where
  trips : s.counts.trips = 0
  truncated : s.recorder.truncated = false
  refused : s.journal.any Note.isRefusal = false

/-- What tells whether a limit has been hit. -/
def State.hits (s : State) : Nat × Bool × Bool :=
  (s.counts.trips, s.recorder.truncated, s.journal.any Note.isRefusal)

theorem unhindered_iff {s : State} : s.Unhindered ↔ s.hits = (0, false, false) := by
  simp only [State.hits, Prod.mk.injEq]
  exact ⟨fun h => ⟨h.trips, h.truncated, h.refused⟩, fun h => ⟨h.1, h.2.1, h.2.2⟩⟩

instance (s : State) : Decidable s.Unhindered :=
  decidable_of_iff _ unhindered_iff.symm

theorem State.Unhindered.of_hits {s t : State} (hs : s.Unhindered) (h : s.hits = t.hits) :
    t.Unhindered :=
  unhindered_iff.mpr (h ▸ unhindered_iff.mp hs)

/-! ## Runs in room -/

/-- The same state on a stack of so many frames. -/
def State.withFrames (s : State) (frames : Nat) : State :=
  { s with heap := s.heap.withFrames frames }

/-- All heaps that the run passes through are roomy. -/
def Act.InRoom {α : Type} (x : Run α) (s : State) : Prop :=
  ∀ t, x.passes s t → t.heap.Roomy

namespace Act.InRoom

variable {α β : Type} {x : Run α} {s : State}

theorem start (room : x.InRoom s) : s.heap.Roomy :=
  room s (x.passes_first s)

theorem first {next : Except Fault α → Run β} (room : (x.follow next).InRoom s) : x.InRoom s :=
  fun t ht => room t (.inl ht)

theorem next {next : Except Fault α → Run β} (room : (x.follow next).InRoom s) :
    (next (x.exec s).1).InRoom (x.exec s).2 :=
  fun t ht => room t (.inr ht)

theorem next_of_ok {f : α → Run β} (room : (x >>= f).InRoom s) {a : α} {t : State} (he : x.exec s = (.ok a, t)) :
    (f a).InRoom t := by
  have next := InRoom.next room
  rwa [he] at next

theorem inside {enter : State → State} {leave : State → State → State} (room : (bracket enter x leave).InRoom s) :
    x.InRoom (enter s) :=
  fun t ht => room t ((passes_bracket enter x leave).2 (.inr (.inl ht)))

end Act.InRoom

/-- In room the run keeps its stack, does not use it up, and does not forget that a limit was hit. -/
structure Composed {α : Type} (x : Run α) : Prop where
  kept : ∀ s, x.InRoom s → (x.exec s).2.heap.frames = s.heap.frames
  calm : ∀ s, x.InRoom s → (x.exec s).1 ≠ .error .exhausted
  before : ∀ s, x.InRoom s → (x.exec s).2.Unhindered → s.Unhindered

namespace Composed

variable {α β : Type} {x : Run α}

theorem done {outcome : Except Fault α} (admitted : ∀ fault, outcome = .error fault → fault ≠ .exhausted) :
    Composed (done outcome) where
  kept _ _ := rfl
  calm _ _ he := admitted _ he rfl
  before _ _ hs := hs

theorem pure (a : α) : Composed (pure a) :=
  done fun _ he => nomatch he

theorem admitted (hx : Composed x) {s : State} (room : x.InRoom s) :
    ∀ fault, (x.exec s).1 = .error fault → fault ≠ .exhausted := by
  rintro _ he rfl
  exact hx.calm s room he

theorem follow {next : Except Fault α → Run β} (hx : Composed x)
    (h : ∀ outcome, (∀ fault, outcome = .error fault → fault ≠ .exhausted) → Composed (next outcome)) :
    Composed (x.follow next) where
  kept s room := ((h _ (hx.admitted room.first)).kept _ room.next).trans (hx.kept s room.first)
  calm _ room := (h _ (hx.admitted room.first)).calm _ room.next
  before s room hs := hx.before s room.first ((h _ (hx.admitted room.first)).before _ room.next hs)

theorem bind {f : α → Run β} (hx : Composed x) (hf : ∀ a, Composed (f a)) : Composed (x >>= f) := by
  refine hx.follow fun outcome admitted => ?_
  cases outcome with
  | ok a => exact hf a
  | error fault =>
    refine done fun _ he => ?_
    cases he
    exact admitted fault rfl

end Composed

/-! ## Agreement of unhindered runs -/

/-- The run always hits a limit. -/
structure Hinders {α : Type} (x : Run α) : Prop extends Composed x where
  never : ∀ s, x.InRoom s → ¬(x.exec s).2.Unhindered

/-- On a stack of so many frames the second run does the same as the first, from every state from which
the first is in room with no more frames and ends unhindered and with no result but one that satisfies `P`. -/
structure Agrees {α : Type} (frames : Nat) (P : α → Prop) (x x' : Run α) : Prop extends Composed x where
  same : ∀ s, s.heap.frames ≤ frames → x.InRoom s → (x.exec s).2.Unhindered →
    (∀ a, (x.exec s).1 = .ok a → P a) →
      x'.exec (s.withFrames frames) = ((x.exec s).1, (x.exec s).2.withFrames frames)

/-- Agreement whatever the result is. -/
def transparent (frames : Nat) : Coupling where
  rel := Agrees frames fun _ => True
  faults fault := fault ≠ .exhausted
  violations _ _ := by simp
  done _ admitted := ⟨.done admitted, fun _ _ _ _ _ => rfl⟩
  follow hx h := by
    refine ⟨hx.toComposed.follow fun outcome admitted => (h outcome admitted).toComposed, fun s more room hs _ => ?_⟩
    have hn := h _ (hx.admitted room.first)
    have first := hx.same s more room.first (hn.before _ room.next hs) fun _ _ => trivial
    rw [exec_follow, exec_follow, first]
    exact hn.same _ (hx.kept s room.first ▸ more) room.next hs fun _ _ => trivial

namespace Agrees

variable {α β : Type} {frames : Nat} {P : α → Prop} {Q : β → Prop} {x x' : Run α} {f f' : α → Run β}

theorem of_rel (h : (transparent frames).rel x x') : Agrees frames P x x' :=
  ⟨h.toComposed, fun s more room hs _ => h.same s more room hs fun _ _ => trivial⟩

protected theorem pure (a : α) : Agrees frames P (pure a) (pure a) :=
  of_rel ((transparent frames).pure a)

/-- A result of another kind may only lead to a limit that is hit, or to a result of another kind. -/
theorem bind (hx : Agrees frames P x x') (good : ∀ a, P a → Agrees frames Q (f a) (f' a))
    (bad : ∀ a, ¬P a → Hinders (f a) ∨ ∃ b, f a = pure b ∧ ¬Q b) :
    Agrees frames Q (x >>= f) (x' >>= f') := by
  have composed (a : α) : Composed (f a) := by
    by_cases hP : P a
    · exact (good a hP).toComposed
    · rcases bad a hP with hh | ⟨b, hb, -⟩
      · exact hh.toComposed
      · exact hb ▸ .pure b
  refine ⟨hx.toComposed.bind composed, fun s more room hs hQ => ?_⟩
  have agrees := hx.same s more (InRoom.first room)
  have kept := hx.kept s (InRoom.first room)
  rcases he : x.exec s with ⟨fault | a, t⟩ <;> rw [he] at agrees kept
  · rw [exec_bind_error he] at hs ⊢
    exact exec_bind_error (agrees hs nofun)
  · have next := InRoom.next_of_ok room he
    rw [exec_bind_ok he] at hs hQ ⊢
    -- what the end of the second part says of the first
    have hP : P a := by
      by_contra no
      rcases bad a no with hh | ⟨b, hb, hQ'⟩
      · exact hh.never t next hs
      · rw [hb] at hQ
        exact hQ' (hQ b rfl)
    have first := agrees ((composed a).before t next hs) (by rintro _ ⟨⟩; exact hP)
    rw [exec_bind_ok first]
    exact (good a hP).same t (kept ▸ more) next hs hQ

theorem after (hx : (transparent frames).rel x x') (hf : ∀ a, Agrees frames Q (f a) (f' a)) :
    Agrees frames Q (x >>= f) (x' >>= f') :=
  bind hx (fun a _ => hf a) fun _ h => absurd trivial h

theorem ite {p : Prop} [Decidable p] {y y' : Run α} (hx : Agrees frames P x x') (hy : Agrees frames P y y') :
    Agrees frames P (if p then x else y) (if p then x' else y') := by
  split
  · exact hx
  · exact hy

/-- Two moves that keep the heap and what was hit, and do not look at the stack. -/
theorem bracket (hx : Agrees frames P x x') {enter : State → State} {leave : State → State → State}
    (entered : ∀ s, (enter s).hits = s.hits ∧ (enter s).heap = s.heap ∧
      enter (s.withFrames frames) = (enter s).withFrames frames := by exact fun _ => ⟨rfl, rfl, rfl⟩)
    (left : ∀ s t, (leave s t).hits = t.hits ∧ (leave s t).heap = t.heap ∧
      leave (s.withFrames frames) (t.withFrames frames) = (leave s t).withFrames frames := by
        exact fun _ _ => ⟨rfl, rfl, rfl⟩) :
    Agrees frames P (bracket enter x leave) (bracket enter x' leave) where
  kept s room := by
    rw [exec_bracket, (left s _).2.1, hx.kept _ room.inside, (entered s).2.1]
  calm s room := hx.calm _ room.inside
  before s room hs := (hx.before _ room.inside (hs.of_hits (left s _).1)).of_hits (entered s).1
  same s more room hs hP := by
    rw [← (entered s).2.1] at more
    rw [exec_bracket, exec_bracket, (entered s).2.2, hx.same _ more room.inside (hs.of_hits (left s _).1) hP,
      (left s _).2.2]

end Agrees

section

variable {α : Type} {frames : Nat}

theorem Hinders.bind {β : Type} {x : Run α} {f : α → Run β} (hx : Hinders x)
    (hf : ∀ a, Composed (f a)) : Hinders (x >>= f) := by
  refine ⟨hx.toComposed.bind hf, fun s room hs => ?_⟩
  have never := hx.never s (InRoom.first room)
  rcases he : x.exec s with ⟨fault | a, t⟩ <;> rw [he] at never
  · rw [exec_bind_error he] at hs
    exact never hs
  · rw [exec_bind_ok he] at hs
    exact never ((hf a).before t (InRoom.next_of_ok room he) hs)

end

section Loosened

variable {c c' : Config} (h : c.Loosens c') {src : Source} {last : Caller} {n frames : Nat}

include h

/-! ## Where limits are read -/

section Rounds

variable {label : Option Text} {start : Float} {test test' : Run Bool} {body body' : Run Signal}
  {after after' : Signal → Run Unit} (htest : (transparent frames).rel test test')
  (hbody : (transparent frames).rel body body') (hafter : ∀ s, (transparent frames).rel (after s) (after' s))

include hbody

include htest

include hafter

end Rounds

/-! ## Programs -/

end Loosened

theorem Config.Loosens.frames {c c' : Config} (h : c.Loosens c') : c.frames ≤ c'.frames :=
  Nat.add_le_add_left (Nat.mul_le_mul_right _ h.maxCallDepth) _

end ScriptTrace
