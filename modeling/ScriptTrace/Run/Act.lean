import ScriptTrace.Fault
/-!
# Acts

An **act** works on a state. It ends with a result or is cut short by a fault, and it leaves a state in
either case. It also says which states it **passes through** on its way; that is a proposition, so
nothing is computed for it. The first and the last state are always among them.

Every act is put together from the few kinds of this module: it ends, moves to another state, or
follows the outcome of an act by another act. A property that these three respect holds of every run.
-/
namespace ScriptTrace

structure Act (σ α : Type) where
  /-- The outcome from a state, and the state it leaves. -/
  exec : σ → Except Fault α × σ
  /-- Whether the act passes through the second state when it is run from the first. -/
  passes : σ → σ → Prop
  passes_first : ∀ s, passes s s
  passes_last : ∀ s, passes s (exec s).2

namespace Act

variable {σ α β : Type}

/-- Ends with an outcome at once. -/
@[inline] def done (outcome : Except Fault α) : Act σ α where
  exec s := (outcome, s)
  passes s t := t = s
  passes_first _ := rfl
  passes_last _ := rfl

/-- Moves to the state that `f` gives, with its result. -/
@[inline] def update (f : σ → α × σ) : Act σ α where
  exec s := match f s with | (a, s) => (.ok a, s)
  passes s t := t = s ∨ t = (f s).2
  passes_first _ := .inl rfl
  passes_last _ := .inr rfl

/-- Goes on after `x` as its outcome says. -/
@[inline] def follow (x : Act σ α) (next : Except Fault α → Act σ β) : Act σ β where
  exec s := match x.exec s with | (outcome, s) => (next outcome).exec s
  passes s t := x.passes s t ∨ (next (x.exec s).1).passes (x.exec s).2 t
  passes_first s := .inl (x.passes_first s)
  passes_last _ := .inr ((next _).passes_last _)

instance : Monad (Act σ) where
  pure a := done (.ok a)
  bind x f := x.follow fun
    | .ok a => f a
    | .error fault => done (.error fault)

instance : MonadStateOf σ (Act σ) where
  get := update fun s => (s, s)
  set s := update fun _ => ((), s)
  modifyGet := update

/-- Goes on as `handler` says after a fault of `x` that it has an answer to. -/
@[inline] def handle (x : Act σ α) (handler : Fault → Option (Act σ α)) : Act σ α :=
  x.follow fun
    | .ok a => pure a
    | .error fault => (handler fault).getD (done (.error fault))

instance : MonadExceptOf Fault (Act σ) where
  throw fault := done (.error fault)
  tryCatch x handler := x.handle fun fault => some (handler fault)

/-- Runs `cleanup` after `x`, whether or not a fault cut `x` short. -/
@[inline] def ensuring (x : Act σ α) (cleanup : Act σ Unit) : Act σ α :=
  x.follow fun outcome => do
    cleanup
    done outcome

/-- Runs `x` between two moves of the state; the second, which is made on every way out, may look back
at the state before the first. -/
@[inline] def bracket (enter : σ → σ) (x : Act σ α) (leave : σ → σ → σ) : Act σ α := do
  let outer ← get
  set (enter outer)
  ensuring x (modify (leave outer))

/-! ## What acts do -/

variable {x : Act σ α} {f : α → Act σ β} {a : α} {fault : Fault} {s s' t : σ}

@[simp] theorem exec_pure : (pure a : Act σ α).exec s = (.ok a, s) := rfl

@[simp] theorem exec_get : (get : Act σ σ).exec s = (.ok s, s) := rfl

@[simp] theorem exec_set : (set t : Act σ PUnit).exec s = (.ok (), t) := rfl

@[simp] theorem exec_modify (g : σ → σ) : (modify g : Act σ PUnit).exec s = (.ok (), g s) := rfl

@[simp] theorem exec_modifyGet (g : σ → α × σ) :
    (modifyGet g : Act σ α).exec s = (.ok (g s).1, (g s).2) := rfl

@[simp] theorem exec_throw : (throw fault : Act σ α).exec s = (.error fault, s) := rfl

theorem exec_follow (x : Act σ α) (next : Except Fault α → Act σ β) (s : σ) :
    (x.follow next).exec s = (next (x.exec s).1).exec (x.exec s).2 := rfl

theorem exec_bind (x : Act σ α) (f : α → Act σ β) (s : σ) :
    (x >>= f).exec s = match x.exec s with
      | (.ok a, s') => (f a).exec s'
      | (.error fault, s') => (.error fault, s') := by
  show (match (x.exec s).1 with | .ok a => f a | .error fault => done _).exec (x.exec s).2 = _
  rcases x.exec s with ⟨_ | _, s'⟩ <;> rfl

theorem exec_bind_ok (h : x.exec s = (.ok a, s')) : (x >>= f).exec s = (f a).exec s' := by
  rw [exec_bind, h]

theorem exec_bind_error (h : x.exec s = (.error fault, s')) :
    (x >>= f).exec s = (.error fault, s') := by
  rw [exec_bind, h]

theorem exec_bind_eq_ok {b : β} :
    (x >>= f).exec s = (.ok b, t) ↔ ∃ a s', x.exec s = (.ok a, s') ∧ (f a).exec s' = (.ok b, t) := by
  constructor
  · intro h
    rw [exec_bind] at h
    rcases hx : x.exec s with ⟨_ | a, s'⟩ <;> rw [hx] at h
    · cases h
    · exact ⟨a, s', rfl, h⟩
  · rintro ⟨a, s', hx, hf⟩
    exact (exec_bind_ok hx).trans hf

theorem exec_bind_assoc {γ : Type} (x : Act σ α) (f : α → Act σ β) (g : β → Act σ γ) (s : σ) :
    ((x >>= f) >>= g).exec s = (x >>= fun a => f a >>= g).exec s := by
  simp only [exec_bind]
  rcases x.exec s with ⟨_ | _, _⟩ <;> rfl

theorem exec_bracket (enter : σ → σ) (x : Act σ α) (leave : σ → σ → σ) (s : σ) :
    (bracket enter x leave).exec s = ((x.exec (enter s)).1, leave s (x.exec (enter s)).2) := rfl

theorem passes_bracket (enter : σ → σ) (x : Act σ α) (leave : σ → σ → σ) :
    (bracket enter x leave).passes s t ↔ t = s ∨ x.passes (enter s) t ∨ t = leave s (x.exec (enter s)).2 := by
  constructor
  · rintro ((h | h) | (h | h) | h | (h | h) | h)
    · exact .inl h
    · exact .inl h
    · exact .inl h
    · exact .inr (.inl (h ▸ x.passes_first _))
    · exact .inr (.inl h)
    · exact .inr (.inl (h ▸ x.passes_last _))
    · exact .inr (.inr h)
    · exact .inr (.inr h)
  · rintro (h | h | h)
    · exact .inl (.inl h)
    · exact .inr (.inr (.inl h))
    · exact .inr (.inr (.inr (.inr h)))

/-! ## What acts leave alone -/

/-- Whether the act leaves what `view` shows as it was, however it ends. -/
def Keeps {γ : Type} (x : Act σ α) (view : σ → γ) : Prop :=
  ∀ s, view (x.exec s).2 = view s

namespace Keeps

variable {γ : Type} {view : σ → γ}

theorem of_exec (h : x.Keeps view) {outcome : Except Fault α} (he : x.exec s = (outcome, t)) : view t = view s := by
  have kept := h s
  rwa [he] at kept

theorem done (outcome : Except Fault α) : (done outcome : Act σ α).Keeps view := fun _ => rfl

theorem follow {next : Except Fault α → Act σ β} (hx : x.Keeps view)
    (h : ∀ outcome, (next outcome).Keeps view) : (x.follow next).Keeps view := by
  intro s
  rw [exec_follow, h, hx]

theorem bind (hx : x.Keeps view) (hf : ∀ a, (f a).Keeps view) : (x >>= f).Keeps view := by
  refine hx.follow fun outcome => ?_
  cases outcome with
  | ok a => exact hf a
  | error fault => exact done _

theorem ensuring {cleanup : Act σ Unit} (hx : x.Keeps view) (hc : cleanup.Keeps view) :
    (x.ensuring cleanup).Keeps view :=
  hx.follow fun _ => hc.bind fun _ => done _

end Keeps

end Act

end ScriptTrace
