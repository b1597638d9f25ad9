import ScriptTrace.Run.Eval
/-!
# Operations that only add

Most operations of the language read. The only traces they leave in the memory are new containers and new lines of the
log; variables, callable functions, the console queue and the containers that are there already stay as they are, also
when a fault cuts the operation short. The memory **grows**. Two operations are different: a write and a declaration.

An act **moves** along a relation of states if the state it leaves is related to the state it starts from. Two acts go
in **lockstep** if, run from related states, they end alike and leave related states. There is one lemma for each way of
putting acts together, in the first case for relations that are reflexive and transitive.
-/
namespace ScriptTrace

open Act

/-! ## Moves -/

/-- Whether the act leaves a state that is related to the one it starts from, however it ends. -/
def Act.Moves {σ α : Type} (R : σ → σ → Prop) (x : Act σ α) : Prop :=
  ∀ s, R s (x.exec s).2

namespace Act.Moves

variable {σ α β : Type} {R : σ → σ → Prop} [Std.Refl R] {x : Act σ α}

theorem done (outcome : Except Fault α) : (done outcome : Act σ α).Moves R :=
  fun s => Std.Refl.refl s

theorem pure (a : α) : (pure a : Act σ α).Moves R :=
  done _

theorem throw (fault : Fault) : (throw fault : Act σ α).Moves R :=
  done _

variable [Trans R R R]

omit [Std.Refl R] in
theorem bind {f : α → Act σ β} (hx : x.Moves R) (hf : ∀ a, (f a).Moves R) : (x >>= f).Moves R := by
  intro s
  have first := hx s
  rw [exec_bind]
  rcases he : x.exec s with ⟨fault | a, t⟩ <;> rw [he] at first
  · exact first
  · exact Trans.trans first (hf a t)

omit [Std.Refl R] in
theorem handle {handler : Fault → Option (Act σ α)} (hx : x.Moves R)
    (hh : ∀ fault, ∀ y ∈ handler fault, y.Moves R) : (x.handle handler).Moves R := by
  intro s
  have first := hx s
  unfold Act.handle
  rw [exec_follow]
  rcases he : x.exec s with ⟨fault | a, t⟩ <;> rw [he] at first
  · dsimp only
    cases hy : handler fault with
    | none => exact first
    | some y => exact Trans.trans first (hh fault y hy t)
  · exact first

/-- What follows a look at the state may be chosen by it. -/
theorem get {f : σ → Act σ β} (hf : ∀ s, (f s).Moves R) : (MonadState.get >>= f : Act σ β).Moves R :=
  bind (fun s => Std.Refl.refl s) hf

theorem discard (hx : x.Moves R) : (discard x).Moves R :=
  hx.bind fun _ => pure _

omit [Std.Refl R] [Trans R R R] in
theorem ite {c : Prop} [Decidable c] {y : Act σ α} (hx : x.Moves R) (hy : y.Moves R) :
    (if c then x else y).Moves R := by
  split
  · exact hx
  · exact hy

end Act.Moves

/-! ## Lockstep -/

/-- Whether two acts, run from related states, end alike, with results that correspond, and leave related states. -/
def Act.Lockstep {σ α : Type} (R : σ → σ → Prop) (f : α → α) (x x' : Act σ α) : Prop :=
  ∀ s t, R s t → (x'.exec t).1 = (x.exec s).1.map f ∧ R (x.exec s).2 (x'.exec t).2

namespace Act.Lockstep

variable {σ α β : Type} {R : σ → σ → Prop} {f : α → α} {g : β → β} {x x' : Act σ α}

theorem pure (f : α → α) (a : α) : Lockstep R f (pure a : Act σ α) (pure (f a)) :=
  fun _ _ related => ⟨rfl, related⟩

theorem throw (fault : Fault) : Lockstep R f (throw fault : Act σ α) (throw fault) :=
  fun _ _ related => ⟨rfl, related⟩

theorem bind {k k' : α → Act σ β} (hx : Lockstep R f x x') (hk : ∀ a, Lockstep R g (k a) (k' (f a))) :
    Lockstep R g (x >>= k) (x' >>= k') := by
  intro s t related
  obtain ⟨alike, left⟩ := hx s t related
  rw [exec_bind, exec_bind]
  rcases hs : x.exec s with ⟨fault | a, s'⟩ <;> rcases ht : x'.exec t with ⟨fault' | a', t'⟩ <;>
    rw [hs, ht] at alike left
  · cases alike
    exact ⟨rfl, left⟩
  · cases alike
  · cases alike
  · cases alike
    exact hk a s' t' left

/-- What follows a look at the states may be chosen by them. -/
theorem get {k k' : σ → Act σ α} (hk : ∀ s t, R s t → Lockstep R f (k s) (k' t)) :
    Lockstep R f (MonadState.get >>= k) (MonadState.get >>= k') :=
  fun s t related => hk s t related s t related

theorem ite {c c' : Prop} [Decidable c] [Decidable c'] (same : c' ↔ c) {y y' : Act σ α} (hx : Lockstep R f x x')
    (hy : Lockstep R f y y') : Lockstep R f (if c then x else y) (if c' then x' else y') := by
  by_cases h : c
  · rw [if_pos h, if_pos (same.2 h)]
    exact hx
  · rw [if_neg h, if_neg (mt same.1 h)]
    exact hy

theorem discard (hx : Lockstep R f x x') : Lockstep R id (discard x) (discard x') :=
  hx.bind fun _ => pure id _

end Act.Lockstep

/-! ## Growth -/

/-- Whether the second heap has the containers of the first in their places, on a stack of the same size. -/
structure Heap.Grows (h h' : Heap) : Prop where
  arrays : h.arrays.toList <+: h'.arrays.toList
  objects : h.objects.toList <+: h'.objects.toList
  frames : h'.frames = h.frames

/-- Whether the second memory differs from the first by new containers and by its log only. -/
structure Memory.Grows (m m' : Memory) : Prop where
  heap : m.heap.Grows m'.heap
  env : m'.env = m.env
  functions : m'.functions = m.functions
  pending : m'.pending = m.pending

instance : Std.Refl Memory.Grows where
  refl _ := ⟨⟨List.prefix_rfl, List.prefix_rfl, rfl⟩, rfl, rfl, rfl⟩

instance : Trans Memory.Grows Memory.Grows Memory.Grows where
  trans hab hbc := ⟨⟨hab.heap.arrays.trans hbc.heap.arrays, hab.heap.objects.trans hbc.heap.objects,
      hbc.heap.frames.trans hab.heap.frames⟩,
    hbc.env.trans hab.env, hbc.functions.trans hab.functions, hbc.pending.trans hab.pending⟩

/-! ## Operations -/

theorem Op.exec_asRun {α : Type} {x : Op α} {s : State} {outcome : Except Fault α} {m : Memory}
    (h : x.exec s.toMemory = (outcome, m)) :
    x.asRun.exec s = (outcome, { s with toMemory := m, raised := s.raised + failuresIn (cut? outcome) }) := by
  simp only [Op.asRun, h]

/-- Whether all that an operation does to the memory is to let it grow. -/
def Op.Adds {α : Type} (x : Op α) : Prop :=
  x.Moves Memory.Grows

namespace Op.Adds

variable {α β : Type}

theorem pure (a : α) : (pure a : Op α).Adds :=
  Moves.pure a

theorem throw (fault : Fault) : (throw fault : Op α).Adds :=
  Moves.throw fault

theorem bind {x : Op α} {f : α → Op β} (hx : x.Adds) (hf : ∀ a, (f a).Adds) : (x >>= f).Adds :=
  Moves.bind hx hf

theorem get {f : Memory → Op α} (hf : ∀ m, (f m).Adds) : (MonadState.get >>= f : Op α).Adds :=
  Moves.get hf

theorem log (level : Level) (origin : Origin) (parts : List Text) : (log level origin parts).Adds :=
  fun _ => ⟨⟨List.prefix_rfl, List.prefix_rfl, rfl⟩, rfl, rfl, rfl⟩

theorem warn (origin : Origin) (parts : List Text) : (warn origin parts).Adds :=
  log _ _ _

theorem ofFault (r : Except Fault α) : (ofFault r).Adds := by
  cases r with
  | ok a => exact pure a
  | error fault => exact throw fault

theorem newArray (items : List Value) : (newArray items).Adds := by
  refine fun m => ⟨⟨?_, List.prefix_rfl, rfl⟩, rfl, rfl, rfl⟩
  show m.heap.arrays.toList <+: (m.heap.arrays.push items).toList
  rw [Array.toList_push]
  exact List.prefix_append _ _

theorem newObject (entries : Entries) : (newObject entries).Adds := by
  refine fun m => ⟨⟨List.prefix_rfl, ?_, rfl⟩, rfl, rfl, rfl⟩
  show m.heap.objects.toList <+: (m.heap.objects.push entries).toList
  rw [Array.toList_push]
  exact List.prefix_append _ _

theorem captured (args : List Value) : (captured args).Adds := by
  unfold Op.captured
  split
  · exact pure _
  · exact newArray _

theorem resolve? (x : Text) : (resolve? x).Adds :=
  get fun _ => pure _

theorem lookupName (line : Nat) (x : Text) : (lookupName line x).Adds := by
  refine get fun m => ?_
  split
  · exact pure _
  · exact .ite (pure _) (.ite (pure _) (.ite (pure _) (.ite (pure _) ((warn _ _).bind fun _ => pure _))))

theorem screen (strangers : Strangers) (look : List Value → Heap → Look) : (screen strangers look).Adds := by
  cases strangers with
  | none => exact pure ()
  | some strangers =>
    refine get fun m => ?_
    split
    · exact throw _
    · exact pure ()

variable (strangers : Strangers)

theorem applyUnary (line : Nat) (op : UnaryOp) (v : Value) : (applyUnary strangers line op v).Adds := by
  refine (screen _ _).bind fun _ => get fun m => ?_
  cases op with
  | minus | plus => exact (ofFault _).bind fun _ => pure _
  | complement => exact ofFault _
  | not | typeName | void => exact pure _
  | unsupported spelling => exact (warn _ _).bind fun _ => pure _

theorem applyBinary (op : BinaryOp) (l r : Value) : (applyBinary strangers op l r).Adds :=
  (screen _ _).bind fun _ => get fun _ => ofFault _

theorem tested (v : Value) : (tested strangers v).Adds :=
  (screen _ _).bind fun _ => pure v

theorem shownText (v : Value) : (shownText strangers v).Adds :=
  (screen _ _).bind fun _ => get fun _ => pure _

theorem readProperty (line : Nat) (holder key : Value) : (readProperty strangers line holder key).Adds := by
  refine (screen _ _).bind fun _ => get fun m => (ofFault _).bind fun v => ?_
  split
  · exact (warn _ _).bind fun _ => pure _
  · exact pure _

end Op.Adds

end ScriptTrace
