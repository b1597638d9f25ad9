import ScriptTrace.Run.Exec
/-!
# What operations leave alone

The operations of the language work on heap, variables and log. They make no function callable and do not touch
the console queue; `register` alone does the first, and only a run that records an event empties the queue. The
faults they end with are failures, bad indices and exhaustion: a jump with nowhere to go is no operation, and a misfit
needs a heap that a caller has put something into.
-/
namespace ScriptTrace

open Act

/-- Whether a computation on values ends with faults of `F` only. -/
def Raises {α : Type} (F : Fault → Prop) (x : Except Fault α) : Prop :=
  ∀ f, x = .error f → F f

namespace Raises

variable {α β : Type} {F : Fault → Prop} {x : Except Fault α}

theorem ok (a : α) : Raises F (.ok a : Except Fault α) := fun _ h => nomatch h

theorem error {f : Fault} (hf : F f) : Raises F (.error f : Except Fault α) := by
  rintro _ ⟨⟩
  exact hf

theorem bind {g : α → Except Fault β} (hx : Raises F x) (hg : ∀ a, Raises F (g a)) : Raises F (x >>= g) := by
  intro f he
  cases x with
  | error fault =>
    cases he
    exact hx _ rfl
  | ok a => exact hg a f he

theorem map (hx : Raises F x) (g : α → β) : Raises F (x.map g) := by
  intro f he
  cases x with
  | error fault =>
    cases he
    exact hx _ rfl
  | ok a => cases he

theorem ite {c : Prop} [Decidable c] {y : Except Fault α} (hx : Raises F x) (hy : Raises F y) :
    Raises F (if c then x else y) := by
  split
  · exact hx
  · exact hy

end Raises

/-- Whether the faults that the operations on a heap end with, but for failures that name a line, are faults of `F`. -/
structure Heap.Faults (F : Fault → Prop) (h : Heap) : Prop where
  failure : ∀ cause, F (.failure cause none)
  badIndex : ∀ b, F (.badIndex b)
  joinText : ∀ v : Value, Raises F (v.joinText h)

/-- Whether a fault is one that an operation may end with, if its failures name lines of `P` only. -/
def Fault.Raisable (P : Nat → Prop) : Fault → Prop
  | .failure _ line => ∀ n ∈ line, P n
  | .badIndex _ | .exhausted => True
  | .violation .. | .misfit _ => False

namespace Fault.Raisable

variable {P : Nat → Prop} (cause : Cause)

theorem failure : (Fault.failure cause none).Raisable P :=
  fun _ hn => nomatch hn

theorem failureAt {line : Nat} (hline : P line) : (Fault.failure cause (some line)).Raisable P := by
  rintro n ⟨⟩
  exact hline

end Fault.Raisable

theorem Heap.faults_raisable (P : Nat → Prop) (h : Heap) : h.Faults (Fault.Raisable P) where
  failure := Fault.Raisable.failure
  badIndex _ := trivial
  joinText v := by
    unfold Value.joinText
    split
    · exact .ok _
    · exact .error trivial
    · exact .error (Fault.Raisable.failure _)

namespace Value

variable {F : Fault → Prop}

theorem capped_raises (failure : ∀ cause, F (.failure cause none)) (t : Text) : Raises F (capped t) :=
  .ite (.error (failure _)) (.ok _)

variable {h : Heap} {line : Nat} (hF : h.Faults F)

include hF

/-! ## Coercions and operators -/

theorem toNumber_raises (v : Value) : Raises F (v.toNumber h) := by
  cases v with
  | array ref => exact (hF.joinText _).map _
  | _ => exact .ok _

theorem toInt32_raises (v : Value) : Raises F (v.toInt32 h) :=
  (toNumber_raises hF v).bind fun _ => .ok _

theorem toUInt32_raises (v : Value) : Raises F (v.toUInt32 h) :=
  (toInt32_raises hF v).bind fun _ => .ok _

theorem arith_raises (op : Number → Number → Number) (l r : Value) : Raises F (arith h op l r) :=
  (toNumber_raises hF l).bind fun _ => (toNumber_raises hF r).bind fun _ => .ok _

theorem plus_raises (l r : Value) : Raises F (plus h l r) :=
  .ite ((capped_raises hF.failure _).map _) (arith_raises hF .add l r)

theorem compare_raises (rel : Relation) (l r : Value) : Raises F (compare h rel l r) := by
  unfold compare
  split
  · exact .ok _
  · exact (toNumber_raises hF _).bind fun _ => (toNumber_raises hF _).bind fun _ => .ok _

theorem looseText_raises (t : Text) (v : Value) : Raises F (looseText h t v) := by
  cases v with
  | array | object => exact (hF.joinText _).map _
  | _ => exact .ok _

theorem looseEquals_raises (l r : Value) : Raises F (looseEquals h l r) := by
  refine .ite (.ok _) (.ite (.ok _) (.ite (.ok _) (.ite ?_ (.ite ?_ ?_))))
  · exact (hF.joinText _).bind fun _ => looseText_raises hF _ _
  · exact (hF.joinText _).bind fun _ => looseText_raises hF _ _
  · split <;> exact .ok _

theorem containsKey_raises (container key : Value) : Raises F (containsKey h container key) := by
  cases container with
  | array ref =>
    refine .ite (.ok _) ((toNumber_raises hF key).bind fun n => ?_)
    cases n <;> exact .ok _
  | _ => exact .ok _

theorem bitwise_raises (op : Int → Int → Int) (l r : Value) : Raises F (bitwise h op l r) :=
  (toInt32_raises hF l).bind fun _ => (toInt32_raises hF r).bind fun _ => .ok _

theorem shift_raises {read : Heap → Value → Except Fault Int} {l : Value} (hread : Raises F (read h l))
    (op : Int → Nat → Int) (r : Value) : Raises F (shift h read op l r) :=
  hread.bind fun _ => ((toUInt32_raises hF r).bind fun _ => .ok _).bind fun _ => .ok _

theorem apply_raises (op : BinaryOp) (l r : Value) : Raises F (apply h op l r) := by
  cases op with
  | add => exact plus_raises hF l r
  | sub | mul | div | mod | pow => exact arith_raises hF _ l r
  | lt | le | gt | ge => exact (compare_raises hF _ l r).map _
  | strictEq | strictNe => exact .ok _
  | looseEq | looseNe => exact (looseEquals_raises hF l r).map _
  | bitAnd | bitOr | bitXor => exact bitwise_raises hF _ l r
  | shiftLeft | shiftRight => exact shift_raises hF (toInt32_raises hF l) _ r
  | shiftRightZero => exact shift_raises hF (toUInt32_raises hF l) _ r
  | contained => exact (containsKey_raises hF r l).map _

theorem bitNot_raises (v : Value) : Raises F (bitNot h v) :=
  (toInt32_raises hF v).bind fun _ => .ok _

/-! ## Properties -/

theorem indexOf_raises (key : Value) : Raises F key.indexOf := by
  unfold indexOf
  split
  · exact .ok _
  · refine .ite (Raises.map ?_ _) (.ok _)
    unfold digitIndex
    split
    · exact .ok _
    · exact .error (hF.badIndex _)
  · exact .ok _

theorem getProperty_raises (container key : Value) : Raises F (getProperty h container key) := by
  unfold getProperty
  split
  · exact .ite (.ok _) ((indexOf_raises hF key).bind fun _ => .ok _)
  · exact .ite (.ok _) ((indexOf_raises hF key).bind fun _ => .ok _)
  · exact .ok _
  · exact .ok _

theorem setElement_raises (ref : Nat) (key v : Value) : Raises F (setElement h ref key v) := by
  refine (indexOf_raises hF key).bind fun i => ?_
  cases i with
  | none => exact .ok _
  | some i => exact .ite (.ok _) (.ok _)

theorem setProperty_raises (named : ∀ cause, F (.failure cause (some line))) (container key v : Value) :
    Raises F (setProperty h container key v line) := by
  have length (ref : Nat) (n : Number) : Raises F (setLength h ref n line) := by
    unfold setLength
    dsimp only
    split
    · exact .ite (.ok _) (.ok _)
    · exact .error (named _)
  unfold setProperty
  split
  · exact .error (named _)
  · exact .error (named _)
  · exact .ok _
  · refine .ite ?_ (setElement_raises hF _ key v)
    cases number : v.toNumber h with
    | ok n => exact length _ n
    | error fault => exact .error (toNumber_raises hF v fault number)
  · exact .ok _

end Value

namespace Op

/-- An operation that keeps the callable functions and the console queue, and ends with raisable faults only. -/
structure Quiet {α : Type} (P : Nat → Prop) (x : Op α) : Prop where
  keeps : x.Keeps fun m => (m.functions, m.pending)
  faults : ∀ m f, (x.exec m).1 = .error f → f.Raisable P

namespace Quiet

variable {α β : Type} {P : Nat → Prop} {line : Nat}

/-- An operation that ends well and keeps functions and queue. -/
theorem of_ok {x : Op α} (h : ∀ m, ∃ a m', x.exec m = (.ok a, m') ∧ m'.functions = m.functions ∧
    m'.pending = m.pending) : x.Quiet P where
  keeps m := by
    obtain ⟨a, m', hx, hf, hp⟩ := h m
    simp only [hx, hf, hp]
  faults m f hf := by
    obtain ⟨a, m', hx, -⟩ := h m
    rw [hx] at hf
    cases hf

theorem pure (a : α) : (pure a : Op α).Quiet P :=
  of_ok fun m => ⟨a, m, rfl, rfl, rfl⟩

theorem throw {f : Fault} (hf : f.Raisable P) : (throw f : Op α).Quiet P where
  keeps _ := rfl
  faults _ _ h := by
    cases h
    exact hf

theorem bind {x : Op α} {g : α → Op β} (hx : x.Quiet P) (hg : ∀ a, (g a).Quiet P) : (x >>= g).Quiet P where
  keeps := hx.keeps.bind fun a => (hg a).keeps
  faults m f h := by
    rw [exec_bind] at h
    rcases he : x.exec m with ⟨fault | a, m'⟩ <;> rw [he] at h
    · cases h
      exact hx.faults m _ (by rw [he])
    · exact (hg a).faults m' f h

/-- What follows a look at the memory may be chosen by it. -/
theorem get {g : Memory → Op α} (hg : ∀ m, (g m).Quiet P) : (MonadState.get >>= g : Op α).Quiet P :=
  (of_ok fun m => ⟨m, m, rfl, rfl, rfl⟩).bind hg

theorem ite {c : Prop} [Decidable c] {x y : Op α} (hx : x.Quiet P) (hy : y.Quiet P) :
    (if c then x else y).Quiet P := by
  split
  · exact hx
  · exact hy

theorem log (level : Level) (origin : Origin) (parts : List Text) : (log level origin parts).Quiet P :=
  of_ok fun _ => ⟨(), _, rfl, rfl, rfl⟩

theorem warn (origin : Origin) (parts : List Text) : (warn origin parts).Quiet P :=
  log _ _ _

theorem ofFault {r : Except Fault α} (hr : Raises (Fault.Raisable P) r) : (ofFault r).Quiet P := by
  cases r with
  | ok a => exact pure a
  | error fault => exact throw (hr fault rfl)

theorem newArray (items : List Value) : (newArray items).Quiet P :=
  of_ok fun _ => ⟨_, _, rfl, rfl, rfl⟩

theorem newObject (entries : Entries) : (newObject entries).Quiet P :=
  of_ok fun _ => ⟨_, _, rfl, rfl, rfl⟩

theorem captured (args : List Value) : (captured args).Quiet P := by
  unfold Op.captured
  split
  · exact pure _
  · exact newArray _

theorem describe (v : Value) : (describe v).Quiet P :=
  of_ok fun _ => ⟨_, _, rfl, rfl, rfl⟩

theorem describeAll (vs : List Value) : (describeAll vs).Quiet P :=
  of_ok fun _ => ⟨_, _, rfl, rfl, rfl⟩

theorem declareName (name : Text) (v : Value) (constant : Bool) : (declareName name v constant).Quiet P :=
  of_ok fun _ => ⟨(), _, rfl, rfl, rfl⟩

theorem isBound (name : Text) : (isBound name).Quiet P :=
  of_ok fun _ => ⟨_, _, rfl, rfl, rfl⟩

theorem lookupName (line : Nat) (x : Text) : (lookupName line x).Quiet P := by
  refine get fun m => ?_
  split
  · exact pure _
  · exact ite (pure _) (ite (pure _) (ite (pure _) (ite (pure _) ((warn _ _).bind fun _ => pure _))))

/-! Without strangers there is nothing to look at ahead of an operation. -/

theorem applyUnary (line : Nat) (op : UnaryOp) (v : Value) : (applyUnary none line op v).Quiet P := by
  refine (pure ()).bind fun _ => get fun m => ?_
  cases op with
  | minus | plus => exact (ofFault (Value.toNumber_raises (Heap.faults_raisable P _) v)).bind fun _ => pure _
  | complement => exact ofFault (Value.bitNot_raises (Heap.faults_raisable P _) v)
  | not | typeName | void => exact pure _
  | unsupported spelling => exact (warn _ _).bind fun _ => pure _

theorem applyBinary (op : BinaryOp) (l r : Value) : (applyBinary none op l r).Quiet P :=
  (pure ()).bind fun _ => get fun _ => ofFault (Value.apply_raises (Heap.faults_raisable P _) op l r)

theorem tested (v : Value) : (tested none v).Quiet P :=
  (pure ()).bind fun _ => pure v

theorem shownText (v : Value) : (shownText none v).Quiet P :=
  (pure ()).bind fun _ => get fun _ => pure _

theorem readProperty (line : Nat) (holder key : Value) : (readProperty none line holder key).Quiet P := by
  refine (pure ()).bind fun _ => get fun m => ?_
  refine (ofFault (Value.getProperty_raises (Heap.faults_raisable P _) holder key)).bind fun v => ?_
  split
  · exact (warn _ _).bind fun _ => pure _
  · exact pure _

theorem writeProperty (hline : P line) (holder key v : Value) : (writeProperty none line holder key v).Quiet P := by
  refine (pure ()).bind fun _ => ?_
  refine ⟨fun m => ?_, fun m f h => ?_⟩
  · rw [exec_bind_ok exec_get]
    rcases hw : Value.setProperty m.heap holder key v line with fault | ⟨heap, _ | remark⟩ <;> rfl
  · rw [exec_bind_ok exec_get] at h
    rcases hw : Value.setProperty m.heap holder key v line with fault | ⟨heap, _ | remark⟩ <;> rw [hw] at h <;>
      cases h
    exact Value.setProperty_raises (Heap.faults_raisable P _) (Fault.Raisable.failureAt · hline) _ _ _ _ hw

end Quiet

end Op

/-- Whether a place to write to names a line of `P`. -/
def Place.Fits (P : Nat → Prop) : Place → Prop
  | .name line _ | .slot line _ _ => P line
  | .nowhere _ _ => True

namespace Op.Quiet

variable {P : Nat → Prop} {p : Place}

theorem write (hp : p.Fits P) (v : Value) : (p.write none v).Quiet P := by
  cases p with
  | name line x =>
    refine ⟨fun m => ?_, fun m f h => ?_⟩
    · rw [Place.write, exec_bind_ok exec_get]
      cases m.env.assign x v <;> rfl
    · rw [Place.write, exec_bind_ok exec_get] at h
      cases ha : m.env.assign x v <;> rw [ha] at h <;> cases h
      intro n hn
      cases hn
      exact hp
  | slot line holder key => exact (writeProperty hp holder key v).bind fun _ => pure v
  | nowhere line kind => exact (warn _ _).bind fun _ => pure _

theorem step (hp : p.Fits P) (up isPrefix : Bool) (current : Value) : (p.step none up isPrefix current).Quiet P :=
  (pure ()).bind fun _ => get fun _ =>
    (ofFault (Value.toNumber_raises (Heap.faults_raisable P _) current)).bind fun _ =>
      ((write hp _).bind fun _ => pure _).bind fun _ => pure _

end Op.Quiet

/-- Registering a routine changes the callable functions by that routine. -/
theorem register_exec (name : Text) (r : Routine Stmt) (m : Memory) :
    ∃ logs, (register name r).exec m =
      (.ok (), { m with functions := m.functions.insert name r, logs := logs }) := by
  have warnings : ∀ (ignored : List (String × Nat)) (m : Memory), ∃ logs,
      (ignored.forM fun i => Op.warn .functions ["Unsupported parameter '", Text.ofString i.1,
        "' at line ", (i.2 : Text)]).exec m = (.ok (), { m with logs := logs }) := by
    intro ignored
    induction ignored with
    | nil => exact fun m => ⟨m.logs, rfl⟩
    | cons i rest ih =>
      intro m
      obtain ⟨logs, h⟩ := ih { m with logs := m.logs.push _ }
      exact ⟨logs, (exec_bind_ok (exec_modify _)).trans h⟩
  obtain ⟨logs, h⟩ := warnings r.ignored m
  exact ⟨logs, exec_bind_ok h⟩

theorem exec_register (name : Text) (r : Routine Stmt) (s : State) :
    ∃ logs, (register name r).asRun.exec s =
      (.ok (), { s with functions := s.functions.insert name r, logs := logs }) := by
  obtain ⟨logs, h⟩ := register_exec name r s.toMemory
  refine ⟨logs, ?_⟩
  simp only [Op.asRun, h]
  rfl

end ScriptTrace
