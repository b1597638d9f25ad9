import ScriptTrace.Proofs.Additions
import ScriptTrace.Proofs.Congruence
/-!
# Logs are never read

A run writes its log and never looks at it. So states that differ in their logs only are run alike: with the same
outcome, and to states that again differ in their logs only.

* `Op.Elementary.blind`: no operation reads the log.
* `log_congruence`: no run does.
-/
namespace ScriptTrace

open Act Op Run

/-! ## Operations -/

/-- Whether two memories differ in their logs only. -/
def Memory.SameButLogs (m m' : Memory) : Prop :=
  ∃ logs, m' = { m with logs := logs }

/-- Whether an operation goes on in the same way, whatever is in the log. -/
def Op.Blind {α : Type} (x : Op α) : Prop :=
  x.Lockstep Memory.SameButLogs id x

namespace Op.Blind

variable {α β : Type} {x : Op α}

theorem pure (a : α) : (pure a : Op α).Blind :=
  Lockstep.pure id a

theorem throw (fault : Fault) : (throw fault : Op α).Blind :=
  Lockstep.throw fault

theorem bind {f : α → Op β} (hx : x.Blind) (hf : ∀ a, (f a).Blind) : (x >>= f).Blind :=
  Lockstep.bind hx hf

/-- A look at the memory, of which the log is not used. -/
theorem get {f : Memory → Op α} (hf : ∀ m logs, Lockstep Memory.SameButLogs id (f m) (f { m with logs := logs })) :
    (MonadState.get >>= f : Op α).Blind := by
  refine Lockstep.get ?_
  rintro m _ ⟨logs, rfl⟩
  exact hf m logs

theorem set {m : Memory} {logs : Array Log} :
    Lockstep Memory.SameButLogs id (MonadState.set m : Op PUnit) (MonadState.set { m with logs := logs }) :=
  fun _ _ _ => ⟨rfl, logs, rfl⟩

theorem modify {g : Memory → Memory} (hg : ∀ m logs, (g m).SameButLogs (g { m with logs := logs })) :
    (modify g : Op PUnit).Blind := by
  rintro m _ ⟨logs, rfl⟩
  exact ⟨rfl, hg m logs⟩

theorem ite {c : Prop} [Decidable c] {y : Op α} (hx : x.Blind) (hy : y.Blind) : (if c then x else y).Blind :=
  Lockstep.ite Iff.rfl hx hy

theorem log (level : Level) (origin : Origin) (parts : List Text) : (log level origin parts).Blind :=
  modify fun _ _ => ⟨_, rfl⟩

theorem warn (origin : Origin) (parts : List Text) : (warn origin parts).Blind :=
  log _ _ _

theorem ofFault (r : Except Fault α) : (ofFault r).Blind := by
  cases r with
  | ok a => exact pure a
  | error fault => exact throw fault

theorem newArray (items : List Value) : (newArray items).Blind :=
  get fun _ _ => Lockstep.bind set fun _ => pure _

theorem newObject (entries : Entries) : (newObject entries).Blind :=
  get fun _ _ => Lockstep.bind set fun _ => pure _

theorem screen (strangers : Strangers) (look : List Value → Heap → Look) : (screen strangers look).Blind := by
  cases strangers with
  | none => exact pure ()
  | some strangers =>
    refine get fun m logs => ?_
    dsimp only
    split
    · exact throw _
    · exact pure ()

theorem lookupName (line : Nat) (x : Text) : (lookupName line x).Blind := by
  refine get fun m logs => ?_
  dsimp only
  split
  · exact pure _
  · exact ite (pure _) (ite (pure _) (ite (pure _) (ite (pure _) ((warn _ _).bind fun _ => pure _))))

variable (strangers : Strangers)

theorem applyUnary (line : Nat) (op : UnaryOp) (v : Value) : (applyUnary strangers line op v).Blind := by
  refine (screen _ _).bind fun _ => get fun m logs => ?_
  cases op with
  | minus | plus => exact (ofFault _).bind fun _ => pure _
  | complement => exact ofFault _
  | not | typeName | void => exact pure _
  | unsupported spelling => exact (warn _ _).bind fun _ => pure _

theorem readProperty (line : Nat) (holder key : Value) : (readProperty strangers line holder key).Blind := by
  refine (screen _ _).bind fun _ => get fun m logs => (ofFault _).bind fun v => ?_
  exact ite ((warn _ _).bind fun _ => pure _) (pure _)

theorem writeProperty (line : Nat) (holder key v : Value) : (writeProperty strangers line holder key v).Blind := by
  refine (screen _ _).bind fun _ => get fun m logs => Lockstep.bind (ofFault _) ?_
  rintro ⟨heap, remark⟩
  refine Lockstep.bind set fun _ => ?_
  cases remark with
  | some r => exact warn _ _
  | none => exact pure ()

theorem write (p : Place) (v : Value) : (p.write strangers v).Blind := by
  cases p with
  | name line x =>
    refine get fun m logs => ?_
    dsimp only
    cases m.env.assign x v with
    | ok env => exact Lockstep.bind set fun _ => pure v
    | error cause => exact throw _
  | slot line holder key => exact (writeProperty _ _ _ _ _).bind fun _ => pure v
  | nowhere line kind => exact (warn _ _).bind fun _ => pure _

theorem step (p : Place) (up isPrefix : Bool) (current : Value) : (p.step strangers up isPrefix current).Blind :=
  (screen _ _).bind fun _ => get fun _ _ => (ofFault _).bind fun _ =>
    ((write _ p _).bind fun _ => pure _).bind fun _ => pure _

theorem register (name : Text) (r : Routine Stmt) : (register name r).Blind := by
  have warnings : ∀ ignored : List (String × Nat), Op.Blind (ignored.forM fun i =>
      Op.warn .functions ["Unsupported parameter '", Text.ofString i.1, "' at line ", (i.2 : Text)]) := by
    intro ignored
    induction ignored with
    | nil => exact pure ()
    | cons i rest ih => exact (warn _ _).bind fun _ => ih
  exact (warnings r.ignored).bind fun _ => modify fun _ _ => ⟨_, rfl⟩

end Op.Blind

/-- No operation reads the log. -/
theorem Op.Elementary.blind {α : Type} {strangers : Strangers} {x : Op α} (h : x.Elementary strangers) : x.Blind := by
  cases h with
  | log level origin parts => exact .log level origin parts
  | capped t => exact .ofFault _
  | lookupName line x => exact .lookupName line x
  | resolve | isBound | describe | describeAll => exact .get fun _ _ => Blind.pure _
  | declareName => exact .modify fun _ _ => ⟨_, rfl⟩
  | register name r => exact .register name r
  | applyUnary line op v => exact .applyUnary strangers line op v
  | applyBinary => exact (Blind.screen _ _).bind fun _ => .get fun _ _ => Blind.ofFault _
  | tested => exact (Blind.screen _ _).bind fun _ => .pure _
  | shownText => exact (Blind.screen _ _).bind fun _ => .get fun _ _ => Blind.pure _
  | readProperty line holder key => exact .readProperty strangers line holder key
  | write p v => exact .write strangers p v
  | step p up isPrefix current => exact .step strangers p up isPrefix current
  | newArray items => exact .newArray items
  | newObject entries => exact .newObject entries
  | captured args =>
    unfold Op.captured
    split
    · exact .pure _
    · exact .newArray _
  | drain => exact .get fun _ _ => Lockstep.bind Blind.set fun _ => Blind.pure _

/-! ## Runs -/

/-- Whether two states differ in their logs only. -/
def State.SameButLogs (s s' : State) : Prop :=
  ∃ logs, s' = { s with logs := logs }

theorem Op.Blind.asRun {α : Type} {x : Op α} (h : x.Blind) : (lockstep State.SameButLogs).rel x.asRun x.asRun := by
  rintro s _ ⟨logs, rfl⟩
  obtain ⟨alike, logs', left⟩ := h s.toMemory { s.toMemory with logs := logs } ⟨logs, rfl⟩
  rw [Except.map_id, id_eq] at alike
  rcases exec : x.exec s.toMemory with ⟨outcome, m⟩
  rw [exec] at alike left
  have exec' : x.exec { s.toMemory with logs := logs } = (outcome, { m with logs := logs' }) := Prod.ext alike left
  have run : x.asRun.exec { s with logs := logs } = _ := Op.exec_asRun exec'
  rw [Op.exec_asRun exec, run]
  exact ⟨rfl, logs', rfl⟩

theorem State.SameButLogs.noted {s s' : State} (h : s.SameButLogs s') (cfg : Config) (src : Source) (e : Event) :
    (s.noted cfg src e).SameButLogs (s'.noted cfg src e) := by
  obtain ⟨logs, rfl⟩ := h
  unfold State.noted
  split
  · exact ⟨logs, rfl⟩
  · exact ⟨_, rfl⟩

/-- No run reads the log. -/
theorem log_congruence (cfg : Config) (src : Source) : Congruence cfg src State.SameButLogs where
  control := by rintro s _ ⟨logs, rfl⟩; rfl
  clock := by rintro s _ ⟨logs, rfl⟩; rfl
  isFull := by rintro s _ ⟨logs, rfl⟩; rfl
  op elementary := elementary.blind.asRun
  print v := by rintro s _ ⟨logs, rfl⟩; exact ⟨rfl, logs, rfl⟩
  refuse x line := by rintro s _ ⟨logs, rfl⟩; exact ⟨rfl, logs, rfl⟩
  noted e _ _ h := h.noted cfg src e
  counted g := by rintro s _ ⟨logs, rfl⟩; exact ⟨logs, rfl⟩
  timed c := by rintro s _ ⟨logs, rfl⟩; exact ⟨logs, rfl⟩
  placed c := by rintro s _ ⟨logs, rfl⟩; exact ⟨logs, rfl⟩
  enterFrame name r line := by rintro s _ ⟨logs, rfl⟩; exact ⟨logs, rfl⟩
  leaveFrame := by rintro s _ t _ ⟨logs, rfl⟩ ⟨logs', rfl⟩; exact ⟨logs', rfl⟩
  leaveLoop := by rintro s _ t _ ⟨logs, rfl⟩ ⟨logs', rfl⟩; exact ⟨logs', rfl⟩

end ScriptTrace
