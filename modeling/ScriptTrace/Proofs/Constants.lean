import ScriptTrace.Proofs.Additions
import ScriptTrace.Proofs.Control
/-!
# Constants are protected

An assignment can rebind a name or add one at the end, but not the name of a constant, and it makes no name a constant.
The environments that come of an environment by assignments are its **revisions**. The evaluation of an expression
leaves a revision of the environment it starts with, whichever assignments it makes before it ends or is cut short: a
call gets an environment of its own, and its caller gets the old one back on every way out.

* `callFunction_keeps_env`: a call leaves the environment of its caller alone.
* `Context.Restores.eval`: in a context whose calls do so, an expression revises the environment.
* `constants_protected`: what this says of constants, and when the assignment to a name is refused.
-/
namespace ScriptTrace

open Act Op Run

/-! ## Revisions -/

/-- Whether the second environment may have come of the first by assignments. -/
structure Environment.Revised (env env' : Environment) : Prop where
  constants : env'.constants = env.constants
  kept : ∀ x ∈ env.constants, env'.lookup? x = env.lookup? x
  order : env.bindings.keys <+: env'.bindings.keys

namespace Environment

variable {env env' env'' : Environment} {x : Text} {v : Value}

theorem Revised.refl (env : Environment) : env.Revised env :=
  ⟨rfl, fun _ _ => rfl, List.prefix_rfl⟩

theorem Revised.trans (h : env.Revised env') (h' : env'.Revised env'') : env.Revised env'' where
  constants := h'.constants.trans h.constants
  kept x hx := (h'.kept x (h.constants ▸ hx)).trans (h.kept x hx)
  order := h.order.trans h'.order

theorem assign_of_mem (h : x ∈ env.constants) (v : Value) : env.assign x v = .error .constantAssignment := by
  simp [assign, h]

theorem assign_of_not_mem (h : x ∉ env.constants) (v : Value) :
    env.assign x v = .ok { env with bindings := env.bindings.insert x v } := by
  simp [assign, h]

theorem insert_revised (h : x ∉ env.constants) (v : Value) :
    env.Revised { env with bindings := env.bindings.insert x v } where
  constants := rfl
  kept y hy := by
    have other : x ≠ y := by
      rintro rfl
      exact h hy
    exact Assoc.get?_insert_of_ne other v env.bindings
  order := by
    rw [Assoc.keys_insert]
    split
    · exact List.prefix_rfl
    · exact List.prefix_append _ _

end Environment

/-- Whether the second memory has a revision of the environment of the first. -/
def Memory.Revised (m m' : Memory) : Prop :=
  m.env.Revised m'.env

instance : Std.Refl Memory.Revised where
  refl m := .refl m.env

instance : Trans Memory.Revised Memory.Revised Memory.Revised where
  trans := .trans

def State.Revised (s t : State) : Prop :=
  s.env.Revised t.env

instance : Std.Refl State.Revised where
  refl s := .refl s.env

instance : Trans State.Revised State.Revised State.Revised where
  trans := .trans

/-! ## Operations -/

section Operations

variable {α : Type}

theorem Op.Adds.revises {x : Op α} (h : x.Adds) : x.Moves Memory.Revised := by
  intro m
  unfold Memory.Revised
  rw [(h m).env]
  exact .refl _

theorem writeProperty_revises (strangers : Strangers) (line : Nat) (holder key v : Value) :
    (writeProperty strangers line holder key v).Moves Memory.Revised := by
  refine (Op.Adds.screen _ _).revises.bind fun _ m => ?_
  rw [exec_bind_ok exec_get]
  rcases Value.setProperty m.heap holder key v line with fault | ⟨heap, _ | remark⟩ <;> exact .refl m.env

theorem Place.write_revises (strangers : Strangers) (p : Place) (v : Value) :
    (p.write strangers v).Moves Memory.Revised := by
  cases p with
  | name line x =>
    intro m
    rw [Place.write, exec_bind_ok exec_get]
    by_cases h : x ∈ m.env.constants
    · rw [Environment.assign_of_mem h]
      exact .refl m.env
    · rw [Environment.assign_of_not_mem h]
      exact Environment.insert_revised h v
  | slot line holder key => exact (writeProperty_revises _ _ _ _ _).bind fun _ => .pure v
  | nowhere line kind => exact ((Op.Adds.warn _ _).bind fun _ => Op.Adds.pure _).revises

theorem Place.step_revises (strangers : Strangers) (p : Place) (up isPrefix : Bool) (current : Value) :
    (p.step strangers up isPrefix current).Moves Memory.Revised :=
  (Op.Adds.screen _ _).revises.bind fun _ => .get fun _ => (Op.Adds.ofFault _).revises.bind fun _ =>
    (p.write_revises _ _).discard.bind fun _ => .pure _

theorem Op.revises_asRun {x : Op α} (h : x.Moves Memory.Revised) : x.asRun.Moves State.Revised :=
  fun s => h s.toMemory

theorem Op.Adds.revises_asRun {x : Op α} (h : x.Adds) : x.asRun.Moves State.Revised :=
  Op.revises_asRun h.revises

theorem Act.Keeps.revises {x : Run α} (h : x.Keeps (·.env)) : x.Moves State.Revised := by
  intro s
  have same : (x.exec s).2.env = s.env := h s
  unfold State.Revised
  rw [same]
  exact .refl _

end Operations

/-! ## Calls -/

theorem note_keeps_env (ctx : Context) (e : Event) : (ctx.note e).Keeps (·.env) :=
  fun s => congrArg (·.2.1) (note_keeps_frame ctx e s)

/-- A call leaves the environment of its caller alone, whatever the function does. -/
theorem callFunction_keeps_env (ctx : Context) (name : Text) (r : Routine Stmt) (args : List Value) (line : Nat) :
    (callFunction ctx name r args line).Keeps (·.env) := by
  have arity : (checkArity ctx name r args.length line).Keeps (·.env) :=
    fun s => congrArg (·.2.1) (checkArity_keeps_frame ctx name r args.length line s)
  refine arity.bind fun _ => .bind (fun _ => rfl) fun _ => (note_keeps_env ctx _).bind fun _ => ?_
  -- the frame gives the environment back, so nothing need be known of what runs in it
  exact .ensuring (fun _ => rfl) (note_keeps_env ctx _)

/-- Whether calls leave the environment of the caller alone. -/
def Context.Restores (ctx : Context) : Prop :=
  ∀ name r args line, (ctx.call name r args line).Keeps (·.env)

theorem restores_within (cfg : Config) (src : Source) (depth : Nat) :
    (Context.within cfg src .idle depth).Restores := by
  intro name r args line
  cases depth with
  | zero => exact .done _
  | succ n => exact callFunction_keeps_env _ name r args line

/-! ## Expressions -/

namespace Context.Restores

variable {ctx : Context}

theorem diagnose (ctx : Context) (line : Nat) (message : Text) : (ctx.diagnose line message).Moves State.Revised :=
  (Op.Adds.warn _ _).revises_asRun.bind fun _ => (note_keeps_env ctx _).revises.bind fun _ => .pure _

theorem queueOutput (args : List Value) : (queueOutput args).Moves State.Revised := by
  have printed (v : Value) : (print v).Keeps (·.env) := fun _ => rfl
  exact (Op.Adds.captured args).revises_asRun.bind fun v => (printed v).revises.bind fun _ => .pure _

theorem shielded (line : Nat) (x : Text) {call : Run Value} (hcall : call.Moves State.Revised) :
    (shielded ctx line x call).Moves State.Revised := by
  refine hcall.handle fun fault y hy => ?_
  cases fault with
  | exhausted =>
    cases hy
    exact diagnose ctx line _
  | failure | violation | badIndex | misfit => cases hy

theorem invoke (h : ctx.Restores) (line : Nat) (x : Text) {args : Run (List Value)} (ha : args.Moves State.Revised) :
    (invoke ctx line x args).Moves State.Revised := by
  have refused : (refuse x line).Keeps (·.env) := fun _ => rfl
  refine (Op.Adds.resolve? x).revises_asRun.bind fun found => ?_
  cases found with
  | none => exact diagnose ctx line _
  | some found =>
    exact .get fun _ => .ite (refused.revises.bind fun _ => diagnose ctx line _)
      (ha.bind fun vs => shielded line x (h found.1 found.2 vs line).revises)

mutual

theorem eval (h : ctx.Restores) : ∀ e : Expr, (e.eval ctx).Moves State.Revised
  | .name line x => by
    simp only [Expr.eval]
    exact (Op.Adds.lookupName line x).revises_asRun
  | .number _ | .string _ | .bool _ | .null | .undefined | .spread | .function _ => .pure _
  | .template raws holes => by
    simp only [Expr.eval]
    exact (h.evalTexts holes).bind fun _ => (Op.Adds.ofFault _).revises_asRun.bind fun _ => .pure _
  | .unary line op operand => by
    simp only [Expr.eval]
    exact (h.eval operand).bind fun v => (Op.Adds.applyUnary _ line op v).revises_asRun
  | .binary line op left right => by
    simp only [Expr.eval]
    refine (h.eval left).bind fun l => ?_
    cases op with
    | logical op => exact (Op.Adds.tested _ l).revises_asRun.bind fun _ => .ite (.pure l) (h.eval right)
    | strict op => exact (h.eval right).bind fun r => (Op.Adds.applyBinary _ op l r).revises_asRun
    | unsupported spelling =>
      exact (h.eval right).discard.bind fun _ => (Op.Adds.warn _ _).revises_asRun.bind fun _ => .pure _
  | .conditional test yes no => by
    simp only [Expr.eval]
    exact (h.eval test).bind fun v => (Op.Adds.tested _ v).revises_asRun.bind fun _ => .ite (h.eval yes) (h.eval no)
  | .update up isPrefix target => by
    simp only [Expr.eval]
    exact (h.place target).bind fun p => (h.current target p).bind fun v =>
      Op.revises_asRun (p.step_revises _ up isPrefix v)
  | .assign target right => by
    simp only [Expr.eval]
    exact (h.place target).bind fun p => (h.eval right).bind fun v => Op.revises_asRun (p.write_revises _ v)
  | .augment line target op right => by
    simp only [Expr.eval]
    refine (h.place target).bind fun p => (h.current target p).bind fun current => ?_
    have write (v : Value) := Op.revises_asRun (p.write_revises ctx.strangers v)
    cases op with
    | logical op =>
      exact (Op.Adds.tested _ current).revises_asRun.bind fun _ => .ite (.pure _) ((h.eval right).bind write)
    | strict op =>
      exact (h.eval right).bind fun r => (Op.Adds.applyBinary _ op current r).revises_asRun.bind write
    | unsupported spelling => exact (Op.Adds.warn _ _).revises_asRun.bind fun _ => .pure _
  | .array items => by
    simp only [Expr.eval]
    exact (h.evalAll items).bind fun vs => (Op.Adds.newArray vs).revises_asRun
  | .object members => by
    simp only [Expr.eval]
    exact (h.evalMembers members []).bind fun entries => (Op.Adds.newObject entries).revises_asRun
  | .property line holder key => by
    simp only [Expr.eval]
    exact (h.eval holder).bind fun v => (h.evalKey key).bind fun k => (Op.Adds.readProperty _ line v k).revises_asRun
  | .call line callee args => by
    cases callee with
    | console =>
      simp only [Expr.eval]
      exact (h.evalAll args).bind queueOutput
    | name x =>
      simp only [Expr.eval]
      exact h.invoke line x (h.evalAll args)
    | other text =>
      simp only [Expr.eval]
      exact diagnose ctx line _
  | .sequence items => by
    simp only [Expr.eval]
    exact (h.evalAll items).bind fun _ => .pure _
  | .unsupported line kind => by
    simp only [Expr.eval]
    exact (Op.Adds.warn _ _).revises_asRun.bind fun _ => .pure _

theorem evalAll (h : ctx.Restores) : ∀ es : List Expr, (Expr.evalAll ctx es).Moves State.Revised
  | [] => .pure _
  | e :: rest => by
    simp only [Expr.evalAll]
    exact (h.eval e).bind fun _ => (h.evalAll rest).bind fun _ => .pure _

theorem evalTexts (h : ctx.Restores) : ∀ es : List Expr, (Expr.evalTexts ctx es).Moves State.Revised
  | [] => .pure _
  | e :: rest => by
    simp only [Expr.evalTexts]
    exact (h.eval e).bind fun v => (Op.Adds.shownText _ v).revises_asRun.bind fun _ =>
      (h.evalTexts rest).bind fun _ => .pure _

theorem evalKey (h : ctx.Restores) : ∀ k : Key, (k.eval ctx).Moves State.Revised
  | .fixed _ | .string _ | .number _ => .pure _
  | .computed e => by
    simp only [Key.eval]
    exact h.eval e

theorem evalMembers (h : ctx.Restores) : ∀ (ms : List Member) (entries : Entries),
    (Member.evalAll ctx ms entries).Moves State.Revised
  | [], _ => .pure _
  | .pair key value :: rest, entries => by
    simp only [Member.evalAll]
    exact (h.evalKey key).bind fun k => (Op.Adds.shownText _ k).revises_asRun.bind fun _ =>
      (h.eval value).bind fun _ => h.evalMembers rest _
  | .shorthand line x :: rest, entries => by
    simp only [Member.evalAll]
    exact (Op.Adds.lookupName line x).revises_asRun.bind fun _ => h.evalMembers rest _
  | .method key :: rest, entries => by
    simp only [Member.evalAll]
    exact (h.evalKey key).bind fun k => (Op.Adds.shownText _ k).revises_asRun.bind fun _ => h.evalMembers rest _
  | .unsupported line kind :: rest, entries => by
    simp only [Member.evalAll]
    exact (Op.Adds.warn _ _).revises_asRun.bind fun _ => h.evalMembers rest _

theorem place (h : ctx.Restores) : ∀ t : Target, (t.place ctx).Moves State.Revised
  | .name _ _ | .invalid _ _ _ => .pure _
  | .property line holder key => by
    simp only [Target.place]
    exact (h.eval holder).bind fun _ => (h.evalKey key).bind fun _ => .pure _

theorem current (h : ctx.Restores) : ∀ (t : Target) (p : Place), (t.current ctx p).Moves State.Revised
  | .invalid _ _ e, _ => by
    simp only [Target.current]
    exact h.eval e
  | .name _ _, p | .property _ _ _, p => by
    cases p <;> simp only [Target.current]
    · exact (Op.Adds.lookupName _ _).revises_asRun
    · exact (Op.Adds.readProperty _ _ _ _).revises_asRun
    · exact .pure _

end

end Context.Restores

/-! ## Protection -/

/-- What the assignment of the value of an expression to a name does. -/
theorem exec_assign_name {ctx : Context} {e : Expr} {s t : State} {v : Value} (he : (e.eval ctx).exec s = (.ok v, t))
    (line : Nat) (x : Text) :
    ((Expr.assign (.name line x) e).eval ctx).exec s =
      if x ∈ t.env.constants then (.error (.failure .constantAssignment (some line)), { t with raised := t.raised + 1 })
      else (.ok v, { t with env := { t.env with bindings := t.env.bindings.insert x v } }) := by
  have placed : ((Target.name line x).place ctx).exec s = (.ok (.name line x), s) := rfl
  simp only [Expr.eval]
  rw [exec_bind_ok placed, exec_bind_ok he]
  by_cases h : x ∈ t.env.constants
  · have refused : ((Place.name line x).write ctx.strangers v).exec t.toMemory =
        (.error (.failure .constantAssignment (some line)), t.toMemory) := by
      rw [Place.write, exec_bind_ok exec_get, Environment.assign_of_mem h]
      rfl
    rw [if_pos h]
    exact exec_asRun refused
  · have written : ((Place.name line x).write ctx.strangers v).exec t.toMemory =
        (.ok v, { t.toMemory with env := { t.env with bindings := t.env.bindings.insert x v } }) := by
      rw [Place.write, exec_bind_ok exec_get, Environment.assign_of_not_mem h]
      rfl
    rw [if_neg h]
    exact exec_asRun written

/-- However the evaluation of an expression ends, the same names are constants, their bindings are as before, and no
binding is lost or moved. If it ends well, an assignment of the value to a name is refused exactly if the name was a
constant before. -/
theorem constants_protected (cfg : Config) (src : Source) (depth : Nat) (e : Expr) (s : State) :
    let ctx := Context.within cfg src .idle depth
    let t := ((e.eval ctx).exec s).2
    t.env.constants = s.env.constants ∧
    (∀ x ∈ s.env.constants, t.env.lookup? x = s.env.lookup? x) ∧
    s.env.bindings.keys <+: t.env.bindings.keys ∧
    ∀ (line : Nat) (x : Text) (v : Value), ((e.eval ctx).exec s).1 = .ok v →
      ((Expr.assign (.name line x) e).eval ctx).exec s =
        if x ∈ s.env.constants then
          (.error (.failure .constantAssignment (some line)), { t with raised := t.raised + 1 })
        else (.ok v, { t with env := { t.env with bindings := t.env.bindings.insert x v } }) := by
  intro ctx t
  have revised : s.env.Revised t.env := (restores_within cfg src depth).eval e s
  refine ⟨revised.constants, revised.kept, revised.order, fun line x v hv => ?_⟩
  have he : (e.eval ctx).exec s = (.ok v, t) := Prod.ext hv rfl
  rw [exec_assign_name he, revised.constants]

/-- With `x` a constant, `x = y = true` binds `y` and is then refused. -/
theorem constants_protected_chain :
    let ctx := Context.within {} ⟨.empty⟩ .idle 0
    let s : State := { State.start (.ticking 0) with env := ⟨[("x", .null)], ["x"]⟩ }
    let e := Expr.assign (.name 1 "y") (.bool true)
    let t := ((e.eval ctx).exec s).2
    ("x" : Text) ∈ s.env.constants ∧ t.env.lookup? "x" = s.env.lookup? "x" ∧ t.env.lookup? "y" = some (.bool true) ∧
      ((e.eval ctx).exec s).1 = .ok (.bool true) ∧
      ((Expr.assign (.name 1 "x") e).eval ctx).exec s =
        (.error (.failure .constantAssignment (some 1)), { t with raised := t.raised + 1 }) := by
  intro ctx s e t
  have mem : ("x" : Text) ∈ s.env.constants := by decide
  have value : ((e.eval ctx).exec s).1 = .ok (.bool true) := rfl
  obtain ⟨-, kept, -, refused⟩ := constants_protected {} ⟨.empty⟩ 0 e s
  refine ⟨mem, kept "x" mem, by decide +kernel, value, ?_⟩
  exact (refused 1 "x" (.bool true) value).trans (if_pos mem)

end ScriptTrace
