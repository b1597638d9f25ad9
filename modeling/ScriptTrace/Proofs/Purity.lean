import ScriptTrace.Proofs.Additions
import ScriptTrace.Proofs.Inert
import ScriptTrace.Proofs.Renaming
import ScriptTrace.Run.Exec
/-!
# Purity

The evaluation of an inert expression only reads. All it leaves behind are new containers, lines of the log and the
count of failures, and a second evaluation cannot notice them. Two runs of the expression from memories that are
**mirror images** under a renaming of containers go in **lockstep**: they end alike, with values that correspond, and
leave mirror images. The memories before and after an evaluation are mirror images, unless a value refers to a container
that was not there: the new containers of the first run are in nobody's way, and those of the second are shifted past
them.

* `Renaming.Fixes.eval`: an inert expression goes in lockstep with itself, and the state grows.
* `Renaming.past_mirrors`: a memory and what it has grown to are mirror images.
* `inert_expression_pure`: evaluation changes nothing, and a second evaluation gives the same.
-/
namespace ScriptTrace

open Act Op Run

/-! ## Growth of states -/

/-- Whether the second state differs from the first by new containers, its log and the count of failures only. -/
structure State.Grows (s t : State) : Prop where
  heap : s.heap.Grows t.heap
  rest : t = { s with heap := t.heap, logs := t.logs, raised := t.raised }

instance : Std.Refl State.Grows where
  refl _ := ⟨⟨List.prefix_rfl, List.prefix_rfl, rfl⟩, rfl⟩

instance : Trans State.Grows State.Grows State.Grows where
  trans {s t u} hst htu := by
    refine ⟨⟨hst.heap.arrays.trans htu.heap.arrays, hst.heap.objects.trans htu.heap.objects,
      htu.heap.frames.trans hst.heap.frames⟩, ?_⟩
    rw [htu.rest, hst.rest]

theorem Memory.Grows.rest {m m' : Memory} (h : m.Grows m') : m' = { m with heap := m'.heap, logs := m'.logs } := by
  obtain ⟨heap, env, functions, pending, logs⟩ := m'
  obtain ⟨-, rfl, rfl, rfl⟩ := h
  rfl

theorem Op.Adds.grows {α : Type} {x : Op α} (h : x.Adds) : x.asRun.Moves State.Grows := by
  intro s
  have grown := h s.toMemory
  rcases he : x.exec s.toMemory with ⟨outcome, m⟩
  rw [he] at grown
  have rest : m = _ := grown.rest
  rw [exec_asRun he, rest]
  exact ⟨grown.heap, rfl⟩

/-! ## Mirror images -/

/-- Whether the second memory is the first with its containers renamed, as far as reading goes. -/
structure Renaming.Mirrors (ρ : Renaming) (m m' : Memory) : Prop where
  heap : ρ.Copies m.heap m'.heap
  env : ∀ x, m'.env.lookup? x = (m.env.lookup? x).map ρ.value
  functions : m'.functions = m.functions

/-- Whether a renaming leaves the strangers of a heap in place. -/
def Renaming.Fixes (ρ : Renaming) (strangers : Strangers) : Prop :=
  ∀ vs ∈ strangers, ∀ v ∈ vs, ρ.value v = v

/-! ## Operations on mirror images -/

namespace Act.Lockstep

variable {α : Type} {f : α → α} {ρ : Renaming}

theorem warn (origin : Origin) (parts parts' : List Text) :
    Lockstep ρ.Mirrors id (warn origin parts) (warn origin parts') :=
  fun _ _ mirrors => ⟨rfl, mirrors.heap, mirrors.env, mirrors.functions⟩

theorem ofFault {r r' : Except Fault α} (same : r' = r.map f) : Lockstep ρ.Mirrors f (ofFault r) (ofFault r') := by
  subst same
  cases r with
  | ok a => exact pure f a
  | error fault => exact throw fault

theorem ofFault_self (r : Except Fault α) : Lockstep ρ.Mirrors id (Op.ofFault r) (Op.ofFault r) :=
  ofFault (by rw [Except.map_id, id_eq])

theorem newArray (items : List Value) :
    Lockstep ρ.Mirrors ρ.value (newArray items) (newArray (items.map ρ.value)) := by
  intro m m' mirrors
  obtain ⟨moved, copies⟩ := mirrors.heap.newArray items
  exact ⟨congrArg Except.ok moved, copies, mirrors.env, mirrors.functions⟩

theorem newObject (es : Entries) :
    Lockstep ρ.Mirrors ρ.value (newObject es) (newObject (ρ.entries es)) := by
  intro m m' mirrors
  obtain ⟨moved, copies⟩ := mirrors.heap.newObject es
  exact ⟨congrArg Except.ok moved, copies, mirrors.env, mirrors.functions⟩

theorem lookupName (line : Nat) (x : Text) : Lockstep ρ.Mirrors ρ.value (lookupName line x) (lookupName line x) := by
  refine get fun m m' mirrors => ?_
  rw [mirrors.env, mirrors.functions]
  cases m.env.lookup? x with
  | some v => exact pure ρ.value v
  | none =>
    exact .ite .rfl (pure ρ.value _) (.ite .rfl (pure ρ.value _) (.ite .rfl (pure ρ.value _) (.ite .rfl (pure ρ.value _)
      ((warn _ _ _).bind fun _ => pure ρ.value _))))

theorem screen {strangers : Strangers} {look look' : List Value → Heap → Look}
    (same : ∀ vs ∈ strangers, ∀ h h', ρ.Copies h h' → look' vs h' = look vs h) :
    Lockstep ρ.Mirrors id (screen strangers look) (screen strangers look') := by
  cases strangers with
  | none => exact pure id ()
  | some vs =>
    refine get fun m m' mirrors => ?_
    rw [same vs rfl m.heap m'.heap mirrors.heap]
    split
    · exact throw _
    · exact pure id ()

variable {strangers : Strangers} (fixed : ρ.Fixes strangers)

include fixed

theorem applyUnary (line : Nat) (op : UnaryOp) (v : Value) :
    Lockstep ρ.Mirrors ρ.value (applyUnary strangers line op v) (applyUnary strangers line op (ρ.value v)) := by
  have look : ∀ vs ∈ strangers, ∀ h h', ρ.Copies h h' → op.look (ρ.value v) vs h' = op.look v vs h := by
    intro vs hvs h h' copies
    cases op with
    | minus | plus | complement => exact copies.lookNumber (fixed vs hvs) v
    | not | typeName => exact Renaming.lookAt (fixed vs hvs) v
    | void | unsupported _ => rfl
  refine (screen look).bind fun _ => get fun m m' mirrors => ?_
  have number : Lockstep ρ.Mirrors id (Op.ofFault (v.toNumber m.heap)) (Op.ofFault ((ρ.value v).toNumber m'.heap)) := by
    rw [mirrors.heap.reads.toNumber]
    exact ofFault_self _
  cases op with
  | minus | plus => exact number.bind fun _ => pure ρ.value _
  | not =>
    rw [ρ.truthy_value]
    exact pure ρ.value _
  | complement => exact ofFault (mirrors.heap.reads.bitNot v)
  | typeName =>
    rw [ρ.typeName_value]
    exact pure ρ.value _
  | void => exact pure ρ.value _
  | unsupported spelling => exact (warn _ _ _).bind fun _ => pure ρ.value _

theorem applyBinary (op : BinaryOp) (l r : Value) :
    Lockstep ρ.Mirrors ρ.value (applyBinary strangers op l r)
      (applyBinary strangers op (ρ.value l) (ρ.value r)) :=
  (screen fun vs hvs _ _ copies => copies.lookBinary (fixed vs hvs) op l r).bind fun _ =>
    get fun _ _ mirrors => ofFault (mirrors.heap.reads.apply op l r)

theorem tested (v : Value) :
    Lockstep ρ.Mirrors ρ.value (tested strangers v) (tested strangers (ρ.value v)) :=
  (screen fun vs hvs _ _ _ => Renaming.lookAt (fixed vs hvs) v).bind fun _ => pure ρ.value v

theorem shownText (v : Value) :
    Lockstep ρ.Mirrors id (shownText strangers v) (shownText strangers (ρ.value v)) := by
  refine (screen fun vs hvs _ _ copies => copies.lookShown (fixed vs hvs) v).bind fun _ => get fun m m' mirrors => ?_
  rw [mirrors.heap.reads.render]
  exact pure id _

theorem readProperty (line : Nat) (holder key : Value) :
    Lockstep ρ.Mirrors ρ.value (readProperty strangers line holder key)
      (readProperty strangers line (ρ.value holder) (ρ.value key)) := by
  refine (screen fun vs hvs _ _ copies => copies.lookRead (fixed vs hvs) holder key).bind fun _ =>
    get fun m m' mirrors => (ofFault (mirrors.heap.reads.getProperty holder key)).bind fun v => ?_
  rw [ρ.isNullish_value]
  exact .ite .rfl ((warn _ _ _).bind fun _ => pure ρ.value v) (pure ρ.value v)

end Act.Lockstep

/-! ## Inert expressions -/

/-- Whether a run lets the state grow only, and goes in lockstep with another one on mirror images. -/
structure Renaming.Steady {α : Type} (ρ : Renaming) (f : α → α) (x x' : Run α) : Prop where
  grows : x.Moves State.Grows
  lockstep : Lockstep (fun s t : State => ρ.Mirrors s.toMemory t.toMemory) f x x'

namespace Renaming.Steady

variable {ρ : Renaming} {α β : Type} {f : α → α} {g : β → β} {x x' : Run α}

theorem pure (f : α → α) (a : α) : ρ.Steady f (pure a) (pure (f a)) :=
  ⟨.pure a, .pure f a⟩

theorem bind {k k' : α → Run β} (hx : ρ.Steady f x x') (hk : ∀ a, ρ.Steady g (k a) (k' (f a))) :
    ρ.Steady g (x >>= k) (x' >>= k') :=
  ⟨hx.grows.bind fun a => (hk a).grows, hx.lockstep.bind fun a => (hk a).lockstep⟩

theorem ite {c c' : Prop} [Decidable c] [Decidable c'] (same : c' ↔ c) {y y' : Run α} (hx : ρ.Steady f x x')
    (hy : ρ.Steady f y y') : ρ.Steady f (if c then x else y) (if c' then x' else y') :=
  ⟨hx.grows.ite hy.grows, hx.lockstep.ite same hy.lockstep⟩

theorem discard (hx : ρ.Steady f x x') : ρ.Steady id (discard x) (discard x') :=
  ⟨hx.grows.discard, hx.lockstep.discard⟩

theorem op {x x' : Op α} (adds : x.Adds) (lockstep : Lockstep ρ.Mirrors f x x') : ρ.Steady f x.asRun x'.asRun :=
  ⟨adds.grows, fun s t mirrors => lockstep s.toMemory t.toMemory mirrors⟩

theorem warned (origin : Origin) (parts : List Text) :
    ρ.Steady id (warn origin parts).asRun (warn origin parts).asRun :=
  op (.warn _ _) (.warn _ _ _)

end Renaming.Steady

namespace Renaming

variable (ρ : Renaming)

theorem stops_value (op : LogicalOp) (v : Value) : op.stops (ρ.value v) = op.stops v := by
  cases op <;> simp only [LogicalOp.stops, truthy_value, isNullish_value]

theorem getLastD_value (vs : List Value) :
    (vs.map ρ.value).getLastD .undefined = ρ.value (vs.getLastD .undefined) := by
  simp only [List.getLastD_eq_getLast?, List.getLast?_map]
  cases vs.getLast? <;> rfl

end Renaming

namespace Renaming.Fixes

open Steady (op warned)

variable {ρ : Renaming} {ctx : Context}

mutual

theorem eval (h : ρ.Fixes ctx.strangers) :
    ∀ e : Expr, e.Inert → ρ.Steady ρ.value (e.eval ctx) (e.eval ctx)
  | .name line x, _ => by
    simp only [Expr.eval]
    exact op (.lookupName line x) (.lookupName line x)
  | .number _, _ | .string _, _ | .bool _, _ | .null, _ | .undefined, _ | .spread, _ | .function _, _ => .pure ρ.value _
  | .template raws holes, he => by
    simp only [Expr.eval]
    exact (h.evalTexts holes he).bind fun _ => (op (.ofFault _) (.ofFault_self _)).bind fun _ => .pure ρ.value _
  | .unary line op' operand, he => by
    simp only [Expr.eval]
    exact (h.eval operand he).bind fun v => op (.applyUnary _ line op' v) (.applyUnary h line op' v)
  | .binary line op' left right, he => by
    simp only [Expr.eval]
    refine (h.eval left he.1).bind fun l => ?_
    cases op' with
    | logical op' =>
      refine (op (.tested _ l) (.tested h l)).bind fun v => .ite ?_ (.pure ρ.value l) (h.eval right he.2)
      rw [ρ.stops_value]
    | strict op' =>
      exact (h.eval right he.2).bind fun r => op (.applyBinary _ op' l r) (.applyBinary h op' l r)
    | unsupported spelling =>
      exact (h.eval right he.2).discard.bind fun _ => (warned _ _).bind fun _ => .pure ρ.value _
  | .conditional test yes no, he => by
    simp only [Expr.eval]
    refine (h.eval test he.1).bind fun v => (op (.tested _ v) (.tested h v)).bind fun w =>
      .ite ?_ (h.eval yes he.2.1) (h.eval no he.2.2)
    rw [ρ.truthy_value]
  | .array items, he => by
    simp only [Expr.eval]
    exact (h.evalAll items he).bind fun vs => op (.newArray vs) (.newArray vs)
  | .object members, he => by
    simp only [Expr.eval]
    exact (h.evalMembers members [] he).bind fun es => op (.newObject es) (.newObject es)
  | .property line holder key, he => by
    simp only [Expr.eval]
    exact (h.eval holder he.1).bind fun v => (h.evalKey key he.2).bind fun k =>
      op (.readProperty _ line v k) (.readProperty h line v k)
  | .sequence items, he => by
    simp only [Expr.eval]
    refine (h.evalAll items he).bind fun vs => ?_
    rw [ρ.getLastD_value]
    exact .pure ρ.value _
  | .unsupported line kind, _ => by
    simp only [Expr.eval]
    exact (warned _ _).bind fun _ => .pure ρ.value _

theorem evalAll (h : ρ.Fixes ctx.strangers) :
    ∀ es : List Expr, Expr.InertAll es → ρ.Steady (List.map ρ.value) (Expr.evalAll ctx es) (Expr.evalAll ctx es)
  | [], _ => .pure (List.map ρ.value) []
  | e :: rest, he => by
    simp only [Expr.evalAll]
    exact (h.eval e he.1).bind fun v => (h.evalAll rest he.2).bind fun vs => .pure (List.map ρ.value) (v :: vs)

theorem evalTexts (h : ρ.Fixes ctx.strangers) :
    ∀ es : List Expr, Expr.InertAll es → ρ.Steady id (Expr.evalTexts ctx es) (Expr.evalTexts ctx es)
  | [], _ => .pure id []
  | e :: rest, he => by
    simp only [Expr.evalTexts]
    exact (h.eval e he.1).bind fun v => (op (.shownText _ v) (.shownText h v)).bind fun _ =>
      (h.evalTexts rest he.2).bind fun _ => .pure id _

theorem evalKey (h : ρ.Fixes ctx.strangers) :
    ∀ k : Key, k.Inert → ρ.Steady ρ.value (k.eval ctx) (k.eval ctx)
  | .fixed _, _ | .string _, _ | .number _, _ => .pure ρ.value _
  | .computed e, he => by
    simp only [Key.eval]
    exact h.eval e he

theorem evalMembers (h : ρ.Fixes ctx.strangers) :
    ∀ (ms : List Member) (es : Entries), Member.InertAll ms →
      ρ.Steady ρ.entries (Member.evalAll ctx ms es) (Member.evalAll ctx ms (ρ.entries es))
  | [], es, _ => .pure ρ.entries es
  | .pair key value :: rest, es, hm => by
    simp only [Member.evalAll]
    refine (h.evalKey key hm.1.1).bind fun k => (op (.shownText _ k) (.shownText h k)).bind fun name =>
      (h.eval value hm.1.2).bind fun v => ?_
    rw [ρ.insert_entries]
    exact h.evalMembers rest _ hm.2
  | .shorthand line x :: rest, es, hm => by
    simp only [Member.evalAll]
    refine (op (.lookupName line x) (.lookupName line x)).bind fun v => ?_
    rw [ρ.insert_entries]
    exact h.evalMembers rest _ hm.2
  | .method key :: rest, es, hm => by
    simp only [Member.evalAll]
    refine (h.evalKey key hm.1).bind fun k => (op (.shownText _ k) (.shownText h k)).bind fun name => ?_
    have stored := ρ.insert_entries (.text name) (.function name) es
    exact stored ▸ h.evalMembers rest _ hm.2
  | .unsupported line kind :: rest, es, hm => by
    simp only [Member.evalAll]
    exact (warned _ _).bind fun _ => h.evalMembers rest es hm.2

end

end Renaming.Fixes

/-! ## Before and after -/

/-- Whether a value that is a container is one of the heap. -/
def Value.Within (h : Heap) : Value → Prop
  | .array ref => ref < h.arrays.size
  | .object ref => ref < h.objects.size
  | _ => True

/-- Whether no variable, element, entry or stranger is a container that is not there. -/
structure Memory.Closed (strangers : Strangers) (m : Memory) : Prop where
  bindings : ∀ b ∈ m.env.bindings, b.2.Within m.heap
  elements : ∀ items ∈ m.heap.arrays, ∀ v ∈ items, v.Within m.heap
  entries : ∀ es ∈ m.heap.objects, ∀ e ∈ es, e.2.Within m.heap
  strangers : ∀ vs ∈ strangers, ∀ v ∈ vs, v.Within m.heap

/-- Leaves the first references in place and moves the others on. -/
def shift (kept more ref : Nat) : Nat :=
  if ref < kept then ref else ref + more

theorem shift_injective (kept more : Nat) : (shift kept more).Injective := by
  intro a b h
  unfold shift at h
  split at h <;> split at h <;> omega

theorem shift_of_lt {kept more ref : Nat} (h : ref < kept) : shift kept more ref = ref :=
  if_pos h

theorem shift_of_le {kept more ref : Nat} (h : kept ≤ ref) : shift kept more ref = ref + more :=
  if_neg (Nat.not_lt.2 h)

/-- A store that has grown holds at each shifted reference what it held before, if that does not change by `g`. -/
theorem getD_shift {β : Type} {store store' : Array (List β)} (grows : store.toList <+: store'.toList) {g : β → β}
    (fixed : ∀ items ∈ store, ∀ b ∈ items, g b = b) (ref : Nat) :
    store'.getD (shift store.size (store'.size - store.size) ref) [] = (store.getD ref []).map g := by
  have le : store.size ≤ store'.size := grows.length_le
  simp only [Array.getD_eq_getD_getElem?]
  rcases Nat.lt_or_ge ref store.size with held | out
  · have kept : store'[ref]? = some store[ref] := by
      have same := (List.prefix_iff_getElem?.1 grows) ref held
      rwa [Array.getElem?_toList, Array.getElem_toList] at same
    have mapped : store[ref].map g = store[ref] :=
      (List.map_congr_left (fixed _ (Array.getElem_mem held))).trans (List.map_id _)
    rw [shift_of_lt held, kept, Array.getElem?_eq_getElem held, Option.getD_some, mapped]
  · rw [shift_of_le out, Array.getElem?_eq_none (by omega), Array.getElem?_eq_none out]
    rfl

/-- The renaming that leaves the containers of a heap in place and moves new ones past those of a larger heap. -/
def Renaming.past (h h' : Heap) : Renaming where
  arrays := shift h.arrays.size (h'.arrays.size - h.arrays.size)
  objects := shift h.objects.size (h'.objects.size - h.objects.size)
  arrays_injective := shift_injective _ _
  objects_injective := shift_injective _ _

namespace Renaming

variable {m m' : Memory} {strangers : Strangers}

theorem past_of_within (h h' : Heap) {v : Value} (hv : v.Within h) : (past h h').value v = v := by
  cases v with
  | array ref => exact congrArg Value.array (shift_of_lt hv)
  | object ref => exact congrArg Value.object (shift_of_lt hv)
  | _ => rfl

/-- A memory without dangling references and what it has grown to are mirror images. -/
theorem past_mirrors (grows : m.Grows m') (closed : m.Closed strangers) : (past m.heap m'.heap).Mirrors m m' := by
  have arrays : m.heap.arrays.size ≤ m'.heap.arrays.size := grows.heap.arrays.length_le
  have objects : m.heap.objects.size ≤ m'.heap.objects.size := grows.heap.objects.length_le
  have kept {v : Value} (hv : v.Within m.heap) := past_of_within m.heap m'.heap hv
  refine ⟨⟨⟨?_, ?_⟩, grows.heap.frames, fun i => ?_, fun i => ?_⟩, fun x => ?_, grows.functions⟩
  · exact getD_shift grows.heap.arrays fun items hi v hv => kept (closed.elements items hi v hv)
  · exact getD_shift grows.heap.objects fun es hs e he => Prod.ext rfl (kept (closed.entries es hs e he))
  · show shift _ _ _ = _
    rw [shift_of_le (by omega)]
    omega
  · show shift _ _ _ = _
    rw [shift_of_le (by omega)]
    omega
  · rw [grows.env]
    cases found : m.env.lookup? x with
    | none => rfl
    | some v => exact congrArg some (kept (closed.bindings _ (Assoc.mem_of_get? found))).symm

end Renaming

theorem State.Grows.memory {s t : State} (h : s.Grows t) : s.toMemory.Grows t.toMemory := by
  rw [h.rest]
  exact ⟨h.heap, rfl, rfl, rfl⟩

/-! ## Purity -/

/-- However the evaluation of an inert node ends, all it changes are the log, the count of failures and the heap, where
new containers stand behind the old ones. If no reference dangles, a second evaluation ends as the first, by the same
fault or with the same value up to a renaming, which leaves the containers from before in place and takes each one that
the first evaluation made to one that the second has made, with the same contents. -/
theorem inert_expression_pure (ctx : Context) (src : Source) (node : Tree) (inert : node.isInert = true) (s : State) :
    let run := ((Expr.ofTree src node).eval ctx).exec
    let t := (run s).2
    t = { s with heap := t.heap, logs := t.logs, raised := t.raised } ∧
    s.heap.arrays.toList <+: t.heap.arrays.toList ∧ s.heap.objects.toList <+: t.heap.objects.toList ∧
    (s.Closed ctx.strangers → ∃ ρ : Renaming,
      (∀ v : Value, v.Within s.heap → ρ.value v = v) ∧
      (∀ ref, s.heap.arrays.size ≤ ref → t.heap.arrays.size ≤ ρ.arrays ref) ∧
      (∀ ref, s.heap.objects.size ≤ ref → t.heap.objects.size ≤ ρ.objects ref) ∧
      (run t).1 = (run s).1.map ρ.value ∧
      ρ.Copies t.heap (run t).2.heap) := by
  intro run t
  have steady {ρ : Renaming} (fixed : ρ.Fixes ctx.strangers) :=
    fixed.eval (Expr.ofTree src node) (ofTree_inert src inert)
  have grows : s.Grows t := (steady (ρ := .identity) fun _ _ v _ => Renaming.value_identity v).grows s
  refine ⟨grows.rest, grows.heap.arrays, grows.heap.objects, fun closed => ?_⟩
  have fixed : (Renaming.past s.heap t.heap).Fixes ctx.strangers :=
    fun vs hvs v hv => Renaming.past_of_within s.heap t.heap (closed.strangers vs hvs v hv)
  obtain ⟨alike, mirrors⟩ := (steady fixed).lockstep s t (Renaming.past_mirrors grows.memory closed)
  refine ⟨_, fun v => Renaming.past_of_within s.heap t.heap, fun ref new => ?_, fun ref new => ?_, alike, mirrors.heap⟩
  · show _ ≤ shift _ _ ref
    rw [shift_of_le new]
    omega
  · show _ ≤ shift _ _ ref
    rw [shift_of_le new]
    omega

/-- An array of a variable and a function, the body of which is a call. -/
def listedSource : Source := ⟨"[x, () => f()]"⟩

def listedNode : Tree :=
  let node (kind : String) (field : Option String) (start stop : Nat) (children : List Tree) : Tree :=
    .node ⟨true, false, false, false, kind, field, start, stop⟩ children
  node "array" none 0 14 [
    node "identifier" none 1 2 [],
    node "arrow_function" none 4 13 [
      node "formal_parameters" "parameters" 4 6 [],
      node "call_expression" "body" 10 13 [
        node "identifier" "function" 10 11 [],
        node "arguments" "arguments" 11 13 []]]]

theorem inert_expression_pure_listed :
    let s : State := { State.start (.ticking 0) with heap := ⟨#[[.null]], #[], 1000⟩, env := ⟨[("x", .array 0)], []⟩ }
    let run := ((Expr.ofTree listedSource listedNode).eval (.top {} listedSource)).exec
    let t := (run s).2
    listedNode.isInert = true ∧ s.Closed none ∧ (run s).1 = .ok (.array 1) ∧
      t.heap.arrays = #[[.null], [.array 0, .function Value.anonymous]] ∧ t.env.bindings = s.env.bindings ∧
      ∃ ρ : Renaming, ρ.arrays 0 = 0 ∧ 2 ≤ ρ.arrays 1 ∧ (run t).1 = .ok (.array (ρ.arrays 1)) ∧
        (run t).2.heap.array (ρ.arrays 1) = [.array 0, .function Value.anonymous] := by
  intro s run t
  have inert : listedNode.isInert = true := by decide
  have closed : s.Closed none := by
    refine ⟨?_, ?_, ?_, ?_⟩ <;> simp [s, Value.Within]
  have value : (run s).1 = .ok (.array 1) := rfl
  have arrays : t.heap.arrays = #[[.null], [.array 0, .function Value.anonymous]] := by decide +kernel
  obtain ⟨frame, -, -, again⟩ := inert_expression_pure (.top {} listedSource) listedSource listedNode inert s
  obtain ⟨ρ, kept, new, -, same, copies⟩ := again closed
  have first : ρ.value (.array 0) = .array 0 := kept (.array 0) Nat.zero_lt_one
  refine ⟨inert, closed, value, arrays, congrArg (·.env.bindings) frame, ρ, ?_, ?_, ?_, ?_⟩
  · exact Value.array.inj first
  · have count : t.heap.arrays.size = 2 := congrArg Array.size arrays
    exact Nat.le_trans (Nat.le_of_eq count.symm) (new 1 (Nat.le_refl 1))
  · exact same.trans (congrArg (·.map ρ.value) value)
  · have held : t.heap.array 1 = [.array 0, .function Value.anonymous] := by
      rw [Heap.array, arrays]
      rfl
    rw [copies.array, held, List.map_cons, first]
    rfl

end ScriptTrace
