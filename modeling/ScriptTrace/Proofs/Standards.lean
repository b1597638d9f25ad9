import ScriptTrace.Proofs.Spelling
import ScriptTrace.Proofs.Yields
import ScriptTrace.Run.Exec
/-!
# Standards of values

A **standard** says which numbers and which texts are in order. It has to admit what the operations of the language
make by themselves: integers, what a double is carried as, the numbers that are not finite, and short texts. A value,
a heap or a memory is in order if all numbers and texts in it are; names of properties are not asked.

Nothing else is needed for the operations to keep a memory in order and to give values that are, since arithmetic
carries its results as doubles are carried, and the texts that concatenation and templates build are capped.

* `Standard.apply`, `Standard.getProperty`, `Standard.setProperty`: what the operations on values give.
* `Standard.lookupName` and after: what the operations on the memory yield.
-/
namespace ScriptTrace

open Act

section

variable {ε α β : Type} {x : Except ε α} {b : β}

theorem exists_of_bind_ok {f : α → Except ε β} (h : x >>= f = .ok b) : ∃ a, x = .ok a ∧ f a = .ok b := by
  cases x with
  | error _ => cases h
  | ok a => exact ⟨a, rfl, h⟩

theorem exists_of_map_ok {f : α → β} (h : x.map f = .ok b) : ∃ a, x = .ok a ∧ f a = b := by
  cases x with
  | error _ => cases h
  | ok a => exact ⟨a, rfl, Except.ok.inj h⟩

theorem forall_mem_getD {P : α → Prop} {cells : Array (List α)} (h : ∀ cell ∈ cells, ∀ a ∈ cell, P a) (i : Nat) :
    ∀ a ∈ cells.getD i [], P a := by
  rw [Array.getD_eq_getD_getElem?]
  cases hc : cells[i]? with
  | none => exact List.forall_mem_nil _
  | some cell => exact h cell (Array.mem_of_getElem? hc)

theorem forall_mem_setIfInBounds {P : α → Prop} {cells : Array α} (h : ∀ a ∈ cells, P a) (i : Nat) {new : α}
    (hn : P new) : ∀ a ∈ cells.setIfInBounds i new, P a := by
  intro a ha
  rcases Array.mem_or_eq_of_mem_setIfInBounds ha with ha | rfl
  · exact h a ha
  · exact hn

end

structure Standard where
  number : Number → Prop
  text : Text → Prop
  int : ∀ n, number (.int n)
  ofFloat : ∀ x, number (.ofFloat x)
  nan : number .nan
  infinity : ∀ negative, number (.infinity negative)
  short : ∀ t, t.length ≤ maxTextLength → text t

namespace Standard

variable (S : Standard)

/-- Whether a value is in order. -/
def Admits : Value → Prop
  | .number n => S.number n
  | .text t => S.text t
  | .undefined | .null | .bool _ | .function _ | .array _ | .object _ => True

structure AdmitsHeap (h : Heap) : Prop where
  arrays : ∀ items ∈ h.arrays, ∀ v ∈ items, S.Admits v
  objects : ∀ entries ∈ h.objects, ∀ e ∈ entries, S.Admits e.2

/-- Whether the texts that an expression spells are in order. -/
def AdmitsExpr (e : Expr) : Prop :=
  e.Spells S.text

def AdmitsRoutine (r : Routine Stmt) : Prop :=
  r.Each S.AdmitsExpr

structure AdmitsMemory (m : Memory) : Prop where
  heap : S.AdmitsHeap m.heap
  bindings : ∀ b ∈ m.env.bindings, S.Admits b.2
  pending : ∀ v ∈ m.pending, S.Admits v
  functions : ∀ f ∈ m.functions, S.AdmitsRoutine f.2

/-! ## Numbers -/

variable {S} {h : Heap} {v l r container key : Value} {n : Number}

theorem div (a b : Number) : S.number (a.div b) := by
  unfold Number.div
  dsimp only
  split
  · split
    · exact S.nan
    · exact S.infinity _
  · exact S.ofFloat _

theorem mod (a b : Number) : S.number (a.mod b) := by
  unfold Number.mod
  dsimp only
  split
  · exact S.nan
  · split <;> exact S.ofFloat _

theorem pow (a b : Number) : S.number (a.pow b) := by
  unfold Number.pow Number.powBy
  dsimp only
  split
  · exact S.ofFloat _
  · split
    · exact S.nan
    · split
      · exact S.nan
      · split
        · exact S.infinity false
        · exact S.ofFloat _

theorem ofInteger? (n : Option Int) : S.number (Numeral.ofInteger? n) := by
  unfold Numeral.ofInteger?
  split
  · exact S.nan
  · dsimp only
    split
    · exact S.nan
    · split
      · exact S.nan
      · exact S.ofFloat _

theorem literal (t : Text) : S.number (Numeral.literal t) := by
  unfold Numeral.literal
  dsimp only
  split
  · exact ofInteger? _
  · exact ofInteger? _
  · exact ofInteger? _
  · split
    · exact ofInteger? _
    · split
      · exact S.ofFloat _
      · exact S.nan

theorem ofText (t : Text) : S.number (Numeral.ofText t) := by
  unfold Numeral.ofText
  dsimp only
  split
  · exact S.int 0
  · split
    · exact S.infinity false
    · split
      · exact S.infinity true
      · split
        · exact literal _
        · split
          · exact S.ofFloat _
          · exact S.nan

theorem toNumber (hv : S.Admits v) (he : v.toNumber h = .ok n) : S.number n := by
  cases v with
  | number _ =>
    cases he
    exact hv
  | bool b =>
    cases he
    cases b
    · exact S.int 0
    · exact S.int 1
  | null =>
    cases he
    exact S.int 0
  | text t =>
    cases he
    exact ofText t
  | array ref =>
    obtain ⟨t, -, rfl⟩ := exists_of_map_ok he
    exact ofText t
  | undefined | object _ | function _ =>
    cases he
    exact S.nan

/-! ## Operators -/

theorem capped {t t' : Text} (he : Value.capped t = .ok t') : S.text t' := by
  unfold Value.capped at he
  split at he <;> cases he
  exact S.short _ (by omega)

theorem arith {op : Number → Number → Number} (hop : ∀ a b, S.number (op a b)) (he : Value.arith h op l r = .ok v) :
    S.Admits v := by
  obtain ⟨a, -, he⟩ := exists_of_bind_ok he
  obtain ⟨b, -, he⟩ := exists_of_bind_ok he
  cases he
  exact hop a b

theorem plus (he : Value.plus h l r = .ok v) : S.Admits v := by
  unfold Value.plus at he
  split at he
  · obtain ⟨t, ht, rfl⟩ := exists_of_map_ok he
    exact capped ht
  · exact arith (fun a b => S.ofFloat (a.toFloat + b.toFloat)) he

theorem bitwise {op : Int → Int → Int} (he : Value.bitwise h op l r = .ok v) : S.Admits v := by
  obtain ⟨a, -, he⟩ := exists_of_bind_ok he
  obtain ⟨b, -, he⟩ := exists_of_bind_ok he
  cases he
  exact S.int _

theorem shift {read : Heap → Value → Except Fault Int} {op : Int → Nat → Int}
    (he : Value.shift h read op l r = .ok v) : S.Admits v := by
  obtain ⟨a, -, he⟩ := exists_of_bind_ok he
  obtain ⟨count, -, he⟩ := exists_of_bind_ok he
  cases he
  exact S.int (op a count)

theorem apply (op : BinaryOp) (he : Value.apply h op l r = .ok v) : S.Admits v := by
  cases op with
  | add => exact plus he
  | sub => exact arith (fun a b => S.ofFloat (a.toFloat - b.toFloat)) he
  | mul => exact arith (fun a b => S.ofFloat (a.toFloat * b.toFloat)) he
  | div => exact arith div he
  | mod => exact arith mod he
  | pow => exact arith pow he
  | lt | le | gt | ge | looseEq | looseNe | contained =>
    obtain ⟨_, -, rfl⟩ := exists_of_map_ok he
    trivial
  | strictEq | strictNe =>
    cases he
    trivial
  | bitAnd | bitOr | bitXor => exact bitwise he
  | shiftLeft | shiftRight | shiftRightZero => exact shift he

theorem bitNot (he : v.bitNot h = .ok r) : S.Admits r := by
  obtain ⟨w, -, he⟩ := exists_of_bind_ok he
  cases he
  exact S.int _

theorem typeName (v : Value) : S.text v.typeName := by
  have names : ∀ k : Kind, k.name.length ≤ maxTextLength := by
    intro k
    cases k <;> decide
  refine S.short _ ?_
  unfold Value.typeName
  split
  · exact names .object
  · exact names .object
  · exact names .object
  · exact names _

/-! ## Containers -/

theorem AdmitsHeap.array (hh : S.AdmitsHeap h) (ref : Nat) : ∀ v ∈ h.array ref, S.Admits v :=
  forall_mem_getD hh.arrays ref

theorem AdmitsHeap.object (hh : S.AdmitsHeap h) (ref : Nat) : ∀ e ∈ h.object ref, S.Admits e.2 :=
  forall_mem_getD hh.objects ref

theorem AdmitsHeap.setArray (hh : S.AdmitsHeap h) (ref : Nat) {items : List Value} (hi : ∀ v ∈ items, S.Admits v) :
    S.AdmitsHeap (h.setArray ref items) :=
  ⟨forall_mem_setIfInBounds hh.arrays ref hi, hh.objects⟩

theorem AdmitsHeap.setObject (hh : S.AdmitsHeap h) (ref : Nat) {entries : Entries} (he : ∀ e ∈ entries, S.Admits e.2) :
    S.AdmitsHeap (h.setObject ref entries) :=
  ⟨hh.arrays, forall_mem_setIfInBounds hh.objects ref he⟩

theorem AdmitsHeap.newArray (hh : S.AdmitsHeap h) {items : List Value} (hi : ∀ v ∈ items, S.Admits v) :
    S.AdmitsHeap (h.newArray items).2 :=
  ⟨Array.forall_mem_push.2 ⟨hi, hh.arrays⟩, hh.objects⟩

theorem AdmitsHeap.newObject (hh : S.AdmitsHeap h) {entries : Entries} (he : ∀ e ∈ entries, S.Admits e.2) :
    S.AdmitsHeap (h.newObject entries).2 :=
  ⟨hh.arrays, Array.forall_mem_push.2 ⟨he, hh.objects⟩⟩

/-- What is stored under a key, among values that are in order. -/
theorem insert {α : Type} [DecidableEq α] {table : Assoc α Value} (ht : ∀ e ∈ table, S.Admits e.2) (k : α)
    (hv : S.Admits v) : ∀ e ∈ table.insert k v, S.Admits e.2 := by
  intro e he
  rcases Assoc.mem_insert he with rfl | he
  · exact hv
  · exact ht e he

theorem getD {found : Option Value} (h : ∀ v ∈ found, S.Admits v) : S.Admits (found.getD .undefined) := by
  cases found with
  | none => trivial
  | some v => exact h v rfl

theorem getProperty (hh : S.AdmitsHeap h) (he : Value.getProperty h container key = .ok v) : S.Admits v := by
  unfold Value.getProperty at he
  split at he
  · rename_i ref
    split at he
    · cases he
      exact S.int _
    · obtain ⟨index, -, he⟩ := exists_of_bind_ok he
      cases he
      refine getD fun v hv => ?_
      obtain ⟨i, -, hv⟩ := Option.bind_eq_some_iff.1 hv
      exact hh.array ref v (List.mem_of_getElem? hv)
  · split at he
    · cases he
      exact S.int _
    · obtain ⟨index, -, he⟩ := exists_of_bind_ok he
      cases he
      refine getD fun v hv => ?_
      obtain ⟨c, -, rfl⟩ := Option.map_eq_some_iff.1 hv
      exact S.short _ (show 1 ≤ maxTextLength by decide)
  · cases he
    exact getD fun v hv => hh.object _ _ (Assoc.mem_of_get? hv)
  · cases he
    trivial

theorem storeAt {items : List Value} (hi : ∀ v ∈ items, S.Admits v) (index : Nat) (hv : S.Admits v) :
    ∀ w ∈ Value.storeAt items index v, S.Admits w := by
  unfold Value.storeAt
  split
  · intro w hw
    rcases List.mem_or_eq_of_mem_set hw with hw | rfl
    · exact hi w hw
    · exact hv
  · rw [List.forall_mem_append, List.forall_mem_append, List.forall_mem_singleton]
    refine ⟨⟨hi, fun w hw => ?_⟩, hv⟩
    rw [List.eq_of_mem_replicate hw]
    trivial

theorem resize {items : List Value} (hi : ∀ v ∈ items, S.Admits v) (length : Nat) :
    ∀ w ∈ Value.resize items length, S.Admits w := by
  unfold Value.resize
  rw [List.forall_mem_append]
  refine ⟨fun w hw => hi w (List.mem_of_mem_take hw), fun w hw => ?_⟩
  rw [List.eq_of_mem_replicate hw]
  trivial

variable {h' : Heap} {remark : Option Value.Remark} {ref line : Nat}

theorem setLength (hh : S.AdmitsHeap h) (he : Value.setLength h ref n line = .ok (h', remark)) : S.AdmitsHeap h' := by
  unfold Value.setLength at he
  dsimp only at he
  split at he
  · split at he <;> cases he
    · exact hh.setArray ref (resize (hh.array ref) _)
    · exact hh
  · cases he

theorem setElement (hh : S.AdmitsHeap h) (hv : S.Admits v) (he : Value.setElement h ref key v = .ok (h', remark)) :
    S.AdmitsHeap h' := by
  obtain ⟨index, -, he⟩ := exists_of_bind_ok he
  cases index with
  | none =>
    cases he
    exact hh
  | some i =>
    dsimp only at he
    split at he <;> cases he
    · exact hh
    · exact hh.setArray ref (storeAt (hh.array ref) i hv)

theorem setProperty (hh : S.AdmitsHeap h) (hv : S.Admits v)
    (he : Value.setProperty h container key v line = .ok (h', remark)) : S.AdmitsHeap h' := by
  unfold Value.setProperty at he
  split at he
  · cases he
  · cases he
  · cases he
    exact hh.setObject _ (insert (hh.object _) _ hv)
  · split at he
    · split at he
      · exact setLength hh he
      · cases he
    · exact setElement hh hv he
  · cases he
    exact hh

/-! ## Operations -/

theorem AdmitsMemory.withHeap {m : Memory} (hm : S.AdmitsMemory m) (hh : S.AdmitsHeap h) :
    S.AdmitsMemory { m with heap := h } :=
  ⟨hh, hm.bindings, hm.pending, hm.functions⟩

theorem AdmitsMemory.withBindings {m : Memory} (hm : S.AdmitsMemory m) {env : Environment}
    (he : ∀ b ∈ env.bindings, S.Admits b.2) : S.AdmitsMemory { m with env := env } :=
  ⟨hm.heap, he, hm.pending, hm.functions⟩

variable (S)

theorem log (level : Level) (origin : Origin) (parts : List Text) :
    (Op.log level origin parts).Yields S.AdmitsMemory fun _ => True :=
  .modify fun _ hm => ⟨hm.heap, hm.bindings, hm.pending, hm.functions⟩

theorem warn (origin : Origin) (parts : List Text) : (Op.warn origin parts).Yields S.AdmitsMemory fun _ => True :=
  S.log _ _ _

/-- Warns, and answers with what is always in order. -/
theorem warned {origin : Origin} {parts : List Text} (hv : S.Admits v) :
    (do Op.warn origin parts; return v : Op Value).Yields S.AdmitsMemory S.Admits :=
  (S.warn _ _).bind fun _ _ => .pure hv

theorem ofFault {α : Type} {x : Except Fault α} {R : α → Prop} (hx : ∀ a, x = .ok a → R a) :
    (Op.ofFault x).Yields S.AdmitsMemory R := by
  cases x with
  | ok a => exact .pure (hx a rfl)
  | error fault => exact .throw _

theorem screen (strangers : Strangers) (look : List Value → Heap → Look) :
    (Op.screen strangers look).Yields S.AdmitsMemory fun _ => True := by
  unfold Op.screen
  split
  · exact .pure trivial
  · refine .get fun m _ => ?_
    split
    · exact .throw _
    · exact .pure trivial

theorem newArray {items : List Value} (hi : ∀ v ∈ items, S.Admits v) :
    (Op.newArray items).Yields S.AdmitsMemory S.Admits :=
  .get fun _ hm => (Yields.set (hm.withHeap (hm.heap.newArray hi))).bind fun _ _ => .pure trivial

theorem newObject {entries : Entries} (he : ∀ e ∈ entries, S.Admits e.2) :
    (Op.newObject entries).Yields S.AdmitsMemory S.Admits :=
  .get fun _ hm => (Yields.set (hm.withHeap (hm.heap.newObject he))).bind fun _ _ => .pure trivial

theorem captured {args : List Value} (ha : ∀ v ∈ args, S.Admits v) :
    (Op.captured args).Yields S.AdmitsMemory S.Admits := by
  unfold Op.captured
  split
  · exact .pure (List.forall_mem_singleton.1 ha)
  · exact S.newArray ha

theorem drain : Op.drain.Yields S.AdmitsMemory fun _ => True :=
  .get fun _ hm => (Yields.set ⟨hm.heap, hm.bindings, List.forall_mem_nil _, hm.functions⟩).bind fun _ _ =>
    .pure trivial

theorem describe (v : Value) : (Op.describe v).Yields S.AdmitsMemory fun _ => True :=
  .get fun _ _ => .pure trivial

theorem describeAll (vs : List Value) : (Op.describeAll vs).Yields S.AdmitsMemory fun _ => True :=
  .get fun _ _ => .pure trivial

theorem lookupName (line : Nat) (x : Text) : (Op.lookupName line x).Yields S.AdmitsMemory S.Admits := by
  refine .get fun m hm => ?_
  split
  · rename_i v hv
    exact .pure (hm.bindings _ (Assoc.mem_of_get? hv))
  · exact .ite (.pure trivial) (.ite (.pure trivial) (.ite (.pure S.nan) (.ite (.pure (S.infinity false))
      (S.warned trivial))))

theorem resolve? (x : Text) : (Op.resolve? x).Yields S.AdmitsMemory fun found => ∀ f ∈ found, S.AdmitsRoutine f.2 := by
  refine .get fun m hm => .pure fun f hf => ?_
  have known {name : Text} {r : Routine Stmt} (hr : m.functions.get? name = some r) : S.AdmitsRoutine r :=
    hm.functions _ (Assoc.mem_of_get? hr)
  have own (hf : (m.functions.get? x).map (x, ·) = some f) : S.AdmitsRoutine f.2 := by
    obtain ⟨r, hr, rfl⟩ := Option.map_eq_some_iff.1 hf
    exact known hr
  unfold Memory.resolve? at hf
  dsimp only at hf
  split at hf
  · split at hf
    · rename_i hr
      cases hf
      exact known hr
    · exact own hf
  · exact own hf

theorem applyUnary (strangers : Strangers) (line : Nat) (op : UnaryOp) (hv : S.Admits v) :
    (applyUnary strangers line op v).Yields S.AdmitsMemory S.Admits := by
  refine (S.screen _ _).bind fun _ _ => .get fun m _ => ?_
  cases op with
  | minus => exact (S.ofFault (R := fun _ => True) fun _ _ => trivial).bind fun n _ => .pure (S.ofFloat (-n.toFloat))
  | plus => exact (S.ofFault fun _ he => toNumber hv he).bind fun n hn => .pure hn
  | not => exact .pure trivial
  | complement => exact S.ofFault fun _ he => bitNot he
  | typeName => exact .pure (typeName v)
  | void => exact .pure trivial
  | unsupported spelling => exact S.warned trivial

theorem applyBinary (strangers : Strangers) (op : BinaryOp) (l r : Value) :
    (applyBinary strangers op l r).Yields S.AdmitsMemory S.Admits :=
  (S.screen _ _).bind fun _ _ => .get fun _ _ => S.ofFault fun _ he => apply op he

theorem tested (strangers : Strangers) (v : Value) : (tested strangers v).Yields S.AdmitsMemory fun _ => True :=
  (S.screen _ _).bind fun _ _ => .pure trivial

theorem shownText (strangers : Strangers) (v : Value) : (shownText strangers v).Yields S.AdmitsMemory fun _ => True :=
  (S.screen _ _).bind fun _ _ => .get fun _ _ => .pure trivial

theorem readProperty (strangers : Strangers) (line : Nat) (holder key : Value) :
    (readProperty strangers line holder key).Yields S.AdmitsMemory S.Admits := by
  refine (S.screen _ _).bind fun _ _ => .get fun m hm => ?_
  refine (S.ofFault fun _ he => getProperty hm.heap he).bind fun v hv => ?_
  split
  · exact S.warned hv
  · exact .pure hv

theorem writeProperty (strangers : Strangers) (line : Nat) (holder key : Value) (hv : S.Admits v) :
    (writeProperty strangers line holder key v).Yields S.AdmitsMemory fun _ => True := by
  refine (S.screen _ _).bind fun _ _ => .get fun m hm => ?_
  have stored : (Op.ofFault (Value.setProperty m.heap holder key v line)).Yields S.AdmitsMemory
      fun written => S.AdmitsHeap written.1 := S.ofFault fun _ he => setProperty hm.heap hv he
  refine stored.bind fun written hw => (Yields.set (hm.withHeap hw)).bind fun _ _ => ?_
  split
  · exact S.warn _ _
  · exact .pure trivial

theorem write (strangers : Strangers) (p : Place) (hv : S.Admits v) :
    (p.write strangers v).Yields S.AdmitsMemory S.Admits := by
  cases p with
  | name line x =>
    refine .get fun m hm => ?_
    cases ha : m.env.assign x v with
    | error cause => exact .throw _
    | ok env =>
      have assigned : ∀ b ∈ env.bindings, S.Admits b.2 := by
        unfold Environment.assign at ha
        split at ha <;> cases ha
        exact insert hm.bindings x hv
      exact (Yields.set (hm.withBindings assigned)).bind fun _ _ => .pure hv
  | slot line holder key => exact (S.writeProperty strangers line holder key hv).bind fun _ _ => .pure hv
  | nowhere line kind => exact S.warned trivial

theorem step (strangers : Strangers) (p : Place) (up isPrefix : Bool) {current : Value} (hc : S.Admits current) :
    (p.step strangers up isPrefix current).Yields S.AdmitsMemory S.Admits := by
  refine (S.screen _ _).bind fun _ _ => .get fun m _ => (S.ofFault fun _ he => toNumber hc he).bind fun old ho => ?_
  have new : S.Admits (.number (if up then old.add 1 else old.sub 1)) := by
    show S.number _
    split <;> exact S.ofFloat _
  refine (S.write strangers p new).discard.bind fun _ _ => .pure ?_
  show S.number (if isPrefix then _ else old)
  split
  · exact new
  · exact ho

theorem declareName (name : Text) (constant : Bool) (hv : S.Admits v) :
    (declareName name v constant).Yields S.AdmitsMemory fun _ => True :=
  .modify fun _ hm => hm.withBindings (insert hm.bindings name hv)

theorem isBound (name : Text) : (isBound name).Yields S.AdmitsMemory fun _ => True :=
  .get fun _ _ => .pure trivial

theorem register (name : Text) {r : Routine Stmt} (hr : S.AdmitsRoutine r) :
    (register name r).Yields S.AdmitsMemory fun _ => True := by
  refine (Yields.forM fun i _ => S.warn _ _).bind fun _ _ => .modify fun m hm => ?_
  refine ⟨hm.heap, hm.bindings, hm.pending, fun f hf => ?_⟩
  rcases Assoc.mem_insert hf with rfl | hf
  · exact hr
  · exact hm.functions f hf

end Standard

end ScriptTrace
