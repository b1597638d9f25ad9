import Mathlib.Data.List.Perm.Subperm
import ScriptTrace.Value.Snapshot
import ScriptTrace.Value.Stranger
/-!
# Containers under other references

Where a container stands in the heap is no part of what it is. A **renaming** gives other references to containers,
different ones to different containers, and a heap is a **copy** of another under a renaming if each container has the
renamed contents at its new reference and traversals have the same room. The language cannot tell the two apart: the
texts, the numbers, the order and the equality of values are those of the renamed values in the copy, and so are the
looks for strangers that the renaming leaves in place. A property is the renamed property.

All that the operations take of a container besides its contents are its two texts. So a heap with the same contents
that **reads** the same need not be a copy.

* `Matches.jsonData`, `Matches.joined`, `Matches.dataWithin`, `Matches.lookWithin`, `Matches.unfold`: the traversals,
  from any point on.
* `Reads.apply`, `Reads.getProperty`, `Copies.lookBinary`: what the operations make of them.
* `Copies.newArray`, `Copies.newObject`: a new container in each heap keeps the one a copy of the other.
-/
namespace ScriptTrace

/-! ## Renamings -/

/-- Other references for containers. -/
structure Renaming where
  arrays : Nat → Nat
  objects : Nat → Nat
  arrays_injective : arrays.Injective
  objects_injective : objects.Injective

namespace Renaming

variable (ρ : Renaming)

def value : Value → Value
  | .array ref => .array (ρ.arrays ref)
  | .object ref => .object (ρ.objects ref)
  | v => v

@[simp] theorem value_array (ref : Nat) : ρ.value (.array ref) = .array (ρ.arrays ref) := rfl

@[simp] theorem value_object (ref : Nat) : ρ.value (.object ref) = .object (ρ.objects ref) := rfl

def identity : Renaming :=
  ⟨id, id, Function.injective_id, Function.injective_id⟩

@[simp] theorem value_identity (v : Value) : identity.value v = v := by
  cases v <;> rfl

/-- The entries of an object with their values renamed; what they stand under is no container. -/
def entries (es : Entries) : Entries :=
  es.map fun e => (e.1, ρ.value e.2)

theorem map_identity (vs : List Value) : vs.map identity.value = vs :=
  (List.map_congr_left fun v _ => value_identity v).trans (List.map_id vs)

theorem entries_identity (es : Entries) : identity.entries es = es := by
  simp only [entries, value_identity]
  exact List.map_id es

theorem map_identity_except (x : Except Fault Value) : x.map identity.value = x := by
  cases x <;> simp [Except.map]

theorem value_injective : ρ.value.Injective := by
  intro v w h
  cases v <;> cases w <;> simp only [value, Value.array.injEq, Value.object.injEq, reduceCtorEq] at h ⊢
  case array.array => exact ρ.arrays_injective h
  case object.object => exact ρ.objects_injective h
  all_goals exact h

theorem value_beq (v w : Value) : (ρ.value v == ρ.value w) = (v == w) := by
  simp only [beq_eq_decide, ρ.value_injective.eq_iff]

theorem contains_value (vs : List Value) (v : Value) : (vs.map ρ.value).contains (ρ.value v) = vs.contains v := by
  simp only [List.contains_eq_mem, List.mem_map_of_injective ρ.value_injective]

theorem contains_arrays (refs : List Nat) (ref : Nat) :
    (refs.map ρ.arrays).contains (ρ.arrays ref) = refs.contains ref := by
  simp only [List.contains_eq_mem, List.mem_map_of_injective ρ.arrays_injective]

/-! What does not depend on the heap does not depend on references. -/

section Observers

variable (v w : Value)

@[simp] theorem kind_value : (ρ.value v).kind = v.kind := by
  cases v <;> rfl

@[simp] theorem isNullish_value : (ρ.value v).isNullish = v.isNullish := by
  cases v <;> rfl

@[simp] theorem truthy_value : (ρ.value v).truthy = v.truthy := by
  cases v <;> rfl

@[simp] theorem isOmitted_value : (ρ.value v).isOmitted = v.isOmitted := by
  cases v <;> rfl

@[simp] theorem isContainer_value : (ρ.value v).isContainer = v.isContainer := by
  cases v <;> rfl

@[simp] theorem typeName_value : (ρ.value v).typeName = v.typeName := by
  simp only [Value.typeName, kind_value]

@[simp] theorem numberOfBool_value : (ρ.value v).numberOfBool = ρ.value v.numberOfBool := by
  cases v <;> rfl

@[simp] theorem indexOf_value : (ρ.value v).indexOf = v.indexOf := by
  cases v <;> rfl

theorem strictEquals_value : (ρ.value v).strictEquals (ρ.value w) = v.strictEquals w := by
  have same := ρ.value_beq v w
  cases v with
  | number a => cases w <;> rfl
  | _ => exact same

/-- A number that is made of two parts is not renamed. -/
theorem map_number {α β : Type} (x : Except Fault α) (y : Except Fault β) (make : α → β → Number) :
    (do let a ← x; let b ← y; return Value.number (make a b)) =
      (do let a ← x; let b ← y; return Value.number (make a b) : Except Fault Value).map ρ.value := by
  cases x with
  | error cause => rfl
  | ok a => cases y <;> rfl

end Observers

section Entries

variable (key : EntryKey) (v : Value) (es : Entries)

theorem get?_entries : (ρ.entries es).get? key = (es.get? key).map ρ.value := by
  induction es with
  | nil => rfl
  | cons e rest ih =>
    obtain ⟨key', v⟩ := e
    have tail : Assoc.get? key (rest.map fun e => (e.1, ρ.value e.2)) = _ := ih
    by_cases same : key' = key <;> simp [entries, Assoc.get?, same, tail]

theorem contains_entries : (ρ.entries es).contains key = es.contains key := by
  rw [Assoc.contains_eq_isSome, Assoc.contains_eq_isSome, get?_entries, Option.isSome_map]

theorem insert_entries : (ρ.entries es).insert key (ρ.value v) = ρ.entries (es.insert key v) := by
  induction es with
  | nil => rfl
  | cons e rest ih =>
    obtain ⟨key', v'⟩ := e
    have tail : Assoc.insert key (ρ.value v) (rest.map fun e => (e.1, ρ.value e.2)) = _ := ih
    by_cases same : key' = key <;> simp [entries, Assoc.insert, same, tail]

end Entries

end Renaming

/-! ## Copies -/

/-- Whether the second heap has the containers of the first, renamed. -/
structure Renaming.Matches (ρ : Renaming) (h h' : Heap) : Prop where
  array : ∀ ref, h'.array (ρ.arrays ref) = (h.array ref).map ρ.value
  object : ∀ ref, h'.object (ρ.objects ref) = ρ.entries (h.object ref)

/-- Whether values have the same texts in the second heap. -/
structure Renaming.Reads (ρ : Renaming) (h h' : Heap) : Prop extends ρ.Matches h h' where
  jsonText : ∀ v : Value, (ρ.value v).jsonText h' = v.jsonText h
  joinText : ∀ v : Value, (ρ.value v).joinText h' = v.joinText h

/-- Whether traversals have as much room in the second heap, and new containers are renamed to new ones. -/
structure Renaming.Copies (ρ : Renaming) (h h' : Heap) : Prop extends ρ.Matches h h' where
  frames : h'.frames = h.frames
  nextArray : ∀ i, ρ.arrays (h.arrays.size + i) = h'.arrays.size + i
  nextObject : ∀ i, ρ.objects (h.objects.size + i) = h'.objects.size + i

theorem Heap.array_push (h : Heap) (items : List Value) (ref : Nat) :
    (h.newArray items).2.array ref = if ref = h.arrays.size then items else h.array ref := by
  simp only [Heap.newArray, Heap.array, Array.getD_eq_getD_getElem?, Array.getElem?_push]
  split <;> rfl

theorem Heap.object_push (h : Heap) (entries : Entries) (ref : Nat) :
    (h.newObject entries).2.object ref = if ref = h.objects.size then entries else h.object ref := by
  simp only [Heap.newObject, Heap.object, Array.getD_eq_getD_getElem?, Array.getElem?_push]
  split <;> rfl

namespace Renaming.Copies

variable {ρ : Renaming} {h h' : Heap} (copies : ρ.Copies h h')

include copies

theorem arrays_eq_size_iff (ref : Nat) : ρ.arrays ref = h'.arrays.size ↔ ref = h.arrays.size := by
  have next : ρ.arrays h.arrays.size = h'.arrays.size := copies.nextArray 0
  rw [← next, ρ.arrays_injective.eq_iff]

theorem objects_eq_size_iff (ref : Nat) : ρ.objects ref = h'.objects.size ↔ ref = h.objects.size := by
  have next : ρ.objects h.objects.size = h'.objects.size := copies.nextObject 0
  rw [← next, ρ.objects_injective.eq_iff]

theorem newArray (items : List Value) :
    (h'.newArray (items.map ρ.value)).1 = ρ.value (h.newArray items).1 ∧
      ρ.Copies (h.newArray items).2 (h'.newArray (items.map ρ.value)).2 := by
  refine ⟨congrArg Value.array (copies.nextArray 0).symm, ⟨fun ref => ?_, copies.object⟩, copies.frames, fun i => ?_,
    copies.nextObject⟩
  · rw [Heap.array_push, Heap.array_push, ite_congr (propext (copies.arrays_eq_size_iff ref)) (fun _ => rfl)
      fun _ => copies.array ref, apply_ite (List.map ρ.value)]
  · show ρ.arrays ((h.arrays.push items).size + i) = (h'.arrays.push _).size + i
    rw [Array.size_push, Array.size_push, Nat.add_assoc, Nat.add_assoc, copies.nextArray]

theorem newObject (es : Entries) :
    (h'.newObject (ρ.entries es)).1 = ρ.value (h.newObject es).1 ∧
      ρ.Copies (h.newObject es).2 (h'.newObject (ρ.entries es)).2 := by
  refine ⟨congrArg Value.object (copies.nextObject 0).symm, ⟨copies.array, fun ref => ?_⟩, copies.frames,
    copies.nextArray, fun i => ?_⟩
  · rw [Heap.object_push, Heap.object_push, ite_congr (propext (copies.objects_eq_size_iff ref)) (fun _ => rfl)
      fun _ => copies.object ref, apply_ite ρ.entries]
  · show ρ.objects ((h.objects.push es).size + i) = (h'.objects.push _).size + i
    rw [Array.size_push, Array.size_push, Nat.add_assoc, Nat.add_assoc, copies.nextObject]

end Renaming.Copies

/-! ## Traversals -/

theorem walk_map {α β γ : Type} (f : β → Nat → Except Obstacle (γ × Nat)) (g : α → β) :
    ∀ (l : List α) (budget : Nat), walk f (l.map g) budget = walk (fun a => f (g a)) l budget
  | [], _ => rfl
  | a :: rest, budget => by
    simp only [List.map_cons, walk, walk_map f g rest]

namespace Renaming.Matches

variable {ρ : Renaming} {h h' : Heap} (same : ρ.Matches h h')

include same

theorem jsonData (depth : Nat) : ∀ (path : List Value) (v : Value),
    Value.jsonData h' depth (path.map ρ.value) (ρ.value v) = Value.jsonData h depth path v := by
  induction depth with
  | zero =>
    intro path v
    funext budget
    have inside := ρ.contains_value path v
    cases v <;> simp only [value] at inside ⊢ <;> simp only [Value.jsonData]
  | succ depth ih =>
    intro path v
    funext budget
    have inside := ρ.contains_value path v
    have items := ih (v :: path)
    cases v with
    | array ref =>
      simp only [List.map_cons, value_array] at inside items ⊢
      cases budget <;> simp only [Value.jsonData, inside, same.array, walk_map, items]
    | object ref =>
      simp only [List.map_cons, value_object] at inside items ⊢
      cases budget <;> simp only [Value.jsonData, inside, same.object, entries, List.filter_map, Function.comp_def,
        isOmitted_value, walk_map, items]
    | _ => simp only [value, Value.jsonData]

theorem joined (depth : Nat) : ∀ (path : List Nat) (v : Value),
    Value.joined h' depth (path.map ρ.arrays) (ρ.value v) = Value.joined h depth path v := by
  induction depth with
  | zero =>
    intro path v
    funext budget
    cases v <;> rfl
  | succ depth ih =>
    intro path v
    funext budget
    cases v with
    | array ref =>
      have items := ih (ref :: path)
      simp only [List.map_cons] at items
      cases budget <;>
        simp only [value_array, Value.joined, ρ.contains_arrays, same.array, walk_map, isNullish_value, items]
    | _ => rfl

theorem dataWithin (limit depth : Nat) : ∀ (path : List Value) (v : Value),
    Value.dataWithin h' limit depth (path.map ρ.value) (ρ.value v) = Value.dataWithin h limit depth path v := by
  induction depth with
  | zero =>
    intro path v
    funext budget
    cases v <;> simp only [value] <;> simp only [Value.dataWithin]
  | succ depth ih =>
    intro path v
    funext budget
    have inside := ρ.contains_value path v
    have items := ih (v :: path)
    cases v with
    | array ref =>
      simp only [List.map_cons, value_array] at inside items ⊢
      cases budget <;> simp only [Value.dataWithin, inside, same.array, walk_map, items]
    | object ref =>
      simp only [List.map_cons, value_object] at inside items ⊢
      cases budget <;> simp only [Value.dataWithin, inside, same.object, entries, walk_map, items]
    | _ => simp only [value, Value.dataWithin]

theorem snapshot (limit : Nat) (v : Value) : (ρ.value v).snapshot h' limit = v.snapshot h limit := by
  have data := same.dataWithin limit Value.maxDepth [] v
  simp only [List.map_nil] at data
  simp only [Value.snapshot, data]

end Renaming.Matches

theorem Renaming.Copies.reads {ρ : Renaming} {h h' : Heap} (copies : ρ.Copies h h') : ρ.Reads h h' where
  toMatches := copies.toMatches
  jsonText v := by
    have data := copies.jsonData h.jsonReach [] v
    simp only [List.map_nil] at data
    simp only [Value.jsonText, Heap.jsonReach, copies.frames] at data ⊢
    rw [data]
  joinText v := by
    have text := copies.joined h.joinReach [] v
    simp only [List.map_nil] at text
    simp only [Value.joinText, Heap.joinReach, copies.frames] at text ⊢
    rw [text]

namespace Renaming.Reads

variable {ρ : Renaming} {h h' : Heap} (reads : ρ.Reads h h')

include reads

theorem render (v : Value) : (ρ.value v).render h' = v.render h := by
  have text := reads.jsonText v
  cases v <;> simp only [value] at text ⊢ <;> simp only [Value.render, text]

theorem toNumber (v : Value) : (ρ.value v).toNumber h' = v.toNumber h := by
  have text := reads.joinText v
  cases v <;> simp only [value] at text ⊢ <;> simp only [Value.toNumber, text]

/-! ## Operators -/

theorem plus (l r : Value) : Value.plus h' (ρ.value l) (ρ.value r) = (Value.plus h l r).map ρ.value := by
  simp only [Value.plus, kind_value, reads.render, reads.toNumber]
  split
  · cases Value.capped _ <;> rfl
  · exact ρ.map_number _ _ _

theorem arith (op : Number → Number → Number) (l r : Value) :
    Value.arith h' op (ρ.value l) (ρ.value r) = (Value.arith h op l r).map ρ.value := by
  simp only [Value.arith, reads.toNumber]
  exact ρ.map_number _ _ _

theorem compare (rel : Value.Relation) (l r : Value) :
    Value.compare h' rel (ρ.value l) (ρ.value r) = Value.compare h rel l r := by
  have left := reads.toNumber l
  have right := reads.toNumber r
  unfold Value.compare
  cases l <;> cases r <;> simp only [value] at left right ⊢ <;> simp only [left, right]

theorem looseText (s : Text) (v : Value) : Value.looseText h' s (ρ.value v) = Value.looseText h s v := by
  have text := reads.joinText v
  cases v <;> simp only [value] at text ⊢ <;> simp only [Value.looseText, text]

theorem looseRest (l r : Value) : Value.looseRest h' (ρ.value l) (ρ.value r) = Value.looseRest h l r := by
  simp only [Value.looseRest, kind_value, isContainer_value, strictEquals_value, reads.joinText, reads.looseText]
  refine ite_congr rfl (fun _ => rfl) fun _ => ite_congr rfl (fun _ => rfl) fun _ =>
    ite_congr rfl (fun _ => rfl) fun _ => ?_
  cases l <;> cases r <;> rfl

theorem looseEquals (l r : Value) : Value.looseEquals h' (ρ.value l) (ρ.value r) = Value.looseEquals h l r := by
  simp only [Value.looseEquals, isNullish_value, kind_value, strictEquals_value, numberOfBool_value, reads.looseRest]

theorem containsKey (container key : Value) :
    Value.containsKey h' (ρ.value container) (ρ.value key) = Value.containsKey h container key := by
  cases container with
  | array ref =>
    simp only [value_array, Value.containsKey, reads.render, reads.toNumber, reads.array, List.length_map]
  | object ref => simp only [value_object, Value.containsKey, reads.render, reads.object, contains_entries]
  | _ => rfl

theorem toInt32 (v : Value) : (ρ.value v).toInt32 h' = v.toInt32 h := by
  simp only [Value.toInt32, reads.toNumber]

theorem toUInt32 (v : Value) : (ρ.value v).toUInt32 h' = v.toUInt32 h := by
  simp only [Value.toUInt32, reads.toInt32]

theorem bitwise (op : Int → Int → Int) (l r : Value) :
    Value.bitwise h' op (ρ.value l) (ρ.value r) = (Value.bitwise h op l r).map ρ.value := by
  simp only [Value.bitwise, reads.toInt32]
  exact ρ.map_number _ _ _

theorem shift {read : Heap → Value → Except Fault Int} (op : Int → Nat → Int) (l r : Value)
    (same : read h' (ρ.value l) = read h l) :
    Value.shift h' read op (ρ.value l) (ρ.value r) = (Value.shift h read op l r).map ρ.value := by
  simp only [Value.shift, Value.shiftCount, reads.toUInt32, same]
  exact ρ.map_number _ _ _

theorem bitNot (v : Value) : (ρ.value v).bitNot h' = (v.bitNot h).map ρ.value := by
  simp only [Value.bitNot, reads.toInt32]
  rcases v.toInt32 h with _ | a <;> rfl

theorem apply (op : BinaryOp) (l r : Value) :
    Value.apply h' op (ρ.value l) (ρ.value r) = (Value.apply h op l r).map ρ.value := by
  have truth {f : Bool → Bool} (answer : Except Fault Bool) :
      answer.map (fun b => Value.bool (f b)) = (answer.map fun b => Value.bool (f b)).map ρ.value := by
    cases answer <;> rfl
  cases op with
  | add => exact reads.plus l r
  | sub | mul | div | mod | pow => exact reads.arith _ l r
  | bitAnd | bitOr | bitXor => exact reads.bitwise _ l r
  | shiftLeft | shiftRight => exact reads.shift _ l r (reads.toInt32 l)
  | shiftRightZero => exact reads.shift _ l r (reads.toUInt32 l)
  | lt | le | gt | ge =>
    simp only [Value.apply, reads.compare]
    exact truth _
  | strictEq | strictNe =>
    simp only [Value.apply, strictEquals_value]
    rfl
  | looseEq | looseNe =>
    simp only [Value.apply, reads.looseEquals]
    exact truth _
  | contained =>
    simp only [Value.apply, reads.containsKey]
    exact truth _

/-! ## Properties -/

theorem getProperty (container key : Value) :
    Value.getProperty h' (ρ.value container) (ρ.value key) = (Value.getProperty h container key).map ρ.value := by
  cases container with
  | array ref =>
    have element (index : Option Nat) : (index.bind fun i => (h'.array (ρ.arrays ref))[i]?) =
        (index.bind fun i => (h.array ref)[i]?).map ρ.value := by
      simp only [reads.array, List.getElem?_map, Option.map_bind, Function.comp_def]
    simp only [value_array, Value.getProperty, reads.render, reads.array, List.length_map, indexOf_value]
    split
    · rfl
    · rcases key.indexOf with _ | index
      · rfl
      · show Except.ok ((index.bind _).getD _) = .ok (ρ.value _)
        rw [← reads.array, element]
        cases index.bind fun i => (h.array ref)[i]? <;> rfl
  | text t =>
    have same : ρ.value (.text t) = .text t := rfl
    simp only [same, Value.getProperty, reads.render, indexOf_value]
    split
    · rfl
    · rcases key.indexOf with _ | index
      · rfl
      · show Except.ok (((index.bind fun i => t.codes[i]?).map _).getD _) = .ok (ρ.value _)
        cases index.bind fun i => t.codes[i]? <;> rfl
  | object ref =>
    simp only [value_object, Value.getProperty, reads.render, reads.object, get?_entries]
    cases (h.object ref).get? _ <;> rfl
  | _ => rfl

end Renaming.Reads

/-! ## The tree below a value -/

theorem Renaming.Matches.unfold {ρ : Renaming} {h h' : Heap} (same : ρ.Matches h h') (fuel : Nat) :
    ∀ (path : List Value) (v : Value),
      Value.unfold h' fuel (path.map ρ.value) (ρ.value v) = Value.unfold h fuel path v := by
  induction fuel with
  | zero =>
    intro path v
    cases v <;> simp only [value] <;> simp only [Value.unfold]
  | succ fuel ih =>
    intro path v
    have inside := ρ.contains_value path v
    have items := ih (v :: path)
    cases v with
    | array ref =>
      simp only [List.map_cons, value_array] at inside items ⊢
      simp only [Value.unfold, inside, same.array, List.map_map, Function.comp_def, items]
    | object ref =>
      simp only [List.map_cons, value_object] at inside items ⊢
      simp only [Value.unfold, inside, same.object, entries, List.map_map, Function.comp_def, items]
    | _ => simp only [value, Value.unfold]

namespace Heap

variable {h : Heap} {ref : Nat}

def containers (h : Heap) : List Value :=
  (List.range h.arrays.size).map .array ++ (List.range h.objects.size).map .object

theorem length_containers (h : Heap) : h.containers.length = h.arrays.size + h.objects.size := by
  simp [containers]

theorem mem_containers_array {v : Value} (hv : v ∈ h.array ref) : .array ref ∈ h.containers := by
  have held : ref < h.arrays.size := by
    by_contra out
    simp [array, Array.getD, out] at hv
  simp [containers, held]

theorem mem_containers_object {e : EntryKey × Value} (he : e ∈ h.object ref) : .object ref ∈ h.containers := by
  have held : ref < h.objects.size := by
    by_contra out
    simp [object, Array.getD, out] at he
  simp [containers, held]

end Heap

/-- Fuel for a path through all containers is enough: no container comes twice on a path. -/
theorem Value.unfold_of_enough (h : Heap) (more fuel : Nat) : ∀ (path : List Value) (v : Value), path.Nodup →
    path ⊆ h.containers → h.containers.length < path.length + fuel →
      v.unfold h (fuel + more) path = v.unfold h fuel path := by
  induction fuel with
  | zero =>
    intro path v nodup held long
    have short := (nodup.subperm held).length_le
    omega
  | succ fuel ih =>
    intro path v nodup held long
    rw [Nat.add_right_comm]
    have deeper {c : Value} (new : ¬path.contains c = true) (mem : c ∈ h.containers) (w : Value) :
        w.unfold h (fuel + more) (c :: path) = w.unfold h fuel (c :: path) := by
      rw [List.contains_iff_mem] at new
      refine ih (c :: path) w (List.nodup_cons.2 ⟨new, nodup⟩) (List.cons_subset.2 ⟨mem, held⟩) ?_
      rw [List.length_cons]
      omega
    cases v with
    | array ref =>
      simp only [Value.unfold]
      split
      · rfl
      · rename_i new
        exact congrArg Datum.list (List.map_congr_left fun w hw => deeper new (Heap.mem_containers_array hw) w)
    | object ref =>
      simp only [Value.unfold]
      split
      · rfl
      · rename_i new
        refine congrArg Datum.record (List.map_congr_left fun e he => ?_)
        rw [deeper new (Heap.mem_containers_object he)]
    | _ => simp only [Value.unfold]

theorem Value.toDatum_of_enough (h : Heap) (v : Value) {fuel : Nat} (enough : h.arrays.size + h.objects.size < fuel) :
    v.toDatum h = v.unfold h fuel [] := by
  obtain ⟨more, rfl⟩ := Nat.exists_eq_add_of_lt enough
  rw [Nat.add_right_comm]
  refine (Value.unfold_of_enough h more _ [] v .nil (List.nil_subset _) ?_).symm
  rw [Heap.length_containers, List.length_nil]
  omega

theorem Renaming.Matches.toDatum {ρ : Renaming} {h h' : Heap} (same : ρ.Matches h h') (v : Value) :
    (ρ.value v).toDatum h' = v.toDatum h := by
  have unfolded := same.unfold (max (h.arrays.size + h.objects.size) (h'.arrays.size + h'.objects.size) + 1) [] v
  rwa [List.map_nil, ← Value.toDatum_of_enough h' _ (by omega), ← Value.toDatum_of_enough h _ (by omega)] at unfolded

/-! ## Strangers -/

section

variable {ρ : Renaming} {strangers : List Value} (fixed : ∀ v ∈ strangers, ρ.value v = v)

include fixed

theorem Renaming.contains_strangers (v : Value) : strangers.contains (ρ.value v) = strangers.contains v := by
  have same : strangers.map ρ.value = strangers := (List.map_congr_left fixed).trans (List.map_id _)
  have moved := ρ.contains_value strangers v
  rwa [same] at moved

theorem Renaming.lookAt (v : Value) : (ρ.value v).lookAt strangers = v.lookAt strangers := by
  simp only [Value.lookAt, contains_strangers fixed]

end

namespace Renaming.Matches

variable {ρ : Renaming} {h h' : Heap} (same : ρ.Matches h h')

include same

theorem inner? (json : Bool) (v : Value) :
    (ρ.value v).inner? json h' = (v.inner? json h).map (List.map ρ.value) := by
  cases v with
  | array ref => simp only [value_array, Value.inner?, same.array, Option.map_some]
  | object ref =>
    simp only [value_object, Value.inner?, same.object, entries, List.map_map, List.filter_map, Function.comp_def,
      isOmitted_value]
    split
    · rw [Option.map_some, List.map_map]
      rfl
    · rfl
  | _ => rfl

theorem lookWithin {strangers : List Value} (fixed : ∀ v ∈ strangers, ρ.value v = v) (json : Bool) (depth : Nat) :
    ∀ (path : List Value) (v : Value) (budget : Nat),
      Value.lookWithin strangers json h' depth (path.map ρ.value) (ρ.value v) budget =
        Value.lookWithin strangers json h depth path v budget := by
  induction depth with
  | zero =>
    intro path v budget
    rw [Value.lookWithin, Value.lookWithin, contains_strangers fixed, same.inner?, contains_value]
    cases v.inner? json h <;> rfl
  | succ depth ih =>
    intro path v budget
    have items := ih (v :: path)
    simp only [List.map_cons] at items
    rw [Value.lookWithin, Value.lookWithin, contains_strangers fixed, same.inner?, contains_value]
    cases v.inner? json h with
    | none => rfl
    | some inner => cases budget <;> simp only [Option.map_some, List.foldlM_map, items]

end Renaming.Matches

namespace Renaming.Copies

variable {ρ : Renaming} {h h' : Heap} (copies : ρ.Copies h h') {strangers : List Value}
  (fixed : ∀ v ∈ strangers, ρ.value v = v)

include copies fixed

theorem lookJoined (v : Value) : (ρ.value v).lookJoined strangers h' = v.lookJoined strangers h := by
  have look := copies.lookWithin fixed false h.joinReach [] v
  simp only [List.map_nil] at look
  simp only [Value.lookJoined, Heap.joinReach, copies.frames] at look ⊢
  simp only [look]

theorem lookShown (v : Value) : (ρ.value v).lookShown strangers h' = v.lookShown strangers h := by
  have look := copies.lookWithin fixed true h.jsonReach [] v
  simp only [List.map_nil] at look
  simp only [Value.lookShown, Heap.jsonReach, copies.frames, copies.toDatum] at look ⊢
  simp only [look]

theorem lookNumber (v : Value) : (ρ.value v).lookNumber strangers h' = v.lookNumber strangers h := by
  have joined := copies.lookJoined fixed v
  have kind := lookAt fixed v
  cases v <;> simp only [value] at joined kind ⊢ <;> simp only [Value.lookNumber, joined, kind]

theorem lookNumbers (l r : Value) :
    Value.lookNumbers strangers h' (ρ.value l) (ρ.value r) = Value.lookNumbers strangers h l r := by
  simp only [Value.lookNumbers, copies.lookNumber fixed]

theorem lookContained (key container : Value) :
    Value.lookContained strangers h' (ρ.value key) (ρ.value container) =
      Value.lookContained strangers h key container := by
  simp only [Value.lookContained, lookAt fixed, copies.lookShown fixed, copies.lookNumber fixed,
    copies.reads.render]
  cases container <;> rfl

theorem lookBinary (op : BinaryOp) (l r : Value) :
    Value.lookBinary strangers h' op (ρ.value l) (ρ.value r) = Value.lookBinary strangers h op l r := by
  cases op <;>
    simp only [Value.lookBinary, Value.lookPlus, Value.lookCompare, Value.lookEqual, lookAt fixed,
      copies.lookShown fixed, copies.lookJoined fixed, copies.lookNumbers fixed, copies.lookContained fixed, kind_value,
      isNullish_value, isContainer_value]

theorem lookRead (holder key : Value) :
    Value.lookRead strangers h' (ρ.value holder) (ρ.value key) = Value.lookRead strangers h holder key := by
  simp only [Value.lookRead, lookAt fixed, copies.lookShown fixed]
  cases holder <;> rfl

end Renaming.Copies

end ScriptTrace
