import ScriptTrace.Proofs.Keys
import ScriptTrace.Run.Eval
/-!
# Properties are read as they were written

What the write of a property does depends on the container and on the key. An object takes every key. An array takes a
key that names an index, unless that is too far behind the last element, and the key `length`, unless the length is no
integer or too large. All other writes leave the heap as it was, and so does a write that raises.

* `Value.stored_storeAt`, `Value.resized_resize`: what becomes of the elements of an array.
* `Value.setProperty_index`, `Value.setProperty_length`, `Value.setProperty_otherwise`: the three sorts of writes to an
  array.
* `written_property_read_back`: reading the property after the write.
-/
namespace ScriptTrace

open Act

/-! ## Containers -/

namespace Heap

variable {h : Heap} {ref ref' : Nat}

theorem array_setArray_self (held : ref < h.arrays.size) (items : List Value) :
    (h.setArray ref items).array ref = items := by
  simp [setArray, array, Array.getD_eq_getD_getElem?, held]

theorem array_setArray_of_ne (ne : ref ≠ ref') (items : List Value) :
    (h.setArray ref items).array ref' = h.array ref' := by
  simp [setArray, array, Array.getD_eq_getD_getElem?, Array.getElem?_setIfInBounds_ne ne]

theorem object_setObject_self (held : ref < h.objects.size) (entries : Entries) :
    (h.setObject ref entries).object ref = entries := by
  simp [setObject, object, Array.getD_eq_getD_getElem?, held]

theorem object_setObject_of_ne (ne : ref ≠ ref') (entries : Entries) :
    (h.setObject ref entries).object ref' = h.object ref' := by
  simp [setObject, object, Array.getD_eq_getD_getElem?, Array.getElem?_setIfInBounds_ne ne]

/-- Whether two heaps have the same containers, apart from the one that a value refers to. -/
structure SameElsewhere (o : Value) (h h' : Heap) : Prop where
  arrays : ∀ ref, .array ref ≠ o → h'.array ref = h.array ref
  objects : ∀ ref, .object ref ≠ o → h'.object ref = h.object ref

theorem SameElsewhere.refl (o : Value) (h : Heap) : SameElsewhere o h h :=
  ⟨fun _ _ => rfl, fun _ _ => rfl⟩

theorem sameElsewhere_setArray (h : Heap) (ref : Nat) (items : List Value) :
    SameElsewhere (.array ref) h (h.setArray ref items) where
  arrays _ ne := array_setArray_of_ne (fun eq => ne (congrArg Value.array eq.symm)) items
  objects _ _ := rfl

theorem sameElsewhere_setObject (h : Heap) (ref : Nat) (entries : Entries) :
    SameElsewhere (.object ref) h (h.setObject ref entries) where
  arrays _ _ := rfl
  objects _ ne := object_setObject_of_ne (fun eq => ne (congrArg Value.object eq.symm)) entries

end Heap

namespace Value

/-! ## Elements -/

/-- Whether the second list is the first with `v` at index `i`, behind a gap of `undefined` if that was no index. -/
structure Stored (items : List Value) (i : Nat) (v : Value) (items' : List Value) : Prop where
  length : items'.length = max items.length (i + 1)
  value : items'[i]? = some v
  gap : ∀ j, items.length ≤ j → j < i → items'[j]? = some .undefined
  others : ∀ j < items.length, j ≠ i → items'[j]? = items[j]?

theorem stored_storeAt (items : List Value) (i : Nat) (v : Value) : Stored items i v (storeAt items i v) := by
  unfold storeAt
  by_cases inside : i < items.length
  · rw [if_pos inside]
    refine ⟨?_, ?_, fun j _ _ => ?_, fun j _ ne => ?_⟩
    · rw [List.length_set]
      omega
    · rw [List.getElem?_set_self inside]
    · omega
    · rw [List.getElem?_set_ne ne.symm]
  · rw [if_neg inside, List.append_assoc]
    refine ⟨?_, ?_, fun j _ _ => ?_, fun j lt _ => ?_⟩
    · simp only [List.length_append, List.length_replicate, List.length_singleton]
      omega
    · rw [List.getElem?_append_right (by omega), List.getElem?_append_right (by simp), List.length_replicate]
      simp
    · have within : j - items.length < i - items.length := by omega
      rw [List.getElem?_append_right (by omega), List.getElem?_append_left (by simpa using within),
        List.getElem?_replicate, if_pos within]
    · rw [List.getElem?_append_left lt]

/-- Whether the second list is the first at another length, filled up with `undefined`. -/
structure Resized (items : List Value) (n : Nat) (items' : List Value) : Prop where
  length : items'.length = n
  common : ∀ j < n, j < items.length → items'[j]? = items[j]?
  fill : ∀ j < n, items.length ≤ j → items'[j]? = some .undefined

theorem resized_resize (items : List Value) (n : Nat) : Resized items n (resize items n) := by
  unfold resize
  refine ⟨?_, fun j lt inside => ?_, fun j lt beyond => ?_⟩
  · simp only [List.length_append, List.length_take, List.length_replicate]
    omega
  · rw [List.getElem?_append_left (by simp; omega), List.getElem?_take_of_lt lt]
  · have taken : (items.take n).length = items.length := by
      rw [List.length_take]
      omega
    rw [List.getElem?_append_right (by omega), taken, List.getElem?_replicate, if_pos (by omega)]

/-! ## Writes to containers -/

section Writes

variable {h h' : Heap} {key v : Value} {ref line : Nat}

theorem Names.primitive {i : Nat} (names : key.Names i) : key.isContainer = false := by
  cases names <;> rfl

/-- A key that names an index is not shown as `length`. -/
theorem Names.render_ne {i : Nat} (names : key.Names i) (h : Heap) : key.render h ≠ lengthKey := by
  intro eq
  obtain rfl := (render_eq_lengthKey_iff names.primitive h).1 eq
  have index := indexOf_eq_some_iff.2 names
  cases index

theorem setProperty_index {i : Nat} (names : key.Names i) (near : i ≤ (h.array ref).length + maxGap) :
    setProperty h (.array ref) key v line = .ok (h.setArray ref (storeAt (h.array ref) i v), none) := by
  rw [setProperty, if_neg (names.render_ne h), setElement, indexOf_eq_some_iff.2 names]
  exact if_neg (Nat.not_lt.2 near)

theorem setProperty_length {n : Nat} (number : v.toNumber h = .ok (.int n))
    (near : n ≤ (h.array ref).length + maxGap) :
    setProperty h (.array ref) (.text lengthKey) v line = .ok (h.setArray ref (resize (h.array ref) n), none) := by
  have shown : (Value.text lengthKey).render h = lengthKey := rfl
  rw [setProperty, if_pos shown, number]
  exact if_pos near

/-- A write to an array that neither stores an element nor sets the length leaves the heap as it was. -/
theorem setProperty_otherwise {remark : Option Remark} (primitive : key.isContainer = false)
    (far : ∀ i, key.Names i → (h.array ref).length + maxGap < i)
    (large : key = .text lengthKey → ∀ n : Nat, v.toNumber h = .ok (.int n) → (h.array ref).length + maxGap < n)
    (written : setProperty h (.array ref) key v line = .ok (h', remark)) : h' = h := by
  rw [setProperty] at written
  by_cases shown : key.render h = lengthKey
  · rw [if_pos shown] at written
    have beyond := large ((render_eq_lengthKey_iff primitive h).1 shown)
    split at written
    · rename_i number value
      unfold setLength at written
      split at written
      · rename_i n
        rw [if_neg (Nat.not_le.2 (beyond n value))] at written
        cases written
        rfl
      · cases written
    · cases written
  · rw [if_neg shown, setElement] at written
    cases index : key.indexOf with
    | error fault =>
      rw [index] at written
      cases written
    | ok i =>
      rw [index] at written
      cases i with
      | none =>
        cases written
        rfl
      | some i =>
        have eq : (h, some (Remark.indexTooFar i)) = (h', remark) :=
          Except.ok.inj ((if_pos (far i (indexOf_eq_some_iff.1 index))).symm.trans written)
        exact (congrArg Prod.fst eq).symm

/-- A write changes the container it is made to, if any. -/
theorem setProperty_sameElsewhere {o : Value} {remark : Option Remark}
    (written : setProperty h o key v line = .ok (h', remark)) : h.SameElsewhere o h' := by
  unfold setProperty at written
  split at written
  · cases written
  · cases written
  · cases written
    exact Heap.sameElsewhere_setObject _ _ _
  · split at written
    · split at written
      · unfold setLength at written
        split at written
        · dsimp only at written
          split at written <;> cases written
          · exact Heap.sameElsewhere_setArray _ _ _
          · exact .refl _ _
        · cases written
      · cases written
    · unfold setElement at written
      cases index : key.indexOf with
      | error fault =>
        rw [index] at written
        cases written
      | ok i =>
        rw [index] at written
        cases i with
        | none =>
          cases written
          exact .refl _ _
        | some i =>
          dsimp only [bind, Except.bind] at written
          split at written <;> cases written
          · exact .refl _ _
          · exact Heap.sameElsewhere_setArray _ _ _
  · cases written
    exact .refl _ _

end Writes

/-! ## Reading back -/

section Reads

variable {h : Heap} {key v : Value} {ref : Nat}

theorem getProperty_object (found : (h.object ref).get? (.text (key.render h)) = some v) :
    getProperty h (.object ref) key = .ok v := by
  rw [getProperty, found]
  rfl

theorem getProperty_index {i : Nat} (names : key.Names i) (found : (h.array ref)[i]? = some v) :
    getProperty h (.array ref) key = .ok v := by
  rw [getProperty, if_neg (names.render_ne h), indexOf_eq_some_iff.2 names]
  simp only [bind, Except.bind, Option.bind, found]
  rfl

theorem getProperty_length (h : Heap) (ref : Nat) :
    getProperty h (.array ref) (.text lengthKey) = .ok (.ofNat (h.array ref).length) := by
  have shown : (Value.text lengthKey).render h = lengthKey := rfl
  rw [getProperty, if_pos shown]

end Reads

end Value

/-! ## Operations -/

section Operations

open Value

variable {m : Memory} {line : Nat} {o key v : Value} {heap : Heap}

theorem exec_screen_none {look : List Value → Heap → Look} : (Op.screen none look).exec m = (.ok (), m) :=
  rfl

theorem exec_writeProperty_stored (written : setProperty m.heap o key v line = .ok (heap, none)) :
    (writeProperty none line o key v).exec m = (.ok (), { m with heap := heap }) := by
  rw [writeProperty, exec_bind_ok exec_screen_none, exec_bind_ok exec_get, written]
  rfl

theorem exec_writeProperty_raised {fault : Fault} (raised : setProperty m.heap o key v line = .error fault) :
    (writeProperty none line o key v).exec m = (.error fault, m) := by
  rw [writeProperty, exec_bind_ok exec_screen_none, exec_bind_ok exec_get, raised]
  rfl

/-- The heap after a write that returns, with or without a remark. -/
theorem exec_writeProperty_heap {remark : Option Remark}
    (written : setProperty m.heap o key v line = .ok (heap, remark)) :
    ((writeProperty none line o key v).exec m).1 = .ok () ∧
      ((writeProperty none line o key v).exec m).2.heap = heap := by
  rw [writeProperty, exec_bind_ok exec_screen_none, exec_bind_ok exec_get, written]
  cases remark <;> exact ⟨rfl, rfl⟩

theorem exec_readProperty (container : o.isContainer = true) (read : getProperty m.heap o key = .ok v) :
    (readProperty none line o key).exec m = (.ok v, m) := by
  have present : o.isNullish = false := by
    cases o with
    | array | object => rfl
    | undefined | null | bool | number | text | function => cases container
  rw [readProperty, exec_bind_ok exec_screen_none, exec_bind_ok exec_get]
  simp only [read, present]
  rfl

end Operations

/-- The write of a property under a key that is no container, and what is read afterwards. An object has the value under
the key; its other entries and the order of its keys are as before, with a new key last. An array has the value at the
index that the key names, up to a gap of a thousand, or the length that is written. Every other write leaves the heap as
it was, one that raises leaves the whole memory, and no write changes a second container. -/
theorem written_property_read_back (m : Memory) (line line' : Nat) (key v : Value)
    (primitive : key.isContainer = false) :
    (∀ ref < m.heap.objects.size, ∃ heap : Heap,
      (writeProperty none line (.object ref) key v).exec m = (.ok (), { m with heap := heap }) ∧
      (readProperty none line' (.object ref) key).exec { m with heap := heap } = (.ok v, { m with heap := heap }) ∧
      (∀ k, k ≠ .text (key.render m.heap) → (heap.object ref).get? k = (m.heap.object ref).get? k) ∧
      (heap.object ref).keys =
        if (m.heap.object ref).contains (.text (key.render m.heap)) then (m.heap.object ref).keys
        else (m.heap.object ref).keys ++ [.text (key.render m.heap)]) ∧
    (∀ ref < m.heap.arrays.size, ∀ i, key.Names i → i ≤ (m.heap.array ref).length + 1000 → ∃ heap : Heap,
      (writeProperty none line (.array ref) key v).exec m = (.ok (), { m with heap := heap }) ∧
      (readProperty none line' (.array ref) key).exec { m with heap := heap } = (.ok v, { m with heap := heap }) ∧
      Value.Stored (m.heap.array ref) i v (heap.array ref)) ∧
    (∀ ref < m.heap.arrays.size, key = .text "length" → ∀ n : Nat, v.toNumber m.heap = .ok (.int n) →
      n ≤ (m.heap.array ref).length + 1000 → ∃ heap : Heap,
      (writeProperty none line (.array ref) key v).exec m = (.ok (), { m with heap := heap }) ∧
      (readProperty none line' (.array ref) key).exec { m with heap := heap } =
        (.ok (.ofNat n), { m with heap := heap }) ∧
      Value.Resized (m.heap.array ref) n (heap.array ref)) ∧
    (∀ ref, (∀ i, key.Names i → (m.heap.array ref).length + 1000 < i) →
      (key = .text "length" → ∀ n : Nat, v.toNumber m.heap = .ok (.int n) → (m.heap.array ref).length + 1000 < n) →
      ((writeProperty none line (.array ref) key v).exec m).2.heap = m.heap) ∧
    ∀ o, (∀ fault, ((writeProperty none line o key v).exec m).1 = .error fault →
        ((writeProperty none line o key v).exec m).2 = m) ∧
      m.heap.SameElsewhere o ((writeProperty none line o key v).exec m).2.heap := by
  refine ⟨fun ref held => ?_, fun ref held i names near => ?_, fun ref held length n number near => ?_,
    fun ref far large => ?_, fun o => ?_⟩
  · have written : Value.setProperty m.heap (.object ref) key v line = .ok (_, none) := rfl
    refine ⟨_, exec_writeProperty_stored written, ?_, ?_, ?_⟩
    · refine exec_readProperty rfl (Value.getProperty_object ?_)
      rw [Value.render_primitive primitive _ m.heap, Heap.object_setObject_self held]
      exact Assoc.get?_insert_self _ _ _
    · intro k ne
      rw [Heap.object_setObject_self held]
      exact Assoc.get?_insert_of_ne ne.symm _ _
    · rw [Heap.object_setObject_self held, Assoc.keys_insert]
  · have stored : Value.Stored (m.heap.array ref) i v
        ((m.heap.setArray ref (Value.storeAt (m.heap.array ref) i v)).array ref) := by
      rw [Heap.array_setArray_self held]
      exact Value.stored_storeAt _ i v
    refine ⟨_, exec_writeProperty_stored (Value.setProperty_index names near), ?_, stored⟩
    exact exec_readProperty rfl (Value.getProperty_index names stored.value)
  · subst length
    have resized : Value.Resized (m.heap.array ref) n
        ((m.heap.setArray ref (Value.resize (m.heap.array ref) n)).array ref) := by
      rw [Heap.array_setArray_self held]
      exact Value.resized_resize _ n
    refine ⟨_, exec_writeProperty_stored (Value.setProperty_length number near), ?_, resized⟩
    refine exec_readProperty rfl ((Value.getProperty_length _ ref).trans ?_)
    rw [resized.length]
  · cases written : Value.setProperty m.heap (.array ref) key v line with
    | error fault => rw [exec_writeProperty_raised written]
    | ok result =>
      rw [(exec_writeProperty_heap written).2]
      exact Value.setProperty_otherwise primitive far large written
  · cases written : Value.setProperty m.heap o key v line with
    | error fault =>
      rw [exec_writeProperty_raised written]
      exact ⟨fun _ _ => rfl, .refl _ _⟩
    | ok result =>
      obtain ⟨returned, heap⟩ := exec_writeProperty_heap written
      rw [heap, returned]
      exact ⟨fun _ raised => (by cases raised), Value.setProperty_sameElsewhere written⟩

/-- Writes to the array `[true]` and to an empty object: behind the end, of the length, and of what is no index. -/
theorem written_property_read_back_gap :
    let m : Memory := ⟨⟨#[[.bool true]], #[[]], 1000⟩, .empty, [], [], #[]⟩
    (∃ heap : Heap, (writeProperty none 1 (.object 0) (.text "3") .null).exec m = (.ok (), { m with heap := heap }) ∧
      (readProperty none 1 (.object 0) (.text "3")).exec { m with heap := heap } =
        (.ok .null, { m with heap := heap })) ∧
    ((Value.text "3").Names 3 ∧ ∃ heap : Heap,
      (writeProperty none 1 (.array 0) (.text "3") .null).exec m = (.ok (), { m with heap := heap }) ∧
      Value.Stored [.bool true] 3 .null (heap.array 0)) ∧
    ((Value.bool true).toNumber m.heap = .ok (.int 1) ∧ ∃ heap : Heap,
      (writeProperty none 1 (.array 0) (.text "length") (.bool true)).exec m = (.ok (), { m with heap := heap }) ∧
      Value.Resized [.bool true] 1 (heap.array 0)) ∧
    ((∀ i, ¬(Value.text "x").Names i) ∧
      ((writeProperty none 1 (.array 0) (.text "x") .null).exec m).2.heap = m.heap) ∧
    ((writeProperty none 1 (.array 0) (.text "length") .undefined).exec m).1 =
      .error (.failure .invalidLength (some 1)) ∧
      ((writeProperty none 1 (.array 0) (.text "length") .undefined).exec m).2 = m := by
  intro m
  have digits : (Value.text "3").Names 3 := Value.indexOf_eq_some_iff.1 rfl
  have letter : ∀ i, ¬(Value.text "x").Names i := by
    intro i names
    cases Value.indexOf_eq_some_iff.2 names
  have one : (Value.bool true).toNumber m.heap = .ok (.int 1) := rfl
  have invalid : ((writeProperty none 1 (.array 0) (.text "length") .undefined).exec m).1 =
      .error (.failure .invalidLength (some 1)) := rfl
  refine ⟨?_, ⟨digits, ?_⟩, ⟨one, ?_⟩, ⟨letter, ?_⟩, invalid, ?_⟩
  · obtain ⟨heap, written, read, -⟩ := (written_property_read_back m 1 1 (.text "3") .null rfl).1 0 (by decide)
    exact ⟨heap, written, read⟩
  · obtain ⟨heap, written, -, stored⟩ :=
      (written_property_read_back m 1 1 (.text "3") .null rfl).2.1 0 (by decide) 3 digits (by decide)
    exact ⟨heap, written, stored⟩
  · obtain ⟨heap, written, -, resized⟩ :=
      (written_property_read_back m 1 1 (.text "length") (.bool true) rfl).2.2.1 0 (by decide) rfl 1 one (by decide)
    exact ⟨heap, written, resized⟩
  · refine (written_property_read_back m 1 1 (.text "x") .null rfl).2.2.2.1 0 ?_ fun length => ?_
    · exact fun i names => absurd names (letter i)
    · cases length
  · exact ((written_property_read_back m 1 1 (.text "length") .undefined rfl).2.2.2.2 (.array 0)).1 _ invalid

end ScriptTrace
