import ScriptTrace.Text.Basic
import ScriptTrace.Number.Basic
/-!
# Plain data

**Plain data** is a finite tree: what a snapshot of a value holds and what the wire carries. It shares
nothing with the running script, so later writes cannot reach it.

Two snapshots count as the **same** when their canonical forms agree. The canonical form forgets two
distinctions: `undefined` is the text `<undefined>`, and a text is its UTF-16 units, so a surrogate pair
spelled as two code points is the code point it encodes.
-/
namespace ScriptTrace

inductive Plain
  | undefined
  | null
  | bool (b : Bool)
  | number (n : Number)
  | text (t : Text)
  | list (items : List Plain)
  | record (fields : List (Text × Plain))
deriving Repr, Inhabited

namespace Plain

mutual

def beq : Plain → Plain → Bool
  | .undefined, .undefined => true
  | .null, .null => true
  | .bool a, .bool b => a == b
  | .number a, .number b => a == b
  | .text a, .text b => a == b
  | .list as, .list bs => beqItems as bs
  | .record as, .record bs => beqFields as bs
  | _, _ => false

def beqItems : List Plain → List Plain → Bool
  | [], [] => true
  | a :: as, b :: bs => beq a b && beqItems as bs
  | _, _ => false

def beqFields : List (Text × Plain) → List (Text × Plain) → Bool
  | [], [] => true
  | (k, a) :: as, (l, b) :: bs => k == l && beq a b && beqFields as bs
  | _, _ => false

end

mutual

theorem eq_of_beq : ∀ a b : Plain, beq a b = true → a = b
  | .undefined, b, h => by cases b <;> simp_all [beq]
  | .null, b, h => by cases b <;> simp_all [beq]
  | .bool _, b, h => by cases b <;> simp_all [beq]
  | .number _, b, h => by cases b <;> simp_all [beq]
  | .text _, b, h => by cases b <;> simp_all [beq]
  | .list as, b, h => by
    cases b <;> simp only [beq, Bool.false_eq_true] at h
    rename_i bs
    rw [eq_of_beqItems as bs h]
  | .record as, b, h => by
    cases b <;> simp only [beq, Bool.false_eq_true] at h
    rename_i bs
    rw [eq_of_beqFields as bs h]

theorem eq_of_beqItems : ∀ as bs : List Plain, beqItems as bs = true → as = bs
  | [], bs, h => by cases bs <;> simp_all [beqItems]
  | a :: as, bs, h => by
    cases bs with
    | nil => simp [beqItems] at h
    | cons b bs =>
      simp only [beqItems, Bool.and_eq_true] at h
      rw [eq_of_beq a b h.1, eq_of_beqItems as bs h.2]

theorem eq_of_beqFields : ∀ as bs : List (Text × Plain), beqFields as bs = true → as = bs
  | [], bs, h => by cases bs <;> simp_all [beqFields]
  | (k, a) :: as, bs, h => by
    cases bs with
    | nil => simp [beqFields] at h
    | cons p bs =>
      obtain ⟨l, b⟩ := p
      simp only [beqFields, Bool.and_eq_true, beq_iff_eq] at h
      rw [h.1.1, eq_of_beq a b h.1.2, eq_of_beqFields as bs h.2]

end

mutual

theorem beq_refl : ∀ a : Plain, beq a a = true
  | .undefined => rfl
  | .null => rfl
  | .bool _ => by simp [beq]
  | .number _ => by simp [beq]
  | .text _ => by simp [beq]
  | .list as => by rw [beq]; exact beqItems_refl as
  | .record as => by rw [beq]; exact beqFields_refl as

theorem beqItems_refl : ∀ as : List Plain, beqItems as as = true
  | [] => rfl
  | a :: as => by rw [beqItems, beq_refl a, beqItems_refl as]; rfl

theorem beqFields_refl : ∀ as : List (Text × Plain), beqFields as as = true
  | [] => rfl
  | (k, a) :: as => by
    rw [beqFields, beq_refl a, beqFields_refl as]
    simp

end

theorem beq_iff_eq {a b : Plain} : beq a b = true ↔ a = b :=
  ⟨eq_of_beq a b, fun h => h ▸ beq_refl a⟩

instance : DecidableEq Plain := fun _ _ => decidable_of_iff _ beq_iff_eq

/-- What stands for `undefined` in a canonical form. -/
def undefinedMark : Text := "<undefined>"

mutual

/-- The form in which snapshots are compared. -/
def canonical : Plain → Plain
  | .undefined => .text undefinedMark
  | .null => .null
  | .bool b => .bool b
  | .number n => .number n
  | .text t => .text ⟨t.units16⟩
  | .list items => .list (canonicalItems items)
  | .record fields => .record (canonicalFields fields)

def canonicalItems : List Plain → List Plain
  | [] => []
  | a :: rest => canonical a :: canonicalItems rest

def canonicalFields : List (Text × Plain) → List (Text × Plain)
  | [] => []
  | (k, a) :: rest => (⟨k.units16⟩, canonical a) :: canonicalFields rest

end

/-- Whether two sets of variables count as the same. -/
def sameFields (as bs : List (Text × Plain)) : Bool :=
  beqFields (canonicalFields as) (canonicalFields bs)

mutual

/-- The wire form: the wire has no `undefined`. -/
def wire : Plain → Plain
  | .undefined => .null
  | .list items => .list (wireItems items)
  | .record fields => .record (wireFields fields)
  | leaf => leaf

def wireItems : List Plain → List Plain
  | [] => []
  | a :: rest => wire a :: wireItems rest

def wireFields : List (Text × Plain) → List (Text × Plain)
  | [] => []
  | (k, a) :: rest => (k, wire a) :: wireFields rest

end

end Plain

end ScriptTrace
