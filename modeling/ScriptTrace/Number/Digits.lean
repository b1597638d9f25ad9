/-!
# Digit values

The number that digit values **spell** in a base, the most significant first. Long runs are spelled by
halves, so that their length does not enter squared; what they spell is the same.
-/
namespace ScriptTrace.Digits

/-- Spells a run one digit after the other. -/
def inOrder (base : Nat) (ds : List Nat) : Nat :=
  ds.foldl (fun n d => base * n + d) 0

/-- Runs up to this length are not halved. -/
def shortRun : Nat := 64

/-- Spells a run by halves, at most so many times. -/
def byHalves (base : Nat) : Nat → List Nat → Nat
  | 0, ds => inOrder base ds
  | times + 1, ds =>
    if ds.length ≤ shortRun then inOrder base ds
    else
      let half := ds.length / 2
      byHalves base times (ds.take half) * Nat.pow base (ds.length - half) + byHalves base times (ds.drop half)

/-- The number that digit values spell. -/
def spell (base : Nat) (ds : List Nat) : Nat :=
  byHalves base ds.length.log2 ds

theorem foldl_eq (base : Nat) (ds : List Nat) (n : Nat) :
    ds.foldl (fun n d => base * n + d) n = n * Nat.pow base ds.length + inOrder base ds := by
  induction ds generalizing n with
  | nil => simp [inOrder]
  | cons d rest ih =>
    have h0 := ih d
    have hn := ih (base * n + d)
    have hp : Nat.pow base (rest.length + 1) = Nat.pow base rest.length * base := rfl
    have hc : base * n * Nat.pow base rest.length = n * (Nat.pow base rest.length * base) := by
      rw [Nat.mul_comm base n, Nat.mul_assoc, Nat.mul_comm base]
    simp only [inOrder, List.foldl_cons, List.length_cons, Nat.mul_zero, Nat.zero_add] at *
    rw [hn, h0, hp, Nat.add_mul]
    omega

theorem inOrder_append (base : Nat) (as bs : List Nat) :
    inOrder base (as ++ bs) = inOrder base as * Nat.pow base bs.length + inOrder base bs := by
  rw [inOrder, List.foldl_append, foldl_eq base bs]
  rfl

theorem byHalves_eq_inOrder (base times : Nat) (ds : List Nat) :
    byHalves base times ds = inOrder base ds := by
  induction times generalizing ds with
  | zero => rfl
  | succ times ih =>
    rw [byHalves]
    split
    · rfl
    · simp only [ih]
      have h := inOrder_append base (ds.take (ds.length / 2)) (ds.drop (ds.length / 2))
      rw [List.take_append_drop, List.length_drop] at h
      exact h.symm

theorem spell_eq_inOrder (base : Nat) (ds : List Nat) : spell base ds = inOrder base ds :=
  byHalves_eq_inOrder base _ ds

end ScriptTrace.Digits
