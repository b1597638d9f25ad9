/-!
# Ordered tables

A **table** maps keys to values and remembers the order in which keys first came. Storing under a key
that is present keeps its place; a new key goes last.
-/
namespace ScriptTrace

/-- Pairs of key and value in order of first insertion. -/
abbrev Assoc (α β : Type) := List (α × β)

namespace Assoc

variable {α β : Type} [DecidableEq α]

def get? (k : α) : Assoc α β → Option β
  | [] => none
  | (k', v) :: rest => if k' = k then some v else get? k rest

def contains (k : α) : Assoc α β → Bool
  | [] => false
  | (k', _) :: rest => k' = k || contains k rest

def insert (k : α) (v : β) : Assoc α β → Assoc α β
  | [] => [(k, v)]
  | (k', v') :: rest => if k' = k then (k', v) :: rest else (k', v') :: insert k v rest

omit [DecidableEq α] in
def keys (t : Assoc α β) : List α :=
  t.map Prod.fst

/-- The table that the pairs give when stored one after the other. -/
def ofPairs (pairs : List (α × β)) : Assoc α β :=
  pairs.foldl (fun t p => insert p.1 p.2 t) []

omit [DecidableEq α] in
/-- The table that the pairs give when stored one after the other, where `same` says which keys are the same;
the first of them is kept. -/
def ofPairsBy (same : α → α → Bool) (pairs : List (α × β)) : Assoc α β :=
  pairs.foldl (fun t p =>
    if t.any fun q => same q.1 p.1 then t.map fun q => if same q.1 p.1 then (q.1, p.2) else q
    else t ++ [p]) []

theorem get?_insert_self (k : α) (v : β) (t : Assoc α β) : get? k (insert k v t) = some v := by
  induction t with
  | nil => simp [insert, get?]
  | cons p rest ih =>
    obtain ⟨k', v'⟩ := p
    by_cases h : k' = k <;> simp [insert, get?, h, ih]

theorem get?_insert_of_ne {k k' : α} (h : k ≠ k') (v : β) (t : Assoc α β) :
    get? k' (insert k v t) = get? k' t := by
  induction t with
  | nil => simp [insert, get?, h]
  | cons p rest ih =>
    obtain ⟨k'', v''⟩ := p
    by_cases hk : k'' = k
    · subst hk; simp [insert, get?, h]
    · simp only [insert, hk, if_false, get?, ih]

/-- Storing keeps the order of the keys; a new key goes last. -/
theorem keys_insert (k : α) (v : β) (t : Assoc α β) :
    (insert k v t).keys = if contains k t then t.keys else t.keys ++ [k] := by
  induction t with
  | nil => rfl
  | cons p rest ih =>
    obtain ⟨k', v'⟩ := p
    by_cases h : k' = k
    · simp [insert, contains, keys, h]
    · have tail : (insert k v rest).map Prod.fst = _ := ih
      simp only [insert, contains, keys, h, if_false, List.map_cons, tail, decide_false, Bool.false_or]
      split <;> rfl

theorem mem_insert {k : α} {v : β} {t : Assoc α β} {q : α × β} (h : q ∈ insert k v t) :
    q = (k, v) ∨ q ∈ t := by
  induction t with
  | nil => exact .inl (List.mem_singleton.1 h)
  | cons p rest ih =>
    obtain ⟨k', v'⟩ := p
    by_cases hk : k' = k
    · simp only [insert, hk, if_true, List.mem_cons] at h
      exact h.imp_right (List.mem_cons_of_mem _)
    · simp only [insert, hk, if_false, List.mem_cons] at h
      rcases h with rfl | h
      · exact .inr List.mem_cons_self
      · exact (ih h).imp_right (List.mem_cons_of_mem _)

theorem mem_of_get? {k : α} {v : β} {t : Assoc α β} (h : get? k t = some v) : (k, v) ∈ t := by
  induction t with
  | nil => simp [get?] at h
  | cons p rest ih =>
    obtain ⟨k', v'⟩ := p
    by_cases hk : k' = k
    · simp only [get?, hk, if_true, Option.some.injEq] at h
      simp [hk, h]
    · simp only [get?, hk, if_false] at h
      exact List.mem_cons_of_mem _ (ih h)

theorem contains_eq_isSome (k : α) (t : Assoc α β) : contains k t = (get? k t).isSome := by
  induction t with
  | nil => rfl
  | cons p rest ih =>
    obtain ⟨k', v'⟩ := p
    by_cases h : k' = k <;> simp [contains, get?, h, ih]

end Assoc

end ScriptTrace
