import ScriptTrace.Proofs.Unfolding
import ScriptTrace.Value.Operator
/-!
# Texts of containers

The JSON text of an array or an object is the text of the tree it unfolds to. The joined text is that of a smaller tree:
objects are not gone into, and neither is an array that stands in itself. Both traversals have the same budget. A
container that stands in itself makes the first fail, as the tree has no end, and the second leaves nothing in its
place. Each can go in only as deep as the frames of the heap allow.

* `Value.jsonData_spends`, `Value.joinElement_spends`: what the traversals give and spend, from any point on.
* `Value.length_jsonEntered_le`, `Value.length_joinEntered_le`: how many containers they go into.
* `Value.rendering_bounded`: what the texts of an array or an object are, and when there are none.
* `Value.tower_exhausts`: a few hundred arrays inside each other have no text.
-/
namespace ScriptTrace

open Relation (ReflTransGen)

namespace Plain

theorem writeItems_eq_map (style : Style) (level : Nat) (items : List Plain) :
    writeItems style level items = items.map (writeAt style level) := by
  induction items with
  | nil => rfl
  | cons a rest ih => rw [writeItems, ih, List.map_cons]

theorem writeFields_eq_map (style : Style) (level : Nat) (fields : List (Text × Plain)) :
    writeFields style level fields =
      fields.map fun f => Text.concat [f.1.quote, style.colon, writeAt style level f.2] := by
  induction fields with
  | nil => rfl
  | cons a rest ih => rw [writeFields, ih, List.map_cons]

theorem enclose_compact (level : Nat) (opening closing : Text) (elements : List Text) :
    enclose .compact level opening closing elements = Text.concat [opening, Text.join "," elements, closing] := by
  cases elements with
  | nil =>
    simp only [enclose, Text.concat, Text.join, List.flatMap_cons, List.flatMap_nil, List.append_nil]
    rfl
  | cons a rest => rfl

end Plain

namespace Value

/-! ## JSON text -/

/-- Whether a text is the compact JSON text of the tree below a value: `undefined` and functions are `null` in arrays
and left out of objects, a number that is not finite is `null`, and there is one zero. -/
inductive Spells (h : Heap) : Value → Text → Prop
  | undefined : Spells h .undefined "null"
  | function (name : Text) : Spells h (.function name) "null"
  | null : Spells h .null "null"
  | bool (b : Bool) : Spells h (.bool b) (if b then "true" else "false")
  | text (t : Text) : Spells h (.text t) t.quote
  | int (n : Int) : Spells h (.number (.int n)) (Text.ofInt n)
  | float (x : Float) (negative : Bool) (mantissa : Nat) (exponent : Int)
      (parts : Binary64.parts x = .finite negative mantissa exponent) (nonzero : mantissa ≠ 0) :
      Spells h (.number (.float x)) (Number.layFloat .json x)
  | zero (x : Float) (negative : Bool) (exponent : Int) (parts : Binary64.parts x = .finite negative 0 exponent) :
      Spells h (.number (.float x)) "0"
  | notFinite (x : Float) (large : Binary64.isFinite x = false) : Spells h (.number (.float x)) "null"
  | array (ref : Nat) (ts : List Text) (each : List.Forall₂ (Spells h) (h.array ref) ts) :
      Spells h (.array ref) (Text.concat ["[", Text.join "," ts, "]"])
  | object (ref : Nat) (kept : Entries) (ts : List Text)
      (omitted : kept = (h.object ref).filter fun e => !e.2.isOmitted)
      (each : List.Forall₂ (Spells h) (kept.map Prod.snd) ts) :
      Spells h (.object ref) (Text.concat ["\x7b",
        Text.join "," (kept.zipWith (fun e t => Text.concat [e.1.jsonName.quote, ":", t]) ts), "\x7d"])

variable {h : Heap} {v : Value}

theorem spells_number (n : Number) (level : Nat) : Spells h (.number n) ((jsonNumber n).writeAt .compact level) := by
  cases n with
  | int n =>
    have same : jsonNumber (.int n) = .number (.int n) := by
      by_cases hn : n = 0
      · subst hn
        rfl
      · simp [jsonNumber, Number.point?, hn]
    rw [same]
    exact .int n
  | float x =>
    cases hx : Binary64.parts x with
    | nan =>
      have null : jsonNumber (.float x) = .null := by simp [jsonNumber, Number.point?, hx]
      rw [null]
      exact .notFinite x (by simp [Binary64.isFinite, hx])
    | infinite negative =>
      have null : jsonNumber (.float x) = .null := by cases negative <;> simp [jsonNumber, Number.point?, hx]
      rw [null]
      exact .notFinite x (by simp [Binary64.isFinite, hx])
    | finite negative mantissa exponent =>
      by_cases hm : mantissa = 0
      · subst hm
        have zero : jsonNumber (.float x) = .number 0 := by simp [jsonNumber, Number.point?, hx, Binary64.withSign]
        rw [zero]
        exact .zero x negative exponent hx
      · have same : jsonNumber (.float x) = .number (.float x) := by
          have : Binary64.withSign negative mantissa ≠ 0 := by
            cases negative <;> simp [Binary64.withSign, hm]
          simp [jsonNumber, Number.point?, hx, this]
        rw [same]
        exact .float x negative mantissa exponent hx hm

variable (h) in
theorem jsonData_leaf (depth : Nat) (path : List Value) (hv : v.members? h = none) :
    ∃ p : Plain, (∀ level, Spells h v (p.writeAt .compact level)) ∧
      jsonData h depth path v = fun budget => .ok (p, budget) := by
  cases v with
  | array | object => cases hv
  | undefined => exact ⟨.null, fun _ => .undefined, by funext; simp only [jsonData]⟩
  | null => exact ⟨.null, fun _ => .null, by funext; simp only [jsonData]⟩
  | bool b => exact ⟨.bool b, fun _ => .bool b, by funext; simp only [jsonData]⟩
  | number n => exact ⟨_, spells_number n, by funext; simp only [jsonData]⟩
  | text t => exact ⟨.text t, fun _ => .text t, by funext; simp only [jsonData]⟩
  | function name => exact ⟨.null, fun _ => .function name, by funext; simp only [jsonData]⟩

/-- What JSON leaves out is no container. -/
theorem members?_of_isOmitted (h : Heap) (omitted : v.isOmitted = true) : v.members? h = none := by
  cases v with
  | undefined | function => rfl
  | _ => cases omitted

theorem sum_weight_kept (h : Heap) (entries : Entries) :
    (((entries.filter fun e => !e.2.isOmitted).map Prod.snd).map (members? h).weight).sum =
      ((entries.map Prod.snd).map (members? h).weight).sum := by
  induction entries with
  | nil => rfl
  | cons e entries ih =>
    by_cases omitted : e.2.isOmitted = true
    · rw [List.filter_cons_of_neg (by simp [omitted]), ih, List.map_cons, List.map_cons, List.sum_cons,
        Branching.weight_leaf (members?_of_isOmitted h omitted), zero_add]
    · rw [List.filter_cons_of_pos (by simp [omitted])]
      simp only [List.map_cons, List.sum_cons, ih]

theorem deep_kept (h : Heap) (entries : Entries) (n : Nat) :
    (∃ w ∈ (entries.filter fun e => !e.2.isOmitted).map Prod.snd, (members? h).Deep n w) ↔
      ∃ w ∈ entries.map Prod.snd, (members? h).Deep n w := by
  constructor
  · rintro ⟨w, hw, deep⟩
    exact ⟨w, List.map_subset _ (List.filter_subset_self _) hw, deep⟩
  · rintro ⟨w, hw, deep⟩
    obtain ⟨e, he, rfl⟩ := List.mem_map.1 hw
    have kept : e.2.isOmitted = false := by
      refine Bool.eq_false_iff.2 fun omitted => ?_
      exact Branching.not_deep_leaf (members?_of_isOmitted h omitted) deep
    exact ⟨e.2, List.mem_map_of_mem (List.mem_filter.2 ⟨he, by simp [kept]⟩), deep⟩

theorem jsonData_exhausted {path members : List Value} {budget : Nat} (hv : v.members? h = some members) :
    jsonData h 0 path v budget = .error .exhausted := by
  cases v with
  | array | object => rw [jsonData]
  | _ => cases hv

theorem jsonData_circular {path members : List Value} {depth budget : Nat} (hv : v.members? h = some members)
    (hp : v ∈ path) : jsonData h (depth + 1) path v budget = .error .circular := by
  cases v with
  | array | object => simp [jsonData, hp]
  | _ => cases hv

variable (h) in
/-- A container is the members that are kept put together, if it may be gone into. -/
theorem jsonData_container {path members : List Value}
    (hv : v.members? h = some members) (hp : v ∉ path) :
    ∃ (kept : List Value) (make : List Plain → Plain), kept ⊆ members ∧
      (kept.map (members? h).weight).sum = (members.map (members? h).weight).sum ∧
      (∀ n, (∃ w ∈ kept, (members? h).Deep n w) ↔ ∃ w ∈ members, (members? h).Deep n w) ∧
      (∀ ps, List.Forall₂ (fun w p => ∀ level, Spells h w (p.writeAt .compact level)) kept ps →
        ∀ level, Spells h v ((make ps).writeAt .compact level)) ∧
      (∀ depth, jsonData h (depth + 1) path v 0 = .error .tooLarge) ∧
      ∀ depth budget, jsonData h (depth + 1) path v (budget + 1) =
        (walk (jsonData h depth (v :: path)) kept budget).map fun r => (make r.1, r.2) := by
  cases v with
  | array ref =>
    cases hv
    refine ⟨h.array ref, .list, fun _ => id, rfl, fun _ => .rfl, fun ps each level => ?_,
      fun depth => by simp [jsonData, hp], fun depth budget => ?_⟩
    · rw [Plain.writeAt, Plain.enclose_compact, Plain.writeItems_eq_map]
      refine .array ref _ ?_
      rw [List.forall₂_map_right_iff]
      exact each.imp fun _ _ spells => spells _
    · simp [jsonData, hp]
  | object ref =>
    cases hv
    have sub : ((h.object ref).filter fun e => !e.2.isOmitted).map Prod.snd ⊆ (h.object ref).map Prod.snd :=
      List.map_subset _ (List.filter_subset_self _)
    refine ⟨_, fun ps => .record ((((h.object ref).filter fun e => !e.2.isOmitted).map (·.1.jsonName)).zip ps), sub,
      sum_weight_kept h _, deep_kept h _, fun ps each level => ?_, fun depth => by simp [jsonData, hp],
      fun depth budget => ?_⟩
    · rw [Plain.writeAt, Plain.enclose_compact, Plain.writeFields_eq_map]
      have texts : List.Forall₂ (Spells h) (((h.object ref).filter fun e => !e.2.isOmitted).map Prod.snd)
          (ps.map (Plain.writeAt .compact (level + 1))) := by
        rw [List.forall₂_map_right_iff]
        exact each.imp fun _ _ spells => spells _
      have spelled := Spells.object ref _ _ rfl texts
      rw [List.zipWith_map_right] at spelled
      rw [List.zip_map_left, List.map_map, List.zip]
      simp only [List.map_zipWith]
      exact spelled
    · have values := walk_entries (jsonData h depth (.object ref :: path)) EntryKey.jsonName
        ((h.object ref).filter fun e => !e.2.isOmitted) budget
      rw [jsonData]
      simp only [List.contains_eq_mem, hp, decide_false, Bool.false_eq_true, if_false, values]
      rcases walk (jsonData h depth (.object ref :: path)) _ budget with _ | _ <;> rfl
  | _ => cases hv

theorem jsonData_spends (h : Heap) (depth : Nat) (path : List Value) (v : Value) :
    Spends .exhausted (jsonData h depth path v) ((members? h).weight v)
      (fun p => ∀ level, Spells h v (p.writeAt .compact level))
      (∃ c ∈ path, ReflTransGen (members? h).Holds v c) ((members? h).Deep depth v) := by
  cases hv : v.members? h with
  | none =>
    obtain ⟨p, spells, traversal⟩ := jsonData_leaf h depth path hv
    rw [traversal, Branching.weight_leaf hv]
    exact .leaf spells (Branching.not_deep_leaf hv)
  | some members =>
    cases depth with
    | zero => exact .worn (fun _ => jsonData_exhausted hv) (Branching.deep_zero (by simp [hv]))
    | succ depth =>
      by_cases hp : v ∈ path
      · exact .blocked (fun _ => jsonData_circular hv hp) nofun ⟨v, hp, .refl⟩
      · obtain ⟨kept, make, sub, weights, deep, spells, zero, succ⟩ := jsonData_container h hv hp
        have inside := Spends.walk fun w (_ : w ∈ kept) => jsonData_spends h depth (v :: path) w
        rw [weights, deep] at inside
        refine spends_into (by decide) hv (inside.map (k := make) spells) (zero depth) (succ depth) ?_
          fun c hc reaches => ⟨c, hc, reaches⟩
        exact fun ⟨w, hw, back⟩ => .inr ⟨w, sub hw, back⟩

/-! ## Joined text -/

/-- What joining goes on to: the elements of an array, unless the array stands in itself. With each value goes the list
of the arrays that it stands in. -/
def elements? (h : Heap) : Branching (List Nat × Value)
  | (path, .array ref) => if ref ∈ path then none else some ((h.array ref).map (ref :: path, ·))
  | _ => none

/-- What joining comes to: every array, also one that stands in itself, in which nothing stands then. -/
def visited? (h : Heap) : Branching (List Nat × Value)
  | (path, .array ref) => some (if ref ∈ path then [] else (h.array ref).map (ref :: path, ·))
  | _ => none

/-- Whether a text is what a value is joined to inside the given arrays: null and `undefined` are nothing, and so is an
array that stands in itself. -/
inductive Joins (h : Heap) : List Nat × Value → Text → Prop
  | nullish (path : List Nat) (v : Value) (nullish : v.isNullish = true) : Joins h (path, v) Text.empty
  | again (path : List Nat) (ref : Nat) (inside : ref ∈ path) : Joins h (path, .array ref) Text.empty
  | array (path : List Nat) (ref : Nat) (ts : List Text) (outside : ref ∉ path)
      (each : List.Forall₂ (Joins h) ((h.array ref).map (ref :: path, ·)) ts) :
      Joins h (path, .array ref) (Text.join "," ts)
  | object (path : List Nat) (ref : Nat) : Joins h (path, .object ref) "[object Object]"
  | leaf (path : List Nat) (v : Value) (leaf : v.isContainer = false) : Joins h (path, v) (v.render h)

/-- How joining takes an element of an array. -/
def joinElement (h : Heap) (depth : Nat) (x : List Nat × Value) (budget : Nat) : Except Obstacle (Text × Nat) :=
  if x.2.isNullish then .ok (Text.empty, budget) else joined h depth x.1 x.2 budget

theorem joinElement_spends (h : Heap) (depth : Nat) (path : List Nat) (v : Value) :
    Spends .exhausted (joinElement h depth (path, v)) ((elements? h).weight (path, v)) (Joins h (path, v)) False
      ((visited? h).Deep depth (path, v)) := by
  unfold joinElement
  cases v with
  | undefined | null =>
    rw [Branching.weight_leaf rfl]
    exact .leaf (.nullish path _ rfl) (Branching.not_deep_leaf rfl)
  | object ref =>
    rw [Branching.weight_leaf rfl]
    simp only [isNullish, joined]
    exact .leaf (.object path ref) (Branching.not_deep_leaf rfl)
  | bool | number | text | function =>
    rw [Branching.weight_leaf rfl]
    simp only [isNullish, joined]
    exact .leaf (.leaf path _ rfl) (Branching.not_deep_leaf rfl)
  | array ref =>
    cases depth with
    | zero => exact .worn (fun _ => by simp [isNullish, joined]) (Branching.deep_zero rfl)
    | succ depth =>
      by_cases hp : ref ∈ path
      · have leaf : elements? h (path, .array ref) = none := if_pos hp
        have visited : visited? h (path, .array ref) = some [] := congrArg some (if_pos hp)
        rw [Branching.weight_leaf leaf]
        simp only [isNullish, joined, List.contains_eq_mem, hp, decide_true, if_true]
        exact .leaf (.again path ref hp) (by simp [Branching.deep_succ visited])
      · have node : elements? h (path, .array ref) = some ((h.array ref).map (ref :: path, ·)) := if_neg hp
        have visited : visited? h (path, .array ref) = some ((h.array ref).map (ref :: path, ·)) :=
          congrArg some (if_neg hp)
        rw [Branching.weight_node node, List.map_map]
        have inside := Spends.walk fun w (_ : w ∈ h.array ref) => joinElement_spends h depth (ref :: path) w
        have made := inside.map (k := Text.join ",") fun ts each =>
          Joins.array path ref ts hp (List.forall₂_map_left_iff.2 each)
        refine (made.enter (by decide) ?_ fun budget => ?_).imp (fun _ => id)
          (fun ⟨_, _, impossible⟩ => impossible.elim) ?_
        · show joined h (depth + 1) path (.array ref) 0 = _
          simp [joined, hp]
        · show joined h (depth + 1) path (.array ref) (budget + 1) = _
          rw [joined]
          simp only [List.contains_eq_mem, hp, decide_false, Bool.false_eq_true, if_false]
          rfl
        · simp [Branching.deep_succ visited]

/-! ## What is gone into -/

/-- The members of a container, unless the container stands in itself. With each goes the list of the containers that it
stands in. -/
def openMembers? (h : Heap) : Branching (List Value × Value)
  | (path, v) => if v ∈ path then none else (v.members? h).map fun members => members.map (v :: path, ·)

/-- The containers that the traversal for the JSON text of a value goes into. -/
def jsonEntered (h : Heap) (v : Value) : List (List Value × Value) :=
  (openMembers? h).entered (fun depth x => jsonData h depth x.1 x.2) h.jsonReach ([], v) containerLimit

/-- The arrays that the traversal for the joined text of a value goes into. -/
def joinEntered (h : Heap) (v : Value) : List (List Nat × Value) :=
  (elements? h).entered (joinElement h) h.joinReach ([], v) containerLimit

theorem length_jsonEntered_le (h : Heap) (v : Value) : (jsonEntered h v).length ≤ containerLimit := by
  refine (Branching.length_entered_le (w := fun x => (members? h).weight x.2) ?_ ?_ _ _ _).1
  · rintro ⟨path, v⟩ ys node
    obtain ⟨-, node⟩ := Option.ite_none_left_eq_some.1 node
    obtain ⟨members, hv, rfl⟩ := Option.map_eq_some_iff.1 node
    rw [Branching.weight_node hv, List.map_map]
    rfl
  · exact fun depth x budget p left hf => ((jsonData_spends h depth x.1 x.2).ok budget p left hf).1

theorem length_joinEntered_le (h : Heap) (v : Value) : (joinEntered h v).length ≤ containerLimit := by
  refine (Branching.length_entered_le (fun x ys node => (Branching.weight_node node).symm) ?_ _ _ _).1
  exact fun depth x budget t left hf => ((joinElement_spends h depth x.1 x.2).ok budget t left hf).1

/-! ## Texts -/

/-- Whether the JSON text of a value would take more frames than there are. -/
def JsonTooDeep (h : Heap) (v : Value) : Prop :=
  (members? h).Deep h.jsonReach v

/-- Whether the joined text of a value would. -/
def JoinTooDeep (h : Heap) (v : Value) : Prop :=
  (visited? h).Deep h.joinReach ([], v)

theorem jsonText_eq_error {o : Obstacle} :
    v.jsonText h = .error o ↔ jsonData h h.jsonReach [] v containerLimit = .error o := by
  unfold jsonText
  rcases jsonData h h.jsonReach [] v containerLimit with o' | ⟨p, left⟩ <;> simp [Except.map]

theorem jsonText_error_iff (h : Heap) (v : Value) :
    (∃ o, v.jsonText h = .error o) ↔ 10000 < (members? h).weight v ∨ v.JsonTooDeep h := by
  have failed := (jsonData_spends h h.jsonReach [] v).error_iff (by simp) containerLimit
  simp only [List.not_mem_nil, false_and, exists_false, false_or] at failed
  simp only [jsonText_eq_error]
  exact failed

/-- Why there is no JSON text. -/
theorem jsonText_error {o : Obstacle} (ho : v.jsonText h = .error o) :
    (o = .exhausted → v.JsonTooDeep h) ∧ (o ≠ .exhausted → 10000 < (members? h).weight v) := by
  have spends := jsonData_spends h h.jsonReach [] v
  rw [jsonText_eq_error] at ho
  refine ⟨?_, fun other => ?_⟩
  · rintro rfl
    exact spends.stopped containerLimit ho
  · simpa [containerLimit] using spends.error containerLimit o ho other

theorem jsonText_spells {t : Text} (ht : v.jsonText h = .ok t) : Spells h v t := by
  rcases hr : jsonData h h.jsonReach [] v containerLimit with o | ⟨p, left⟩ <;> rw [jsonText, hr] at ht <;> cases ht
  exact ((jsonData_spends h h.jsonReach [] v).ok _ p left hr).2.1 0

theorem render_container (hv : v.isContainer = true) :
    v.render h = match v.jsonText h with
      | .ok t => t
      | .error _ => "[Object]" := by
  cases v with
  | array | object => rfl
  | _ => cases hv

/-- Joining a container is taking it as an element that stands in no array. -/
theorem joined_spends (h : Heap) (hv : v.isContainer = true) :
    Spends .exhausted (joined h h.joinReach [] v) ((elements? h).weight ([], v)) (Joins h ([], v)) False
      (v.JoinTooDeep h) := by
  have same : joinElement h h.joinReach ([], v) = joined h h.joinReach [] v := by
    cases v with
    | array | object => rfl
    | _ => cases hv
  rw [← same]
  exact joinElement_spends h h.joinReach [] v

theorem joinText_error_iff (hv : v.isContainer = true) :
    (∃ fault, v.joinText h = .error fault) ↔ 10000 < (elements? h).weight ([], v) ∨ v.JoinTooDeep h := by
  have failed := (joined_spends h hv).error_iff (fun _ _ => id) containerLimit
  rw [false_or] at failed
  refine Iff.trans ?_ failed
  unfold joinText
  rcases joined h h.joinReach [] v containerLimit with (_ | _ | _ | _) | ⟨p, left⟩ <;> simp

/-- Why there is no joined text. -/
theorem joinText_error (hv : v.isContainer = true) {fault : Fault} (hf : v.joinText h = .error fault) :
    fault = .exhausted ∧ v.JoinTooDeep h ∨
      fault = .failure .textTooLong none ∧ 10000 < (elements? h).weight ([], v) := by
  have spends := joined_spends h hv
  rcases hr : joined h h.joinReach [] v containerLimit with o | ⟨t, left⟩ <;> rw [joinText, hr] at hf
  · by_cases worn : o = .exhausted
    · subst worn
      cases hf
      exact .inl ⟨rfl, spends.stopped _ hr⟩
    · refine .inr ⟨?_, by simpa [containerLimit] using spends.error _ o hr worn⟩
      cases o with
      | exhausted => exact absurd rfl worn
      | circular | tooLarge | tooDeep =>
        cases hf
        rfl
  · cases hf

theorem joinText_joins (hv : v.isContainer = true) {t : Text} (ht : v.joinText h = .ok t) : Joins h ([], v) t := by
  rcases hr : joined h h.joinReach [] v containerLimit with o | ⟨t', left⟩ <;> rw [joinText, hr] at ht
  · cases o <;> cases ht
  · cases ht
    exact ((joined_spends h hv).ok _ t left hr).2.1

/-- Each array above one that joining comes to has been gone into. -/
theorem le_weight_of_visited {n : Nat} {x : List Nat × Value} (deep : (visited? h).Deep n x) :
    (n : ℕ∞) ≤ (elements? h).weight x := by
  induction n generalizing x with
  | zero => exact bot_le
  | succ n ih =>
    obtain ⟨path, v⟩ := x
    cases v with
    | array ref =>
      obtain ⟨y, hy, deep⟩ := (Branching.deep_succ rfl).1 deep
      by_cases hp : ref ∈ path
      · simp [hp] at hy
      · have node : elements? h (path, .array ref) = some ((h.array ref).map (ref :: path, ·)) := if_neg hp
        rw [if_neg hp] at hy
        rw [Nat.cast_succ]
        exact (add_le_add_left (ih deep) 1).trans (Branching.weight_le_of_holds ⟨_, node, hy⟩)
    | _ => exact absurd deep (Branching.not_deep_leaf rfl)

/-- An array or an object, in any heap. No more than 10000 containers are gone into. There is no JSON text if the value
unfolds to more containers than that or reaches too deep, and exhaustion means the latter; `[Object]` is shown then.
Else it is the text of the whole tree. There is no joined text if there are more than 10000 arrays to go into, which is
a failure, or if they reach too deep, which is exhaustion; an array that stands in itself is not gone into again. With
frames enough for 10001 arrays inside each other, what reaches too deep has too many containers anyway. -/
theorem texts_fail_for_size_or_depth (h : Heap) (v : Value) (hv : v.isContainer = true) :
    (jsonEntered h v).length ≤ 10000 ∧ (joinEntered h v).length ≤ 10000 ∧
    ((∃ o, v.jsonText h = .error o) ↔ 10000 < (members? h).weight v ∨ v.JsonTooDeep h) ∧
    (∀ o, v.jsonText h = .error o → v.render h = "[Object]" ∧
      (o = .exhausted → v.JsonTooDeep h) ∧ (o ≠ .exhausted → 10000 < (members? h).weight v)) ∧
    (∀ t, v.jsonText h = .ok t → v.render h = t ∧ Spells h v t) ∧
    ((∃ fault, v.joinText h = .error fault) ↔ 10000 < (elements? h).weight ([], v) ∨ v.JoinTooDeep h) ∧
    (∀ fault, v.joinText h = .error fault → fault = .exhausted ∧ v.JoinTooDeep h ∨
      fault = .failure .textTooLong none ∧ 10000 < (elements? h).weight ([], v)) ∧
    (∀ t, v.joinText h = .ok t → Joins h ([], v) t) ∧
    (10001 * 3 ≤ h.frames → (v.JsonTooDeep h → 10000 < (members? h).weight v) ∧
      (v.JoinTooDeep h → 10000 < (elements? h).weight ([], v))) := by
  refine ⟨length_jsonEntered_le h v, length_joinEntered_le h v, jsonText_error_iff h v, fun o ho => ?_, fun t ht => ?_,
    joinText_error_iff hv, fun fault => joinText_error hv, fun t => joinText_joins hv, fun ample => ⟨?_, ?_⟩⟩
  · exact ⟨by rw [render_container hv, ho], jsonText_error ho⟩
  · exact ⟨by rw [render_container hv, ht], jsonText_spells ht⟩
  · intro deep
    have reach : 10000 ≤ h.jsonReach := by
      unfold Heap.jsonReach
      omega
    exact (Nat.cast_le.2 reach).trans_lt (Branching.lt_weight_of_deep deep)
  · intro deep
    have reach : 10000 < h.joinReach := by
      unfold Heap.joinReach
      omega
    exact (Nat.cast_lt.2 reach).trans_le (le_weight_of_visited deep)

/-- The array of one and itself. -/
theorem texts_fail_for_size_or_depth_in_itself :
    let h : Heap := ⟨#[[.number 1, .array 0]], #[], 1000⟩
    (Value.array 0).isContainer = true ∧ (Value.array 0).render h = "[Object]" ∧
      (Value.array 0).joinText h = .ok "1," ∧ Joins h ([], .array 0) "1," := by
  have text : (Value.array 0).joinText ⟨#[[.number 1, .array 0]], #[], 1000⟩ = .ok "1," := rfl
  intro h
  obtain ⟨-, -, fails, shown, -, -, -, joins, -⟩ := texts_fail_for_size_or_depth h (.array 0) rfl
  have itself : (members? h).Holds (.array 0) (.array 0) := ⟨[.number 1, .array 0], rfl, by simp⟩
  have endless : 10000 < (members? h).weight (.array 0) := by
    rw [Branching.weight_eq_top itself .refl]
    exact ENat.natCast_lt_top 10000
  obtain ⟨o, failed⟩ := fails.2 (.inl endless)
  exact ⟨rfl, (shown o failed).1, text, joins "1," text⟩

/-! ## Arrays inside each other -/

/-- A heap of arrays, each the only element of the next; the first one is empty. -/
def tower (height frames : Nat) : Heap where
  arrays := ((List.range height).map fun
    | 0 => []
    | i + 1 => [.array i]).toArray
  objects := #[]
  frames := frames

section Tower

variable {height frames i : Nat} {path : List Nat}

theorem array_tower_zero (hi : 0 < height) : (tower height frames).array 0 = [] := by
  simp [Heap.array, tower, hi]

theorem array_tower_succ (hi : i + 1 < height) : (tower height frames).array (i + 1) = [.array i] := by
  simp [Heap.array, tower, hi]

theorem weight_tower (hi : i < height) : (members? (tower height frames)).weight (.array i) = i + 1 := by
  induction i with
  | zero =>
    rw [Branching.weight_node (congrArg some (array_tower_zero hi))]
    rfl
  | succ i ih =>
    rw [Branching.weight_node (congrArg some (array_tower_succ hi)), List.map_singleton, List.sum_singleton,
      ih (Nat.lt_of_succ_lt hi), Nat.cast_succ]

theorem deep_tower (hi : i < height) : (members? (tower height frames)).Deep i (.array i) := by
  induction i with
  | zero => exact Branching.deep_zero rfl
  | succ i ih =>
    rw [Branching.deep_succ (congrArg some (array_tower_succ hi))]
    exact ⟨_, List.mem_singleton_self _, ih (Nat.lt_of_succ_lt hi)⟩

/-- Going down, joining meets no array again. -/
theorem elements?_tower (hp : ∀ j ∈ path, i < j) : elements? (tower height frames) (path, .array i) =
    some (((tower height frames).array i).map (i :: path, ·)) :=
  if_neg fun again => Nat.lt_irrefl i (hp i again)

theorem weight_elements_tower (hi : i < height) (hp : ∀ j ∈ path, i < j) :
    (elements? (tower height frames)).weight (path, .array i) = i + 1 := by
  induction i generalizing path with
  | zero =>
    rw [Branching.weight_node (elements?_tower hp), array_tower_zero hi]
    rfl
  | succ i ih =>
    have below : ∀ j ∈ (i + 1) :: path, i < j :=
      List.forall_mem_cons.2 ⟨Nat.lt_succ_self i, fun j hj => Nat.lt_of_succ_lt (hp j hj)⟩
    rw [Branching.weight_node (elements?_tower hp), array_tower_succ hi, List.map_singleton, List.map_singleton,
      List.sum_singleton, ih (Nat.lt_of_succ_lt hi) below, Nat.cast_succ]

theorem deep_visited_tower (hi : i < height) (hp : ∀ j ∈ path, i < j) :
    (visited? (tower height frames)).Deep i (path, .array i) := by
  induction i generalizing path with
  | zero => exact Branching.deep_zero rfl
  | succ i ih =>
    have below : ∀ j ∈ (i + 1) :: path, i < j :=
      List.forall_mem_cons.2 ⟨Nat.lt_succ_self i, fun j hj => Nat.lt_of_succ_lt (hp j hj)⟩
    rw [Branching.deep_succ rfl, if_neg fun again => Nat.lt_irrefl _ (hp _ again), array_tower_succ hi]
    exact ⟨_, List.mem_singleton_self _, ih (Nat.lt_of_succ_lt hi) below⟩

/-- An array that stands on as many others as the frames allow for has no JSON text. -/
theorem jsonText_tower (hi : i < height) (few : i < 10000) (deep : frames / 2 ≤ i) :
    (Value.array i).jsonText (tower height frames) = .error .exhausted := by
  obtain ⟨o, failed⟩ := (jsonText_error_iff _ _).2 (.inr ((deep_tower hi).of_le deep))
  by_cases worn : o = .exhausted
  · rw [failed, worn]
  · have large := (jsonText_error failed).2 worn
    rw [weight_tower hi] at large
    have : 10000 < i + 1 := by exact_mod_cast large
    omega

/-- Nor has it a joined one. -/
theorem joinText_tower (hi : i < height) (few : i < 10000) (deep : frames / 3 ≤ i) :
    (Value.array i).joinText (tower height frames) = .error .exhausted := by
  have top : ∀ j ∈ ([] : List Nat), i < j := List.forall_mem_nil _
  obtain ⟨fault, failed⟩ := (joinText_error_iff rfl).2 (.inr ((deep_visited_tower hi top).of_le deep))
  rcases joinText_error rfl failed with ⟨rfl, -⟩ | ⟨-, large⟩
  · exact failed
  · rw [weight_elements_tower hi top] at large
    have : 10000 < i + 1 := by exact_mod_cast large
    omega

end Tower

/-- With 1000 frames, 501 arrays inside each other have neither text, though they are few. -/
theorem tower_exhausts :
    (members? (tower 501 1000)).weight (.array 500) = 501 ∧
    (Value.array 500).jsonText (tower 501 1000) = .error .exhausted ∧
    (Value.array 500).render (tower 501 1000) = "[Object]" ∧
    (Value.array 500).joinText (tower 501 1000) = .error .exhausted := by
  have failed := jsonText_tower (show 500 < 501 by decide) (by decide) (show 1000 / 2 ≤ 500 by decide)
  refine ⟨weight_tower (by decide), failed, by rw [render_container rfl, failed], ?_⟩
  exact joinText_tower (by decide) (by decide) (by decide)

end Value

end ScriptTrace
