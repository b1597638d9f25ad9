import ScriptTrace.Validation
/-!
# Valid steps

A step is **placed** in a source if its line is one of the source, its code is that line, and its block is a range
of lines of the source. That is all a recorded step needs in order to be valid: the rest of what validation asks
for holds of every step.

* `Step.wire?_loose`: the wire form of a step, field by field. Plain data never leads back to itself.
* `Step.record_wire`: the schema reads a placed step back from its wire form.
* `validate_placed`: placed steps are valid.
-/
namespace ScriptTrace

def Source.HasLine (src : Source) (n : Nat) : Prop :=
  1 ≤ n ∧ n ≤ src.lines.length

structure Block.IsIn (src : Source) (b : Block) : Prop where
  first : 1 ≤ b.first
  ordered : b.first ≤ b.last
  last : b.last ≤ src.lines.length

structure Step.IsPlaced (src : Source) (s : Step) : Prop where
  line : src.HasLine s.line
  code : src.lines[s.line - 1]? = some s.code
  block : ∀ b ∈ s.block, b.IsIn src

/-! ## Records with named fields -/

namespace Schema

/-- The fields of a record. A field without a value is left out. -/
def entries (named : List (Text × Option Datum)) : List (Datum × Datum) :=
  named.filterMap fun (name, d) => d.map (Datum.field name)

variable {named : List (Text × Option Datum)} {fields : List (Datum × Datum)} {name : Text} {d : Datum}
  {o : Option Datum} {α β : Type}

theorem entries_cons (name : Text) (o : Option Datum) (rest : List (Text × Option Datum)) :
    entries ((name, o) :: rest) = (o.map (Datum.field name)).toList ++ entries rest := by
  cases o <;> rfl

theorem mem_entries {f : Datum × Datum} :
    f ∈ entries named ↔ ∃ name d, (name, some d) ∈ named ∧ f = Datum.field name d := by
  simp only [entries, List.mem_filterMap, Prod.exists]
  constructor
  · rintro ⟨name, o, mem, h⟩
    obtain ⟨d, rfl, rfl⟩ := Option.map_eq_some_iff.1 h
    exact ⟨name, d, mem, rfl⟩
  · rintro ⟨name, d, mem, rfl⟩
    exact ⟨name, some d, mem, rfl⟩

theorem find?_field_self (name : Text) (d : Datum) : find? (Datum.field name d :: fields) name = some d := by
  simp [find?, Datum.field]

theorem find?_field_of_ne {other : Text} (h : other ≠ name) (d : Datum) :
    find? (Datum.field other d :: fields) name = find? fields name := by
  simp [find?, Datum.field, h]

theorem find?_entries_of_absent (h : name ∉ named.map Prod.fst) : find? (entries named) name = none := by
  induction named with
  | nil => rfl
  | cons first rest ih =>
    obtain ⟨other, o⟩ := first
    simp only [List.map_cons, List.mem_cons, not_or] at h
    rw [entries_cons]
    cases o with
    | none => exact ih h.2
    | some d => exact (find?_field_of_ne (Ne.symm h.1) d).trans (ih h.2)

/-- A field of a record with distinct names is found under its name. -/
theorem find?_entries (distinct : (named.map Prod.fst).Nodup) (h : (name, o) ∈ named) :
    find? (entries named) name = o := by
  induction named with
  | nil => cases h
  | cons first rest ih =>
    obtain ⟨other, o'⟩ := first
    rw [List.map_cons, List.nodup_cons] at distinct
    rw [entries_cons]
    rcases List.mem_cons.1 h with same | mem
    · cases same
      cases o with
      | none => exact find?_entries_of_absent distinct.1
      | some d => exact find?_field_self name d
    · have differ : other ≠ name := by
        rintro rfl
        exact distinct.1 (List.mem_map.2 ⟨_, mem, rfl⟩)
      cases o' with
      | none => exact ih distinct.2 mem
      | some d => exact (find?_field_of_ne differ d).trans (ih distinct.2 mem)

theorem hasBrokenKey_entries (h : ∀ name ∈ named.map Prod.fst, name.isUnicode) :
    hasBrokenKey (entries named) = false := by
  rw [hasBrokenKey, List.any_eq_false]
  intro f hf
  obtain ⟨name, d, mem, rfl⟩ := mem_entries.1 hf
  have unicode := h name (List.mem_map.2 ⟨_, mem, rfl⟩)
  simp [Datum.field, unicode]

theorem extras_entries (h : ∀ name d, (name, some d) ∈ named → name ∈ usedKeys (entries named)) :
    extras (entries named) = [] := by
  rw [extras, List.filterMap_eq_nil_iff]
  intro f hf
  obtain ⟨name, d, mem, rfl⟩ := mem_entries.1 hf
  simp [Datum.field, h name d mem]

theorem required_eq {check : Datum → Check α} {a : α} (found : find? fields name = some d)
    (passes : check d = .ok a) : required fields name check = .ok a := by
  unfold required
  rw [found]
  dsimp only
  rw [passes]
  rfl

/-- A field that goes by its first name only. -/
theorem optional_eq {others : List Text} {check : Datum → Check (Option α)} {o : Option β} {form : β → Datum}
    {read : β → α} (found : find? fields name = o.map form) (absent : ∀ other ∈ others, find? fields other = none)
    (passes : ∀ b ∈ o, check (form b) = .ok (some (read b))) :
    optional fields (name :: others) check = .ok (o.map read) := by
  unfold optional findAny?
  cases o with
  | none =>
    have missing : (name :: others).findSome? (fun name => (find? fields name).map (name, ·)) = none := by
      rw [List.findSome?_eq_none_iff]
      intro other mem
      rcases List.mem_cons.1 mem with rfl | mem
      · rw [found]
        rfl
      · rw [absent other mem]
        rfl
    rw [missing]
    rfl
  | some b =>
    rw [List.findSome?_cons, found]
    dsimp only [Option.map_some]
    rw [passes b rfl]
    rfl

theorem findAny?_eq (found : find? fields name = some d) (others : List Text) :
    findAny? fields (name :: others) = some (name, d) := by
  rw [findAny?, List.findSome?_cons, found]
  rfl

theorem nullable_eq {check : Datum → Check α} {a : α} (given : d ≠ .null) (passes : check d = .ok a) :
    nullable check d = .ok (some a) := by
  unfold nullable
  split
  · contradiction
  · rw [passes]
    rfl

theorem choice_kind (k : StepKind) : choice StepKind.all StepKind.name (.text k.name) = .ok k := by
  cases k <;> rfl

theorem choice_blockKind (k : BlockKind) : choice BlockKind.all BlockKind.name (.text k.name) = .ok k := by
  cases k <;> rfl

theorem range_eq {first last : Int} (positive : 1 ≤ first) (ordered : first ≤ last) :
    range (.record (entries [("start", some (.number (.int first))), ("end", some (.number (.int last)))])) =
      .ok (first, last) := by
  let bounds : List (Text × Option Datum) :=
    [("start", some (.number (.int first))), ("end", some (.number (.int last)))]
  have distinct : (bounds.map Prod.fst).Nodup := by
    show (["start", "end"] : List Text).Nodup
    decide
  have start : required (entries bounds) "start" Schema.positive = .ok first :=
    required_eq (find?_entries distinct List.mem_cons_self) (if_pos positive)
  have stop : required (entries bounds) "end" Schema.positive = .ok last :=
    required_eq (find?_entries distinct (List.mem_cons_of_mem _ List.mem_cons_self))
      (if_pos (Int.le_trans positive ordered))
  unfold range
  dsimp only
  rw [start, stop]
  exact if_neg (Int.not_lt.2 ordered)

end Schema

/-! ## The wire form -/

namespace Plain

mutual

/-- Plain data is a finite tree. -/
theorem wire?_toDatum (a : Plain) : a.toDatum.wire? = some a.wire.toDatum := by
  cases a with
  | list items => rw [toDatum, Datum.wire?, wireItems?_toData]; rfl
  | record fields => rw [toDatum, Datum.wire?, wireFields?_toFields]; rfl
  | _ => rfl

theorem wireItems?_toData (items : List Plain) :
    Datum.wireItems? (toData items) = some (toData (wireItems items)) := by
  cases items with
  | nil => rfl
  | cons a rest => rw [toData, Datum.wireItems?, wire?_toDatum, wireItems?_toData]; rfl

theorem wireFields?_toFields (fields : List (Text × Plain)) :
    Datum.wireFields? (toFields fields) = some (toFields (wireFields fields)) := by
  cases fields with
  | nil => rfl
  | cons field rest => rw [toFields, Datum.wireFields?, wire?_toDatum, wireFields?_toFields]; rfl

end

theorem toFields_eq_map (fields : List (Text × Plain)) :
    toFields fields = fields.map fun (k, a) => (.text k, a.toDatum) := by
  induction fields with
  | nil => rfl
  | cons field rest ih => rw [toFields, ih, List.map_cons]

theorem textKeys_toFields (fields : List (Text × Plain)) :
    Schema.textKeys (.record (toFields fields)) = .ok (fields.map fun (k, a) => (k, a.toDatum)) := by
  simp only [Schema.textKeys, toFields_eq_map, List.filterMap_map, Function.comp_def]
  simp

end Plain

namespace Step

/-- The fields of a step on the wire. -/
def named (s : Step) : List (Text × Option Datum) :=
  [("line", some (.number (.int s.line))), ("code", some (.text s.code)),
    ("variables", some (.record (Plain.toFields (Plain.wireFields s.vars)))), ("kind", some (.text s.kind.name)),
    ("blockType", s.block.map fun b => .text b.kind.name),
    ("blockRange", s.block.map fun b => .record (Schema.entries
      [("start", some (.number (.int b.first))), ("end", some (.number (.int b.last)))])),
    ("output", s.output.map fun o => o.wire.toDatum), ("message", s.message.map .text),
    ("condition", s.condition.map .bool)]

def fieldNames : List Text :=
  ["line", "code", "variables", "kind", "blockType", "blockRange", "output", "message", "condition"]

theorem map_fst_named (s : Step) : s.named.map Prod.fst = fieldNames :=
  rfl

theorem wire?_loose (s : Step) : s.loose.wire? = some (.record (Schema.entries s.named)) := by
  obtain ⟨line, code, vars, kind, block, output, message, condition⟩ := s
  cases output <;> cases block <;> cases message <;> cases condition <;>
    simp [LooseStep.wire?, loose, Datum.wire?, Plain.wireFields?_toFields, Plain.wire?_toDatum, named,
      Schema.entries, Option.elim]

section Fields

open Schema

theorem find?_named {s : Step} {name : Text} {o : Option Datum} (i : Nat) (hi : s.named[i]? = some (name, o)) :
    find? (entries s.named) name = o := by
  have distinct : (s.named.map Prod.fst).Nodup := by
    rw [map_fst_named]
    decide
  exact find?_entries distinct (List.mem_of_getElem? hi)

theorem find?_named_of_absent (s : Step) {name : Text} (hn : name ∉ fieldNames) :
    find? (entries s.named) name = none :=
  find?_entries_of_absent hn

/-- Every field of a step belongs to its schema. -/
theorem extras_named (s : Step) : extras (entries s.named) = [] := by
  refine extras_entries fun name d mem => ?_
  simp only [named, List.mem_cons, Prod.mk.injEq, List.not_mem_nil, or_false] at mem
  unfold usedKeys
  rcases mem with ⟨rfl, -⟩ | ⟨rfl, -⟩ | ⟨rfl, -⟩ | ⟨rfl, -⟩ | ⟨rfl, kind⟩ | ⟨rfl, range⟩ | ⟨rfl, -⟩ | ⟨rfl, -⟩ |
    ⟨rfl, -⟩
  case inr.inr.inr.inr.inl =>
    rw [blockKindNames, findAny?_eq ((find?_named 4 rfl).trans kind.symm)]
    simp
  case inr.inr.inr.inr.inr.inl =>
    rw [blockRangeNames, findAny?_eq ((find?_named 5 rfl).trans range.symm)]
    simp
  all_goals simp

/-- What the schema reads is the step. -/
theorem record_wire {src : Source} {s : Step} (h : s.IsPlaced src) :
    Schema.record (.record (entries s.named)) = .ok {
      line := s.line
      code := s.code
      vars := (Plain.wireFields s.vars).map fun (k, a) => (k, a.toDatum)
      kind := s.kind
      blockKind := s.block.map Block.kind
      blockRange := s.block.map fun b => (b.first, b.last)
      output := (s.output.map fun o => o.wire.toDatum).getD .null
      message := s.message
      condition := s.condition } := by
  have whole : hasBrokenKey (entries s.named) = false := hasBrokenKey_entries (by
    rw [map_fst_named]
    decide)
  have line : required (entries s.named) "line" positive = .ok (s.line : Int) :=
    required_eq (find?_named 0 rfl) (if_pos (by have := h.line.1; omega))
  have code : required (entries s.named) "code" plainText = .ok s.code :=
    required_eq (find?_named 1 rfl) rfl
  have vars := required_eq (find?_named 2 rfl) (Plain.textKeys_toFields (Plain.wireFields s.vars))
  have kind := required_eq (find?_named 3 rfl) (choice_kind s.kind)
  have blockKind : optional (entries s.named) blockKindNames (nullable (choice BlockKind.all BlockKind.name)) =
      .ok (s.block.map Block.kind) := by
    refine optional_eq (find?_named 4 rfl) (by simpa using s.find?_named_of_absent (by decide)) fun b _ => ?_
    exact nullable_eq (by simp) (choice_blockKind b.kind)
  have blockRange : optional (entries s.named) blockRangeNames (nullable range) =
      .ok (s.block.map fun b => (b.first, b.last)) := by
    refine optional_eq (find?_named 5 rfl) (by simpa using s.find?_named_of_absent (by decide)) fun b hb => ?_
    exact nullable_eq (by simp) (range_eq (h.block b hb).first (h.block b hb).ordered)
  have output : find? (entries s.named) "output" = _ := find?_named 6 rfl
  have message : optional (entries s.named) ["message"] (nullable plainText) = .ok (s.message.map id) :=
    optional_eq (find?_named 7 rfl) (by simp) fun _ _ => rfl
  have condition : optional (entries s.named) ["condition"] (nullable lenientBool) = .ok (s.condition.map id) :=
    optional_eq (find?_named 8 rfl) (by simp) fun _ _ => rfl
  have together : (s.block.map Block.kind).isNone = (s.block.map fun b => (b.first, b.last)).isNone := by
    cases s.block <;> rfl
  rw [Option.map_id] at message condition
  unfold record
  dsimp only
  rw [if_neg (by simp [whole]), line, code, vars, kind, blockKind, blockRange, message, condition, extras_named,
    output]
  dsimp only [id]
  rw [if_neg (by simp [together])]

end Fields

theorem namesVariables_loose (s : Step) : s.loose.namesVariables = true := by
  simp [LooseStep.namesVariables, loose, Plain.toFields_eq_map]

theorem line?_loose {s : Step} (h : 1 ≤ s.line) : s.loose.line? = some s.line := by
  obtain ⟨n, hn⟩ : ∃ n, s.line = n + 1 := ⟨s.line - 1, by omega⟩
  unfold LooseStep.line? loose
  rw [hn]

theorem flaw?_loose {src : Source} {s : Step} (h : s.IsPlaced src) : s.loose.flaw? src.lines = none := by
  have ordered : (s.loose.block.filter fun b => decide (b.last < b.first)) = none := by
    rw [Option.filter_eq_none_iff]
    intro b hb
    have := (h.block b hb).ordered
    simp only [decide_eq_true_eq]
    omega
  unfold LooseStep.flaw?
  rw [line?_loose h.line.1]
  dsimp only
  rw [h.code, ordered, wire?_loose, namesVariables_loose]
  dsimp only
  rw [record_wire h]
  simp [loose]

end Step

theorem firstInvalid?_eq_none {lines : List Text} {steps : List LooseStep}
    (h : ∀ s ∈ steps, s.flaw? lines = none) (index : Nat) : firstInvalid? lines index steps = none := by
  induction steps generalizing index with
  | nil => rfl
  | cons s rest ih =>
    rw [List.forall_mem_cons] at h
    rw [firstInvalid?, h.1]
    exact ih h.2 (index + 1)

/-- Placed steps are valid. -/
theorem validate_placed {src : Source} {steps : List Step} (h : ∀ s ∈ steps, s.IsPlaced src) :
    validate src (steps.map Step.loose) = none := by
  refine firstInvalid?_eq_none ?_ 0
  rw [List.forall_mem_map]
  exact fun s hs => s.flaw?_loose (h s hs)

end ScriptTrace
