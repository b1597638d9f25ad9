import ScriptTrace.Extract
import ScriptTrace.Proofs.Course
import ScriptTrace.Proofs.Preorder
/-!
# Extraction of callable functions

Running a program makes functions callable by name: those that are declared, and those that a declarator is given for
its value. Extraction cuts functions out of the text by name. The two go by lists of kinds of their own, and the lists
are not the same: a declarator can be given a generator, which running makes callable and extraction does not know
(`generator_value_not_extracted`).

Every other function that can be called by name can be extracted. Of several functions of a name, the first one in
preorder is taken. A declarator hands over its value as soon as it is met, so only what stands in the declarator before
the value, as a type can, might have come first.

* `functions_register`: what registering a routine does to the callable functions.
* `Registers.named`: a node that makes a name callable has that name.
* `leads_of_findFunction`: which function of a name is found.
* `registered_function_extracted`: every callable function can be extracted, generators in declarators apart.
-/
namespace ScriptTrace

open Act ScriptTrace.Tree

/-! ## What can be called -/

section Callable

variable (ctx : Context) (s : State) (name : Text) (r : Routine Stmt)

/-- Registering a routine makes it callable, whatever else is done that leaves the callable functions alone. -/
theorem functions_register {α : Type} {next : Run α} (keeps : next.Keeps fun s => s.functions) :
    (((register name r).asRun >>= fun _ => next).exec s).2.functions = s.functions.insert name r := by
  obtain ⟨logs, registered⟩ := exec_register name r s
  rw [exec_bind_ok registered]
  exact keeps _

theorem declareName_keeps (v : Value) (constant : Bool) :
    (declareName name v constant).asRun.Keeps fun s => s.functions :=
  fun _ => rfl

theorem note_keeps (e : Event) : (ctx.note e).Keeps fun s => s.functions := by
  intro s
  rw [Context.exec_note]
  exact noted_functions e s

theorem functions_runFunction (span : Span) (generator : Bool) :
    (((Stmt.function span generator name r).run ctx none).exec s).2.functions = s.functions.insert name r := by
  rw [Stmt.run]
  exact functions_register s name r <|
    (declareName_keeps name _ _).bind fun _ => (note_keeps ctx _).bind fun _ => .done _

theorem functions_declareRoutine (keeps constant : Bool) :
    ((declareOne ctx keeps constant (.bind name (.routine r))).exec s).2.functions = s.functions.insert name r :=
  functions_register s name r (declareName_keeps name _ _)

theorem functions_declarePattern (keeps constant : Bool) (line : Nat) :
    ((declareOne ctx keeps constant (.pattern line)).exec s).2.functions = s.functions :=
  rfl

end Callable

/-- Whether running a node makes a function callable by a name by which none was. A declaration of a function is run as
a statement; a declarator is run as a part of a declaration, and the function is its value. -/
inductive Registers (src : Source) (name : Text) : Tree → Tree → Prop
  | declaration {d : Tree} (kind : d.kind = "function_declaration" ∨ d.kind = "generator_function_declaration")
      (named : (d.field? "name").isSome) (stmt : Tree → Stmt) (ctx : Context) (s : State)
      (before : s.functions.contains name = false)
      (after : (((Stmt.readNode src stmt d).run ctx none).exec s).2.functions.contains name = true) :
      Registers src name d d
  | declarator {d f : Tree} (kind : d.kind = "variable_declarator") (value : d.field? "value" = some f)
      (function : functionKinds.contains f.kind = true) (stmt : Tree → Stmt) (ctx : Context) (s : State)
      (keeps constant : Bool) (before : s.functions.contains name = false)
      (after : ((declareOne ctx keeps constant (Declarator.read src stmt d)).exec s).2.functions.contains name = true) :
      Registers src name d f

namespace Tree

/-- Whether a node has a name of its own. -/
def IsNamed (src : Source) (name : Text) (t : Tree) : Prop :=
  ∃ n, t.field? "name" = some n ∧ n.text src = name

end Tree

/-! ## Names -/

section Names

variable {src : Source} {name : Text} {d f n : Tree}

theorem readNode_declaration (kind : d.kind = "function_declaration" ∨ d.kind = "generator_function_declaration")
    (hn : d.field? "name" = some n) (stmt : Tree → Stmt) : ∃ generator, Stmt.readNode src stmt d =
      .function (d.span src) generator (n.text src) (Routine.read src stmt d) := by
  have text : d.fieldText src "name" = n.text src := by rw [fieldText, hn, Option.elim_some]
  rw [← text]
  rcases kind with kind | kind
  · exact ⟨false, by simp only [Stmt.readNode, kind]⟩
  · exact ⟨true, by simp only [Stmt.readNode, kind]⟩

/-- A declarator with a function for its value is read as a routine of its name, unless it has a pattern for a name. -/
theorem read_declarator (value : d.field? "value" = some f) (function : functionKinds.contains f.kind = true)
    (stmt : Tree → Stmt) : Declarator.read src stmt d = .pattern (d.line src) ∨
      ∃ n, d.field? "name" = some n ∧
        Declarator.read src stmt d = .bind (n.text src) (.routine (Routine.read src stmt f)) := by
  cases hn : d.field? "name" with
  | none => exact .inl (by simp only [Declarator.read, hn])
  | some n =>
    by_cases identifier : n.kind = "identifier"
    · refine .inr ⟨n, rfl, ?_⟩
      simp only [Declarator.read, hn, identifier, value, function, beq_self_eq_true, if_true]
    · exact .inl (by simp only [Declarator.read, hn, beq_iff_eq, identifier, if_false])

theorem eq_of_contains_insert {k : Text} {r : Routine Stmt} {functions : Assoc Text (Routine Stmt)}
    (before : functions.contains name = false) (after : (functions.insert k r).contains name = true) : k = name := by
  rw [Assoc.contains_eq_isSome] at before after
  by_cases same : k = name
  · exact same
  · rw [Assoc.get?_insert_of_ne same, before] at after
    cases after

theorem Registers.named (h : Registers src name d f) : d.IsNamed src name := by
  cases h with
  | declaration kind named stmt ctx s before after =>
    obtain ⟨n, hn⟩ := Option.isSome_iff_exists.1 named
    obtain ⟨generator, read⟩ := readNode_declaration kind hn stmt
    rw [read, functions_runFunction] at after
    exact ⟨n, hn, eq_of_contains_insert before after⟩
  | declarator kind value function stmt ctx s keeps constant before after =>
    rcases read_declarator value function stmt with read | ⟨n, hn, read⟩
    · rw [read, functions_declarePattern, before] at after
      cases after
    · rw [read, functions_declareRoutine] at after
      exact ⟨n, hn, eq_of_contains_insert before after⟩

end Names

/-! ## Functions of a name -/

namespace Tree

section Functions

variable {src : Source} {name : Text} {t d f g : Tree} {e p q : Way} {i : Nat}

/-- Whether a way leads to a declarator of a name whose value is the child of a number. -/
def ValueAt (src : Source) (name : Text) (t : Tree) (e : Way) (i : Nat) : Prop :=
  ∃ d, t.at? e = some d ∧ d.kind = "variable_declarator" ∧ d.IsNamed src name ∧
    d.children.findIdx? (fun c => c.info.field == some "value") = some i

/-- Whether a way leads to a function of a name: to a function that has the name itself, or to one that is the value of
a declarator of the name. -/
structure FunctionAt (src : Source) (name : Text) (t : Tree) (p : Way) (f : Tree) : Prop where
  stands : t.at? p = some f
  kind : extractableKinds.contains f.kind = true
  named : f.IsNamed src name ∨ ∃ e i, p = e ++ [i] ∧ t.ValueAt src name e i

/-- Whether a function is met where a way leads to: it stands there, or it is the value of a declarator there. -/
def MetAt (src : Source) (name : Text) (t : Tree) (e p : Way) : Prop :=
  p = e ∨ ∃ i, p = e ++ [i] ∧ t.ValueAt src name e i

theorem functionHere_eq_some : functionHere? src name d = some f ↔
    d.IsNamed src name ∧ extractableKinds.contains f.kind = true ∧
      (f = d ∨ d.kind = "variable_declarator" ∧ d.field? "value" = some f) := by
  have isNamed : ((d.field? "name").any fun n => n.text src = name) = true ↔ d.IsNamed src name := by
    simp only [Option.any_eq_true, decide_eq_true_eq, IsNamed]
  unfold functionHere?
  dsimp only
  split
  · rename_i own
    rw [Bool.and_eq_true, isNamed] at own
    constructor
    · intro h
      cases h
      exact ⟨own.2, own.1, .inl rfl⟩
    · rintro ⟨-, -, rfl | ⟨declarator, -⟩⟩
      · rfl
      · rw [declarator] at own
        exact absurd own.1 (by decide)
  · rename_i foreign
    rw [Bool.and_eq_true, isNamed] at foreign
    split
    · rename_i declarator
      rw [Bool.and_eq_true, isNamed, beq_iff_eq] at declarator
      rw [Option.filter_eq_some_iff]
      constructor
      · rintro ⟨value, kind⟩
        exact ⟨declarator.2, kind, .inr ⟨declarator.1, value⟩⟩
      · rintro ⟨named, kind, rfl | ⟨-, value⟩⟩
        · exact absurd ⟨kind, named⟩ foreign
        · exact ⟨value, kind⟩
    · rename_i neither
      rw [Bool.and_eq_true, isNamed, beq_iff_eq] at neither
      constructor
      · exact fun h => nomatch h
      · rintro ⟨named, kind, rfl | ⟨declarator, -⟩⟩
        · exact absurd ⟨kind, named⟩ foreign
        · exact absurd ⟨declarator, named⟩ neither

theorem field_eq_some {field : String} {c : Tree} : d.field? field = some c ↔
    ∃ i, d.children.findIdx? (fun c => c.info.field == some field) = some i ∧ d.children[i]? = some c := by
  rw [field?, List.find?_eq_bind_findIdx?_getElem?, Option.bind_eq_some_iff]

/-- What a node gives for a function of the name is a function of the name, and it is met there. -/
theorem functionAt_of_here (stands : t.at? e = some d) (here : functionHere? src name d = some f) :
    ∃ p, t.FunctionAt src name p f ∧ t.MetAt src name e p := by
  obtain ⟨named, kind, rfl | ⟨declarator, value⟩⟩ := functionHere_eq_some.1 here
  · exact ⟨e, ⟨stands, kind, .inl named⟩, .inl rfl⟩
  · obtain ⟨i, index, child⟩ := field_eq_some.1 value
    have valueAt : t.ValueAt src name e i := ⟨d, stands, declarator, named, index⟩
    refine ⟨e ++ [i], ⟨?_, kind, .inr ⟨e, i, rfl, valueAt⟩⟩, .inr ⟨i, rfl, valueAt⟩⟩
    rw [at_child, stands]
    exact child

/-- Every function of the name is met somewhere. -/
theorem FunctionAt.met (h : t.FunctionAt src name p f) :
    ∃ e d, t.at? e = some d ∧ functionHere? src name d = some f ∧ t.MetAt src name e p := by
  rcases h.named with named | ⟨e, i, rfl, valueAt⟩
  · exact ⟨p, f, h.stands, functionHere_eq_some.2 ⟨named, h.kind, .inl rfl⟩, .inl rfl⟩
  · obtain ⟨d, stands, declarator, named, index⟩ := id valueAt
    have child := h.stands
    rw [at_child, stands] at child
    have value : d.field? "value" = some f := field_eq_some.2 ⟨i, index, child⟩
    exact ⟨e, d, stands, functionHere_eq_some.2 ⟨named, h.kind, .inr ⟨declarator, value⟩⟩, .inr ⟨i, rfl, valueAt⟩⟩

/-- A function that is met no earlier than a node stands no earlier than the node. -/
theorem MetAt.notBefore {e' : Way} (h : t.MetAt src name e' q) (later : e' = e ∨ Precedes e e') :
    q = e ∨ Precedes e q := by
  rcases h with rfl | ⟨i, rfl, -⟩
  · exact later
  · rcases later with rfl | later
    · exact .inr (precedes_longer e' i [])
    · exact .inr (later.longer [i])

/-- Whether a way leads into the declarator whose value another way leads to, to something before the value. -/
def AheadOfValue (src : Source) (name : Text) (t : Tree) (p q : Way) : Prop :=
  ∃ e i k r, p = e ++ [i] ∧ t.ValueAt src name e i ∧ q = e ++ k :: r ∧ k < i

/-- Whether a way leads to the first function of a name in preorder, what stands in its declarator before it apart. -/
structure Leads (src : Source) (name : Text) (t : Tree) (p : Way) (f : Tree) : Prop where
  function : t.FunctionAt src name p f
  first : ∀ q g, t.FunctionAt src name q g → q = p ∨ Precedes p q ∨ t.AheadOfValue src name p q

theorem leads_of_first (h : FirstAt (functionHere? src name) t e f) : ∃ p, t.Leads src name p f := by
  obtain ⟨d, stands, here⟩ := h.answer
  obtain ⟨p, function, met⟩ := functionAt_of_here stands here
  refine ⟨p, function, fun q g other => ?_⟩
  obtain ⟨e', d', stands', here', met'⟩ := other.met
  have notBefore : q = e ∨ Precedes e q :=
    met'.notBefore (h.first e' d' stands' (Option.isSome_iff_exists.2 ⟨g, here'⟩))
  rcases met with rfl | ⟨i, rfl, valueAt⟩
  · exact notBefore.imp_right .inl
  · -- the value stands after its declarator, and the children before it stand between the two
    rcases notBefore with rfl | after
    · -- the declarator is no function itself
      obtain ⟨d, stands, declarator, -⟩ := valueAt
      have kind := other.kind
      rw [Option.some.inj (other.stands.symm.trans stands), declarator] at kind
      exact absurd kind (by decide)
    · refine (after.child i).imp_right (Or.imp_right ?_)
      rintro ⟨k, r, less, rfl⟩
      exact ⟨e, i, k, r, rfl, valueAt, rfl, less⟩

mutual

theorem findFunction_eq (src : Source) (name : Text) :
    ∀ t : Tree, findFunction? src name t = t.preorder.findSome? (functionHere? src name)
  | .node i cs => by
    rw [findFunction?, preorder, List.findSome?_cons, findFunctionIn_eq src name cs]
    cases functionHere? src name (.node i cs) with
    | none => rfl
    | some f => rfl

theorem findFunctionIn_eq (src : Source) (name : Text) :
    ∀ cs : List Tree, findFunctionIn? src name cs = (preorderAll cs).findSome? (functionHere? src name)
  | [] => rfl
  | c :: rest => by
    rw [findFunctionIn?, preorderAll, List.findSome?_append, findFunction_eq src name c,
      findFunctionIn_eq src name rest]
    cases c.preorder.findSome? (functionHere? src name) with
    | none => rfl
    | some f => rfl

end

theorem leads_of_findFunction (h : findFunction? src name t = some f) : ∃ p, t.Leads src name p f := by
  rw [findFunction_eq] at h
  obtain ⟨e, first⟩ := first_of_findSome h
  exact leads_of_first first

/-- If there is a function of the name, one is found. -/
theorem FunctionAt.found (h : t.FunctionAt src name p f) : ∃ g, findFunction? src name t = some g := by
  obtain ⟨e, d, stands, here, -⟩ := h.met
  rw [findFunction_eq]
  exact Option.isSome_iff_exists.1
    (List.findSome?_isSome_iff.2 ⟨d, mem_preorder_of_at stands, Option.isSome_iff_exists.2 ⟨f, here⟩⟩)

end Functions

end Tree

/-! ## Callable functions can be extracted -/

/-- The two lists of kinds differ by two kinds of values. -/
theorem Registers.extractable {src : Source} {name : Text} {d f : Tree} (h : Registers src name d f)
    (plain : f.kind ≠ "generator_function") (current : f.kind ≠ "function") : functionHere? src name d = some f := by
  rw [functionHere_eq_some]
  refine ⟨h.named, ?_⟩
  cases h with
  | declaration kind =>
    refine ⟨?_, .inl rfl⟩
    rcases kind with kind | kind <;> rw [kind] <;> decide
  | declarator kind value function =>
    refine ⟨?_, .inr ⟨kind, value⟩⟩
    simp only [functionKinds, extractableKinds, List.contains_iff_mem, List.mem_cons] at function ⊢
    grind

/-- If running a node of an accepted tree makes a function callable by a name, the text of the first function of that
name can be extracted, unless the function is a generator that a declarator is given and no other function has the name.
The name is refused then. -/
theorem registered_function_extracted {language : Text} {src : Source} {name : Text} {t d f : Tree} {q : Way}
    (known : (Language.ofText? language).isSome) (sound : t.info.hasError = false) (stands : t.at? q = some d)
    (registers : Registers src name d f) :
    (f.kind ≠ "generator_function" ∧ f.kind ≠ "function" ∨ (∃ p g, t.FunctionAt src name p g) →
      ∃ p g, t.Leads src name p g ∧ t.extract language src name = .ok (g.text src)) ∧
    ((∀ p g, ¬t.FunctionAt src name p g) → t.extract language src name = .error (notFound name)) := by
  rw [extract_of_known known src name sound]
  constructor
  · intro there
    have function : ∃ p g, t.FunctionAt src name p g := by
      rcases there with ⟨plain, current⟩ | function
      · obtain ⟨p, function, -⟩ := functionAt_of_here stands (registers.extractable plain current)
        exact ⟨p, f, function⟩
      · exact function
    obtain ⟨_, _, function⟩ := function
    obtain ⟨g, found⟩ := function.found
    obtain ⟨p, leads⟩ := leads_of_findFunction found
    exact ⟨p, g, leads, by rw [found]; rfl⟩
  · intro unknown
    cases found : findFunction? src name t with
    | none => rfl
    | some g =>
      obtain ⟨p, leads⟩ := leads_of_findFunction found
      exact absurd leads.function (unknown p g)

/-- A function with a function of the same name in it. -/
def shadowingSource : Source := ⟨"let f = (x) => \x7b let f = () => 2; return f; \x7d;"⟩

def shadowingTree : Tree :=
  let node (kind : String) (field : Option String) (start stop : Nat) (children : List Tree) : Tree :=
    .node ⟨true, false, false, false, kind, field, start, stop⟩ children
  node "program" none 0 46 [
    node "lexical_declaration" none 0 46 [
      node "variable_declarator" none 4 45 [
        node "identifier" "name" 4 5 [],
        node "arrow_function" "value" 8 45 [
          node "formal_parameters" "parameters" 8 11 [node "identifier" none 9 10 []],
          node "statement_block" "body" 15 45 [
            node "lexical_declaration" none 17 33 [
              node "variable_declarator" none 21 32 [
                node "identifier" "name" 21 22 [],
                node "arrow_function" "value" 25 32 [
                  node "formal_parameters" "parameters" 25 27 [],
                  node "number" "body" 31 32 []]]],
            node "return_statement" none 34 43 [node "identifier" none 41 42 []]]]]]]

theorem registered_function_extracted_shadowed :
    ∃ d f, shadowingTree.at? [0, 0, 1, 1, 0, 0] = some d ∧ Registers shadowingSource "f" d f ∧
      f.text shadowingSource = "() => 2" ∧
      (∃ p g, shadowingTree.Leads shadowingSource "f" p g ∧
        shadowingTree.extract "javascript" shadowingSource "f" = .ok (g.text shadowingSource)) ∧
      shadowingTree.extract "javascript" shadowingSource "f" = .ok "(x) => \x7b let f = () => 2; return f; \x7d" := by
  let d := (shadowingTree.at? [0, 0, 1, 1, 0, 0]).get rfl
  have stands : shadowingTree.at? [0, 0, 1, 1, 0, 0] = some d := rfl
  have registers : Registers shadowingSource "f" d ((d.field? "value").get rfl) :=
    .declarator rfl rfl rfl (Stmt.ofTree shadowingSource) (.top {} shadowingSource) (.start (.ticking 0)) false false
      rfl (by decide)
  exact ⟨d, _, stands, registers, by decide,
    (registered_function_extracted (by decide) rfl stands registers).1 (.inl (by decide)), rfl⟩

/-- A generator that a declarator is given, and a call of it. -/
def generatorSource : Source := ⟨"let f = function* () \x7b return 3; \x7d;\nlet r = f();\n"⟩

def generatorTree : Tree :=
  let node (kind : String) (field : Option String) (start stop : Nat) (children : List Tree) : Tree :=
    .node ⟨true, false, false, false, kind, field, start, stop⟩ children
  node "program" none 0 49 [
    node "lexical_declaration" none 0 35 [
      node "variable_declarator" none 4 34 [
        node "identifier" "name" 4 5 [],
        node "generator_function" "value" 8 34 [
          node "formal_parameters" "parameters" 18 20 [],
          node "statement_block" "body" 21 34 [
            node "return_statement" none 23 32 [node "number" none 30 31 []]]]]],
    node "lexical_declaration" none 36 48 [
      node "variable_declarator" none 40 47 [
        node "identifier" "name" 40 41 [],
        node "call_expression" "value" 44 47 [
          node "identifier" "function" 44 45 [],
          node "arguments" "arguments" 45 47 []]]]]

/-- A generator can be called by the name of its declarator, but it cannot be extracted by it. -/
theorem generator_value_not_extracted :
    generatorTree.info.hasError = false ∧
    (∃ d f, generatorTree.at? [0, 0] = some d ∧ Registers generatorSource "f" d f ∧
      f.text generatorSource = "function* () \x7b return 3; \x7d") ∧
    generatorTree.extract "javascript" generatorSource "f" = .error (notFound "f") := by
  let d := (generatorTree.at? [0, 0]).get rfl
  have registers : Registers generatorSource "f" d ((d.field? "value").get rfl) :=
    .declarator rfl rfl rfl (Stmt.ofTree generatorSource) (.top {} generatorSource) (.start (.ticking 0)) false false
      rfl (by decide)
  exact ⟨rfl, ⟨d, _, rfl, registers, by decide⟩, rfl⟩

end ScriptTrace
