import ScriptTrace.Proofs.Conformance
/-!
# Values that come up in a run

A value **occurs** in the run of a program if a state that the run passes through holds it, or if it is what an
expression, an argument, a `return` or a call gives from such a state. Expressions and statements are asked for as they
are read from the source, with the recursion at any depth. All values that occur keep to a standard if it admits the
texts that fit into the source.

Two standards are of use. Numbers are normal, whichever way they were computed, so the carrier of a number says whether
it is a safe integer. And no text gets longer than the cap of concatenation, unless the source itself is longer.

* `Standard.occurs`: what holds of all values that occur.
* `occurring_numbers_normal`, `occurring_texts_bounded`: the two standards.
-/
namespace ScriptTrace

open Act

/-! ## Occurrences -/

/-- The values of variables, the elements of arrays, the values of entries, and the queued output. -/
def Memory.values (m : Memory) : List Value :=
  m.env.bindings.map Prod.snd ++ (m.heap.arrays.toList.flatten ++
    (m.heap.objects.toList.flatMap (fun entries => entries.map Prod.snd) ++ m.pending))

section

variable (cfg : Config) (src : Source) (tree : Tree) (clock : Clock)

/-- Whether the run of a program passes through a state. -/
def Reached (s : State) : Prop :=
  (runProgram (.top cfg src) (Stmt.program src tree)).passes (.start clock cfg.frames) s

/-- Whether a value comes up in the run of a program. -/
inductive Occurs : Value → Prop
  | held {s : State} {v : Value} (reached : Reached cfg src tree clock s) (mem : v ∈ s.values) : Occurs v
  /-- The value of an expression. -/
  | evaluated {s s' : State} {v : Value} (depth height : Nat) (node : Tree) (reached : Reached cfg src tree clock s)
      (exec : (((Readers.upTo src height).expr node).eval (.within cfg src .idle depth)).exec s = (.ok v, s')) :
      Occurs v
  /-- One of the arguments of a call. -/
  | passed {s s' : State} {vs : List Value} {v : Value} (depth height : Nat) (nodes : List Tree)
      (reached : Reached cfg src tree clock s)
      (exec : (Expr.evalAll (.within cfg src .idle depth) (nodes.map (Readers.upTo src height).expr)).exec s =
        (.ok vs, s'))
      (mem : v ∈ vs) : Occurs v
  /-- The value that a statement sends to the function around it. -/
  | answered {s s' : State} {v : Value} (depth height : Nat) (node : Tree) (label : Option Text)
      (reached : Reached cfg src tree clock s)
      (exec : ((Stmt.readUpTo src height node).run (.within cfg src .idle depth) label).exec s =
        (.ok (.answer v), s')) :
      Occurs v
  /-- What the call of a function gives, with arguments that come up in the run. -/
  | returned {s s' : State} {v : Value} {f : Text × Routine Stmt} {args : List Value} (depth line : Nat)
      (reached : Reached cfg src tree clock s) (known : f ∈ s.functions) (given : ∀ a ∈ args, Occurs a)
      (exec : (callFunction (.within cfg src .idle depth) f.1 f.2 args line).exec s = (.ok v, s')) : Occurs v

end

namespace Standard

variable {S : Standard} {cfg : Config} {src : Source} {tree : Tree} {clock : Clock} {v : Value}

theorem AdmitsMemory.values {m : Memory} (hm : S.AdmitsMemory m) : ∀ v ∈ m.values, S.Admits v := by
  unfold Memory.values
  rw [List.forall_mem_append, List.forall_mem_append, List.forall_mem_append, List.forall_mem_map,
    List.forall_mem_flatten, List.forall_mem_flatMap]
  refine ⟨hm.bindings, fun items hi => ?_, fun entries he => ?_, hm.pending⟩
  · exact hm.heap.arrays items (Array.mem_toList_iff.1 hi)
  · exact List.forall_mem_map.2 (hm.heap.objects entries (Array.mem_toList_iff.1 he))

/-- An expression that is read from the source spells texts in order if the texts that fit into it are. -/
theorem admits_ofTree (covers : src.Covers S.text) (t : Tree) : S.AdmitsExpr (Expr.ofTree src t) :=
  (readers_spell covers t.height).1 t

theorem reached (covers : src.Covers S.text) {s : State} (h : Reached cfg src tree clock s) : S.AdmitsState s := by
  have program : ∀ stmt ∈ Stmt.program src tree, stmt.Each S.AdmitsExpr :=
    program_each trivial (admits_ofTree covers) tree
  exact ((conforms_within S cfg src _).runProgram _ program _ (S.start clock _)).1 s h

/-- If a standard admits the texts that fit into the source, it admits all values that occur. -/
theorem occurs (covers : src.Covers S.text) (h : Occurs cfg src tree clock v) : S.Admits v := by
  induction h with
  | held hs mem => exact (reached covers hs).values _ mem
  | evaluated depth height node hs exec =>
    exact ((conforms_within S cfg src depth).eval _ ((readers_spell covers height).1 node)).result
      (reached covers hs) exec
  | passed depth height nodes hs exec mem =>
    exact ((conforms_within S cfg src depth).evalAll _ (parts_spell (readers_spell covers height).1 nodes)).result
      (reached covers hs) exec _ mem
  | answered depth height node label hs exec =>
    have read : (Stmt.readUpTo src height node).Each S.AdmitsExpr :=
      readUpTo_each trivial (admits_ofTree covers) height node
    exact ((conforms_within S cfg src depth).run label _ read).result (reached covers hs) exec
  | returned depth line hs known _ exec given =>
    exact ((conforms_within S cfg src depth).callFunction _ ((reached covers hs).functions _ known) given line).result
      (reached covers hs) exec

end Standard

/-! ## Normal numbers -/

namespace Number

theorem isNormal_ofFloat (x : Float) : (ofFloat x).IsNormal := by
  have carried : (∃ k, ofFloat x = .int k) ∨ ofFloat x = .float x := by
    unfold ofFloat
    split
    · dsimp only
      split
      · exact .inl ⟨_, rfl⟩
      · exact .inr rfl
    · exact .inr rfl
  rcases carried with ⟨k, h⟩ | h
  · rw [h]
    rfl
  · rw [IsNormal, h]
    exact h

/-- A float that is normal and is a safe integer is negative zero. -/
theorem IsNormal.eq_negative_zero {x : Float} (h : (Number.float x).IsNormal) (whole : Binary64.isInteger x = true)
    (small : (Binary64.truncate x).natAbs < Nat.pow 2 53) :
    Binary64.truncate x = 0 ∧ Binary64.isNegative x = true := by
  have carried : ofFloat x = .float x := h
  unfold ofFloat at carried
  unfold Binary64.isInteger at whole
  unfold Binary64.truncate at small ⊢
  unfold Binary64.isNegative
  cases hp : Binary64.parts x with
  | nan | infinite =>
    rw [hp] at whole
    cases whole
  | finite negative mantissa exponent =>
    simp only [hp] at carried whole small ⊢
    have magnitude : (Binary64.withSign negative (Binary64.wholePart mantissa exponent)).natAbs =
        Binary64.wholePart mantissa exponent := by
      cases negative <;> simp [Binary64.withSign]
    have safe : Binary64.wholePart mantissa exponent < safeBound := by
      rw [← magnitude]
      exact small
    split at carried
    · cases carried
    · rename_i kept
      simp only [whole, safe, decide_true, Bool.and_self, Bool.true_and, Bool.not_eq_true, Bool.not_eq_false',
        Bool.and_eq_true, beq_iff_eq] at kept
      rw [kept.1, kept.2]
      exact ⟨rfl, rfl⟩

/-- The standard of normal numbers. -/
def normality : Standard where
  number := IsNormal
  text _ := True
  int _ := rfl
  ofFloat := isNormal_ofFloat
  nan := rfl
  infinity negative := by cases negative <;> rfl
  short _ _ := trivial

end Number

/-- Every number that occurs in a run is carried as `Number.normalize` says. So one that is carried as a float is no
integer below `2 ^ 53` in magnitude, unless it is negative zero. -/
theorem occurring_numbers_normal (cfg : Config) (src : Source) (tree : Tree) (clock : Clock) (n : Number)
    (h : Occurs cfg src tree clock (.number n)) :
    n.normalize = n ∧
      ∀ x : Float, n = .float x → Binary64.isInteger x = true → (Binary64.truncate x).natAbs < Nat.pow 2 53 →
        Binary64.truncate x = 0 ∧ Binary64.isNegative x = true := by
  have normal : n.IsNormal := Standard.occurs (S := Number.normality) (fun _ _ => trivial) h
  refine ⟨normal, fun x hx whole small => ?_⟩
  rw [hx] at normal
  exact normal.eq_negative_zero whole small

/-- Assignments of negative zero and of an escaped letter. -/
def literalsSource : Source := ⟨"x=-0;y='\\x61'"⟩

def literalsTree : Tree :=
  let node (named : Bool) (kind : String) (field : Option String) (start stop : Nat) (children : List Tree) : Tree :=
    .node ⟨named, false, false, false, kind, field, start, stop⟩ children
  node true "program" none 0 13 [
    node true "expression_statement" none 0 5 [
      node true "assignment_expression" none 0 4 [
        node true "identifier" "left" 0 1 [],
        node true "unary_expression" "right" 2 4 [
          node false "-" "operator" 2 3 [],
          node true "number" "argument" 3 4 []]]],
    node true "expression_statement" none 5 13 [
      node true "assignment_expression" none 5 13 [
        node true "identifier" "left" 5 6 [],
        node true "string" "right" 7 13 []]]]

theorem occurring_numbers_normal_negative_zero :
    Occurs {} literalsSource literalsTree (.ticking 0) (.number (.float (-0.0))) ∧
      (Number.float (-0.0)).normalize = .float (-0.0) ∧ Binary64.isInteger (-0.0) = true ∧
      Binary64.truncate (-0.0) = 0 ∧ Binary64.isNegative (-0.0) = true := by
  have occurs : Occurs {} literalsSource literalsTree (.ticking 0) (.number (.float (-0.0))) := by
    refine .held (passes_last _ _) ?_
    decide +kernel
  have whole : Binary64.isInteger (-0.0) = true := by decide +kernel
  have small : (Binary64.truncate (-0.0)).natAbs < Nat.pow 2 53 := by decide +kernel
  obtain ⟨normal, zero⟩ := occurring_numbers_normal {} literalsSource literalsTree (.ticking 0) _ occurs
  exact ⟨occurs, normal, whole, zero (-0.0) rfl whole small⟩

/-! ## Texts of bounded length -/

/-- The standard of texts that are no longer than the cap of concatenation or the source. -/
def Source.moderation (src : Source) : Standard where
  number _ := True
  text t := t.length ≤ max maxTextLength src.text.length
  int _ := trivial
  ofFloat _ := trivial
  nan := trivial
  infinity _ := trivial
  short _ h := Nat.le_trans h (Nat.le_max_left _ _)

/-- Every text that occurs in a run has at most `2 ^ 20` code points, or at most as many as the source. -/
theorem occurring_texts_bounded (cfg : Config) (src : Source) (tree : Tree) (clock : Clock) (t : Text)
    (h : Occurs cfg src tree clock (.text t)) : t.length ≤ max (Nat.pow 2 20) src.text.length :=
  Standard.occurs (S := src.moderation) (fun _ ht => Nat.le_trans ht (Nat.le_max_right _ _)) h

theorem occurring_texts_bounded_escaped :
    Occurs {} literalsSource literalsTree (.ticking 0) (.text "a") ∧
      ("a" : Text).length ≤ max (Nat.pow 2 20) literalsSource.text.length := by
  have occurs : Occurs {} literalsSource literalsTree (.ticking 0) (.text "a") := by
    refine .held (passes_last _ _) ?_
    decide +kernel
  exact ⟨occurs, occurring_texts_bounded {} literalsSource literalsTree (.ticking 0) _ occurs⟩

end ScriptTrace
