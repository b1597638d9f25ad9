import ScriptTrace.Tree
/-!
# Trees as rows of text

A tree can be handed over as lines, one for each node in preorder: flags, kind, field, first byte, the byte after
the last one, and the number of children, with tabs between them. A node without a field has an empty one. The
flags are bits: named, error, missing, something wrong below.
-/
namespace ScriptTrace

/-- The node and the number of children that a row describes. -/
def Node.ofRow? (row : String) : Option (Node × Nat) :=
  match row.splitOn "\t" with
  | [flags, kind, field, start, stop, children] => do
    let bits ← flags.toNat?
    let node : Node :=
      { named := bits.testBit 0
        isError := bits.testBit 1
        isMissing := bits.testBit 2
        hasError := bits.testBit 3
        kind := kind
        field := if field.isEmpty then none else some field
        start := ← start.toNat?
        stop := ← stop.toNat? }
    return (node, ← children.toNat?)
  | _ => none

/-- The tree that lines describe. -/
def Tree.ofLines? (lines : List String) : Option Tree := do
  Tree.ofRows? (← lines.mapM Node.ofRow?)

end ScriptTrace
