import ScriptTrace.Source
/-!
# Concrete trees

The **tree** of a program as a grammar delivers it: every node has a kind, may have a field name in its
parent, covers a range of bytes and knows whether something below it is wrong. Unnamed nodes are the
tokens that stand between the named ones.
-/
namespace ScriptTrace

structure Node where
  named : Bool
  isError : Bool
  isMissing : Bool
  hasError : Bool
  kind : String
  field : Option String
  start : Nat
  stop : Nat
deriving Repr, Inhabited

inductive Tree
  | node (info : Node) (children : List Tree)
deriving Repr, Inhabited

namespace Tree

def info : Tree → Node
  | .node i _ => i

def children : Tree → List Tree
  | .node _ cs => cs

def kind (t : Tree) : String :=
  t.info.kind

def commentKinds : List String := ["comment", "html_comment"]

/-- The named children that are no comments. -/
def parts (t : Tree) : List Tree :=
  t.children.filter fun c => c.info.named && !commentKinds.contains c.kind

/-- The first child with a field name. -/
def field? (t : Tree) (name : String) : Option Tree :=
  t.children.find? fun c => c.info.field == some name

theorem mem_of_parts {t c : Tree} (h : c ∈ t.parts) : c ∈ t.children :=
  (List.mem_filter.1 h).1

theorem mem_of_field {t c : Tree} {name : String} (h : t.field? name = some c) : c ∈ t.children :=
  List.mem_of_find?_eq_some h

theorem field_of_field {t c : Tree} {name : String} (h : t.field? name = some c) :
    c.info.field = some name := by
  have := List.find?_some h
  exact eq_of_beq this

mutual

/-- The number of nodes on the longest way down. -/
def height : Tree → Nat
  | .node _ cs => heights cs + 1

def heights : List Tree → Nat
  | [] => 0
  | c :: rest => max (height c) (heights rest)

end

/-- The tree whose nodes, in preorder and each with its number of children, are the given rows. -/
def ofRows? (rows : List (Node × Nat)) : Option Tree :=
  let forest := rows.foldr (fun (i, n) done => .node i (done.take n) :: done.drop n) []
  forest.head?

def line (src : Source) (t : Tree) : Nat :=
  src.lineAt t.info.start

def endLine (src : Source) (t : Tree) : Nat :=
  src.lineAt t.info.stop

def text (src : Source) (t : Tree) : Text :=
  src.slice t.info.start t.info.stop

/-- Whether a node is itself what is wrong. -/
def isOffender (t : Tree) : Bool :=
  t.info.isError || t.info.isMissing

mutual

/-- The first offending node; only children that are marked are searched. -/
def firstOffender : Tree → Option Tree
  | .node i cs => if i.isError || i.isMissing then some (.node i cs) else firstOffenderIn cs

def firstOffenderIn : List Tree → Option Tree
  | [] => none
  | c :: rest =>
    if c.info.hasError || c.info.isMissing then
      match firstOffender c with
      | some t => some t
      | none => firstOffenderIn rest
    else firstOffenderIn rest

end

/-- What is wrong with a tree, and where. -/
structure Refusal where
  missing : Bool
  kind : String
  line : Nat
  column : Nat
deriving DecidableEq, Repr

def Refusal.message (r : Refusal) : Text :=
  Text.concat [if r.missing then "Missing token" else "Syntax error", " near '", Text.ofString r.kind, "'"]

/-- Why a tree is refused: the place of its first offending node, or of the root if none is found. -/
def refusal? (src : Source) (t : Tree) : Option Refusal :=
  if t.info.hasError then
    let bad := t.firstOffender.getD t
    some ⟨bad.info.isMissing, bad.kind, bad.line src, src.columnAt bad.info.start⟩
  else none

end Tree

end ScriptTrace
