import ScriptTrace.Schema
import ScriptTrace.Source
/-!
# Validation of traces

A finished trace is checked against its source, step by step and in order: the line exists, the code is that
line, variables have names, a block does not end before it starts, and the wire form fits the schema. The
steps are taken as **loose steps**, of which nothing is known beforehand.
-/
namespace ScriptTrace

/-- A step of which nothing is known. -/
structure LooseStep where
  line : Datum
  code : Datum
  vars : Datum
  kind : StepKind := .statement
  block : Option Block := none
  output : Option Datum := none
  message : Datum := .null
  condition : Datum := .null

/-- What is wrong with a step. -/
inductive Flaw
  | line (value : Datum)
  | pastEnd (line count : Nat)
  | code (line : Nat)
  | vars (line : Nat)
  | reversedBlock (line : Nat) (first last : Int)
  | wire (line : Nat) (message : Text)
  | infinite (line : Nat)

/-- A flaw and the place of the step that has it. -/
structure Invalid where
  index : Nat
  flaw : Flaw

namespace Invalid

def message (i : Invalid) : Text :=
  let rest : Text :=
    match i.flaw with
    | .line value => "has invalid line " ++ value.inspect
    | .pastEnd line count =>
      Text.concat ["line ", (line : Text), " is past the end of the source (", (count : Text), " lines)"]
    | .code line => "code does not match source line " ++ (line : Text)
    | .vars _ => "variables must map names to values"
    | .reversedBlock _ first last =>
      Text.concat ["block range ", Text.ofInt first, "-", Text.ofInt last, " is reversed"]
    | .wire _ message => "wire form is invalid: " ++ message
    | .infinite _ => "wire form is not a finite tree"
  Text.concat ["Step ", (i.index : Text), " ", rest]

def line? (i : Invalid) : Option Nat :=
  match i.flaw with
  | .line _ => none
  | .pastEnd line _ | .code line | .vars line | .reversedBlock line _ _ | .wire line _
  | .infinite line => some line

end Invalid

namespace Datum

mutual

/-- The wire form of a datum; none if it leads back to itself. -/
def wire? : Datum → Option Datum
  | .undefined => some .null
  | .function name => some (.text (Value.placeholder name))
  | .list items => (wireItems? items).map .list
  | .record fields => (wireFields? fields).map .record
  | .cycle _ => none
  | d => some d

def wireItems? : List Datum → Option (List Datum)
  | [] => some []
  | d :: rest =>
    match wire? d, wireItems? rest with
    | some d, some rest => some (d :: rest)
    | _, _ => none

def wireFields? : List (Datum × Datum) → Option (List (Datum × Datum))
  | [] => some []
  | (k, d) :: rest =>
    match wire? d, wireFields? rest with
    | some d, some rest => some ((k, d) :: rest)
    | _, _ => none

end

/-- A field of a record under a text key. -/
def field (name : Text) (d : Datum) : Datum × Datum :=
  (.text name, d)

end Datum

namespace LooseStep

open Datum

/-- The wire form of a loose step; none if variables or output lead back to themselves. -/
def wire? (s : LooseStep) : Option Datum := do
  let vars ← s.vars.wire?
  let output ←
    match s.output with
    | none => some []
    | some o => o.wire?.map fun o => [field "output" o]
  let block :=
    s.block.elim [] fun b =>
      [field "blockType" (.text b.kind.name),
        field "blockRange" (.record
          [field "start" (.number (.int b.first)), field "end" (.number (.int b.last))])]
  let given (name : Text) (d : Datum) : List (Datum × Datum) :=
    match d with
    | .null => []
    | d => [field name d]
  return .record ([field "line" s.line, field "code" s.code, field "variables" vars,
    field "kind" (.text s.kind.name)] ++ block ++ output ++ given "message" s.message ++
    given "condition" s.condition)

/-- The line of a loose step, if it is a positive integer. -/
def line? (s : LooseStep) : Option Nat :=
  match s.line with
  | .number (.int (.ofNat (n + 1))) => some (n + 1)
  | _ => none

/-- Whether variables are a record with names for keys. -/
def namesVariables (s : LooseStep) : Bool :=
  match s.vars with
  | .record fields => fields.all fun (k, _) =>
    match k with
    | .text _ => true
    | _ => false
  | _ => false

/-- The first thing wrong with a step, given the lines of the source. -/
def flaw? (lines : List Text) (s : LooseStep) : Option Flaw :=
  match s.line? with
  | none => some (.line s.line)
  | some line =>
    match lines[line - 1]? with
    | none => some (.pastEnd line lines.length)
    | some code =>
      let matchesCode : Bool :=
        match s.code with
        | .text t => t == code
        | _ => false
      if !matchesCode then some (.code line)
      else if !s.namesVariables then some (.vars line)
      else
        match s.block.filter fun b => decide (b.last < b.first) with
        | some b => some (.reversedBlock line b.first b.last)
        | none =>
          match s.wire? with
          | none => some (.infinite line)
          | some d =>
            match Schema.record d with
            | .ok _ => none
            | .error issues => (issues.head?).map fun i => .wire line i.problem.message

end LooseStep

/-- The first flaw of a sequence of steps, the first of which has the given index. -/
def firstInvalid? (lines : List Text) : Nat → List LooseStep → Option Invalid
  | _, [] => none
  | index, s :: rest =>
    match s.flaw? lines with
    | some flaw => some ⟨index, flaw⟩
    | none => firstInvalid? lines (index + 1) rest

/-- The first flaw of a trace. -/
def validate (src : Source) (steps : List LooseStep) : Option Invalid :=
  firstInvalid? src.lines 0 steps

mutual

/-- Plain data as a datum. -/
def Plain.toDatum : Plain → Datum
  | .undefined => .undefined
  | .null => .null
  | .bool b => .bool b
  | .number n => .number n
  | .text t => .text t
  | .list items => .list (Plain.toData items)
  | .record fields => .record (Plain.toFields fields)

def Plain.toData : List Plain → List Datum
  | [] => []
  | a :: rest => a.toDatum :: Plain.toData rest

def Plain.toFields : List (Text × Plain) → List (Datum × Datum)
  | [] => []
  | (k, a) :: rest => (.text k, a.toDatum) :: Plain.toFields rest

end

/-- A recorded step, as one of which nothing is known. -/
def Step.loose (s : Step) : LooseStep where
  line := .number (.int s.line)
  code := .text s.code
  vars := .record (Plain.toFields s.vars)
  kind := s.kind
  block := s.block
  output := s.output.map Plain.toDatum
  message := s.message.elim .null .text
  condition := s.condition.elim .null .bool

end ScriptTrace
