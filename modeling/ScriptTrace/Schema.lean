import ScriptTrace.Datum
import ScriptTrace.Step
/-!
# The schema of a step

What a step must look like on the wire. A **record** is checked field by field in a fixed order; then keys
that belong to no field are refused; and only when nothing else is wrong, that a block's kind and range
come together. Each **issue** says where it is and what is wrong.

A block may be given by either of two names for its kind and its range.
-/
namespace ScriptTrace.Schema

/-- A step of the way to an issue: a key, or a key that is an integer. -/
inductive Place
  | key (name : Text)
  | index (n : Int)
deriving DecidableEq, Repr

/-- What can be wrong. -/
inductive Problem
  | missing
  | notInteger
  | belowOne
  | notText
  /-- A text with half of a surrogate pair. -/
  | notUnicode
  | notRecord
  | noChoice (choices : List Text)
  | boolUnclear
  | notBool
  | extra
  | keyNotText
  | noModel (name : Text)
  | value (text : Text)
deriving DecidableEq, Repr

namespace Problem

def name : Problem → Text
  | .missing => "missing"
  | .notInteger => "int_type"
  | .belowOne => "greater_than_equal"
  | .notText => "string_type"
  | .notUnicode => "string_unicode"
  | .notRecord => "dict_type"
  | .noChoice _ => "enum"
  | .boolUnclear => "bool_parsing"
  | .notBool => "bool_type"
  | .extra => "extra_forbidden"
  | .keyNotText => "invalid_key"
  | .noModel _ => "model_type"
  | .value _ => "value_error"

/-- Quoted choices as a phrase: commas between them, and `or` before the last. -/
def choicePhrase (choices : List Text) : Text :=
  let quoted := choices.map fun c => Text.concat ["'", c, "'"]
  match quoted.getLast? with
  | none => .empty
  | some last =>
    let front := quoted.dropLast
    if front.isEmpty then last else Text.concat [Text.join ", " front, " or ", last]

def message : Problem → Text
  | .missing => "Field required"
  | .notInteger => "Input should be a valid integer"
  | .belowOne => "Input should be greater than or equal to 1"
  | .notText => "Input should be a valid string"
  | .notUnicode => "Input should be a valid string, unable to parse raw data as a unicode string"
  | .notRecord => "Input should be a valid dictionary"
  | .noChoice choices => "Input should be " ++ choicePhrase choices
  | .boolUnclear => "Input should be a valid boolean, unable to interpret input"
  | .notBool => "Input should be a valid boolean"
  | .extra => "Extra inputs are not permitted"
  | .keyNotText => "Keys should be strings"
  | .noModel name => "Input should be a valid dictionary or instance of " ++ name
  | .value text => "Value error, " ++ text

end Problem

structure Issue where
  path : List Place
  problem : Problem
deriving DecidableEq, Repr

/-- The result of a check: what was read, or everything that is wrong. -/
abbrev Check (α : Type) := Except (List Issue) α

def refuse {α : Type} (p : Problem) : Check α :=
  .error [⟨[], p⟩]

/-- Places the issues of a check below a key. -/
def below {α : Type} (name : Text) (c : Check α) : Check α :=
  c.mapError fun issues => issues.map fun i => { i with path := .key name :: i.path }

/-- The issues of a check. -/
def issuesOf {α : Type} : Check α → List Issue
  | .ok _ => []
  | .error issues => issues

/-! ## Leaves -/

def positive (d : Datum) : Check Int :=
  match d with
  | .number (.int n) => if 1 ≤ n then .ok n else refuse .belowOne
  | _ => refuse .notInteger

def plainText (d : Datum) : Check Text :=
  match d with
  | .text t => .ok t
  | _ => refuse .notText

def choice {α : Type} (all : List α) (name : α → Text) (d : Datum) : Check α :=
  let none : Check α := refuse (.noChoice (all.map name))
  match d with
  | .text t => if t.isUnicode then (all.find? (name · = t)).elim none .ok else refuse .notUnicode
  | _ => none

/-- Null, or what a check reads. -/
def nullable {α : Type} (check : Datum → Check α) (d : Datum) : Check (Option α) :=
  match d with
  | .null => .ok none
  | d => (check d).map some

def falseWords : List Text := ["0", "off", "f", "false", "n", "no"]

def trueWords : List Text := ["1", "on", "t", "true", "y", "yes"]

/-- The integers that a machine word of 64 bits with a sign can hold. -/
def isWord (n : Int) : Bool :=
  -(Nat.pow 2 63 : Nat) ≤ n && n < (Nat.pow 2 63 : Nat)

def integerBool (n : Int) : Check Bool :=
  if n = 0 then .ok false else if n = 1 then .ok true else refuse .boolUnclear

/-- A truth value, a zero or a one, or one of the usual words in any case. -/
def lenientBool (d : Datum) : Check Bool :=
  match d with
  | .bool b => .ok b
  | .number (.int n) => if isWord n then integerBool n else refuse .notBool
  | .number (.float x) =>
    let n := Binary64.truncate x
    -- The least word is not reached by way of a float.
    if Binary64.isInteger x && isWord n && isWord (n - 1) then integerBool n else refuse .notBool
  | .text t =>
    if !t.isUnicode then refuse .notUnicode
    else if falseWords.contains t.toLower then .ok false
    else if trueWords.contains t.toLower then .ok true
    else refuse .boolUnclear
  | _ => refuse .notBool

/-- Where a key that is no text is found: a truth value or a small integer as an integer, anything else as it is
shown. -/
def keyPlace : Datum → Place
  | .text t => .key t
  | .bool b => .index (if b then 1 else 0)
  | .number (.int n) => if isWord n then .index n else .key (Text.ofInt n)
  | d => .key d.inspect

/-- A record whose keys are texts. -/
def textKeys (d : Datum) : Check (List (Text × Datum)) :=
  match d with
  | .record fields =>
    let bad := fields.filterMap fun (k, _) =>
      match k with
      | .text _ => none
      | k => some (⟨[keyPlace k, .key "[key]"], .notText⟩ : Issue)
    if bad.isEmpty then
      .ok (fields.filterMap fun (k, v) =>
        match k with
        | .text t => some (t, v)
        | _ => none)
    else .error bad
  | _ => refuse .notRecord

/-! ## Fields -/

/-- The value under a text key. -/
def find? (fields : List (Datum × Datum)) (name : Text) : Option Datum :=
  fields.findSome? fun (k, v) =>
    match k with
    | .text t => if t = name then some v else none
    | _ => none

/-- The first of several names that is present, and its value. -/
def findAny? (fields : List (Datum × Datum)) (names : List Text) : Option (Text × Datum) :=
  names.findSome? fun name => (find? fields name).map (name, ·)

/-- A field that must be there. -/
def required {α : Type} (fields : List (Datum × Datum)) (name : Text) (check : Datum → Check α) :
    Check α :=
  match find? fields name with
  | some d => below name (check d)
  | none => below name (refuse .missing)

/-- A field that may be missing and may go by several names. -/
def optional {α : Type} (fields : List (Datum × Datum)) (names : List Text)
    (check : Datum → Check (Option α)) : Check (Option α) :=
  match findAny? fields names with
  | some (name, d) => below name (check d)
  | none => .ok none

/-- A range of lines; other keys are ignored. -/
def range (d : Datum) : Check (Int × Int) :=
  match d with
  | .record fields =>
    match required fields "start" positive, required fields "end" positive with
    | .ok first, .ok last =>
      if last < first then
        refuse (.value (Text.concat ["block range ends before it starts: ", Text.ofInt first, "-",
          Text.ofInt last]))
      else .ok (first, last)
    | a, b => .error (issuesOf a ++ issuesOf b)
  | _ => refuse (.noModel "BlockRange")

/-- A step as the schema reads it. -/
structure Record where
  line : Int
  code : Text
  vars : List (Text × Datum)
  kind : StepKind
  blockKind : Option BlockKind
  blockRange : Option (Int × Int)
  output : Datum
  message : Option Text
  condition : Option Bool

def blockKindNames : List Text := ["blockType", "block_type"]

def blockRangeNames : List Text := ["blockRange", "block_range"]

/-- The keys that a record's fields are read from. -/
def usedKeys (fields : List (Datum × Datum)) : List Text :=
  (["line", "code", "variables", "kind", "output", "message", "condition"] : List Text) ++
    ((findAny? fields blockKindNames).map Prod.fst).toList ++
    ((findAny? fields blockRangeNames).map Prod.fst).toList

/-- The issues of keys that belong to no field. -/
def extras (fields : List (Datum × Datum)) : List Issue :=
  let used := usedKeys fields
  fields.filterMap fun (k, _) =>
    match k with
    | .text t => if used.contains t then none else some ⟨[.key t], .extra⟩
    | k => some ⟨[keyPlace k], .keyNotText⟩

/-- Whether a record has a key that cannot be compared with the names of fields. -/
def hasBrokenKey (fields : List (Datum × Datum)) : Bool :=
  fields.any fun (k, _) =>
    match k with
    | .text t => !t.isUnicode
    | _ => false

/-- Checks a record. A broken key is all that is told of a record that has one. -/
def record (d : Datum) : Check Record :=
  match d with
  | .record fields =>
    if hasBrokenKey fields then refuse .notUnicode
    else
      let line := required fields "line" positive
      let code := required fields "code" plainText
      let vars := required fields "variables" textKeys
      let kind := required fields "kind" (choice StepKind.all StepKind.name)
      let blockKind := optional fields blockKindNames (nullable (choice BlockKind.all BlockKind.name))
      let blockRange := optional fields blockRangeNames (nullable range)
      let output := (find? fields "output").getD .null
      let message := optional fields ["message"] (nullable plainText)
      let condition := optional fields ["condition"] (nullable lenientBool)
      match line, code, vars, kind, blockKind, blockRange, message, condition, extras fields with
      | .ok line, .ok code, .ok vars, .ok kind, .ok blockKind, .ok blockRange, .ok message,
        .ok condition, [] =>
        if blockKind.isNone != blockRange.isNone then
          refuse (.value "blockType and blockRange must be set together")
        else .ok ⟨line, code, vars, kind, blockKind, blockRange, output, message, condition⟩
      | line, code, vars, kind, blockKind, blockRange, message, condition, extras =>
        .error (issuesOf line ++ issuesOf code ++ issuesOf vars ++ issuesOf kind ++
          issuesOf blockKind ++ issuesOf blockRange ++ issuesOf message ++ issuesOf condition ++ extras)
  | _ => refuse (.noModel "StepRecord")

end ScriptTrace.Schema
