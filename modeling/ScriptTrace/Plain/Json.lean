import ScriptTrace.Text.Quoted
import ScriptTrace.Number.Layout
import ScriptTrace.Plain.Basic
/-!
# JSON text of plain data

A **style** fixes the separators and whether containers are broken over lines. Numbers follow
`Number.Layout.json`, so what is not finite keeps its name; `undefined` is written `null`.
-/
namespace ScriptTrace.Plain

/-- How JSON text is spaced. -/
structure Style where
  comma : Text
  colon : Text
  /-- What stands before an element for each level, if containers are broken over lines. -/
  indent : Option Text

/-- No blanks at all. -/
def Style.compact : Style := ⟨",", ":", none⟩

/-- One line, with a blank after each separator. -/
def Style.line : Style := ⟨", ", ": ", none⟩

/-- An element a line. -/
def Style.broken (indent : Text) : Style := ⟨",", ": ", some indent⟩

/-- A line break followed by the indentation of a level. -/
def newline (indent : Text) (level : Nat) : Text :=
  Text.single 10 ++ indent.replicate level

/-- A container around its written elements; an empty one has nothing between the brackets. -/
def enclose (style : Style) (level : Nat) (opening closing : Text) (elements : List Text) : Text :=
  if elements.isEmpty then opening ++ closing
  else
    match style.indent with
    | none => Text.concat [opening, Text.join style.comma elements, closing]
    | some n =>
      let inner := newline n (level + 1)
      Text.concat [opening, inner, Text.join (style.comma ++ inner) elements, newline n level, closing]

mutual

/-- The JSON text of data at a nesting level. -/
def writeAt (style : Style) (level : Nat) : Plain → Text
  | .undefined => "null"
  | .null => "null"
  | .bool b => if b then "true" else "false"
  | .number n => n.lay .json
  | .text t => t.quote
  | .list items => enclose style level "[" "]" (writeItems style (level + 1) items)
  | .record fields => enclose style level "\x7b" "\x7d" (writeFields style (level + 1) fields)

def writeItems (style : Style) (level : Nat) : List Plain → List Text
  | [] => []
  | a :: rest => writeAt style level a :: writeItems style level rest

def writeFields (style : Style) (level : Nat) : List (Text × Plain) → List Text
  | [] => []
  | (k, a) :: rest =>
    Text.concat [k.quote, style.colon, writeAt style level a] :: writeFields style level rest

end

def write (style : Style) (a : Plain) : Text :=
  writeAt style 0 a

end ScriptTrace.Plain
