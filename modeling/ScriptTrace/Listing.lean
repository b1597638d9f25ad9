import ScriptTrace.Plain.Json
import ScriptTrace.Text.Blank
import ScriptTrace.Trace
/-!
# Listings

A trace as text: a few lines for each step, or its wire form as JSON.
-/
namespace ScriptTrace

/-- A step as lines of a listing. -/
def Step.listed (index : Nat) (s : Step) : List Text :=
  List.flatten [
    [Text.concat ["  [", (Text.ofNat index).padLeft 3, "] L", (Text.ofNat s.line).padRight 4, " ",
      s.kind.name.padRight 14, " ", s.code.strip]],
    s.block.toList.map fun b =>
      Text.concat ["      block: ", b.kind.name, " ", Text.ofInt b.first, "-", Text.ofInt b.last],
    s.condition.toList.map fun c => "      condition: " ++ (if c then "true" else "false" : Text),
    ["      vars: " ++ (Plain.record (Plain.wireFields s.vars)).write .line],
    s.output.toList.map fun o => "      output: " ++ o.wire.write .line,
    (s.message.filter (!·.isEmpty)).toList.map fun m => "      message: " ++ m]

/-- The steps of a trace, each from its own line on. -/
def Trace.listing (t : Trace) : List Text :=
  (t.steps.zipIdx).map fun (s, i) => Text.join "\n" (s.listed i)

/-- The wire form of a trace as JSON text. -/
def Trace.json (style : Plain.Style) (t : Trace) : Text :=
  (Plain.list (t.steps.map fun s => .record s.wire)).write style

end ScriptTrace
