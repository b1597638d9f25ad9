import ScriptTrace.CommandLine
import ScriptTrace.Text.Newline
import ScriptTrace.Text.Utf8
import ScriptTrace.TreeRows
/-!
# The program

Reads the file that the command line names, takes its tree as rows from standard input, and prints what
the command line asks for.
-/
namespace ScriptTrace.CommandLine

/-- The lines of a stream, without their ends. -/
partial def readLines (input : IO.FS.Stream) : IO (List String) := do
  let line ← input.getLine
  if line.isEmpty then return []
  else return line.trimAsciiEnd.toString :: (← readLines input)

/-- The program text to trace, or what is wrong with the file. -/
def readSource (a : Arguments) : IO (Except Text Text) := do
  match a.path? with
  | none => return .ok demo
  | some path =>
    let bytes ← (IO.FS.readBinFile path.toString).toBaseIO
    match bytes with
    | .error _ => return .error (missingFile path)
    | .ok bytes =>
      match Utf8.decode (bytes.toList.map UInt8.toNat) with
      | .error m => return .error m.message
      | .ok text => return .ok text.withLineFeeds

/-- Writes what a line gives and returns its exit code. -/
def writeOutput (o : Output) : IO UInt32 := do
  IO.print o.stdout.toString
  IO.eprint o.stderr.toString
  return o.exit.toUInt32

/-- Carries out a line. -/
def carryOut (words : List Text) : IO UInt32 := do
  match Arguments.read words with
  | .error stop => return stop.exit.toUInt32
  | .ok a =>
    match ← readSource a with
    | .error why => writeOutput ⟨1, .empty, why ++ ("\n" : Text)⟩
    | .ok text =>
      match Tree.ofLines? (← readLines (← IO.getStdin)) with
      | none => writeOutput ⟨1, .empty, "no tree\n"⟩
      | some tree => writeOutput (a.perform ⟨text⟩ tree (.ticking 0))

end ScriptTrace.CommandLine

def main (args : List String) : IO UInt32 :=
  ScriptTrace.CommandLine.carryOut (args.map ScriptTrace.Text.ofString)
