import ScriptTrace.Listing
import ScriptTrace.Number.Numeral
/-!
# The command line

The words of a line are told apart first, all of them, and then carried out from left to right. A **flag** is a
switch or takes a value, which is the next word or is joined to the flag, by `=` or directly if the flag is
short; a long flag may be cut short as long as it stays the only one, and short switches may be run together.
One plain word names the file to trace; without one a built-in program is traced. `--` makes plain words of
all that follow.

A line that cannot be read ends the program with exit code 2, a request for help with 0.
-/
namespace ScriptTrace.CommandLine

structure Arguments where
  file : Option Text := none
  language : Text := Language.javascript.name
  maxSteps : Int := 1000
  maxIterations : Int := 1000
  timeoutMs : Int := 5000
  keepRepeats : Bool := false
  json : Bool := false
  verbose : Bool := false
deriving DecidableEq, Repr

/-- Why a line is not carried out. -/
inductive Stop
  | help
  | usage
deriving DecidableEq, Repr

def Stop.exit : Stop → Nat
  | .help => 0
  | .usage => 2

inductive Flag
  | help
  | language
  | maxSteps
  | maxIterations
  | timeoutMs
  | keepRepeats
  | json
  | verbose
deriving DecidableEq, Repr

def Flag.takesValue : Flag → Bool
  | .language | .maxSteps | .maxIterations | .timeoutMs => true
  | .help | .keepRepeats | .json | .verbose => false

/-- How flags are spelled. -/
def spellings : Assoc Text Flag :=
  [("-h", .help), ("--help", .help), ("--language", .language), ("-l", .language),
    ("--max-steps", .maxSteps), ("-n", .maxSteps), ("--max-iterations", .maxIterations),
    ("--timeout-ms", .timeoutMs), ("--no-dedup", .keepRepeats), ("--json", .json),
    ("--verbose", .verbose), ("-v", .verbose)]

/-! ## Words -/

def dash : Nat := 45

def equalsSign : Nat := 61

def slash : Nat := 47

/-- What a word is. -/
inductive Word
  | plain
  /-- The word that makes plain words of all that follow. -/
  | divider
  /-- Looks like a flag and is none. -/
  | unknown
  /-- A flag, spelled short or long, and what is joined to it. -/
  | flag (f : Flag) (short : Bool) (joined : Option Text)
deriving DecidableEq, Repr

/-- A word up to the first `=`, and what follows it. -/
def splitValue (t : Text) : Text × Option Text :=
  match t.codes.dropWhile (· ≠ equalsSign) with
  | [] => (t, none)
  | _ :: value => (⟨t.codes.takeWhile (· ≠ equalsSign)⟩, some ⟨value⟩)

/-- The spellings that a shortened long flag may stand for. -/
def candidates (short : Text) : List (Text × Flag) :=
  spellings.filter fun (s, _) => short.codes.isPrefixOf s.codes

/-- A text without the line feed it ends with. -/
def dropLineFeed (codes : List Nat) : List Nat :=
  if codes.getLast? = some 10 then codes.dropLast else codes

/-- Whether a word is a negative number in plain decimal notation; a line feed may follow it. -/
def isNegativeNumber (codes : List Nat) : Bool :=
  match dropLineFeed codes with
  | 45 :: rest =>
    let more := rest.dropWhile Numeral.isDecimal
    match more with
    | [] => !rest.isEmpty
    | 46 :: fraction => !fraction.isEmpty && fraction.all Numeral.isDecimal
    | _ => false
  | _ => false

/-- A word that starts with a dash and is no flag. -/
def otherWord (t : Text) : Word :=
  if isNegativeNumber t.codes || t.codes.contains 32 then .plain else .unknown

/-- A word that starts with two dashes; one that could be several flags is refused. -/
def longWord (t : Text) : Except Stop Word :=
  let (name, value) := splitValue t
  match candidates name with
  | [] => .ok (otherWord t)
  | [(_, f)] => .ok (.flag f false value)
  | _ => .error .usage

/-- A word that starts with one dash. -/
def shortWord (t : Text) : Word :=
  match spellings.get? (t.take 2) with
  | some f => .flag f true (some (t.drop 2))
  | none => otherWord t

/-- Whether a flag is spelled with two dashes. -/
def isLong (t : Text) : Bool :=
  t.codes[1]? = some dash

def Word.read (t : Text) : Except Stop Word :=
  if t.codes.head? ≠ some dash then .ok .plain
  else
    match spellings.get? t with
    | some f => .ok (.flag f (!isLong t) none)
    | none =>
      if t.length = 1 then .ok .plain
      else
        let (name, value) := splitValue t
        match spellings.get? name, value with
        | some f, some v => .ok (.flag f (!isLong name) (some v))
        | _, _ => if isLong t then longWord t else .ok (shortWord t)

/-- Tells the words of a line apart. -/
def readWords : List Text → Except Stop (List (Text × Word))
  | [] => .ok []
  | t :: rest =>
    if t = "--" then .ok ((t, .divider) :: rest.map (·, .plain))
    else do
      let w ← Word.read t
      let ws ← readWords rest
      return (t, w) :: ws

/-! ## Flags -/

def withInteger (value : Text) (store : Int → Arguments) : Except Stop Arguments :=
  match Numeral.readInteger 10 value with
  | .ok n => .ok (store n)
  | .error _ => .error .usage

/-- Gives a value to a flag that takes one. -/
def Arguments.give (a : Arguments) (f : Flag) (value : Text) : Except Stop Arguments :=
  match f with
  | .language =>
    if (Language.ofText? value).isSome then .ok { a with language := value } else .error .usage
  | .maxSteps => withInteger value fun n => { a with maxSteps := n }
  | .maxIterations => withInteger value fun n => { a with maxIterations := n }
  | .timeoutMs => withInteger value fun n => { a with timeoutMs := n }
  | .help | .keepRepeats | .json | .verbose => .error .usage

/-- Turns a switch on. -/
def Arguments.turnOn (a : Arguments) (f : Flag) : Except Stop Arguments :=
  match f with
  | .help => .error .help
  | .keepRepeats => .ok { a with keepRepeats := true }
  | .json => .ok { a with json := true }
  | .verbose => .ok { a with verbose := true }
  | .language | .maxSteps | .maxIterations | .timeoutMs => .error .usage

/-- What a word with a flag asks for: switches, and a last flag with the value that stands in the same word. -/
structure Request where
  switches : List Flag
  last : Flag
  value : Option Text
deriving DecidableEq, Repr

/-- Reads what is joined to a flag. The rest of a short switch is more short flags. -/
def Request.read (f : Flag) (short : Bool) : List Nat → Except Stop Request
  | [] => if f.takesValue then .ok ⟨[], f, some .empty⟩ else .error .usage
  | c :: rest =>
    if f.takesValue then .ok ⟨[], f, some ⟨c :: rest⟩⟩
    else if !short then .error .usage
    else
      match spellings.get? ⟨[dash, c]⟩ with
      | none => .error .usage
      | some g =>
        if rest.isEmpty then .ok ⟨[f], g, none⟩
        else (Request.read g short rest).map fun more => { more with switches := f :: more.switches }

/-- What a word with a flag asks for. -/
def Request.ofFlag (f : Flag) (short : Bool) (joined : Option Text) : Except Stop Request :=
  match joined with
  | none => .ok ⟨[], f, none⟩
  | some t => Request.read f short t.codes

/-- Carries out a request that needs no further word. -/
def Request.apply (r : Request) (value : Option Text) (a : Arguments) : Except Stop Arguments := do
  let a ← r.switches.foldlM Arguments.turnOn a
  match value with
  | some v => a.give r.last v
  | none => a.turnOn r.last

/-! ## Lines -/

/-- What the words read so far come to. -/
structure Progress where
  given : Arguments := {}
  /-- Whether the place of the file is taken. -/
  filled : Bool := false
  /-- Whether a word fits nowhere. -/
  stray : Bool := false

def Progress.finish (p : Progress) : Except Stop Arguments :=
  if p.stray then .error .usage else .ok p.given

/-- A word that fits nowhere. -/
def Progress.refuse (p : Progress) : Progress :=
  { p with stray := true }

/-- The first plain word names the file. -/
def Progress.plain (p : Progress) (t : Text) : Progress :=
  if p.filled then p.refuse
  else { p with given := { p.given with file := some t }, filled := true }

/-- The words from a divider on. The divider belongs to the file: it may stand before it, or behind it if
nothing comes between. -/
def Progress.divide (p : Progress) (behindFile : Bool) (rest : List Text) : Except Stop Arguments :=
  if p.filled && !(behindFile && rest.isEmpty) then .error .usage
  else (rest.foldl Progress.plain p).finish

/-- Carries out the words of a line; `behindFile` says whether the word before is the one that named the file. -/
def Progress.carry (p : Progress) (behindFile : Bool) : List (Text × Word) → Except Stop Arguments
  | [] => p.finish
  | (t, .plain) :: rest => (p.plain t).carry (!p.filled) rest
  | (_, .divider) :: rest => p.divide behindFile (rest.map Prod.fst)
  | (_, .unknown) :: rest => p.refuse.carry false rest
  | (_, .flag f short joined) :: rest => do
    let r ← Request.ofFlag f short joined
    if r.last.takesValue && r.value.isNone then
      match rest with
      | (v, .plain) :: rest =>
        let given ← r.apply (some v) p.given
        Progress.carry { p with given := given } false rest
      | _ => .error .usage
    else
      let given ← r.apply r.value p.given
      Progress.carry { p with given := given } false rest

/-- Reads a line. -/
def Arguments.read (words : List Text) : Except Stop Arguments := do
  Progress.carry {} false (← readWords words)

/-! ## What a line does -/

/-- The program that is traced when no file is named. -/
def demo : Text :=
  Text.join "\n"
    ["function factorial(n) \x7b",
      "  if (n <= 1) \x7b",
      "    return 1;",
      "  \x7d",
      "  return n * factorial(n - 1);",
      "\x7d",
      .empty,
      "let total = 0;",
      "for (let i = 1; i <= 3; i++) \x7b",
      "  total += factorial(i);",
      "  console.log(i, total);",
      "\x7d",
      .empty]

/-- The file to read, if there is one; an empty name is none. -/
def Arguments.path? (a : Arguments) : Option Text :=
  a.file.filter (!·.isEmpty)

def Arguments.options (a : Arguments) : Options where
  maxIterations := .number (.int a.maxIterations)
  timeoutMs := .number (.int a.timeoutMs)
  maxSteps := .number (.int a.maxSteps)
  deduplicate := .bool !a.keepRepeats
  language := .text a.language

/-- What a line writes, and the exit code. -/
structure Output where
  exit : Nat
  stdout : Text
  stderr : Text
deriving DecidableEq, Repr

/-- Log lines as they are written: warnings alone, or everything under its origin. -/
def logText (verbose : Bool) (logs : List Log) : Text :=
  Text.concat <| logs.map fun l =>
    if verbose then Text.concat ["stepper.", l.labelled, "\n"]
    else if l.level = .warning then Text.concat [l.text, "\n"]
    else .empty

def errorText (r : ErrorReport) : Text :=
  Text.concat ["error: ", r.message, "\n"]

/-- A trace as it is printed. -/
def traceText (json : Bool) (t : Trace) : Text :=
  if json then t.json (.broken "  ") ++ ("\n" : Text)
  else
    Text.concat ["═══ Steps ═══\n", Text.concat (t.listing.map fun s => s ++ ("\n" : Text)), "\n",
      t.report.text, "\n"]

/-- Traces a program as a line asks for. -/
def Arguments.perform (a : Arguments) (src : Source) (tree : Tree) (clock : Clock) : Output :=
  let opening : Text :=
    if a.path?.isNone then
      Text.concat ["No file provided. Using built-in demo:\n\n", src.text, "\n"]
    else .empty
  match a.options.toConfig with
  | .error e => ⟨1, opening, errorText e.report⟩
  | .ok cfg =>
    match trace cfg src tree clock with
    | (.error e, logs) => ⟨1, opening, logText a.verbose logs ++ errorText e.report⟩
    | (.ok t, logs) => ⟨0, opening ++ traceText a.json t, logText a.verbose logs⟩

/-- A path that leads to a file of the current directory, by the name of the file alone. -/
def localName (path : Text) : Text :=
  let parts := path.split slash
  let last := parts.getLastD .empty
  if parts.head? = some .empty ∨ last = .empty ∨ last = "." then path
  else Text.join "/" (parts.filter fun part => part ≠ .empty ∧ part ≠ ".")

/-- What is wrong with a name that no file can have. -/
def badName? (name : Text) : Option Text :=
  if name.codes.contains 0 then some "embedded null byte" else none

/-- The message about a file that is not there. -/
def missingFile (name : Text) : Text :=
  "[Errno 2] No such file or directory: " ++ name.inspect

end ScriptTrace.CommandLine
