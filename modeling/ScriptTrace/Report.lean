import ScriptTrace.Number.Layout
import ScriptTrace.Run.Program
/-!
# Statistics report

Sizes, times and counts of a run, as a small table. Times are given in seconds and shown in milliseconds with
one decimal; the shown value is the exact one rounded to the nearest tenth, a half to the even one.
-/
namespace ScriptTrace

/-- The numbers of a run that the report shows. -/
structure Tally where
  steps : Int := 0
  iterations : Int := 0
  calls : Int := 0
  deepestCall : Int := 0
  trips : Int := 0
  failures : Int := 0
  truncated : Bool := false
deriving Inhabited

def Stats.tally (s : Stats) : Tally where
  steps := s.steps
  iterations := s.counts.iterations
  calls := s.counts.calls
  deepestCall := s.counts.deepestCall
  trips := s.counts.trips
  failures := s.counts.failures
  truncated := s.truncated

structure Report where
  sourceBytes : Int := 0
  sourceLines : Int := 0
  language : Text := .empty
  parseTime : Float := 0
  executionTime : Float := 0
  validationTime : Float := 0
  totalTime : Float := 0
  statements : Int := 0
  tally : Tally := {}
deriving Inhabited

namespace Report

/-- The integer nearest to `num / den`, of two the even one. -/
def roundEven (num den : Nat) : Nat :=
  let q := num / den
  let r := num % den
  if 2 * r < den then q else if den < 2 * r then q + 1 else if q % 2 = 0 then q else q + 1

/-- A double with one decimal. -/
def tenths (x : Float) : Text :=
  match Binary64.parts x with
  | .nan => "nan"
  | .infinite negative => if negative then "-inf" else "inf"
  | .finite negative mantissa exponent =>
    let n :=
      match exponent with
      | .ofNat e => mantissa * 10 * Nat.pow 2 e
      | .negSucc e => roundEven (mantissa * 10) (Nat.pow 2 (e + 1))
    Text.concat [if negative then "-" else "", Text.ofNat (n / 10), ".", Text.ofNat (n % 10)]

/-- Seconds as milliseconds, right-aligned. -/
def milliseconds (seconds : Float) : Text :=
  (tenths (seconds * 1000)).padLeft 8 ++ ("ms" : Text)

def rule (n : Nat) : Text :=
  ⟨List.replicate n 0x2500⟩

def rules : Text :=
  Text.concat ["  ", rule 20, " ", rule 10, "  ", rule 30]

def row (name time output : Text) : Text :=
  Text.concat ["  ", name.padRight 20, " ", time.padLeft 10, "  ", output.padLeft 30]

/-- The lines of a report. -/
def lines (r : Report) : List Text :=
  let t := r.tally
  ["═══ Pipeline Statistics ═══",
    Text.concat ["  Source: ", Text.ofInt r.sourceLines, " lines, ", Text.ofInt r.sourceBytes, " bytes (",
      r.language, ")"],
    .empty,
    row "Stage" "Time" "Output",
    rules,
    row "Parse" (milliseconds r.parseTime) (Text.ofInt r.statements ++ (" statements" : Text)),
    row "Execute" (milliseconds r.executionTime)
      (Text.concat [Text.ofInt t.steps, " steps, ", Text.ofInt t.iterations, " iterations"]),
    row "Validate" (milliseconds r.validationTime) .empty,
    rules,
    Text.concat ["  ", Text.padRight 20 "Total", " ", milliseconds r.totalTime],
    .empty,
    Text.concat ["  Run: ", Text.ofInt t.calls, " calls (max depth ", Text.ofInt t.deepestCall, "), ",
      Text.ofInt t.trips, " guard trips, ", Text.ofInt t.failures, " runtime failures",
      if t.truncated then ", step cap reached" else ""]]

def text (r : Report) : Text :=
  Text.join "\n" r.lines

end Report

end ScriptTrace
