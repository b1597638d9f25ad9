import ScriptTrace.Text.Basic
import ScriptTrace.Text.Blank
import ScriptTrace.Text.Digit
import ScriptTrace.Text.Escape
import ScriptTrace.Text.Quoted
import ScriptTrace.Assoc
import ScriptTrace.Number.Binary64
import ScriptTrace.Number.Shortest
import ScriptTrace.Number.Basic
import ScriptTrace.Number.Bits
import ScriptTrace.Number.Layout
import ScriptTrace.Number.Numeral
import ScriptTrace.Plain.Basic
import ScriptTrace.Plain.Json
import ScriptTrace.Value.Basic
import ScriptTrace.Text.Hidden
import ScriptTrace.Text.Inspect
import ScriptTrace.Datum
import ScriptTrace.Fault
import ScriptTrace.Value.Render
import ScriptTrace.Value.Operator
import ScriptTrace.Value.Property
import ScriptTrace.Environment
import ScriptTrace.Signal
import ScriptTrace.Headroom
import ScriptTrace.Source
import ScriptTrace.Tree
import ScriptTrace.Script.Expr
import ScriptTrace.Script.Stmt
import ScriptTrace.Script.Read
import ScriptTrace.Config
import ScriptTrace.Step
import ScriptTrace.Recorder
import ScriptTrace.Value.Snapshot
import ScriptTrace.Log
import ScriptTrace.Run.Act
import ScriptTrace.Run.State
import ScriptTrace.Run.Eval
import ScriptTrace.Run.Loop
import ScriptTrace.Run.Exec
import ScriptTrace.Run.Program
import ScriptTrace.Schema
import ScriptTrace.Validation
import ScriptTrace.Report
import ScriptTrace.Trace
import ScriptTrace.Listing
import ScriptTrace.Extract
import ScriptTrace.Text.Utf8
import ScriptTrace.Text.Newline
import ScriptTrace.ErrorReport
import ScriptTrace.CommandLine
import ScriptTrace.Value.Stranger
import ScriptTrace.Number.Digits
import ScriptTrace.TreeRows
import ScriptTrace.Main
import ScriptTrace.Proofs.Coupling
import ScriptTrace.Proofs.Congruence
import ScriptTrace.Proofs.Control
import ScriptTrace.Proofs.Growth
import ScriptTrace.Proofs.Room
import ScriptTrace.Proofs.Answers
import ScriptTrace.Proofs.Nesting
import ScriptTrace.Proofs.Limits
import ScriptTrace.Proofs.Coalescing
import ScriptTrace.Proofs.Sites
import ScriptTrace.Proofs.Reading
import ScriptTrace.Proofs.Operations
import ScriptTrace.Proofs.Course
import ScriptTrace.Proofs.Following
import ScriptTrace.Proofs.Containment
import ScriptTrace.Proofs.Jumps
import ScriptTrace.Proofs.Validity
import ScriptTrace.Proofs.SourceLines
import ScriptTrace.Proofs.Journal
import ScriptTrace.Proofs.Queue
import ScriptTrace.Proofs.Console
import ScriptTrace.Proofs.Brackets
import ScriptTrace.Proofs.Signals
import ScriptTrace.Proofs.Isolation
import ScriptTrace.Proofs.Recording
import ScriptTrace.Proofs.Diagnostics
import ScriptTrace.Proofs.Yields
import ScriptTrace.Proofs.Spelling
import ScriptTrace.Proofs.Standards
import ScriptTrace.Proofs.Conformance
import ScriptTrace.Proofs.Occurrences
import ScriptTrace.Proofs.Overlap
import ScriptTrace.Proofs.Blocks
import ScriptTrace.Proofs.Groups
import ScriptTrace.Proofs.StepCap
import ScriptTrace.Proofs.Unfolding
import ScriptTrace.Proofs.Snapshots
import ScriptTrace.Proofs.Rendering
import ScriptTrace.Proofs.Rounds
import ScriptTrace.Proofs.ShortestDigits
import ScriptTrace.Proofs.NumberTexts
import ScriptTrace.Proofs.JsonTexts
import ScriptTrace.Proofs.Comparison
import ScriptTrace.Proofs.Additions
import ScriptTrace.Proofs.Constants
import ScriptTrace.Proofs.Keys
import ScriptTrace.Proofs.Properties
import ScriptTrace.Proofs.WholeDoubles
import ScriptTrace.Proofs.Membership
import ScriptTrace.Proofs.Renaming
import ScriptTrace.Proofs.Inert
import ScriptTrace.Proofs.Purity
import ScriptTrace.Proofs.Logs
import ScriptTrace.Proofs.Heights
import ScriptTrace.Proofs.CompoundAssignment
import ScriptTrace.Proofs.MinimalDigits
import ScriptTrace.Proofs.DisplayTexts
import ScriptTrace.Proofs.NumeralDoubles
import ScriptTrace.Proofs.NumeralGrammar
import ScriptTrace.Proofs.NumericLiterals
import ScriptTrace.Proofs.NumericTexts
import ScriptTrace.Proofs.ExactValues
import ScriptTrace.Proofs.Words
import ScriptTrace.Proofs.LooseEquality
import ScriptTrace.Proofs.QuotedTexts
import ScriptTrace.Proofs.Powers
import ScriptTrace.Proofs.Offenders
import ScriptTrace.Proofs.Extraction
