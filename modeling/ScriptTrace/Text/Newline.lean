import ScriptTrace.Text.Basic
/-!
# Line ends

A file may end its lines in three ways: with a line feed, with a carriage return, or with both. Programs are
read with line feeds only.
-/
namespace ScriptTrace.Text

def feedCodes : List Nat → List Nat
  | [] => []
  | 13 :: 10 :: rest => 10 :: feedCodes rest
  | c :: rest => (if c = 13 then 10 else c) :: feedCodes rest

/-- `t` with a line feed in place of every line end. -/
def withLineFeeds (t : Text) : Text :=
  ⟨feedCodes t.codes⟩

end ScriptTrace.Text
