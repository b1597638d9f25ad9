import ScriptTrace.Text.Basic
/-!
# Headroom

Overlapping runs share one limit on the frames of the native stack. The first run to enter notes the limit it finds;
each run raises the limit as far as its own call depth needs; the last to leave puts the noted limit back. There is a
largest limit. A run that needs a larger one does not get in, but it has been counted by then, and nothing takes it
from the count.
-/
namespace ScriptTrace

/-- The shared limit, how many runs are counted as active, and the limit before the first of them. -/
structure Headroom where
  limit : Nat
  active : Nat
  base : Nat
deriving DecidableEq, Repr

namespace Headroom

/-- Native frames one script call may take. -/
def framesPerCall : Nat := 40

/-- The limit that a process starts with. -/
def nativeLimit : Nat := 1000

/-- The largest limit that can be set. -/
def maxLimit : Nat := Nat.pow 2 31 - 1

def idle (limit : Nat) : Headroom := ⟨limit, 0, limit⟩

/-- The limit that a run with the given call depth needs. -/
def needed (base callDepth : Nat) : Nat := base + callDepth * framesPerCall

/-- A run with the given call depth starts: whether it got in, and the shared limit after that. -/
def enter (h : Headroom) (callDepth : Nat) : Bool × Headroom :=
  let base := if h.active = 0 then h.limit else h.base
  let entered : Headroom := ⟨h.limit, h.active + 1, base⟩
  let limit := needed base callDepth
  if limit ≤ h.limit then (true, entered)
  else if maxLimit < limit then (false, entered)
  else (true, { entered with limit := limit })

/-- A run gets in if the largest limit is enough for it. The limit is raised only if it is, but the run is counted in
any case. -/
theorem enter_eq {h : Headroom} {base : Nat} (depth : Nat) (settable : h.limit ≤ maxLimit)
    (hbase : (if h.active = 0 then h.limit else h.base) = base) :
    h.enter depth =
      (decide (needed base depth ≤ maxLimit),
        ⟨if needed base depth ≤ maxLimit then max h.limit (needed base depth) else h.limit, h.active + 1, base⟩) := by
  unfold enter
  simp only [hbase]
  by_cases enough : needed base depth ≤ h.limit
  · have fits : needed base depth ≤ maxLimit := Nat.le_trans enough settable
    simp [enough, fits]
  · by_cases fits : needed base depth ≤ maxLimit
    · have raises : max h.limit (needed base depth) = needed base depth := Nat.max_eq_right (Nat.le_of_not_le enough)
      simp [enough, fits, Nat.not_lt_of_le fits, raises]
    · simp [enough, fits, Nat.lt_of_not_le fits]

/-- A run ends. -/
def leave (h : Headroom) : Headroom :=
  let active := h.active - 1
  ⟨if active = 0 then h.base else h.limit, active, h.base⟩

/-- What a run is told that did not get in. -/
def refusal : Text := "Python int too large to convert to C int"

end Headroom

end ScriptTrace
