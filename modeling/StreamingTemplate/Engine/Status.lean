import StreamingTemplate.Path

/-!
# Where a render stands

A render is idle until a sink is attached, then running, suspended or finished. A suspended render
waits for a variable, for the next chunk of a stream, or for a filter chain to end, in each case on
behalf of one directive of the template.
-/

namespace StreamingTemplate

/-- A point in time, in nanoseconds. -/
abbrev Instant := Int

/-- What a suspended render waits for. -/
inductive Wait where
  /-- a variable that does not resolve yet, since an instant -/
  | variable (path : Path) (directive : Nat) (since : Instant)
  /-- the next chunk of the stream being piped -/
  | stream (directive : Nat)
  /-- the end of a filter chain whose input is over -/
  | filter (directive : Nat)
  deriving DecidableEq, Repr

/-- The index of the waiting directive. -/
def Wait.directive : Wait → Nat
  | .variable _ d _ | .stream d | .filter d => d

/-- The stages in the life of a render. -/
inductive Status where
  /-- no sink is attached -/
  | idle
  | running
  | suspended (wait : Wait)
  | done
  /-- an error ended the render -/
  | failed
  deriving DecidableEq, Repr, Inhabited

namespace Status

def isFinished : Status → Bool
  | .done | .failed => true
  | _ => false

/-- The directive that pipes a stream or drains a chain. -/
def piping? : Status → Option Nat
  | .suspended (.stream d) | .suspended (.filter d) => some d
  | _ => none

end Status

end StreamingTemplate
