/-!
# Durations as text

A duration is a number of nanoseconds. Its text uses the largest of the units `s`, `ms`, `µs`, `ns`
of which it holds at least one, followed by the exact decimal fraction without ending zeros.
-/

namespace StreamingTemplate.Duration

/-- The digits of a fraction of `10 ^ places`, without ending zeros. -/
def fractionDigits (places n : Nat) : List Char :=
  let digits := Nat.toDigits 10 n
  let padded := List.replicate (places - digits.length) '0' ++ digits
  (padded.reverse.dropWhile (· == '0')).reverse

/-- A count of nanoseconds in a unit of `10 ^ places` nanoseconds. -/
def inUnit (ns places : Nat) (unit : String) : String :=
  let whole := toString (ns / Nat.pow 10 places)
  match fractionDigits places (ns % Nat.pow 10 places) with
  | [] => whole ++ unit
  | ds => whole ++ "." ++ String.ofList ds ++ unit

/-- The text of a duration. -/
def text (ns : Nat) : String :=
  if 1000000000 ≤ ns then inUnit ns 9 "s"
  else if 1000000 ≤ ns then inUnit ns 6 "ms"
  else if 1000 ≤ ns then inUnit ns 3 "µs"
  else toString ns ++ "ns"

end StreamingTemplate.Duration
