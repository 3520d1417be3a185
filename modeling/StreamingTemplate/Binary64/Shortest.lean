import StreamingTemplate.Binary64.Basic

/-!
# The shortest decimal of a number

`shortest` gives the decimal with the fewest digits among those that round to a finite number, and
of these the nearest to it. The reals that round to `m · 2 ^ q` form an interval around it whose
ends belong to it exactly if `m` is even. For one digit, two digits and so on, the two neighbours of
the number on the grid of decimals with that many digits are tested against the interval; the first
grid with a hit wins.
-/

namespace StreamingTemplate

/-- The decimal `0.d₁d₂…dₙ · 10 ^ point`. -/
structure Decimal where
  /-- the digits, the first not zero -/
  digits : List Char
  /-- how many of the digits stand before the decimal point -/
  point : Int
  deriving DecidableEq, Repr

namespace Decimal

/-- The decimal `c · 10 ^ g`, without the zeros that end its digits. -/
def ofScaled (c : Nat) (g : Int) : Decimal :=
  let digits := Nat.toDigits 10 c
  { digits := (digits.reverse.dropWhile (· == '0')).reverse
    point := (digits.length : Int) + g }

end Decimal

namespace Binary64

/-- The interval of reals that round to a finite number, in quarters of its last place. -/
structure Interval where
  /-- the lower end -/
  low : Nat
  /-- the number itself -/
  mid : Nat
  /-- the upper end -/
  high : Nat
  /-- whether the ends round to the number as well -/
  closed : Bool

/-- The rounding interval of a finite number. Below a power of two the neighbours are closer. -/
def interval (x : Binary64) : Interval :=
  let m := x.significand
  let closeBelow := x.fraction.val == 0 && x.exponent.val > 1
  { low := 4 * m - (if closeBelow then 1 else 2)
    mid := 4 * m
    high := 4 * m + 2
    closed := m % 2 == 0 }

/-- Whether `c` lies in the interval scaled by `num / den`. -/
def Interval.holds (i : Interval) (num den c : Nat) : Bool :=
  if i.closed then i.low * num ≤ c * den && c * den ≤ i.high * num
  else i.low * num < c * den && c * den < i.high * num

/-- The hit of the interval on the integer grid after scaling by `num / den`, the nearer one of two;
an exact tie goes to the even digit. -/
def Interval.hit? (i : Interval) (num den : Nat) : Option Nat :=
  let c := i.mid * num / den
  let r := i.mid * num % den
  match i.holds num den c, i.holds num den (c + 1) with
  | true, true =>
    some (if 2 * r < den then c else if den < 2 * r then c + 1 else if c % 2 = 0 then c else c + 1)
  | true, false => some c
  | false, true => some (c + 1)
  | false, false => none

/-- The first hit on the grids `10 ^ (places - n)`, `10 ^ (places - n - 1)`, …; the fuel bounds how
many grids are tried. -/
def search (i : Interval) (power places : Int) : Nat → Int → Decimal
  | 0, n => Decimal.ofScaled 0 (places - n)
  | fuel + 1, n =>
    let g := places - n
    let num := Nat.pow 2 power.toNat * Nat.pow 10 (-g).toNat
    let den := Nat.pow 2 (-power).toNat * Nat.pow 10 g.toNat
    match i.hit? num den with
    | some c => Decimal.ofScaled c g
    | none => search i power places fuel (n + 1)

/-- The shortest decimal that rounds to a finite number other than zero, for the magnitude alone.
The starting grid is chosen at least as coarse as one digit. -/
def shortest (x : Binary64) : Decimal :=
  let places := ((x.significand.log2 : Int) + x.power) * 30103 / 100000 + 2
  search x.interval (x.power - 2) places 22 1

end Binary64

end StreamingTemplate
