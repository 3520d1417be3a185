import StreamingTemplate.Binary64.Basic

/-!
# Rounding to binary64

`ofRatio` is the binary64 number nearest to a quotient of two natural numbers, a tie going to the
even significand. Every way a number comes into being is this one function applied to an exact
quotient: conversion of an integer (`ofInt`), of a decimal (`ofDecimal`), and the two operations
`mul` and `div` that the reading of JSON numbers needs.
-/

namespace StreamingTemplate.Binary64

/-- The quotient `num / den` rounded to an integer, a tie going to the even one. -/
def roundHalfEven (num den : Nat) : Nat :=
  let q := num / den
  let r := num % den
  if 2 * r < den then q
  else if den < 2 * r then q + 1
  else if q % 2 = 0 then q else q + 1

/-- The number `± m · 2 ^ q` for a significand of at most 53 bits, or one just rounded up to
`2 ^ 53`; `q` is -1074 whenever `m` has fewer than 53 bits. -/
def ofScaled (negative : Bool) (m : Nat) (q : Int) : Binary64 :=
  if small : m < 4503599627370496 then ⟨negative, ⟨0, by decide⟩, ⟨m, small⟩⟩
  else
    let (m, q) := if m < 9007199254740992 then (m, q) else (m / 2, q + 1)
    let biased := q + 1075
    if biased < 2047 then
      ⟨negative, ⟨biased.toNat % 2048, Nat.mod_lt _ (by decide)⟩,
        ⟨(m - 4503599627370496) % 4503599627370496, Nat.mod_lt _ (by decide)⟩⟩
    else infinity negative

/-- The number nearest to `± num / den`; a tie goes to the even significand, a magnitude beyond the
largest number to infinity. -/
def ofRatio (negative : Bool) (num den : Nat) : Binary64 :=
  if num = 0 ∨ den = 0 then zero negative
  else
    -- `2 ^ e ≤ num / den < 2 ^ (e + 1)`
    let guess : Int := (num.log2 : Int) - (den.log2 : Int)
    let tooLarge :=
      if 0 ≤ guess then decide (num < den * Nat.pow 2 guess.toNat)
      else decide (num * Nat.pow 2 (-guess).toNat < den)
    let e := if tooLarge then guess - 1 else guess
    let q := max (e - 52) (-1074)
    let m := if 0 ≤ q then roundHalfEven num (den * Nat.pow 2 q.toNat)
      else roundHalfEven (num * Nat.pow 2 (-q).toNat) den
    ofScaled negative m q

/-- The number nearest to an integer. -/
def ofInt (n : Int) : Binary64 := ofRatio (n < 0) n.natAbs 1

/-- The product of two finite numbers, rounded. -/
def mul (x y : Binary64) : Binary64 :=
  let (a, b) := x.magnitude
  let (c, d) := y.magnitude
  ofRatio (x.negative != y.negative) (a * c) (b * d)

/-- The quotient of two finite numbers, rounded; the divisor is not zero. -/
def div (x y : Binary64) : Binary64 :=
  let (a, b) := x.magnitude
  let (c, d) := y.magnitude
  ofRatio (x.negative != y.negative) (a * d) (b * c)

/-- The number nearest to `± digits · 10 ^ exponent`. Exponents far outside the range of numbers are
settled without computing the power. -/
def ofDecimal (negative : Bool) (digits : Nat) (exponent : Int) : Binary64 :=
  if digits = 0 then zero negative
  else
    -- `10 ^ (places - 1) ≤ digits · 10 ^ exponent < 10 ^ places`
    let places : Int := ((Nat.toDigits 10 digits).length : Int) + exponent
    if 310 < places then infinity negative
    else if places < -330 then zero negative
    else if 0 ≤ exponent then ofRatio negative (digits * Nat.pow 10 exponent.toNat) 1
    else ofRatio negative digits (Nat.pow 10 (-exponent).toNat)

end StreamingTemplate.Binary64
