/-!
# Binary64 numbers

The numbers a template handles are IEEE binary64 numbers, kept here by their three fields, so that
everything said about them is a statement about natural numbers. This module holds

* the type, and the classes a number can fall in (`isNaN`, `isInfinite`, `isZero`),
* `significand` and `power`: a finite number is `± significand · 2 ^ power`,
* numeric equality, under which the two zeros agree and a NaN differs from itself,
* `wholeBelow`: the integer that a number is, if it is one of small magnitude.

No floating-point operation of the machine is involved.
-/

namespace StreamingTemplate

/-- A binary64 number, field by field. -/
structure Binary64 where
  /-- the sign bit -/
  negative : Bool
  /-- the biased exponent; 0 marks the numbers below the normal range, 2047 the non-finite ones -/
  exponent : Fin 2048
  /-- the bits below the leading one -/
  fraction : Fin 4503599627370496
  deriving DecidableEq, Repr

namespace Binary64

/-! ## Classes of numbers -/

/-- The zero of the given sign. -/
def zero (negative : Bool) : Binary64 := ⟨negative, 0, 0⟩

/-- The infinity of the given sign. -/
def infinity (negative : Bool) : Binary64 := ⟨negative, 2047, 0⟩

/-- The NaN that arises when no number fits. -/
def nan : Binary64 := ⟨false, 2047, 2251799813685248⟩

instance : Inhabited Binary64 := ⟨zero false⟩

/-- Neither infinite nor a NaN. -/
def isFinite (x : Binary64) : Bool := x.exponent.val != 2047

def isNaN (x : Binary64) : Bool := x.exponent.val == 2047 && x.fraction.val != 0

def isInfinite (x : Binary64) : Bool := x.exponent.val == 2047 && x.fraction.val == 0

/-- Either zero. -/
def isZero (x : Binary64) : Bool := x.exponent.val == 0 && x.fraction.val == 0

theorem isNaN_of_isFinite {x : Binary64} (h : x.isFinite = true) : x.isNaN = false := by
  simp_all [isFinite, isNaN]

/-- The number with the other sign. -/
def neg (x : Binary64) : Binary64 := { x with negative := !x.negative }

/-! ## The value of a finite number -/

/-- The integer `m` of the magnitude `m · 2 ^ q` of a finite number. -/
def significand (x : Binary64) : Nat :=
  if x.exponent.val = 0 then x.fraction.val else 4503599627370496 + x.fraction.val

/-- The exponent `q` of the magnitude `m · 2 ^ q` of a finite number. -/
def power (x : Binary64) : Int :=
  if x.exponent.val = 0 then -1074 else (x.exponent.val : Int) - 1075

/-- The magnitude of a finite number as a numerator and a denominator. -/
def magnitude (x : Binary64) : Nat × Nat :=
  if 0 ≤ x.power then (x.significand * Nat.pow 2 x.power.toNat, 1)
  else (x.significand, Nat.pow 2 (-x.power).toNat)

/-! ## Equality as numbers -/

/-- Numeric equality: a NaN equals nothing, the two zeros are equal, and otherwise distinct fields
are distinct numbers. -/
def numEq (x y : Binary64) : Bool :=
  !x.isNaN && !y.isNaN && (decide (x = y) || (x.isZero && y.isZero))

theorem numEq_comm (x y : Binary64) : x.numEq y = y.numEq x := by
  have h : decide (x = y) = decide (y = x) := by simp [eq_comm]
  simp only [numEq, h]
  cases x.isNaN <;> cases y.isNaN <;> cases x.isZero <;> cases y.isZero <;> simp

theorem numEq_self {x : Binary64} (h : x.isNaN = false) : x.numEq x = true := by
  simp [numEq, h]

/-! ## Whole numbers -/

/-- The integer that the number is, if it is an integer of magnitude below `limit`. Both zeros are
the integer zero. -/
def wholeBelow (limit : Nat) (x : Binary64) : Option Int :=
  if x.isFinite then
    let (num, den) := x.magnitude
    if num % den = 0 ∧ num / den < limit then
      some (if x.negative then -((num / den : Nat) : Int) else ((num / den : Nat) : Int))
    else none
  else none

end Binary64

end StreamingTemplate
