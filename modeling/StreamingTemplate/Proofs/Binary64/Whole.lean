import StreamingTemplate.Binary64.Text
import Mathlib.Tactic.Positivity

/-!
# Whole numbers

A finite number that is an integer is the number nearest to this integer, up to the sign of zero
(`ofInt_numEq_of_wholeBelow`): going over to the integer and back keeps the number. The argument
follows the conversion: the leading digit of the integer is that of the significand, so the
conversion scales the integer to the significand without rounding, and puts the number together
from the significand and the power that it had.

Equal numbers are the same one or the two zeros (`numEq_iff`). So what the zeros have in common, all
equal numbers have in common (`congr_of_numEq`), and that includes the text (`display_congr`).
-/

namespace StreamingTemplate.Binary64

variable {x y : Binary64}

/-! ## Equal numbers

Numbers are compared as IEEE 754 says: what is not a number equals nothing, and the two zeros are
equal to each other. -/

/-- There are two zeros, which differ in their sign. -/
theorem eq_zero_of_isZero (h : x.isZero = true) : x = zero x.negative := by
  obtain ⟨negative, exponent, fraction⟩ := x
  simp only [isZero, Bool.and_eq_true, beq_iff_eq] at h
  rw [zero, mk.injEq, Fin.ext_iff, Fin.ext_iff]
  exact ⟨rfl, h⟩

theorem numEq_iff :
    x.numEq y = true ↔ x.isNaN = false ∧ (x = y ∨ x.isZero = true ∧ y.isZero = true) := by
  constructor
  · intro h
    simp only [numEq, Bool.and_eq_true, Bool.not_eq_true', Bool.or_eq_true, decide_eq_true_eq] at h
    exact ⟨h.1.1, h.2⟩
  · rintro ⟨hx, rfl | ⟨hzero, hzero'⟩⟩
    · exact numEq_self hx
    · rw [eq_zero_of_isZero hzero, eq_zero_of_isZero hzero']
      cases x.negative <;> cases y.negative <;> rfl

/-- What the two zeros have in common, equal numbers have in common. -/
theorem congr_of_numEq {α : Type} {f : Binary64 → α} (hf : f (zero false) = f (zero true))
    (h : x.numEq y = true) : f x = f y := by
  obtain ⟨-, rfl | ⟨hx, hy⟩⟩ := numEq_iff.mp h
  · rfl
  · rw [eq_zero_of_isZero hx, eq_zero_of_isZero hy]
    cases x.negative <;> cases y.negative <;> simp only [hf]

/-! ## Significand and power

A finite number is a significand of at most 53 bits times a power of two. In the normal range the
leading bit is set, which makes the two unique. -/

theorem significand_lt (x : Binary64) : x.significand < 2 ^ 53 := by
  have := x.fraction.isLt
  rw [significand]
  split <;> omega

/-- The leading bit of a number in the normal range. -/
theorem le_significand (h : x.exponent.val ≠ 0) : 2 ^ 52 ≤ x.significand := by
  rw [significand, if_neg h]
  omega

/-- A number is put together from its own significand and power. -/
theorem ofScaled_significand (h : x.isFinite = true) :
    ofScaled x.negative x.significand x.power = x := by
  obtain ⟨negative, ⟨exponent, hexponent⟩, ⟨fraction, hfraction⟩⟩ := x
  have hfinite : exponent ≠ 2047 := by simpa [isFinite] using h
  by_cases hzero : exponent = 0
  · subst hzero
    rw [ofScaled, dif_pos (by exact hfraction)]
    rfl
  · have hsignificand : significand ⟨negative, ⟨exponent, hexponent⟩, ⟨fraction, hfraction⟩⟩ =
        4503599627370496 + fraction := if_neg hzero
    have hpower : power ⟨negative, ⟨exponent, hexponent⟩, ⟨fraction, hfraction⟩⟩ =
        (exponent : Int) - 1075 := if_neg hzero
    rw [hsignificand, hpower, ofScaled, dif_neg (by omega), if_pos (by omega)]
    dsimp only
    rw [if_pos (by omega), mk.injEq, Fin.mk.injEq, Fin.mk.injEq]
    exact ⟨rfl, by omega, by omega⟩

/-- The magnitude as a fraction: the power stands above or below the line. -/
theorem magnitude_eq (x : Binary64) :
    x.magnitude = (x.significand * 2 ^ x.power.toNat, 2 ^ (-x.power).toNat) := by
  rw [magnitude]
  split
  · rename_i hpower
    have hdenominator : (-x.power).toNat = 0 := by omega
    rw [hdenominator]
    rfl
  · rename_i hpower
    have hnumerator : x.power.toNat = 0 := by omega
    rw [hnumerator, Nat.pow_zero, Nat.mul_one]
    rfl

/-- Both zeros are the integer zero. -/
theorem wholeBelow_zero {limit : Nat} (h : 0 < limit) (negative : Bool) :
    (zero negative).wholeBelow limit = some 0 := by
  have hfinite : (zero negative).isFinite = true := rfl
  have hsignificand : (zero negative).significand = 0 := rfl
  rw [wholeBelow, if_pos hfinite, magnitude_eq, hsignificand]
  simp [h]

/-- Equal numbers have the same text: both zeros read `0`. -/
theorem display_congr (h : x.numEq y = true) : x.display = y.display := by
  have hzero : ∀ negative, (zero negative).display = toString (0 : Int) := fun negative => by
    have hnan : (zero negative).isNaN = false := rfl
    have hinfinite : (zero negative).isInfinite = false := rfl
    rw [display, hnan, hinfinite, wholeBelow_zero (by decide)]
    rfl
  exact congr_of_numEq ((hzero false).trans (hzero true).symm) h

/-! ## Rounding without a remainder

The conversion from integers divides, and rounds half to even. For an integer that is the
magnitude of a number nothing is left over. -/

theorem roundHalfEven_mul (m : Nat) {d : Nat} (hd : 0 < d) : roundHalfEven (m * d) d = m := by
  simp [roundHalfEven, hd]

/-- An integer is scaled so that its leading bit becomes that of a significand. -/
theorem ofRatio_one {n : Nat} (hn : n ≠ 0) (negative : Bool) :
    ofRatio negative n 1 = ofScaled negative
      (roundHalfEven (n * 2 ^ (52 - n.log2)) (2 ^ (n.log2 - 52))) ((n.log2 : Int) - 52) := by
  have hguess : (n.log2 : Int) - (Nat.log2 1 : Int) = n.log2 := by
    rw [show Nat.log2 1 = 0 from Nat.log2_two_pow (n := 0), Int.natCast_zero, Int.sub_zero]
  have hlarge : ¬n < 1 * Nat.pow 2 n.log2 := by
    rw [Nat.one_mul]
    exact Nat.not_lt.mpr (Nat.log2_self_le hn)
  have hpower : max ((n.log2 : Int) - 52) (-1074) = (n.log2 : Int) - 52 := by omega
  rw [ofRatio, if_neg (by simp [hn])]
  simp only [hguess, Int.natCast_nonneg, if_true, Int.toNat_natCast, hlarge, decide_false,
    Bool.false_eq_true, if_false]
  rw [hpower]
  split
  · rename_i h
    have hup : 52 - n.log2 = 0 := by omega
    have hdown : ((n.log2 : Int) - 52).toNat = n.log2 - 52 := by omega
    rw [hup, hdown, Nat.pow_zero, Nat.mul_one, Nat.one_mul]
    rfl
  · rename_i h
    have hdown : n.log2 - 52 = 0 := by omega
    have hup : (-((n.log2 : Int) - 52)).toNat = 52 - n.log2 := by omega
    rw [hup, hdown, Nat.pow_zero]
    rfl

/-! ## Whole numbers

If a number is an integer, its significand and its power are those that the conversion chooses:
the leading bits are the same. Numbers below the normal range are smaller than one. -/

/-- The integer of a whole number is its magnitude with its sign. -/
theorem exists_of_wholeBelow {limit : Nat} {n : Int} (h : x.wholeBelow limit = some n) :
    ∃ m : Nat, x.isFinite = true ∧ n = (if x.negative then -(m : Int) else m) ∧
      m * 2 ^ (-x.power).toNat = x.significand * 2 ^ x.power.toNat := by
  rw [wholeBelow, magnitude_eq] at h
  split at h
  · rename_i hfinite
    dsimp only at h
    split at h
    · rename_i hwhole
      refine ⟨_, hfinite, (Option.some.inj h).symm, ?_⟩
      exact Nat.div_mul_cancel (Nat.dvd_of_mod_eq_zero hwhole.1)
    · cases h
  · cases h

/-- Shifting a number shifts its leading bit. -/
theorem log2_mul_two_pow {m : Nat} (hm : m ≠ 0) (k : Nat) : (m * 2 ^ k).log2 = m.log2 + k := by
  induction k with
  | zero => simp
  | succ k ih =>
    have hne : m * 2 ^ k ≠ 0 := by positivity
    rw [Nat.pow_succ, ← Nat.mul_assoc, Nat.mul_comm _ 2, Nat.log2_two_mul hne, ih, Nat.add_assoc]

/-- The leading bit of a whole number tells its power. -/
theorem log2_whole {m : Nat} (hm : m ≠ 0) (hnormal : x.exponent.val ≠ 0)
    (h : m * 2 ^ (-x.power).toNat = x.significand * 2 ^ x.power.toNat) :
    (m.log2 : Int) - 52 = x.power := by
  have hsignificand : x.significand.log2 = 52 :=
    (Nat.log2_eq_iff (by have := le_significand hnormal; omega)).mpr
      ⟨le_significand hnormal, significand_lt x⟩
  have hlog := congrArg Nat.log2 h
  rw [log2_mul_two_pow hm, log2_mul_two_pow (by have := le_significand hnormal; omega),
    hsignificand] at hlog
  omega

/-- Below the normal range no number but zero is whole. -/
theorem eq_zero_of_whole {m : Nat} (hbelow : x.exponent.val = 0)
    (h : m * 2 ^ (-x.power).toNat = x.significand * 2 ^ x.power.toNat) : m = 0 := by
  have hpower : x.power = -1074 := if_pos hbelow
  have hsignificand : x.significand = x.fraction.val := if_pos hbelow
  have hshift : (2 : Nat) ^ 52 ≤ 2 ^ (-x.power).toNat :=
    Nat.pow_le_pow_right (by decide) (by omega)
  have hnumerator : x.power.toNat = 0 := by omega
  rw [hnumerator, Nat.pow_zero, Nat.mul_one, hsignificand] at h
  by_contra hm
  have hlarge := Nat.le_mul_of_pos_left (2 ^ (-x.power).toNat) (Nat.pos_of_ne_zero hm)
  have := x.fraction.isLt
  omega

/-- Only the zeros have no bit in their significand. -/
theorem isZero_of_significand (h : x.significand = 0) : x.isZero = true := by
  by_cases hbelow : x.exponent.val = 0
  · have hfraction : x.fraction.val = 0 := (if_pos hbelow).symm.trans h
    simp [isZero, hbelow, hfraction]
  · have := le_significand hbelow
    omega

/-- **A whole number** is the number nearest to its integer, but for the sign of zero. -/
theorem ofInt_numEq_of_wholeBelow {limit : Nat} {n : Int} (h : x.wholeBelow limit = some n) :
    (ofInt n).numEq x = true := by
  obtain ⟨m, hfinite, rfl, hm⟩ := exists_of_wholeBelow h
  by_cases hzero : m = 0
  · subst hzero
    have hsignificand : x.significand = 0 := by
      have hshift : 0 < 2 ^ x.power.toNat := by positivity
      rw [Nat.zero_mul] at hm
      exact (Nat.mul_eq_zero.mp hm.symm).resolve_right (by omega)
    have hinteger : (if x.negative then -((0 : Nat) : Int) else ((0 : Nat) : Int)) = 0 := by simp
    rw [hinteger]
    exact numEq_iff.mpr ⟨rfl, .inr ⟨rfl, isZero_of_significand hsignificand⟩⟩
  · have hnormal : x.exponent.val ≠ 0 := fun hbelow => hzero (eq_zero_of_whole hbelow hm)
    have hpower := log2_whole hzero hnormal hm
    have hup : (-x.power).toNat = 52 - m.log2 := by omega
    have hdown : x.power.toNat = m.log2 - 52 := by omega
    have hinteger : ofInt (if x.negative then -(m : Int) else m) = ofRatio x.negative m 1 := by
      cases x.negative <;> simp [ofInt, Nat.pos_of_ne_zero hzero, Int.not_lt.mpr]
    rw [hup, hdown] at hm
    have hsame : ofInt (if x.negative then -(m : Int) else m) = x := by
      rw [hinteger, ofRatio_one hzero, hm, roundHalfEven_mul _ (by positivity), hpower,
        ofScaled_significand hfinite]
    rw [hsame]
    exact numEq_self (isNaN_of_isFinite hfinite)

end StreamingTemplate.Binary64
