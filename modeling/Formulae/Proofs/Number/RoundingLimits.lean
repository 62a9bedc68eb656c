import Mathlib.Tactic.Linarith
import Mathlib.Tactic.Ring
import Formulae.Number.Rounding

/-!
# Rounding at the largest coefficient

Rounding to places left of the point has no answer for a number that is a decimal, but whose
multiple of the power of ten is none any more. That happens with up to 28 places; with more of them
every number is rounded to zero.

Main result: `roundTo?_eq_none_iff`, the numbers that cannot be rounded.
-/

namespace Formulae.Number

-- ---------------------------------------------------------------------------
-- Multiples of a power of ten
-- ---------------------------------------------------------------------------

/-- A number without a fraction is rounded to itself. -/
theorem RoundingMode.roundQuotient_one (mode : RoundingMode) (negative : Bool) (dividend : Nat) :
    mode.roundQuotient negative dividend 1 = dividend := by
  cases mode <;> simp [roundQuotient, goesUp, Nat.mod_one]

namespace ScaledDecimal

/-- The multiple of `10 ^ n` that a decimal is rounded to. -/
def multiple (d : ScaledDecimal) (mode : RoundingMode) (negative : Bool) (n : Nat) : Nat :=
  ((d.shiftRight n).roundTo mode negative 0).coefficient * Nat.pow 10 n

/-- A scaled decimal is rounded to an integer by one division. -/
theorem coefficient_roundTo_zero (d : ScaledDecimal) (mode : RoundingMode) (negative : Bool) :
    (d.roundTo mode negative 0).coefficient =
    mode.roundQuotient negative d.coefficient (10 ^ d.scale) := by
  unfold roundTo
  split
  · rename_i hwhole
    rw [Nat.le_zero.mp hwhole, pow_zero, RoundingMode.roundQuotient_one]
  · rfl

end ScaledDecimal

-- ---------------------------------------------------------------------------
-- Numbers without an answer
-- ---------------------------------------------------------------------------

/-- The number is a decimal whose multiple of a power of ten with up to 28 places is beyond the
largest coefficient. -/
def RoundsBeyond (mode : RoundingMode) (x : Float) (places : Int) : Prop :=
  ∃ negative significand exponent d, parts x = .finite negative significand exponent ∧
    ScaledDecimal.ofDecimal? (shortest significand exponent) = some d ∧
    -28 ≤ places ∧ places < 0 ∧
    ScaledDecimal.maxCoefficient < d.multiple mode negative places.natAbs

variable {mode : RoundingMode} {x : Float} {places : Int}

/-- A decimal cannot be rounded if its multiple is beyond the largest coefficient. -/
theorem roundLeft?_eq_none_iff {negative : Bool} {n : Nat} {d : ScaledDecimal} :
    roundLeft? mode negative n d = none ↔
      n ≤ 28 ∧ ScaledDecimal.maxCoefficient < d.multiple mode negative n := by
  unfold roundLeft?
  split
  · rename_i hlarge
    have hscale : ScaledDecimal.maxScale = 28 := rfl
    simp only [reduceCtorEq, false_iff]
    omega
  · rename_i hsmall
    have hscale : n ≤ 28 := Nat.le_of_not_lt hsmall
    dsimp only
    rw [← ScaledDecimal.multiple]
    split <;> simp only [reduceCtorEq, false_iff, true_iff] <;> omega

/-- The numbers that cannot be rounded. -/
theorem roundTo?_eq_none_iff : roundTo? mode x places = none ↔ RoundsBeyond mode x places := by
  unfold roundTo? RoundsBeyond
  constructor
  · intro h
    split at h
    · rename_i negative significand exponent hparts
      split at h
      · exact absurd h (by simp)
      · rename_i d hd
        split at h
        · exact absurd h (by simp)
        · rename_i hplaces
          obtain ⟨hn, hbeyond⟩ := roundLeft?_eq_none_iff.mp (Option.map_eq_none_iff.mp h)
          exact ⟨negative, significand, exponent, d, hparts, hd, by omega, by omega, hbeyond⟩
    · exact absurd h (by simp)
  · rintro ⟨negative, significand, exponent, d, hparts, hd, hlow, hhigh, hbeyond⟩
    rw [hparts]
    dsimp only
    rw [hd]
    dsimp only
    rw [if_neg (by omega), Option.map_eq_none_iff, roundLeft?_eq_none_iff]
    exact ⟨by omega, hbeyond⟩

end Formulae.Number
