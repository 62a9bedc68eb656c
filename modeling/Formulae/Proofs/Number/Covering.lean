import Mathlib
import Formulae.Number.Shortest

/-!
# The numbers that a double stands for

A double stands for the numbers between the midpoints to its two neighbours, and for the midpoints
too if its significand is even. The shortest decimal of a double is one of these numbers: it is
either looked up among them, or it is the double itself.

Main results:

* `Interval.contains_iff` — the interval in integers holds what the double stands for.
* `covers_shortest` — a double stands for its shortest decimal.
-/

namespace Formulae.Number

-- ---------------------------------------------------------------------------
-- Values
-- ---------------------------------------------------------------------------

/-- The number that a decimal is. -/
def Decimal.value (d : Decimal) : ℚ :=
  d.coefficient * 10 ^ d.exponent

/-- A power with an exponent of either sign is a quotient of powers, one of which is one. -/
theorem zpow_eq_div {b : ℚ} (hb : b ≠ 0) (k : Int) : b ^ k = b ^ k.toNat / b ^ (-k).toNat := by
  rw [← zpow_natCast, ← zpow_natCast, ← zpow_sub₀ hb]
  congr 1
  omega

/-- The normal form has the same value. -/
theorem Decimal.value_normal (d : Decimal) : d.normal.value = d.value := by
  induction d using Decimal.normal.induct with
  | case1 d h ih =>
    rw [normal, if_pos h, ih]
    have hten : (d.coefficient : ℚ) = (d.coefficient / 10 : ℕ) * 10 := by
      exact_mod_cast (Nat.div_mul_cancel (Nat.dvd_of_mod_eq_zero h.2)).symm
    rw [value, value, hten, zpow_add_one₀ (by norm_num)]
    ring
  | case2 d h => rw [normal, if_neg h]

-- ---------------------------------------------------------------------------
-- Midpoints
-- ---------------------------------------------------------------------------

/-- How far the lower midpoint is below a double, in quarters of the last place: the neighbour below
a power of two is half as far away as the others, except at the smallest exponent. -/
def quartersBelow (significand : Nat) (exponent : Int) : Nat :=
  if significand = 2 ^ 52 ∧ exponent ≠ -1074 then 1 else 2

/-- The midpoint below is a quarter or a half of the last place away. -/
theorem quartersBelow_bounds (significand : Nat) (exponent : Int) :
    1 ≤ quartersBelow significand exponent ∧ quartersBelow significand exponent ≤ 2 := by
  unfold quartersBelow
  split <;> omega

/-- The double `significand * 2 ^ exponent` stands for a number. -/
def Covers (significand : Nat) (exponent : Int) (q : ℚ) : Prop :=
  let low : ℚ := (4 * significand - quartersBelow significand exponent : ℕ) * 2 ^ (exponent - 2)
  let high : ℚ := (4 * significand + 2 : ℕ) * 2 ^ (exponent - 2)
  if significand % 2 = 0 then low ≤ q ∧ q ≤ high else low < q ∧ q < high

variable {significand : Nat} {exponent : Int}

/-- A double stands for all that is between the two midpoints. -/
theorem covers_of_between {q : ℚ}
    (hlow : ((4 * significand - quartersBelow significand exponent : ℕ) : ℚ) *
      2 ^ (exponent - 2) < q)
    (hhigh : q < ((4 * significand + 2 : ℕ) : ℚ) * 2 ^ (exponent - 2)) :
    Covers significand exponent q := by
  unfold Covers
  dsimp only
  split
  · exact ⟨hlow.le, hhigh.le⟩
  · exact ⟨hlow, hhigh⟩

/-- A double in quarters of its last place. -/
theorem value_eq_quarters (significand : Nat) (exponent : Int) :
    (significand : ℚ) * 2 ^ exponent = (4 * significand : ℕ) * 2 ^ (exponent - 2) := by
  rw [zpow_sub₀ (by norm_num)]
  push_cast
  ring

/-- A positive double is between the two midpoints. -/
theorem between_self (exponent : Int) (h : significand ≠ 0) :
    ((4 * significand - quartersBelow significand exponent : ℕ) : ℚ) * 2 ^ (exponent - 2) <
        significand * 2 ^ exponent ∧
      (significand : ℚ) * 2 ^ exponent < ((4 * significand + 2 : ℕ) : ℚ) * 2 ^ (exponent - 2) := by
  have hunit : (0 : ℚ) < 2 ^ (exponent - 2) := by positivity
  have hbelow := (quartersBelow_bounds significand exponent).1
  rw [value_eq_quarters significand, mul_lt_mul_iff_left₀ hunit, mul_lt_mul_iff_left₀ hunit,
    Nat.cast_lt, Nat.cast_lt]
  omega

/-- A positive double stands for itself. -/
theorem covers_self (h : significand ≠ 0) :
    Covers significand exponent (significand * 2 ^ exponent) :=
  covers_of_between (between_self exponent h).1 (between_self exponent h).2

/-- What a double stands for is not outside the two midpoints. -/
theorem Covers.bounds {q : ℚ} (h : Covers significand exponent q) :
    ((4 * significand - quartersBelow significand exponent : ℕ) : ℚ) * 2 ^ (exponent - 2) ≤ q ∧
      q ≤ ((4 * significand + 2 : ℕ) : ℚ) * 2 ^ (exponent - 2) := by
  unfold Covers at h
  dsimp only at h
  split at h
  · exact h
  · exact ⟨h.1.le, h.2.le⟩

/-- A quotient over a unit lies below or above another one just where the numerators do. -/
theorem scaled_le_iff {k scale unit numerator denominator : Nat} (hunit : 0 < unit)
    (hpos : 0 < denominator) :
    (k : ℚ) * (scale / unit) ≤ numerator / (denominator * unit) ↔
      k * scale * denominator ≤ numerator := by
  have hu : (0 : ℚ) < unit := by exact_mod_cast hunit
  have hd : (0 : ℚ) < denominator := by exact_mod_cast hpos
  rw [← mul_div_assoc, ← div_div, div_le_div_iff_of_pos_right hu, le_div_iff₀ hd]
  exact_mod_cast Iff.rfl

/-- And it is bounded from above just where the numerators are. -/
theorem le_scaled_iff {k scale unit numerator denominator : Nat} (hunit : 0 < unit)
    (hpos : 0 < denominator) :
    (numerator : ℚ) / (denominator * unit) ≤ k * (scale / unit) ↔
      numerator ≤ k * scale * denominator := by
  have hu : (0 : ℚ) < unit := by exact_mod_cast hunit
  have hd : (0 : ℚ) < denominator := by exact_mod_cast hpos
  rw [← mul_div_assoc, ← div_div, div_le_div_iff_of_pos_right hu, div_le_iff₀ hd]
  exact_mod_cast Iff.rfl

/-- The unit of an interval is not zero. -/
theorem Interval.unit_pos : 0 < (ofDouble significand exponent).unit :=
  Nat.pow_pos (by omega)

/-- The interval of a double holds what the double stands for. -/
theorem Interval.contains_iff {numerator denominator : Nat} (hpos : 0 < denominator) :
    (ofDouble significand exponent).contains numerator denominator = true ↔
      Covers significand exponent
        (numerator / (denominator * (ofDouble significand exponent).unit)) := by
  have hunit := @unit_pos significand exponent
  have hscale : (2 : ℚ) ^ (exponent - 2) =
      (Nat.pow 2 (exponent - 2).toNat : ℕ) / ((ofDouble significand exponent).unit : ℕ) := by
    rw [zpow_eq_div (by norm_num), neg_sub]
    simp [ofDouble]
  have hlow : (ofDouble significand exponent).low =
      (4 * significand - quartersBelow significand exponent) *
        Nat.pow 2 (exponent - 2).toNat := rfl
  have hhigh : (ofDouble significand exponent).high =
      (4 * significand + 2) * Nat.pow 2 (exponent - 2).toNat := rfl
  unfold contains Covers
  dsimp only
  rw [hscale, hlow, hhigh]
  by_cases heven : significand % 2 = 0
  · have hclosed : (ofDouble significand exponent).closed = true := decide_eq_true heven
    rw [if_pos heven, if_pos hclosed, Bool.and_eq_true, decide_eq_true_eq, decide_eq_true_eq,
      scaled_le_iff hunit hpos, le_scaled_iff hunit hpos]
  · have hopen : ¬(ofDouble significand exponent).closed = true := by
      simpa [ofDouble] using heven
    rw [if_neg heven, if_neg hopen, Bool.and_eq_true, decide_eq_true_eq, decide_eq_true_eq,
      lt_iff_lt_of_le_iff_le (le_scaled_iff hunit hpos),
      lt_iff_lt_of_le_iff_le (scaled_le_iff hunit hpos)]

-- ---------------------------------------------------------------------------
-- The shortest decimal
-- ---------------------------------------------------------------------------

/-- A multiple of a power of ten as a quotient over the unit of the interval. -/
theorem Interval.value_multiple {multiple : Nat} {k : Int} :
    Decimal.value ⟨multiple, k⟩ =
      ((multiple * (Nat.pow 10 k.toNat * (ofDouble significand exponent).unit) : ℕ) : ℚ) /
        ((Nat.pow 10 (-k).toNat : ℕ) * (ofDouble significand exponent).unit) := by
  have hunit : (0 : ℚ) < (ofDouble significand exponent).unit := by exact_mod_cast unit_pos
  rw [Decimal.value, zpow_eq_div (by norm_num)]
  push_cast [Nat.pow_eq]
  field_simp

/-- The interval holds the multiples of a power of ten that the double stands for. -/
theorem Interval.contains_multiple_iff {multiple : Nat} {k : Int} :
    (ofDouble significand exponent).contains
        (multiple * (Nat.pow 10 k.toNat * (ofDouble significand exponent).unit))
        (Nat.pow 10 (-k).toNat) = true ↔
      Covers significand exponent (Decimal.value ⟨multiple, k⟩) := by
  have hdown : 0 < Nat.pow 10 (-k).toNat := Nat.pow_pos (by omega)
  rw [contains_iff hdown, value_multiple]

/-- What is found on a grid is covered. -/
theorem covers_nearest? {k : Int} {d : Decimal}
    (h : (Interval.ofDouble significand exponent).nearest? k = some d) :
    Covers significand exponent d.value := by
  unfold Interval.nearest? at h
  dsimp only at h
  split at h
  · rename_i hbelow
    obtain rfl := Option.some.inj h
    exact Interval.contains_multiple_iff.mp (Bool.and_eq_true_iff.mp hbelow).1
  · split at h
    · rename_i habove
      obtain rfl := Option.some.inj h
      exact Interval.contains_multiple_iff.mp habove
    · exact absurd h (by simp)

/-- The exact decimal has the value of the double. -/
theorem value_exactDecimal :
    (exactDecimal significand exponent).value = significand * 2 ^ exponent := by
  unfold exactDecimal Decimal.value
  split
  · rename_i hpos
    have hpower : (2 : ℚ) ^ exponent = 2 ^ exponent.toNat := by
      rw [← zpow_natCast, Int.toNat_of_nonneg hpos]
    rw [hpower]
    push_cast [Nat.pow_eq]
    simp
  · rename_i hneg
    -- over a power of ten, a power of five is one over a power of two
    have htwo : (2 : ℚ) ^ exponent = 5 ^ (-exponent).toNat * 10 ^ exponent := by
      rw [show (10 : ℚ) = 5 * 2 by norm_num, mul_zpow, ← zpow_natCast, ← mul_assoc,
        ← zpow_add₀ (by norm_num), Int.toNat_of_nonneg (by omega), neg_add_cancel, zpow_zero,
        one_mul]
    rw [htwo]
    push_cast [Nat.pow_eq]
    ring

/-- A positive double stands for its shortest decimal. -/
theorem covers_shortest (h : significand ≠ 0) :
    Covers significand exponent (shortest significand exponent).value := by
  rw [shortest, if_neg h, shortestPositive]
  split
  · rename_i d hd
    obtain ⟨n, -, hfound⟩ := List.exists_of_findSome?_eq_some hd
    rw [Decimal.value_normal]
    exact covers_nearest? hfound
  · rw [value_exactDecimal]
    exact covers_self h

end Formulae.Number
