import Formulae.Number.Reading
import Formulae.Proofs.Number.Bits
import Formulae.Proofs.Number.Covering

/-!
# The nearest double

A number that a double stands for is rounded to that double. Counted in units of the smallest
exponent, the number has as many places beyond the 53 of a significand as the double, and is rounded
there to the significand of the double. Only just below a power of two it has one place less; there
it is rounded up to the power itself, and the carry out of the significand makes up for the place.

Main results:

* `nearestDouble_of_covers` — a quotient is rounded to the double that stands for it.
* `Decimal.toDouble_of_covers` — so is a decimal, whose size is checked before.
* `Decimal.toDouble_ne_zero` — a whole decimal other than zero is not read as zero.
-/

namespace Formulae.Number

-- ---------------------------------------------------------------------------
-- Rounding a quotient
-- ---------------------------------------------------------------------------

/-- A quotient at most half away from an integer is rounded to it; from the midpoints, only if it is
even. -/
theorem roundQuotient_eq {dividend divisor n : Nat} (hpos : 0 < divisor)
    (hlow : 2 * (n * divisor) ≤ 2 * dividend + divisor)
    (hhigh : 2 * dividend ≤ 2 * (n * divisor) + divisor)
    (htie : n % 2 = 1 → 2 * (n * divisor) ≠ 2 * dividend + divisor ∧
      2 * dividend ≠ 2 * (n * divisor) + divisor) :
    RoundingMode.halfEven.roundQuotient false dividend divisor = n := by
  have hdivide := Nat.div_add_mod dividend divisor
  have hrest := Nat.mod_lt dividend hpos
  unfold RoundingMode.roundQuotient RoundingMode.goesUp
  dsimp only
  generalize dividend % divisor = rest at hdivide hrest ⊢
  generalize dividend / divisor = q at hdivide ⊢
  rw [Nat.mul_comm] at hdivide
  -- the integer part is the integer, or the one before it
  have hcases : q = n ∨ q + 1 = n := by
    rcases Nat.lt_trichotomy q n with hlt | rfl | hgt
    · have hnext : (n - q) * divisor + q * divisor = n * divisor := by
        rw [← Nat.add_mul, Nat.sub_add_cancel hlt.le]
      have hfew : ¬2 ≤ n - q := by
        intro hmany
        have htwo := Nat.mul_le_mul_right divisor hmany
        omega
      omega
    · exact .inl rfl
    · have hnext := Nat.mul_le_mul_right divisor (Nat.succ_le_of_lt hgt)
      rw [Nat.succ_mul] at hnext
      omega
  rcases hcases with rfl | rfl
  · rw [if_neg]
    simp only [Bool.or_eq_true, Bool.and_eq_true, decide_eq_true_eq, beq_iff_eq]
    omega
  · rw [Nat.add_mul, Nat.one_mul] at hlow hhigh htie
    rw [if_pos]
    simp only [Bool.or_eq_true, Bool.and_eq_true, decide_eq_true_eq, beq_iff_eq]
    omega

/-- The places that a magnitude has beyond those of a significand. -/
theorem placesBeyond_eq {units places : Nat} (hhigh : units < 2 ^ (53 + places))
    (hlow : places = 0 ∨ 2 ^ (52 + places) ≤ units) : placesBeyond units = places := by
  unfold placesBeyond
  rcases Nat.eq_zero_or_pos units with rfl | hunits
  · rcases hlow with rfl | hlow
    · rfl
    · exact absurd (Nat.pow_pos (by omega)) (Nat.not_lt.mpr hlow)
  · have hlog : units.log2 < 53 + places := (Nat.log2_lt hunits.ne').mpr hhigh
    rcases hlow with rfl | hlow
    · omega
    · have hle : 52 + places ≤ units.log2 := (Nat.le_log2 hunits.ne').mpr hlow
      omega

-- ---------------------------------------------------------------------------
-- Rounding to a double
-- ---------------------------------------------------------------------------

variable {significand places numerator denominator : Nat}

/-- A unit that is common to a midpoint and a quotient is left out. -/
theorem midpoint_eq (k places : Nat) (unit : Int) :
    (k : ℚ) * 2 ^ ((places : Int) - unit - 2) = k * 2 ^ places * (2 ^ (-unit) / 4) := by
  rw [zpow_sub₀ (by norm_num), sub_eq_add_neg, zpow_add₀ (by norm_num), zpow_natCast]
  ring

/-- The same unit of a quotient. -/
theorem quotient_eq (numerator denominator : Nat) (unit : Int) :
    (numerator : ℚ) / denominator * 2 ^ (-unit) =
      4 * numerator / denominator * (2 ^ (-unit) / 4) := by
  ring

/-- A midpoint is not above a quotient: the same with integers. -/
theorem midpoint_le_iff (hpos : 0 < denominator) {k : Nat} (unit : Int) :
    (k : ℚ) * 2 ^ ((places : Int) - unit - 2) ≤ numerator / denominator * 2 ^ (-unit) ↔
      k * 2 ^ places * denominator ≤ 4 * numerator := by
  have hd : (0 : ℚ) < denominator := by exact_mod_cast hpos
  have hunit : (0 : ℚ) < 2 ^ (-unit) / 4 := by positivity
  rw [midpoint_eq, quotient_eq, mul_le_mul_iff_left₀ hunit, le_div_iff₀ hd]
  exact_mod_cast Iff.rfl

/-- A midpoint is not below a quotient: the same with integers. -/
theorem le_midpoint_iff (hpos : 0 < denominator) {k : Nat} (unit : Int) :
    (numerator : ℚ) / denominator * 2 ^ (-unit) ≤ k * 2 ^ ((places : Int) - unit - 2) ↔
      4 * numerator ≤ k * 2 ^ places * denominator := by
  have hd : (0 : ℚ) < denominator := by exact_mod_cast hpos
  have hunit : (0 : ℚ) < 2 ^ (-unit) / 4 := by positivity
  rw [midpoint_eq, quotient_eq, mul_le_mul_iff_left₀ hunit, div_le_iff₀ hd]
  exact_mod_cast Iff.rfl

/-- Counted in units of the smallest exponent, a quotient lies between the midpoints, and on one of
them only if the significand is even. -/
theorem bounds_of_covers (hpos : 0 < denominator)
    (h : Covers significand (places - 1074) (numerator / denominator * 2 ^ (-1074 : Int))) :
    (4 * significand - quartersBelow significand (places - 1074)) * 2 ^ places * denominator ≤
        4 * numerator ∧
      4 * numerator ≤ (4 * significand + 2) * 2 ^ places * denominator ∧
      (significand % 2 = 1 →
        (4 * significand - quartersBelow significand (places - 1074)) * 2 ^ places * denominator ≠
            4 * numerator ∧
          4 * numerator ≠ (4 * significand + 2) * 2 ^ places * denominator) := by
  unfold Covers at h
  dsimp only at h
  split at h
  · rw [midpoint_le_iff hpos, le_midpoint_iff hpos] at h
    exact ⟨h.1, h.2, fun hodd => by omega⟩
  · rw [lt_iff_lt_of_le_iff_le (le_midpoint_iff hpos 1074),
      lt_iff_lt_of_le_iff_le (midpoint_le_iff hpos 1074)] at h
    exact ⟨h.1.le, h.2.le, fun _ => ⟨h.1.ne, h.2.ne⟩⟩

/-- A power of two is counted in steps of the last place that is kept. -/
theorem two_pow_add_mul (k places denominator : Nat) :
    2 ^ (k + places) * denominator = 2 ^ k * (denominator * 2 ^ places) := by
  rw [pow_add]
  ring

/-- With one place less, there are twice as many steps. -/
theorem two_steps (k fewer denominator : Nat) :
    k * 2 ^ (fewer + 1) * denominator = 2 * k * (denominator * 2 ^ fewer) := by
  rw [pow_succ]
  ring

/-- The bits of a double are those of the rounded significand and of the places given up. -/
theorem nearestDouble_eq (hplaces : placesBeyond (numerator / denominator) = places)
    (hlimit : places ≤ 2045)
    (hround : RoundingMode.halfEven.roundQuotient false numerator (denominator * 2 ^ places) =
      significand) :
    nearestDouble numerator denominator =
      Float.ofBits (UInt64.ofNat (magnitudeBits significand places)) := by
  unfold nearestDouble
  dsimp only
  rw [hplaces, if_neg (by omega), Nat.pow_eq, Nat.pow_eq, hround]
  rfl

/-- With as many places as the double, a quotient is rounded to its significand. -/
theorem nearestDouble_of_full (hpos : 0 < denominator) (hplaces : places ≤ 2045)
    (hsignificand : significand < 2 ^ 53)
    (h : Covers significand (places - 1074) (numerator / denominator * 2 ^ (-1074 : Int)))
    (hfull : places = 0 ∨ 2 ^ (52 + places) * denominator ≤ numerator) :
    nearestDouble numerator denominator =
      Float.ofBits (UInt64.ofNat (magnitudeBits significand places)) := by
  obtain ⟨hlow, hhigh, htie⟩ := bounds_of_covers hpos h
  have hstep : 0 < denominator * 2 ^ places := Nat.mul_pos hpos (Nat.two_pow_pos places)
  have hodd : significand % 2 = 1 → quartersBelow significand (places - 1074) = 2 := by
    unfold quartersBelow
    split <;> omega
  have hquarters (k : Nat) : k * 2 ^ places * denominator = k * (denominator * 2 ^ places) := by
    ring
  rw [two_pow_add_mul] at hfull
  rw [hquarters, Nat.sub_mul, Nat.mul_assoc] at hlow htie
  rw [hquarters, Nat.add_mul, Nat.mul_assoc] at hhigh htie
  have hbehind : quartersBelow significand (places - 1074) * (denominator * 2 ^ places) ≤
      2 * (denominator * 2 ^ places) :=
    Nat.mul_le_mul_right _ (quartersBelow_bounds significand (places - 1074)).2
  have hlast : significand * (denominator * 2 ^ places) ≤
      (2 ^ 53 - 1) * (denominator * 2 ^ places) := Nat.mul_le_mul_right _ (by omega)
  refine nearestDouble_eq (placesBeyond_eq ?_ ?_) hplaces (roundQuotient_eq hstep ?_ ?_ ?_)
  · rw [Nat.div_lt_iff_lt_mul hpos, two_pow_add_mul]
    omega
  · rw [Nat.le_div_iff_mul_le hpos, two_pow_add_mul]
    exact hfull
  · omega
  · omega
  · intro hmod
    obtain ⟨hne, hne'⟩ := htie hmod
    rw [hodd hmod] at hne
    omega

/-- With fewer places than the double, a quotient is just below a power of two, and the double is that
power. -/
theorem eq_two_pow_of_below {fewer : Nat} (hpos : 0 < denominator) (hfull : 2 ^ 52 ≤ significand)
    (h : Covers significand ((fewer + 1 : Nat) - 1074)
      (numerator / denominator * 2 ^ (-1074 : Int)))
    (hless : numerator < 2 ^ (53 + fewer) * denominator) : significand = 2 ^ 52 := by
  obtain ⟨hlow, -, -⟩ := bounds_of_covers hpos h
  rw [two_pow_add_mul] at hless
  rw [two_steps] at hlow
  -- the midpoint below any other significand would be above the power of two
  by_contra hne
  have hbelow := (quartersBelow_bounds significand ((fewer + 1 : Nat) - 1074)).2
  have habove : 2 * (2 ^ 54 + 2) * (denominator * 2 ^ fewer) ≤
      2 * (4 * significand - quartersBelow significand ((fewer + 1 : Nat) - 1074)) *
        (denominator * 2 ^ fewer) := Nat.mul_le_mul_right _ (by omega)
  omega

/-- Just below a power of two, a quotient is rounded up to it, with a carry. -/
theorem nearestDouble_of_below {fewer : Nat} (hpos : 0 < denominator) (hplaces : fewer + 1 ≤ 2045)
    (h : Covers (2 ^ 52) ((fewer + 1 : Nat) - 1074)
      (numerator / denominator * 2 ^ (-1074 : Int)))
    (hless : numerator < 2 ^ (53 + fewer) * denominator) :
    nearestDouble numerator denominator =
      Float.ofBits (UInt64.ofNat (magnitudeBits (2 ^ 52) (fewer + 1))) := by
  obtain ⟨hlow, -, -⟩ := bounds_of_covers hpos h
  have hstep : 0 < denominator * 2 ^ fewer := Nat.mul_pos hpos (Nat.two_pow_pos fewer)
  have hbelow : quartersBelow (2 ^ 52) ((fewer + 1 : Nat) - 1074) = 1 := by
    unfold quartersBelow
    rw [if_pos ⟨rfl, by omega⟩]
  have hcarry : magnitudeBits (2 ^ 52) (fewer + 1) = magnitudeBits (2 ^ 53) fewer := by
    unfold magnitudeBits
    ring
  rw [two_pow_add_mul] at hless
  rw [two_steps, hbelow] at hlow
  rw [hcarry]
  refine nearestDouble_eq (placesBeyond_eq ?_ ?_) (by omega) (roundQuotient_eq hstep ?_ ?_ ?_)
  · rw [Nat.div_lt_iff_lt_mul hpos, two_pow_add_mul]
    omega
  · rw [Nat.le_div_iff_mul_le hpos, two_pow_add_mul]
    omega
  · omega
  · omega
  · intro hodd
    omega

/-- A quotient is rounded to the double that stands for it. -/
theorem nearestDouble_of_covers (hpos : 0 < denominator) (hplaces : places ≤ 2045)
    (hsignificand : significand < 2 ^ 53) (hfull : places = 0 ∨ 2 ^ 52 ≤ significand)
    (h : Covers significand (places - 1074) (numerator / denominator * 2 ^ (-1074 : Int))) :
    nearestDouble numerator denominator =
      Float.ofBits (UInt64.ofNat (magnitudeBits significand places)) := by
  by_cases hplace : places = 0 ∨ 2 ^ (52 + places) * denominator ≤ numerator
  · exact nearestDouble_of_full hpos hplaces hsignificand h hplace
  · rw [not_or, Nat.not_le] at hplace
    obtain ⟨fewer, rfl⟩ : ∃ fewer, places = fewer + 1 := ⟨places - 1, by omega⟩
    have hless := hplace.2
    rw [show 52 + (fewer + 1) = 53 + fewer by omega] at hless
    obtain rfl := eq_two_pow_of_below hpos (by omega) h hless
    exact nearestDouble_of_below hpos hplaces h hless

/-- A quotient of at least one unit is not rounded to zero. -/
theorem nearestDouble_ne_zero (negative : Bool) {numerator denominator : Nat}
    (hpos : 0 < denominator) (h : denominator ≤ numerator) :
    signed negative (nearestDouble numerator denominator) ≠ 0.0 := by
  have hunits : numerator / denominator ≠ 0 := (Nat.div_pos h hpos).ne'
  have hfirst := Nat.log2_self_le hunits
  have hlast := @Nat.lt_log2_self (numerator / denominator)
  unfold nearestDouble
  dsimp only
  split
  · cases negative <;> decide
  · rename_i hplaces
    have hbounds := RoundingMode.halfEven.roundQuotient_bounds false numerator
      (denominator * Nat.pow 2 (placesBeyond (numerator / denominator)))
    rw [← Nat.div_div_eq_div_mul, Nat.pow_eq] at hbounds
    have hsome : 0 < numerator / denominator / 2 ^ placesBeyond (numerator / denominator) :=
      Nat.div_pos ((Nat.pow_le_pow_right (by omega) (by unfold placesBeyond; omega)).trans hfirst)
        (Nat.two_pow_pos _)
    have hfull : numerator / denominator / 2 ^ placesBeyond (numerator / denominator) < 2 ^ 53 := by
      rw [Nat.div_lt_iff_lt_mul (Nat.two_pow_pos _), ← pow_add]
      exact hlast.trans_le (Nat.pow_le_pow_right (by omega) (by unfold placesBeyond; omega))
    rw [Nat.pow_eq, Nat.pow_eq]
    exact signed_ofBits_ne_zero negative (by omega) (by omega)

-- ---------------------------------------------------------------------------
-- The size of a decimal
-- ---------------------------------------------------------------------------

/-- A number has as many digits as powers of ten are needed to reach it. -/
theorem digitCount_bounds (n : Nat) :
    n < 10 ^ digitCount n ∧ (n ≠ 0 → 10 ^ digitCount n ≤ 10 * n) := by
  induction n using digitCount.induct with
  | case1 => exact ⟨by simp [digitCount], fun h => absurd rfl h⟩
  | case2 n hn ih =>
    rw [digitCount, if_neg hn, pow_succ]
    refine ⟨by omega, fun _ => ?_⟩
    by_cases hlast : n / 10 = 0
    · rw [hlast, digitCount, if_pos rfl]
      omega
    · have hfront := ih.2 hlast
      omega

namespace Decimal

variable {d : Decimal}

/-- The digits of a decimal before its point; a negative count is one of zeros behind it. -/
def size (d : Decimal) : Int :=
  digitCount d.coefficient + d.exponent

/-- A decimal is below the power of ten of its size. -/
theorem value_lt (d : Decimal) : d.value < 10 ^ d.size := by
  have hcount : (d.coefficient : ℚ) < 10 ^ digitCount d.coefficient := by
    exact_mod_cast (digitCount_bounds d.coefficient).1
  rw [size, zpow_add₀ (by norm_num), zpow_natCast, value]
  exact mul_lt_mul_of_pos_right hcount (by positivity)

/-- A decimal other than zero is not below the power of ten before that. -/
theorem le_value (h : d.coefficient ≠ 0) : 10 ^ (d.size - 1) ≤ d.value := by
  have hcount : (10 : ℚ) ^ digitCount d.coefficient ≤ 10 * d.coefficient := by
    exact_mod_cast (digitCount_bounds d.coefficient).2 h
  have hpower : (0 : ℚ) < 10 ^ d.exponent := by positivity
  rw [size, zpow_sub₀ (by norm_num), zpow_add₀ (by norm_num), zpow_natCast, zpow_one, value,
    div_le_iff₀ (by norm_num)]
  calc (10 : ℚ) ^ digitCount d.coefficient * 10 ^ d.exponent
      ≤ 10 * d.coefficient * 10 ^ d.exponent := mul_le_mul_of_nonneg_right hcount hpower.le
    _ = d.coefficient * 10 ^ d.exponent * 10 := by ring

end Decimal

-- ---------------------------------------------------------------------------
-- Reading a decimal
-- ---------------------------------------------------------------------------

/-- The powers of two that bound what doubles stand for lie between powers of ten. -/
theorem two_pow_lt : (2 : ℚ) ^ 1024 < 10 ^ 309 ∧ (2 : ℚ) ^ 1075 < 10 ^ 324 := by
  have hmost : ((2 : ℚ) ^ 93) ^ 11 < ((10 : ℚ) ^ 28) ^ 11 := by
    gcongr
    norm_num
  rw [← pow_mul, ← pow_mul] at hmost
  constructor
  · calc (2 : ℚ) ^ 1024 = 2 ^ (93 * 11) * 2 ^ 1 := by rw [← pow_add]
      _ < 10 ^ (28 * 11) * 10 ^ 1 := by gcongr; norm_num
      _ = 10 ^ 309 := by rw [← pow_add]
  · calc (2 : ℚ) ^ 1075 = 2 ^ (93 * 11) * 2 ^ 52 := by rw [← pow_add]
      _ < 10 ^ (28 * 11) * 10 ^ 16 := by gcongr; norm_num
      _ = 10 ^ 324 := by rw [← pow_add]

/-- The numbers that positive doubles stand for are neither small nor large. -/
theorem range_of_covers {q : ℚ} (hsome : significand ≠ 0) (hsignificand : significand < 2 ^ 53)
    (hplaces : places ≤ 2045) (h : Covers significand (places - 1074) q) :
    10 ^ (-324 : Int) < q ∧ q < 10 ^ (309 : Int) := by
  obtain ⟨hlow, hhigh⟩ := h.bounds
  constructor
  · have hbelow := (quartersBelow_bounds significand (places - 1074)).2
    have hquarters : 2 ≤ 4 * significand - quartersBelow significand (places - 1074) := by
      omega
    calc (10 : ℚ) ^ (-324 : Int) < 2 ^ (-1075 : Int) := by
          rw [zpow_neg, zpow_neg]
          exact inv_strictAnti₀ (by positivity) (by exact_mod_cast two_pow_lt.2)
      _ = 2 * 2 ^ (-1076 : Int) := by rw [← zpow_one_add₀ (by norm_num)]; norm_num
      _ ≤ ((4 * significand - quartersBelow significand (places - 1074) : ℕ) : ℚ) *
            2 ^ ((places : Int) - 1074 - 2) := by
          gcongr
          · exact_mod_cast hquarters
          · norm_num
          · omega
      _ ≤ q := hlow
  · calc q ≤ ((4 * significand + 2 : ℕ) : ℚ) * 2 ^ ((places : Int) - 1074 - 2) := hhigh
      _ ≤ 2 ^ (55 : Int) * 2 ^ (969 : Int) := by
          gcongr
          · exact_mod_cast (by omega : 4 * significand + 2 ≤ 2 ^ 55)
          · norm_num
          · omega
      _ = 2 ^ (1024 : Int) := by rw [← zpow_add₀ (by norm_num)]; norm_num
      _ < 10 ^ (309 : Int) := by exact_mod_cast two_pow_lt.1

namespace Decimal

variable {d : Decimal}

/-- What a positive double stands for has no more than 309 digits before the point, and no more than
323 zeros behind it. -/
theorem size_of_covers (hsome : significand ≠ 0) (hsignificand : significand < 2 ^ 53)
    (hplaces : places ≤ 2045) (h : Covers significand (places - 1074) d.value) :
    d.coefficient ≠ 0 ∧ -323 ≤ d.size ∧ d.size ≤ 309 := by
  obtain ⟨hlow, hhigh⟩ := range_of_covers hsome hsignificand hplaces h
  have hcoefficient : d.coefficient ≠ 0 := by
    intro hzero
    have hvalue : d.value = 0 := by rw [value, hzero, Nat.cast_zero, zero_mul]
    rw [hvalue] at hlow
    exact absurd hlow (not_lt.mpr (by positivity))
  have hsmall : (10 : ℚ) ^ (-324 : Int) < 10 ^ d.size := hlow.trans d.value_lt
  have hlarge : (10 : ℚ) ^ (d.size - 1) < 10 ^ (309 : Int) :=
    (le_value hcoefficient).trans_lt hhigh
  rw [zpow_lt_zpow_iff_right₀ (by norm_num)] at hsmall hlarge
  exact ⟨hcoefficient, by omega, by omega⟩

/-- A decimal is a quotient of whole units. -/
theorem value_in_units (d : Decimal) {places : Nat} {smallest : Int} (h : smallest = -places) :
    ((d.coefficient * Nat.pow 10 d.exponent.toNat * Nat.pow 2 places : ℕ) : ℚ) /
      (Nat.pow 10 (-d.exponent).toNat : ℕ) * 2 ^ smallest = d.value := by
  rw [value, zpow_eq_div (by norm_num) d.exponent, h, zpow_neg, zpow_natCast]
  push_cast [Nat.pow_eq]
  field_simp

/-- A decimal that a positive double stands for is read as that double. -/
theorem toDouble_of_covers (hsome : significand ≠ 0) (hsignificand : significand < 2 ^ 53)
    (hplaces : places ≤ 2045) (hfull : places = 0 ∨ 2 ^ 52 ≤ significand)
    (h : Covers significand (places - 1074) d.value) :
    d.toDouble = Float.ofBits (UInt64.ofNat (magnitudeBits significand places)) := by
  obtain ⟨hcoefficient, hsmall, hlarge⟩ := size_of_covers hsome hsignificand hplaces h
  have hsize : (digitCount d.coefficient : Int) + d.exponent = d.size := rfl
  unfold toDouble
  dsimp only
  rw [hsize, if_neg (by omega), if_neg (by omega)]
  refine nearestDouble_of_covers (Nat.pow_pos (by omega)) hplaces hsignificand hfull ?_
  generalize hunit : (1074 : Nat) = unit
  rwa [d.value_in_units (by omega)]

/-- A whole decimal other than zero is not read as zero. -/
theorem toDouble_ne_zero (negative : Bool) {d : Decimal} (hsome : d.coefficient ≠ 0)
    (hwhole : 0 ≤ d.exponent) : signed negative d.toDouble ≠ 0.0 := by
  unfold toDouble
  dsimp only
  rw [if_neg (by omega)]
  split
  · cases negative <;> decide
  · refine nearestDouble_ne_zero negative (Nat.pow_pos (by omega)) ?_
    have hone : (-d.exponent).toNat = 0 := by omega
    rw [hone]
    generalize (1074 : Nat) = unit
    exact Nat.mul_pos (Nat.mul_pos (by omega) (Nat.pow_pos (by omega))) (Nat.two_pow_pos unit)

end Decimal

end Formulae.Number
