import Formulae.Proofs.Number.RoundingLimits
import Formulae.Proofs.Number.RoundingModes
import Formulae.Proofs.Number.ShortestDigits

/-!
# Exact rounding

A double whose shortest decimal is a scaled one is rounded as this decimal. To the right of the
point one division is enough, and the multiple that the mode chooses is always found. To the left of
it there are two roundings: the quotient by the power of ten is rounded at its 28th place, and then
to an integer. A shortest decimal is too short for the first rounding to bring it to one half, so
that it only matters if it makes zero of the quotient.

Main result:

* `roundTo?_exact` — the numbers that are rounded exactly, and what becomes of the others.
-/

namespace Formulae.Number

-- ---------------------------------------------------------------------------
-- Scaled decimals
-- ---------------------------------------------------------------------------

namespace ScaledDecimal

/-- The number that a scaled decimal is. -/
def value (s : ScaledDecimal) : ℚ :=
  s.coefficient / 10 ^ s.scale

/-- The coefficient has 96 bits, and there are at most 28 places. -/
structure Fits (s : ScaledDecimal) : Prop where
  coefficient_le : s.coefficient ≤ maxCoefficient
  scale_le : s.scale ≤ maxScale

/-- A fraction has at most seventeen digits. -/
def FewDigits (s : ScaledDecimal) : Prop :=
  s.scale ≠ 0 → s.coefficient < 10 ^ 17

end ScaledDecimal

/-- A decimal is a scaled one. -/
def Decimal.IsScaled (d : Decimal) : Prop :=
  ∃ s : ScaledDecimal, s.Fits ∧ s.value = d.value

/-- Whole decimals are scaled ones without places. -/
theorem ScaledDecimal.value_whole (m n : Nat) :
    value ⟨m * 10 ^ n, 0⟩ = Decimal.value ⟨m, n⟩ := by
  rw [value, Decimal.value, pow_zero, div_one, zpow_natCast]
  push_cast
  rfl

/-- Fractions are scaled decimals with the same coefficient. -/
theorem ScaledDecimal.value_fraction (coefficient places : Nat) :
    value ⟨coefficient, places⟩ = Decimal.value ⟨coefficient, -places⟩ := by
  rw [value, Decimal.value, zpow_neg, zpow_natCast, div_eq_mul_inv]

/-- Whole decimals are scaled ones up to the largest coefficient. -/
theorem Decimal.isScaled_whole_iff {m n : Nat} :
    IsScaled ⟨m, n⟩ ↔ m * 10 ^ n ≤ ScaledDecimal.maxCoefficient := by
  constructor
  · rintro ⟨s, hs, hvalue⟩
    rw [← ScaledDecimal.value_whole, ScaledDecimal.value, ScaledDecimal.value, pow_zero, div_one,
      div_eq_iff (by positivity)] at hvalue
    have hcoefficient : s.coefficient = m * 10 ^ n * 10 ^ s.scale := by exact_mod_cast hvalue
    calc m * 10 ^ n ≤ m * 10 ^ n * 10 ^ s.scale :=
          Nat.le_mul_of_pos_right _ (Nat.pow_pos (by omega))
      _ = s.coefficient := hcoefficient.symm
      _ ≤ ScaledDecimal.maxCoefficient := hs.coefficient_le
  · intro h
    exact ⟨⟨m * 10 ^ n, 0⟩, ⟨h, Nat.zero_le _⟩, ScaledDecimal.value_whole m n⟩

/-- Fractions without a zero at the end are scaled decimals as they stand. -/
theorem Decimal.fits_of_isScaled {coefficient places : Nat} (hlast : coefficient % 10 ≠ 0)
    (h : IsScaled ⟨coefficient, -places⟩) : ScaledDecimal.Fits ⟨coefficient, places⟩ := by
  obtain ⟨s, hs, hvalue⟩ := h
  rw [← ScaledDecimal.value_fraction, ScaledDecimal.value, ScaledDecimal.value,
    div_eq_div_iff (by positivity) (by positivity)] at hvalue
  have hcross : s.coefficient * 10 ^ places = coefficient * 10 ^ s.scale := by
    exact_mod_cast hvalue
  have hplaces : places ≤ s.scale := by
    by_contra hmore
    obtain ⟨more, hmore⟩ := Nat.exists_eq_add_of_lt (not_le.mp hmore)
    have hzero : coefficient = s.coefficient * 10 ^ more * 10 := by
      apply Nat.eq_of_mul_eq_mul_right (Nat.pow_pos (by omega) : 0 < 10 ^ s.scale)
      rw [← hcross, hmore]
      ring
    omega
  obtain ⟨fewer, hfewer⟩ := Nat.exists_eq_add_of_le hplaces
  have hcoefficient : s.coefficient = coefficient * 10 ^ fewer := by
    apply Nat.eq_of_mul_eq_mul_right (Nat.pow_pos (by omega) : 0 < 10 ^ places)
    rw [hcross, hfewer]
    ring
  refine ⟨?_, hplaces.trans hs.scale_le⟩
  calc coefficient ≤ coefficient * 10 ^ fewer :=
        Nat.le_mul_of_pos_right _ (Nat.pow_pos (by omega))
    _ = s.coefficient := hcoefficient.symm
    _ ≤ ScaledDecimal.maxCoefficient := hs.coefficient_le

/-- A shortest decimal that is a scaled one is made into that. -/
theorem ofDecimal?_of_isScaled {d : Decimal} (hnormal : d = ⟨0, 0⟩ ∨ d.coefficient % 10 ≠ 0)
    (h : d.IsScaled) :
    ∃ s, ScaledDecimal.ofDecimal? d = some s ∧ s.Fits ∧ s.value = d.value ∧
      s.scale = (-d.exponent).toNat ∧ (s.scale ≠ 0 → s.coefficient = d.coefficient) := by
  obtain ⟨coefficient, exponent⟩ := d
  unfold ScaledDecimal.ofDecimal?
  dsimp only at hnormal ⊢
  by_cases hwhole : 0 ≤ exponent
  · obtain ⟨n, rfl⟩ := Int.eq_ofNat_of_zero_le hwhole
    have hle := Decimal.isScaled_whole_iff.mp h
    rw [if_pos hwhole, Int.toNat_natCast, Nat.pow_eq, if_pos hle]
    exact ⟨_, rfl, ⟨hle, Nat.zero_le _⟩, ScaledDecimal.value_whole coefficient n, by simp,
      fun hne => absurd rfl hne⟩
  · obtain ⟨places, rfl⟩ : ∃ places : Nat, exponent = -places := ⟨exponent.natAbs, by omega⟩
    have hlast := hnormal.resolve_left fun hzero => by
      rw [Decimal.mk.injEq] at hzero
      omega
    have hfits := Decimal.fits_of_isScaled hlast h
    rw [if_neg hwhole, Int.natAbs_neg, Int.natAbs_natCast, if_pos hfits.scale_le]
    exact ⟨_, rfl, hfits, ScaledDecimal.value_fraction coefficient places, by simp, fun _ => rfl⟩

-- ---------------------------------------------------------------------------
-- Steps
-- ---------------------------------------------------------------------------

variable {mode : RoundingMode} {negative : Bool} {s : ScaledDecimal} {n : Nat} {z places : Int}

namespace ScaledDecimal

/-- The number of steps of `10 ^ -places` that a scaled decimal is rounded to. -/
def steps (s : ScaledDecimal) (mode : RoundingMode) (negative : Bool) (places : Int) : Nat :=
  mode.roundQuotient negative (s.coefficient * 10 ^ (places - s.scale).toNat)
    (10 ^ (s.scale - places).toNat)

/-- The mode chooses this number of steps. -/
theorem rounds_steps : mode.Rounds (signedValue negative (s.value * 10 ^ places)) z ↔
    z = signedInt negative (s.steps mode negative places) := by
  have hquotient : s.value * 10 ^ places = (s.coefficient * 10 ^ (places - s.scale).toNat : ℕ) /
      (10 ^ (s.scale - places).toNat : ℕ) := by
    rw [value, div_mul_eq_mul_div, mul_div_assoc, ← zpow_natCast, ← zpow_sub₀ (by norm_num),
      zpow_eq_div (by norm_num), neg_sub, ← mul_div_assoc]
    push_cast
    rfl
  rw [hquotient]
  exact RoundingMode.rounds_iff (Nat.pow_pos (by omega))

-- ---------------------------------------------------------------------------
-- Places right of the point
-- ---------------------------------------------------------------------------

/-- A scaled decimal is rounded to that number of steps, at its own scale if that is smaller. -/
theorem value_roundTo : (s.roundTo mode negative n).value =
    Decimal.value ⟨s.steps mode negative n, -n⟩ := by
  rw [← value_fraction, value, value, steps, Int.toNat_sub, Int.toNat_sub, roundTo]
  split
  · rename_i hle
    rw [Nat.sub_eq_zero_of_le hle, pow_zero, RoundingMode.roundQuotient_one,
      div_eq_div_iff (by positivity) (by positivity)]
    push_cast
    rw [mul_assoc, ← pow_add, Nat.sub_add_cancel hle]
  · rename_i hlt
    rw [Nat.sub_eq_zero_of_le (by omega : n ≤ s.scale), pow_zero, mul_one]
    rfl

/-- A decimal is rounded to no more places than it has. -/
theorem scale_roundTo : (s.roundTo mode negative n).scale = min s.scale n := by
  unfold roundTo
  split
  · rename_i hle
    exact (Nat.min_eq_left hle).symm
  · rename_i hlt
    exact (Nat.min_eq_right (Nat.le_of_not_le hlt)).symm

/-- Rounding does not make the coefficient too large. -/
theorem Fits.roundTo (h : s.Fits) : (s.roundTo mode negative n).Fits := by
  refine ⟨?_, ?_⟩
  · unfold ScaledDecimal.roundTo
    split
    · exact h.coefficient_le
    · rename_i hlt
      have hmost := (mode.roundQuotient_bounds negative s.coefficient
        (Nat.pow 10 (s.scale - n))).2
      have hten : s.coefficient / Nat.pow 10 (s.scale - n) ≤ s.coefficient / 10 :=
        Nat.div_le_div_left (Nat.le_self_pow (by omega) 10) (by omega)
      have hle := h.coefficient_le
      have hlimit : 10 ≤ maxCoefficient := by decide
      dsimp only
      omega
  · rw [scale_roundTo]
    exact (Nat.min_le_left ..).trans h.scale_le

-- ---------------------------------------------------------------------------
-- Places left of the point
-- ---------------------------------------------------------------------------

/-- Left of the point the steps come of one division. -/
theorem steps_neg : s.steps mode negative (-n) =
    mode.roundQuotient negative s.coefficient (10 ^ (s.scale + n)) := by
  have hnone : (-(n : Int) - s.scale).toNat = 0 := by omega
  have hboth : ((s.scale : Int) - -n).toNat = s.scale + n := by omega
  rw [steps, hnone, hboth, pow_zero, mul_one]

/-- The quotient by `10 ^ n` is at most one half of a unit of the last place of scaled decimals. -/
def Vanishes (s : ScaledDecimal) (n : Nat) : Prop :=
  2 * s.coefficient * 10 ^ maxScale ≤ 10 ^ (s.scale + n)

/-- A decimal vanishes if it is at most half of the last place when divided by the power of ten. -/
theorem vanishes_iff : s.Vanishes n ↔ s.value * 10 ^ (-n : Int) ≤ 1 / (2 * 10 ^ maxScale) := by
  rw [value, zpow_neg, zpow_natCast, ← div_eq_mul_inv, div_div, ← pow_add,
    div_le_div_iff₀ (by positivity) (by positivity), one_mul, Vanishes, mul_left_comm, ← mul_assoc]
  exact_mod_cast Iff.rfl

end ScaledDecimal

/-- A quotient of less than one half goes to zero or one, whatever it is. -/
theorem RoundingMode.roundQuotient_of_small (mode : RoundingMode) (negative : Bool)
    {a b c d : Nat} (hab : 2 * a < b) (hcd : 2 * c < d) (hzero : a = 0 ↔ c = 0) :
    mode.roundQuotient negative a b = mode.roundQuotient negative c d := by
  unfold roundQuotient
  dsimp only
  rw [Nat.div_eq_of_lt (by omega), Nat.div_eq_of_lt (by omega), Nat.mod_eq_of_lt (by omega),
    Nat.mod_eq_of_lt (by omega)]
  cases mode <;> simp [goesUp] <;> grind

/-- A quotient of at most one half is rounded to zero, and no other one. -/
theorem halfEven_eq_zero_iff {dividend divisor : Nat} (hpos : 0 < divisor) :
    RoundingMode.halfEven.roundQuotient false dividend divisor = 0 ↔ 2 * dividend ≤ divisor := by
  have hdivide := Nat.div_add_mod dividend divisor
  have hrest := Nat.mod_lt dividend hpos
  have hbelow : dividend < divisor → dividend / divisor = 0 := Nat.div_eq_of_lt
  unfold RoundingMode.roundQuotient RoundingMode.goesUp
  dsimp only
  generalize dividend % divisor = rest at hdivide hrest ⊢
  generalize dividend / divisor = below at hdivide hbelow ⊢
  by_cases hzero : below = 0
  · rw [hzero, Nat.mul_zero, Nat.zero_add] at hdivide
    rw [hzero, hdivide]
    simp
  · -- an integer part is more than one half
    have hlarge : divisor ≤ divisor * below := Nat.le_mul_of_pos_right _ (Nat.pos_of_ne_zero hzero)
    split <;> omega

/-- Zero is rounded to zero. -/
theorem RoundingMode.roundQuotient_zero (mode : RoundingMode) (negative : Bool) {divisor : Nat}
    (hpos : 0 < divisor) : mode.roundQuotient negative 0 divisor = 0 := by
  rw [mode.roundQuotient_of_small negative (c := 0) (d := 1) (by omega) (by omega) Iff.rfl,
    roundQuotient_one]

namespace ScaledDecimal

/-- What is left of a quotient with more than 28 places. -/
theorem shiftRight_of_more (hmore : maxScale < s.scale + n) : s.shiftRight n =
    ⟨RoundingMode.halfEven.roundQuotient false s.coefficient (10 ^ (s.scale + n - maxScale)),
      maxScale⟩ := by
  rw [shiftRight, if_neg (by omega)]
  rfl

/-- A quotient with more than 28 places vanishes just where nothing is left of it. -/
theorem vanishes_iff_of_more (hmore : maxScale < s.scale + n) :
    s.Vanishes n ↔ (s.shiftRight n).coefficient = 0 := by
  have hunit : 0 < 10 ^ (s.scale + n - maxScale) := Nat.pow_pos (by omega)
  have hpower : 10 ^ (s.scale + n) = 10 ^ (s.scale + n - maxScale) * 10 ^ maxScale := by
    rw [← pow_add, Nat.sub_add_cancel hmore.le]
  rw [shiftRight_of_more hmore, halfEven_eq_zero_iff hunit, Vanishes, hpower,
    Nat.mul_le_mul_right_iff (Nat.pow_pos (by omega))]

/-- A decimal that has more than 28 places after a division by at most `10 ^ 28` is a fraction, and
so it has few digits. The quotient is far below one half, and so is what is left of it. -/
theorem small_of_more (hdigits : s.FewDigits) (hn : n ≤ maxScale)
    (hmore : maxScale < s.scale + n) :
    2 * s.coefficient < 10 ^ (s.scale + n) ∧
      2 * (s.shiftRight n).coefficient < 10 ^ maxScale := by
  have hfew := hdigits (by omega)
  have hpower : 10 ^ maxScale ≤ 10 ^ (s.scale + n) := Nat.pow_le_pow_right (by omega) hmore.le
  have hscale : 10 ^ 28 = 10 ^ maxScale := rfl
  have hleft := (RoundingMode.halfEven.roundQuotient_bounds false s.coefficient
    (10 ^ (s.scale + n - maxScale))).2
  have hless := Nat.div_le_self s.coefficient (10 ^ (s.scale + n - maxScale))
  rw [shiftRight_of_more hmore]
  dsimp only
  omega

/-- The quotient that is rounded twice is rounded to zero if it vanishes, and else as the quotient
itself. -/
theorem coefficient_roundTo_shiftRight (mode : RoundingMode) (negative : Bool)
    (hdigits : s.FewDigits) (hn : n ≤ maxScale) :
    (s.Vanishes n → ((s.shiftRight n).roundTo mode negative 0).coefficient = 0) ∧
      (¬s.Vanishes n → ((s.shiftRight n).roundTo mode negative 0).coefficient =
        s.steps mode negative (-n)) := by
  rw [coefficient_roundTo_zero, steps_neg]
  by_cases hmore : maxScale < s.scale + n
  · have hscale : (s.shiftRight n).scale = maxScale := by rw [shiftRight_of_more hmore]
    have hnone : s.coefficient = 0 → s.Vanishes n := fun h => by
      rw [Vanishes, h]
      exact Nat.zero_le _
    obtain ⟨hquotient, hleft⟩ := small_of_more hdigits hn hmore
    rw [hscale]
    refine ⟨fun h => ?_, fun h => ?_⟩
    · rw [(vanishes_iff_of_more hmore).mp h]
      exact mode.roundQuotient_zero negative (Nat.pow_pos (by omega))
    · rw [mode.roundQuotient_of_small negative hleft hquotient]
      rw [← vanishes_iff_of_more hmore]
      exact ⟨fun hzero => absurd hzero h, fun hzero => absurd (hnone hzero) h⟩
  · have hshift : s.shiftRight n = ⟨s.coefficient, s.scale + n⟩ := by
      rw [shiftRight, if_pos (by omega)]
    rw [hshift]
    refine ⟨fun h => ?_, fun _ => rfl⟩
    -- with up to 28 places only zero vanishes
    have hpower : 10 ^ (s.scale + n) ≤ 10 ^ maxScale := Nat.pow_le_pow_right (by omega) (by omega)
    have hzero : 2 * s.coefficient ≤ 1 :=
      Nat.le_of_mul_le_mul_right ((h.trans hpower).trans_eq (Nat.one_mul _).symm)
        (Nat.pow_pos (by omega))
    rw [show s.coefficient = 0 by omega]
    exact mode.roundQuotient_zero negative (Nat.pow_pos (by omega))

end ScaledDecimal

/-- No coefficient reaches the powers of ten with more than 28 zeros. -/
theorem maxCoefficient_lt_pow (h : 28 < n) : ScaledDecimal.maxCoefficient < 10 ^ n :=
  calc ScaledDecimal.maxCoefficient < 10 ^ 29 := by decide
    _ ≤ 10 ^ n := Nat.pow_le_pow_right (by omega) h

/-- A multiple that is a scaled decimal is found, unless the quotient vanishes. -/
theorem roundLeft?_of_fits (hdigits : s.FewDigits)
    (hfits : s.steps mode negative (-n) * 10 ^ n ≤ ScaledDecimal.maxCoefficient)
    (hkept : s.steps mode negative (-n) = 0 ∨ ¬s.Vanishes n) :
    roundLeft? mode negative n s = some ⟨s.steps mode negative (-n) * 10 ^ n, 0⟩ := by
  unfold roundLeft?
  split
  · rename_i hlarge
    -- no other multiple of such a power fits
    have hnone : s.steps mode negative (-n) = 0 := by
      by_contra hsome
      have hle := Nat.le_mul_of_pos_left (10 ^ n) (Nat.pos_of_ne_zero hsome)
      have hlimit := maxCoefficient_lt_pow hlarge
      omega
    rw [hnone, Nat.zero_mul]
  · rename_i hsmall
    obtain ⟨hzero, hsteps⟩ := ScaledDecimal.coefficient_roundTo_shiftRight mode negative hdigits
      (Nat.le_of_not_lt hsmall)
    have hquotient : ((s.shiftRight n).roundTo mode negative 0).coefficient =
        s.steps mode negative (-n) := by
      rcases hkept with hnone | hkept
      · by_cases hvanishes : s.Vanishes n
        · rw [hzero hvanishes, hnone]
        · exact hsteps hvanishes
      · exact hsteps hkept
    dsimp only
    rw [hquotient]
    exact if_pos hfits

/-- A quotient that vanishes is rounded to zero. -/
theorem roundLeft?_of_vanishes (hdigits : s.FewDigits)
    (h : s.Vanishes n) : roundLeft? mode negative n s = some ⟨0, 0⟩ := by
  unfold roundLeft?
  split
  · rfl
  · rename_i hsmall
    dsimp only
    rw [(ScaledDecimal.coefficient_roundTo_shiftRight mode negative hdigits
      (Nat.le_of_not_lt hsmall)).1 h, Nat.zero_mul, if_pos (Nat.zero_le _)]

/-- It is at most one step from zero. -/
theorem ScaledDecimal.Vanishes.steps_neg_le (mode : RoundingMode) (negative : Bool)
    (h : s.Vanishes n) : s.steps mode negative (-n) ≤ 1 := by
  have hless : s.coefficient < 10 ^ (s.scale + n) := by
    have hscale : maxScale = 28 := rfl
    rw [Vanishes, hscale] at h
    have hpos : 0 < 10 ^ (s.scale + n) := Nat.pow_pos (by omega)
    omega
  have hbounds := (mode.roundQuotient_bounds negative s.coefficient (10 ^ (s.scale + n))).2
  rwa [Nat.div_eq_of_lt hless, ← steps_neg] at hbounds

/-- A multiple beyond the largest coefficient is not found, and with more than 28 places zero is
taken for it. -/
theorem roundLeft?_of_beyond (hdigits : s.FewDigits)
    (h : ScaledDecimal.maxCoefficient < s.steps mode negative (-n) * 10 ^ n) :
    roundLeft? mode negative n s = if n ≤ 28 then none else some ⟨0, 0⟩ := by
  unfold roundLeft?
  split
  · rename_i hlarge
    exact (if_neg (Nat.not_le.mpr hlarge)).symm
  · rename_i hsmall
    have hle : n ≤ 28 := Nat.le_of_not_lt hsmall
    have hkept : ¬s.Vanishes n := by
      intro hvanishes
      have hpower : 10 ^ n ≤ 10 ^ 28 := Nat.pow_le_pow_right (by omega) hle
      have hlimit : 10 ^ 28 ≤ ScaledDecimal.maxCoefficient := by decide
      have hmost := Nat.mul_le_mul_right (10 ^ n) (hvanishes.steps_neg_le mode negative)
      omega
    dsimp only
    rw [(ScaledDecimal.coefficient_roundTo_shiftRight mode negative hdigits hle).2 hkept,
      if_pos hle]
    exact if_neg (Nat.not_le.mpr h)

-- ---------------------------------------------------------------------------
-- Doubles
-- ---------------------------------------------------------------------------

/-- The double of a multiple of a power of ten. If the multiple is a scaled decimal, it is made of
that one, at the given scale; else it is the nearest one. -/
def IsDoubleOf (negative : Bool) (scale : Nat) (multiple : Decimal) (y : Float) : Prop :=
  (multiple.IsScaled → ∃ s : ScaledDecimal, s.Fits ∧ s.value = multiple.value ∧
    s.scale = scale ∧ y = signedNumber negative s) ∧
  (¬multiple.IsScaled → y = signed negative multiple.toDouble)

/-- Left of the point, a number of at most one half of the 28th place of the multiples is lost. -/
def IsLost (d : Decimal) (places z : Int) : Prop :=
  places < 0 ∧ z ≠ 0 ∧ d.value * 10 ^ places ≤ 1 / (2 * 10 ^ ScaledDecimal.maxScale)

variable {m : Nat}

/-- Right of the point every multiple is a scaled decimal. -/
theorem isDoubleOf_right (mode : RoundingMode) (negative : Bool) (n : Nat) (h : s.Fits) :
    Decimal.IsScaled ⟨s.steps mode negative n, -n⟩ ∧
      IsDoubleOf negative (min s.scale n) ⟨s.steps mode negative n, -n⟩
        (signedNumber negative (s.roundTo mode negative n)) := by
  have hscaled : Decimal.IsScaled ⟨s.steps mode negative n, -n⟩ :=
    ⟨_, h.roundTo, ScaledDecimal.value_roundTo⟩
  refine ⟨hscaled, fun _ => ⟨_, h.roundTo, ScaledDecimal.value_roundTo, ?_, rfl⟩,
    fun hbeyond => absurd hscaled hbeyond⟩
  exact ScaledDecimal.scale_roundTo

/-- A multiple within the largest coefficient is a scaled decimal without places, and has its
double. -/
theorem isDoubleOf_whole (h : m * 10 ^ n ≤ ScaledDecimal.maxCoefficient) :
    IsDoubleOf negative 0 ⟨m, n⟩ (signedNumber negative ⟨m * 10 ^ n, 0⟩) := by
  refine ⟨fun _ => ⟨⟨m * 10 ^ n, 0⟩, ⟨h, Nat.zero_le _⟩, ?_, rfl, rfl⟩, fun hbeyond => ?_⟩
  · exact ScaledDecimal.value_whole m n
  · exact absurd (Decimal.isScaled_whole_iff.mpr h) hbeyond

/-- Powers of ten are not zero as doubles. -/
theorem signedNumber_pow_ne_zero :
    ∀ negative : Bool, ∀ n < 29, signedNumber negative ⟨10 ^ n, 0⟩ ≠ 0.0 := by
  decide +kernel

/-- Zero is not the double of a power of ten, nor of a multiple that is no scaled decimal. -/
theorem not_isDoubleOf_zero (h : m = 1 ∧ n ≤ 28 ∨ ScaledDecimal.maxCoefficient < m * 10 ^ n) :
    ¬IsDoubleOf negative 0 ⟨m, n⟩ 0.0 := by
  rintro ⟨hscaled, hnearest⟩
  rcases h with ⟨rfl, hn⟩ | hbeyond
  · have hle : 1 * 10 ^ n ≤ ScaledDecimal.maxCoefficient :=
      calc 1 * 10 ^ n ≤ 10 ^ 28 := by
            rw [Nat.one_mul]
            exact Nat.pow_le_pow_right (by omega) hn
        _ ≤ ScaledDecimal.maxCoefficient := by decide
    obtain ⟨⟨coefficient, scale⟩, -, hvalue, hscale, hzero⟩ :=
      hscaled (Decimal.isScaled_whole_iff.mpr hle)
    dsimp only at hscale
    subst hscale
    have hcoefficient : coefficient = 10 ^ n := by
      rw [← ScaledDecimal.value_whole, ScaledDecimal.value, ScaledDecimal.value, pow_zero, div_one,
        div_one, Nat.one_mul] at hvalue
      exact_mod_cast hvalue
    rw [hcoefficient] at hzero
    exact signedNumber_pow_ne_zero negative n (by omega) hzero.symm
  · have hsome : m ≠ 0 := by
      rintro rfl
      rw [Nat.zero_mul] at hbeyond
      exact Nat.not_lt_zero _ hbeyond
    exact Decimal.toDouble_ne_zero negative hsome (Int.natCast_nonneg n)
      (hnearest fun h => Nat.not_lt.mpr (Decimal.isScaled_whole_iff.mp h) hbeyond).symm

/-- Left of the point the double of the multiple is found just where the multiple is a scaled
decimal, and is zero if the quotient vanishes. -/
theorem exists_isDoubleOf_left_iff (hdigits : s.FewDigits) :
    (∃ y, (roundLeft? mode negative n s).map (signedNumber negative) = some y ∧
        IsDoubleOf negative 0 ⟨s.steps mode negative (-n), n⟩ y) ↔
      s.steps mode negative (-n) * 10 ^ n ≤ ScaledDecimal.maxCoefficient ∧
        ¬(s.steps mode negative (-n) ≠ 0 ∧ s.Vanishes n) := by
  by_cases hfits : s.steps mode negative (-n) * 10 ^ n ≤ ScaledDecimal.maxCoefficient
  · by_cases hkept : s.steps mode negative (-n) = 0 ∨ ¬s.Vanishes n
    · rw [roundLeft?_of_fits hdigits hfits hkept]
      have hnot : ¬(s.steps mode negative (-n) ≠ 0 ∧ s.Vanishes n) := by tauto
      exact iff_of_true ⟨_, rfl, isDoubleOf_whole hfits⟩ ⟨hfits, hnot⟩
    · rw [not_or, not_not] at hkept
      rw [roundLeft?_of_vanishes hdigits hkept.2]
      have hstep : s.steps mode negative (-n) = 1 := by
        have hle := hkept.2.steps_neg_le mode negative
        omega
      have hplaces : n ≤ 28 := by
        by_contra hlarge
        rw [hstep, Nat.one_mul] at hfits
        exact absurd hfits (not_le.mpr (maxCoefficient_lt_pow (not_le.mp hlarge)))
      refine iff_of_false ?_ fun h => h.2 hkept
      rintro ⟨y, hy, hdouble⟩
      obtain rfl : 0.0 = y := Option.some.inj hy
      exact not_isDoubleOf_zero (.inl ⟨hstep, hplaces⟩) hdouble
  · rw [roundLeft?_of_beyond hdigits (not_le.mp hfits)]
    refine iff_of_false ?_ fun h => hfits h.1
    rintro ⟨y, hy, hdouble⟩
    split at hy
    · exact absurd hy (by simp)
    · obtain rfl : 0.0 = y := Option.some.inj hy
      exact not_isDoubleOf_zero (.inr (not_le.mp hfits)) hdouble

-- ---------------------------------------------------------------------------
-- Rounding doubles
-- ---------------------------------------------------------------------------

variable {x : Float} {significand : Nat} {exponent : Int} {d : Decimal}

theorem natAbs_signedInt (negative : Bool) (m : Nat) : (signedInt negative m).natAbs = m := by
  cases negative <;> simp [signedInt]

theorem signedInt_eq_zero_iff : signedInt negative m = 0 ↔ m = 0 := by
  rw [← Int.natAbs_eq_zero, natAbs_signedInt]

/-- A double whose shortest decimal is a scaled one is rounded as that one. -/
theorem roundTo?_eq (hparts : parts x = .finite negative significand exponent)
    (hs : ScaledDecimal.ofDecimal? (shortest significand exponent) = some s) :
    roundTo? mode x places =
      if 0 ≤ places then some (signedNumber negative (s.roundTo mode negative places.toNat))
      else (roundLeft? mode negative places.natAbs s).map (signedNumber negative) := by
  unfold roundTo?
  rw [hparts]
  dsimp only
  rw [hs]

/-- A double whose shortest decimal is a scaled one is rounded to the multiple that the mode chooses
for the decimal, unless the multiple is no scaled decimal or the decimal is lost in a division. A
multiple that is none has no answer with up to 28 places left of the point; in all other cases zero
is the answer. -/
theorem roundTo?_exact (hparts : parts x = .finite negative significand exponent)
    (hd : shortest significand exponent = d) (hscaled : d.IsScaled) (mode : RoundingMode)
    (places : Int) :
    ∃ z : Int, (∀ other, mode.Rounds (signedValue negative (d.value * 10 ^ places)) other ↔
        other = z) ∧
      ((∃ y, roundTo? mode x places = some y ∧
          IsDoubleOf negative (min (-d.exponent).toNat places.toNat) ⟨z.natAbs, -places⟩ y) ↔
        Decimal.IsScaled ⟨z.natAbs, -places⟩ ∧ ¬IsLost d places z) ∧
      (¬Decimal.IsScaled ⟨z.natAbs, -places⟩ →
        roundTo? mode x places = if -28 ≤ places then none else some 0.0) ∧
      (IsLost d places z → roundTo? mode x places = some 0.0) := by
  obtain ⟨-, -, -, hsignificand, -, -⟩ := parts_bounds hparts
  have hnormal := shortest_normal exponent hsignificand
  have hfew := shortest_lt exponent hsignificand
  rw [hd] at hnormal hfew
  obtain ⟨s, hs, hfits, hvalue, hscale, hcoefficient⟩ := ofDecimal?_of_isScaled hnormal hscaled
  have hdigits : s.FewDigits := fun h => by rwa [hcoefficient h]
  rw [← hd] at hs
  rw [← hvalue, ← hscale]
  refine ⟨signedInt negative (s.steps mode negative places),
    fun _ => ScaledDecimal.rounds_steps, ?_⟩
  rw [natAbs_signedInt, roundTo?_eq hparts hs]
  by_cases hright : 0 ≤ places
  · obtain ⟨n, rfl⟩ := Int.eq_ofNat_of_zero_le hright
    obtain ⟨hmultiple, hdouble⟩ := isDoubleOf_right mode negative n hfits
    have hkept (z : Int) : ¬IsLost d n z := fun h => absurd h.1 (not_lt.mpr hright)
    rw [if_pos hright, Int.toNat_natCast]
    exact ⟨⟨fun _ => ⟨hmultiple, hkept _⟩, fun _ => ⟨_, rfl, hdouble⟩⟩,
      fun hbeyond => absurd hmultiple hbeyond, fun hlost => absurd hlost (hkept _)⟩
  · obtain ⟨n, rfl⟩ : ∃ n : Nat, places = -n := ⟨places.natAbs, by omega⟩
    have hlost : IsLost d (-n) (signedInt negative (s.steps mode negative (-n))) ↔
        s.steps mode negative (-n) ≠ 0 ∧ s.Vanishes n := by
      rw [IsLost, ScaledDecimal.vanishes_iff, ← hvalue, Ne, signedInt_eq_zero_iff]
      exact and_iff_right (not_le.mp hright)
    have hnone : (-(n : Int)).toNat = 0 := by omega
    rw [if_neg hright, hlost, neg_neg, Decimal.isScaled_whole_iff, Int.natAbs_neg,
      Int.natAbs_natCast, hnone, Nat.min_zero]
    refine ⟨exists_isDoubleOf_left_iff hdigits, fun hbeyond => ?_, fun hlost => ?_⟩
    · rw [roundLeft?_of_beyond hdigits (not_le.mp hbeyond)]
      split
      · rw [if_pos (by omega)]
        rfl
      · rw [if_neg (by omega)]
        rfl
    · rw [roundLeft?_of_vanishes hdigits hlost.2]
      rfl

/-- Away from zero, 0.4 is rounded to ten octillions, but its quotient by them is lost. -/
theorem roundTo?_exact_octillions :
    parts 0.4 = .finite false 7205759403792794 (-54) ∧
      shortest 7205759403792794 (-54) = ⟨4, -1⟩ ∧ Decimal.IsScaled ⟨4, -1⟩ ∧
      RoundingMode.up.Rounds (signedValue false (Decimal.value ⟨4, -1⟩ * 10 ^ (-28 : Int))) 1 ∧
      roundTo? .up 0.4 (-28) = some 0.0 ∧
      ¬∃ y, roundTo? .up 0.4 (-28) = some y ∧ IsDoubleOf false 0 ⟨1, 28⟩ y := by
  have hparts : parts 0.4 = .finite false 7205759403792794 (-54) := by decide
  have hd : shortest 7205759403792794 (-54) = ⟨4, -1⟩ := by decide +kernel
  have hscaled : Decimal.IsScaled ⟨4, -1⟩ :=
    ⟨⟨4, 1⟩, ⟨by decide, by decide⟩, by norm_num [ScaledDecimal.value, Decimal.value]⟩
  have hrounds : RoundingMode.up.Rounds
      (signedValue false (Decimal.value ⟨4, -1⟩ * 10 ^ (-28 : Int))) 1 := by
    have hquotient : signedValue false (Decimal.value ⟨4, -1⟩ * 10 ^ (-28 : Int)) =
        4 / 10 ^ 29 := by
      norm_num [signedValue, Decimal.value]
    rw [hquotient]
    refine ⟨fun _ => (Int.ceil_eq_iff.mpr ?_).symm, fun h => absurd h ?_⟩ <;> norm_num
  have hlost : IsLost ⟨4, -1⟩ (-28) 1 := by
    refine ⟨by omega, by omega, ?_⟩
    norm_num [Decimal.value, ScaledDecimal.maxScale]
  obtain ⟨z, hz, hiff, -, hzero⟩ := roundTo?_exact hparts hd hscaled .up (-28)
  obtain rfl : 1 = z := (hz 1).mp hrounds
  exact ⟨hparts, hd, hscaled, hrounds, hzero hlost, fun h => (hiff.mp h).2 hlost⟩

end Formulae.Number
