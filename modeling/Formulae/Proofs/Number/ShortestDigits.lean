import Formulae.Proofs.Number.NearestDouble

/-!
# Seventeen digits

The shortest decimal of a double is searched for on grids of finer and finer steps. On the grid
where the seventeenth digit of the double is the last one, the step is smaller than the width of
what the double stands for, so that one of the two multiples around it is in there. The search
never goes without an answer, and no shortest decimal has more digits.

Main results:

* `decade_bounds` — a quotient lies between the powers of ten of its decade.
* `exists_shortest` — the shortest decimal is found on one of seventeen grids.
* `shortest_lt` — the shortest decimal of a double has at most seventeen digits.
-/

namespace Formulae.Number

-- ---------------------------------------------------------------------------
-- The decade of a quotient
-- ---------------------------------------------------------------------------

/-- A quotient lies between the powers of ten of its decade. -/
theorem decade_bounds {numerator denominator : Nat} (hnumerator : 0 < numerator)
    (hdenominator : 0 < denominator) :
    (10 : ℚ) ^ (decade numerator denominator - 1) ≤ numerator / denominator ∧
      (numerator : ℚ) / denominator < 10 ^ decade numerator denominator := by
  have hd : (0 : ℚ) < denominator := by exact_mod_cast hdenominator
  have hten : (10 : ℚ) ≠ 0 := by norm_num
  unfold decade
  split
  · rename_i hle
    obtain ⟨hlt, hge⟩ := digitCount_bounds (numerator / denominator)
    replace hge := hge (Nat.div_pos hle hdenominator).ne'
    generalize digitCount (numerator / denominator) = count at hlt hge ⊢
    have hmul : 10 ^ count * denominator ≤ 10 * numerator :=
      calc 10 ^ count * denominator ≤ 10 * (numerator / denominator) * denominator :=
            Nat.mul_le_mul_right _ hge
        _ = 10 * (numerator / denominator * denominator) := Nat.mul_assoc ..
        _ ≤ 10 * numerator := Nat.mul_le_mul_left _ (Nat.div_mul_le_self ..)
    constructor
    · rw [zpow_sub₀ hten, zpow_one, zpow_natCast, div_le_div_iff₀ (by norm_num) hd,
        mul_comm (numerator : ℚ)]
      exact_mod_cast hmul
    · rw [zpow_natCast, div_lt_iff₀ hd]
      exact_mod_cast (Nat.div_lt_iff_lt_mul hdenominator).mp hlt
  · rename_i hlt
    have hn : (0 : ℚ) < numerator := by exact_mod_cast hnumerator
    obtain ⟨hcount, hge⟩ := digitCount_bounds ((denominator - 1) / numerator)
    replace hge := hge (Nat.div_pos (by omega) hnumerator).ne'
    generalize digitCount ((denominator - 1) / numerator) = count at hcount hge ⊢
    have hhigh : denominator ≤ 10 ^ count * numerator := by
      have hless := (Nat.div_lt_iff_lt_mul hnumerator).mp hcount
      omega
    have hlow : 10 ^ count * numerator < 10 * denominator :=
      calc 10 ^ count * numerator ≤ 10 * ((denominator - 1) / numerator) * numerator :=
            Nat.mul_le_mul_right _ hge
        _ = 10 * ((denominator - 1) / numerator * numerator) := Nat.mul_assoc ..
        _ ≤ 10 * (denominator - 1) := Nat.mul_le_mul_left _ (Nat.div_mul_le_self ..)
        _ < 10 * denominator := by omega
    constructor
    · rw [sub_sub_cancel_left, zpow_neg, zpow_natCast, inv_eq_one_div,
        div_le_div_iff₀ (by positivity) hd, mul_comm (numerator : ℚ), one_mul]
      exact_mod_cast hhigh
    · rw [zpow_sub₀ hten, zpow_one, zpow_natCast, div_lt_div_iff₀ hd (by positivity),
        mul_comm (numerator : ℚ)]
      exact_mod_cast hlow

-- ---------------------------------------------------------------------------
-- The two multiples around a double
-- ---------------------------------------------------------------------------

namespace Interval

variable {significand : Nat} {exponent k : Int} {d : Decimal}

/-- The middle of the interval is the double. -/
theorem value_middle :
    ((ofDouble significand exponent).middle : ℚ) / (ofDouble significand exponent).unit =
      significand * 2 ^ exponent := by
  rw [value_eq_quarters, zpow_eq_div (by norm_num), neg_sub]
  simp only [ofDouble, Nat.pow_eq]
  push_cast
  ring

/-- The number of steps of a grid below the double. -/
def stepsBelow (i : Interval) (k : Int) : Nat :=
  i.middle * Nat.pow 10 (-k).toNat / (Nat.pow 10 k.toNat * i.unit)

/-- The double lies between the two multiples around it. -/
theorem stepsBelow_bounds :
    Decimal.value ⟨(ofDouble significand exponent).stepsBelow k, k⟩ ≤
        significand * 2 ^ exponent ∧
      significand * 2 ^ exponent <
        Decimal.value ⟨(ofDouble significand exponent).stepsBelow k + 1, k⟩ := by
  have hunit : (0 : ℚ) < (ofDouble significand exponent).unit := by exact_mod_cast unit_pos
  have hstep : 0 < Nat.pow 10 k.toNat * (ofDouble significand exponent).unit :=
    Nat.mul_pos (Nat.pow_pos (by omega)) unit_pos
  have hmiddle : (significand : ℚ) * 2 ^ exponent =
      ((ofDouble significand exponent).middle * Nat.pow 10 (-k).toNat : ℕ) /
        ((Nat.pow 10 (-k).toNat : ℕ) * (ofDouble significand exponent).unit) := by
    rw [← value_middle]
    push_cast [Nat.pow_eq]
    field_simp
  have hdown : (0 : ℚ) < (Nat.pow 10 (-k).toNat : ℕ) * (ofDouble significand exponent).unit :=
    mul_pos (by exact_mod_cast (Nat.pow_pos (by omega) : 0 < Nat.pow 10 (-k).toNat)) hunit
  rw [value_multiple, value_multiple, hmiddle]
  constructor
  · rw [div_le_div_iff_of_pos_right hdown, Nat.cast_le]
    exact Nat.div_mul_le_self ..
  · rw [div_lt_div_iff_of_pos_right hdown, Nat.cast_lt]
    exact Nat.lt_mul_of_div_lt (Nat.lt_succ_self _) hstep

/-- What is found on a grid is one of the two multiples. -/
theorem nearest?_bounds (h : (ofDouble significand exponent).nearest? k = some d) :
    d.coefficient ≤ (ofDouble significand exponent).stepsBelow k + 1 := by
  unfold nearest? at h
  dsimp only at h
  rw [← stepsBelow] at h
  split at h
  · obtain rfl := Option.some.inj h
    exact Nat.le_succ _
  · split at h
    · obtain rfl := Option.some.inj h
      exact le_rfl
    · exact absurd h (by simp)

/-- One of the two multiples of a step that is smaller than the width of the interval is covered. -/
theorem covers_around (hsome : significand ≠ 0)
    (hstep : (10 : ℚ) ^ k <
      (quartersBelow significand exponent + 2 : ℕ) * 2 ^ (exponent - 2)) :
    Covers significand exponent (Decimal.value ⟨(ofDouble significand exponent).stepsBelow k, k⟩) ∨
      Covers significand exponent
        (Decimal.value ⟨(ofDouble significand exponent).stepsBelow k + 1, k⟩) := by
  obtain ⟨hbelow, habove⟩ := @stepsBelow_bounds significand exponent k
  obtain ⟨hlow, hhigh⟩ := between_self exponent hsome
  by_contra hneither
  rw [not_or] at hneither
  -- neither multiple is between the midpoints, so the step is as wide as the interval
  have hbefore := not_lt.mp fun h => hneither.1 (covers_of_between h (hbelow.trans_lt hhigh))
  have hbehind := not_lt.mp fun h => hneither.2 (covers_of_between (hlow.trans habove) h)
  have hnext : Decimal.value ⟨(ofDouble significand exponent).stepsBelow k + 1, k⟩ =
      Decimal.value ⟨(ofDouble significand exponent).stepsBelow k, k⟩ + 10 ^ k := by
    simp only [Decimal.value]
    push_cast
    ring
  have hquarters : ((4 * significand - quartersBelow significand exponent : ℕ) : ℚ) =
      4 * significand - quartersBelow significand exponent := by
    have hle : quartersBelow significand exponent ≤ 4 * significand := by
      have htwo := (quartersBelow_bounds significand exponent).2
      omega
    rw [Nat.cast_sub hle]
    push_cast
    ring
  rw [hquarters] at hbefore
  rw [hnext] at hbehind
  push_cast at hstep hbehind
  linarith

/-- A grid with a multiple around the double that is covered has an answer. -/
theorem exists_nearest?
    (h : Covers significand exponent
        (Decimal.value ⟨(ofDouble significand exponent).stepsBelow k, k⟩) ∨
      Covers significand exponent
        (Decimal.value ⟨(ofDouble significand exponent).stepsBelow k + 1, k⟩)) :
    ∃ d, (ofDouble significand exponent).nearest? k = some d := by
  rw [← contains_multiple_iff, ← contains_multiple_iff] at h
  unfold nearest?
  dsimp only
  rw [← stepsBelow]
  split
  · exact ⟨_, rfl⟩
  · rename_i hbelow
    -- the multiple above is passed over only if it is not in the interval
    have habove : (ofDouble significand exponent).contains
        (((ofDouble significand exponent).stepsBelow k + 1) *
          (Nat.pow 10 k.toNat * (ofDouble significand exponent).unit))
        (Nat.pow 10 (-k).toNat) = true := by
      rcases h with h | h
      · rw [h, Bool.true_and, Bool.or_eq_true, not_or, Bool.not_eq_true', Bool.not_eq_false]
          at hbelow
        exact hbelow.2
      · exact h
    exact ⟨_, if_pos habove⟩

end Interval

-- ---------------------------------------------------------------------------
-- The search
-- ---------------------------------------------------------------------------

variable {significand : Nat} {exponent : Int}

/-- The decade of a positive double. -/
def decadeOf (significand : Nat) (exponent : Int) : Int :=
  decade (Interval.ofDouble significand exponent).middle
    (Interval.ofDouble significand exponent).unit

/-- A magnitude lies in its decade. -/
theorem decadeOf_bounds (hsome : significand ≠ 0) :
    (10 : ℚ) ^ (decadeOf significand exponent - 1) ≤ significand * 2 ^ exponent ∧
      (significand : ℚ) * 2 ^ exponent < 10 ^ decadeOf significand exponent := by
  have hmiddle : 0 < (Interval.ofDouble significand exponent).middle :=
    Nat.mul_pos (by omega) (Nat.pow_pos (by omega))
  rw [← Interval.value_middle]
  exact decade_bounds hmiddle Interval.unit_pos

/-- The unit of the seventeenth digit is smaller than the width of what a double stands for. -/
theorem seventeenth_lt (exponent : Int) (hsome : significand ≠ 0)
    (hsignificand : significand < 2 ^ 53) :
    (10 : ℚ) ^ (decadeOf significand exponent - 1 - 16) <
      (quartersBelow significand exponent + 2 : ℕ) * 2 ^ (exponent - 2) := by
  have hunit : (0 : ℚ) < 2 ^ (exponent - 2) := by positivity
  have hfew : 4 * significand < (quartersBelow significand exponent + 2) * 10 ^ 16 := by
    unfold quartersBelow
    split <;> omega
  rw [zpow_sub₀ (by norm_num), div_lt_iff₀ (by positivity)]
  calc (10 : ℚ) ^ (decadeOf significand exponent - 1)
      ≤ (4 * significand : ℕ) * 2 ^ (exponent - 2) := by
        rw [← value_eq_quarters]
        exact (decadeOf_bounds hsome).1
    _ < ((quartersBelow significand exponent + 2) * 10 ^ 16 : ℕ) * 2 ^ (exponent - 2) := by
        rw [mul_lt_mul_iff_left₀ hunit]
        exact_mod_cast hfew
    _ = (quartersBelow significand exponent + 2 : ℕ) * 2 ^ (exponent - 2) * 10 ^ (16 : Int) := by
        push_cast
        ring

/-- A decimal with one digit more than `n` is found on the `n`-th grid. -/
theorem coefficient_le_of_nearest? {n : Nat} {d : Decimal} (hsome : significand ≠ 0)
    (h : (Interval.ofDouble significand exponent).nearest?
      (decadeOf significand exponent - 1 - n) = some d) :
    d.coefficient ≤ 10 ^ (n + 1) := by
  have hbelow := (@Interval.stepsBelow_bounds significand exponent
    (decadeOf significand exponent - 1 - n)).1.trans_lt (decadeOf_bounds hsome).2
  have hpower : (10 : ℚ) ^ decadeOf significand exponent =
      10 ^ (n + 1) * 10 ^ (decadeOf significand exponent - 1 - n) := by
    rw [← zpow_natCast, ← zpow_add₀ (by norm_num)]
    congr 1
    omega
  rw [Decimal.value, hpower, mul_lt_mul_iff_left₀ (by positivity)] at hbelow
  have hsteps : (Interval.ofDouble significand exponent).stepsBelow
      (decadeOf significand exponent - 1 - n) < 10 ^ (n + 1) := by exact_mod_cast hbelow
  exact (Interval.nearest?_bounds h).trans hsteps

/-- The shortest decimal of a positive double is found on one of seventeen grids. -/
theorem exists_shortest (exponent : Int) (hsome : significand ≠ 0)
    (hsignificand : significand < 2 ^ 53) :
    ∃ n < 17, ∃ d, (Interval.ofDouble significand exponent).nearest?
        (decadeOf significand exponent - 1 - (n : Nat)) = some d ∧
      shortest significand exponent = d.normal := by
  rw [shortest, if_neg hsome, shortestPositive, ← decadeOf]
  split
  · rename_i d hd
    obtain ⟨n, hn, hfound⟩ := List.exists_of_findSome?_eq_some hd
    exact ⟨n, List.mem_range.mp hn, d, hfound, rfl⟩
  · rename_i hnone
    obtain ⟨d, hd⟩ := Interval.exists_nearest?
      (Interval.covers_around hsome (seventeenth_lt exponent hsome hsignificand))
    have hlast := List.findSome?_eq_none_iff.mp hnone 16 (List.mem_range.mpr (by omega))
    exact absurd (hlast.symm.trans hd) (by simp)

-- ---------------------------------------------------------------------------
-- The digits of the shortest decimal
-- ---------------------------------------------------------------------------

/-- A coefficient only gets smaller when its zeros are taken away. -/
theorem Decimal.coefficient_normal_le (d : Decimal) : d.normal.coefficient ≤ d.coefficient := by
  induction d using Decimal.normal.induct with
  | case1 d h ih =>
    rw [normal, if_pos h]
    exact ih.trans (Nat.div_le_self ..)
  | case2 d h => rw [normal, if_neg h]

/-- Zero has the exponent zero, and no other shortest decimal ends in a zero. -/
theorem shortest_normal (exponent : Int) (hsignificand : significand < 2 ^ 53) :
    shortest significand exponent = ⟨0, 0⟩ ∨
      (shortest significand exponent).coefficient % 10 ≠ 0 := by
  by_cases hsome : significand = 0
  · exact .inl (by rw [shortest, if_pos hsome])
  · obtain ⟨n, -, d, -, hd⟩ := exists_shortest exponent hsome hsignificand
    have hcovers := (@covers_shortest significand exponent hsome).bounds.1
    rw [hd] at hcovers ⊢
    refine .inr (d.coefficient_normal.resolve_left fun hzero => ?_)
    -- a positive double does not stand for zero
    rw [Decimal.value, hzero, Nat.cast_zero, zero_mul] at hcovers
    have hbelow := (quartersBelow_bounds significand exponent).2
    have hlow : (0 : ℚ) < ((4 * significand - quartersBelow significand exponent : ℕ) : ℚ) *
        2 ^ (exponent - 2) :=
      mul_pos (by exact_mod_cast (by omega)) (by positivity)
    exact absurd hcovers (not_le.mpr hlow)

/-- The shortest decimal of a double has at most seventeen digits. -/
theorem shortest_lt (exponent : Int) (hsignificand : significand < 2 ^ 53) :
    (shortest significand exponent).coefficient < 10 ^ 17 := by
  by_cases hsome : significand = 0
  · rw [shortest, if_pos hsome]
    exact Nat.pow_pos (by omega)
  · obtain ⟨n, hn, d, hfound, hd⟩ := exists_shortest exponent hsome hsignificand
    have hle : d.normal.coefficient ≤ 10 ^ 17 :=
      calc d.normal.coefficient ≤ d.coefficient := d.coefficient_normal_le
        _ ≤ 10 ^ (n + 1) := coefficient_le_of_nearest? hsome hfound
        _ ≤ 10 ^ 17 := Nat.pow_le_pow_right (by omega) (by omega)
    have hlast := d.coefficient_normal
    rw [hd]
    omega

end Formulae.Number
