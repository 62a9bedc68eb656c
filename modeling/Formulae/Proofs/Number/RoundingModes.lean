import Mathlib
import Formulae.Number.Double
import Formulae.Number.RoundingMode

/-!
# What the rounding modes mean

A mode chooses an integer for a number with a sign: the one that is next in a direction, or the
nearest one with a rule for ties. The code rounds the quotient of two magnitudes and is told the
sign. The two agree, so that there is always exactly one integer that a mode rounds a number to.

A negative number is rounded as its magnitude is in the opposite mode. Of a magnitude only the
integer part and the remainder matter.

Main result:

* `RoundingMode.rounds_iff` — a rounded quotient is the integer that the mode chooses.
-/

namespace Formulae.Number

-- ---------------------------------------------------------------------------
-- The integer of a mode
-- ---------------------------------------------------------------------------

/-- The integer is a nearest one, and if there are two of them the rule holds. -/
def Nearest (v : ℚ) (z : Int) (rule : Prop) : Prop :=
  |v - z| ≤ 1 / 2 ∧ (|v - z| = 1 / 2 → rule)

/-- The integer that a mode rounds a number to. -/
def RoundingMode.Rounds (mode : RoundingMode) (v : ℚ) (z : Int) : Prop :=
  match mode with
  | .up => (0 ≤ v → z = ⌈v⌉) ∧ (v ≤ 0 → z = ⌊v⌋)
  | .down => (0 ≤ v → z = ⌊v⌋) ∧ (v ≤ 0 → z = ⌈v⌉)
  | .ceiling => z = ⌈v⌉
  | .floor => z = ⌊v⌋
  | .halfUp => Nearest v z (|v| < |(z : ℚ)|)
  | .halfDown => Nearest v z (|(z : ℚ)| < |v|)
  | .halfEven => Nearest v z (Even z)

/-- A magnitude with a sign. -/
def signedValue (negative : Bool) (q : ℚ) : ℚ :=
  if negative then -q else q

-- ---------------------------------------------------------------------------
-- Negative numbers
-- ---------------------------------------------------------------------------

namespace RoundingMode

/-- The mode that does to a number what this one does to its negative. -/
def opposite : RoundingMode → RoundingMode
  | ceiling => floor
  | floor => ceiling
  | mode => mode

variable {mode : RoundingMode} {v : ℚ} {z : Int}

/-- A negative value is rounded as its magnitude is by the opposite mode. -/
theorem rounds_neg : mode.Rounds (-v) z ↔ mode.opposite.Rounds v (-z) := by
  have hdistance : |-v - (z : ℚ)| = |v - ((-z : Int) : ℚ)| := by
    rw [← abs_neg]
    congr 1
    push_cast
    ring
  have hsize : |(z : ℚ)| = |((-z : Int) : ℚ)| := by
    rw [Int.cast_neg, abs_neg]
  cases mode with
  | up | down =>
    simp only [Rounds, opposite, Int.ceil_neg, Int.floor_neg, Left.nonneg_neg_iff,
      Left.neg_nonpos_iff, neg_eq_iff_eq_neg]
    exact and_comm
  | ceiling | floor => simp only [Rounds, opposite, Int.ceil_neg, Int.floor_neg, neg_eq_iff_eq_neg]
  | halfUp | halfDown => simp only [Rounds, opposite, Nearest, hdistance, abs_neg v, hsize]
  | halfEven => simp only [Rounds, opposite, Nearest, hdistance, even_neg]

/-- So is a negative quotient. -/
theorem roundQuotient_opposite (mode : RoundingMode) (dividend divisor : Nat) :
    mode.roundQuotient true dividend divisor =
      mode.opposite.roundQuotient false dividend divisor := by
  cases mode <;> simp [roundQuotient, opposite, goesUp]

-- ---------------------------------------------------------------------------
-- Magnitudes
-- ---------------------------------------------------------------------------

variable {below rest divisor : Nat}

/-- A remainder is compared with one half of the divisor. -/
theorem fraction_lt_half (hpos : 0 < divisor) :
    (rest : ℚ) / divisor < 1 / 2 ↔ 2 * rest < divisor := by
  have hd : (0 : ℚ) < divisor := by exact_mod_cast hpos
  rw [div_lt_div_iff₀ hd (by norm_num), one_mul, mul_comm]
  exact_mod_cast Iff.rfl

/-- The rest of a division is a half just if twice the rest is the divisor. -/
theorem fraction_eq_half (hpos : 0 < divisor) :
    (rest : ℚ) / divisor = 1 / 2 ↔ 2 * rest = divisor := by
  have hd : (divisor : ℚ) ≠ 0 := by exact_mod_cast hpos.ne'
  rw [div_eq_div_iff hd (by norm_num), one_mul, mul_comm]
  exact_mod_cast Iff.rfl

/-- The fraction of a magnitude is less than one. -/
theorem fraction_bounds (hrest : rest < divisor) :
    (0 : ℚ) ≤ rest / divisor ∧ (rest : ℚ) / divisor < 1 := by
  refine ⟨by positivity, ?_⟩
  rw [div_lt_one (by exact_mod_cast (by omega : 0 < divisor))]
  exact_mod_cast hrest

/-- Any integer but the two around a magnitude is more than one half away from it. -/
theorem eq_or_eq_of_near {f : ℚ} (hlow : 0 ≤ f) (hhigh : f < 1)
    (h : |(below : ℚ) + f - z| ≤ 1 / 2) : z = below ∨ z = below + 1 := by
  rw [abs_le] at h
  have hleast : (below : ℚ) < z + 1 := by linarith
  have hmost : (z : ℚ) < below + 2 := by linarith
  have hleast' : (below : Int) < z + 1 := by exact_mod_cast hleast
  have hmost' : z < (below : Int) + 2 := by exact_mod_cast hmost
  omega

/-- The nearest integer of a magnitude is its integer part, or from one half on the next one. At one
half it is the one for which the rule holds. -/
theorem nearest_iff (hrest : rest < divisor) (rule : Int → Prop) (up : Prop) [Decidable up]
    (hbelow : 2 * rest = divisor → (rule below ↔ ¬up))
    (habove : 2 * rest = divisor → (rule (below + 1) ↔ up)) :
    Nearest (below + rest / divisor) z (rule z) ↔
      z = below + if divisor < 2 * rest ∨ 2 * rest = divisor ∧ up then 1 else 0 := by
  have hpos : 0 < divisor := by omega
  have hlt := @fraction_lt_half rest divisor hpos
  have heq := @fraction_eq_half rest divisor hpos
  obtain ⟨hlow, hhigh⟩ := fraction_bounds hrest
  generalize (rest : ℚ) / divisor = f at hlt heq hlow hhigh ⊢
  unfold Nearest
  by_cases hcase : z = below
  · have hdistance : |(below : ℚ) + f - (z : ℚ)| = f := by
      rw [hcase, Int.cast_natCast, add_sub_cancel_left, abs_of_nonneg hlow]
    rw [hdistance, heq, le_iff_lt_or_eq, hlt, heq]
    grind
  by_cases hnext : z = below + 1
  · have hdistance : |(below : ℚ) + f - (z : ℚ)| = 1 - f := by
      rw [hnext, abs_of_nonpos (by push_cast; linarith)]
      push_cast
      ring
    have hle : 1 - f ≤ 1 / 2 ↔ divisor ≤ 2 * rest := by
      rw [← not_lt (a := 2 * rest), ← hlt, not_lt]
      constructor <;> intro h <;> linarith
    have htie : 1 - f = 1 / 2 ↔ 2 * rest = divisor := by
      rw [← heq]
      constructor <;> intro h <;> linarith
    rw [hdistance, hle, htie]
    grind
  · constructor
    · rintro ⟨hnear, -⟩
      exact absurd (eq_or_eq_of_near hlow hhigh hnear) (not_or.mpr ⟨hcase, hnext⟩)
    · grind

/-- The floor of a magnitude is its integer part. -/
theorem floor_magnitude (hrest : rest < divisor) :
    ⌊(below + rest / divisor : ℚ)⌋ = (below : Int) := by
  obtain ⟨hlow, hhigh⟩ := fraction_bounds hrest
  rw [Int.floor_eq_iff]
  push_cast
  constructor <;> linarith

/-- The ceiling is one more if there is a rest. -/
theorem ceil_magnitude (hrest : rest < divisor) :
    ⌈(below + rest / divisor : ℚ)⌉ = below + if rest ≠ 0 then 1 else 0 := by
  obtain ⟨-, hhigh⟩ := fraction_bounds hrest
  rw [Int.ceil_eq_iff]
  split
  · rename_i hsome
    have hpos : 0 < divisor := by omega
    have hlow : (0 : ℚ) < rest / divisor :=
      div_pos (by exact_mod_cast Nat.pos_of_ne_zero hsome) (by exact_mod_cast hpos)
    push_cast
    constructor <;> linarith
  · rename_i hnone
    rw [not_not] at hnone
    simp [hnone]

/-- A rounded magnitude is the integer that the mode chooses. -/
theorem rounds_magnitude (mode : RoundingMode) (hrest : rest < divisor) :
    mode.Rounds (below + rest / divisor) z ↔
      z = below + if mode.goesUp false below rest divisor then 1 else 0 := by
  obtain ⟨hlow, hhigh⟩ := fraction_bounds hrest
  have hmagnitude : (0 : ℚ) ≤ below + rest / divisor := by positivity
  have hsize : |(below + rest / divisor : ℚ)| = below + rest / divisor := abs_of_nonneg hmagnitude
  have hbelow : |((below : Int) : ℚ)| = below := by
    rw [Int.cast_natCast, Nat.abs_cast]
  have habove : |((below + 1 : Int) : ℚ)| = below + 1 := by
    rw [← Nat.cast_succ, Int.cast_natCast, Nat.abs_cast, Nat.cast_succ]
  -- a tie has a fraction
  have htie (h : 2 * rest = divisor) : (0 : ℚ) < rest / divisor := by
    rw [(fraction_eq_half (by omega)).mpr h]
    norm_num
  cases mode with
  | ceiling | floor =>
    simp [Rounds, goesUp, floor_magnitude hrest, ceil_magnitude hrest]
  | up | down =>
    -- only zero has both directions, and it is rounded to itself
    have hzero (h : (below + rest / divisor : ℚ) ≤ 0) : rest = 0 := by
      have hnone : (rest : ℚ) / divisor = 0 := by
        have hcast : (0 : ℚ) ≤ below := Nat.cast_nonneg below
        linarith
      rw [div_eq_zero_iff, Nat.cast_eq_zero, Nat.cast_eq_zero] at hnone
      omega
    simp only [Rounds, goesUp, floor_magnitude hrest, ceil_magnitude hrest]
    grind
  | halfUp =>
    rw [Rounds, nearest_iff hrest (fun z => |(below + rest / divisor : ℚ)| < |(z : ℚ)|) True]
    · simp only [goesUp]
      grind
    · simp [hsize, hlow]
    · simp only [hsize, habove]
      grind
  | halfDown =>
    rw [Rounds, nearest_iff hrest (fun z => |(z : ℚ)| < |(below + rest / divisor : ℚ)|) False]
    · simp [goesUp]
    · simp only [hsize, hbelow]
      grind
    · simp only [hsize, habove]
      grind
  | halfEven =>
    rw [Rounds, nearest_iff hrest Even (below % 2 = 1)]
    · simp [goesUp]
    · intro _
      rw [Int.even_coe_nat, Nat.even_iff]
      omega
    · intro _
      rw [Int.even_iff]
      omega

/-- A rounded quotient is the integer that the mode chooses. -/
theorem rounds_iff {negative : Bool} {dividend divisor : Nat} (hpos : 0 < divisor) :
    mode.Rounds (signedValue negative (dividend / divisor)) z ↔
      z = signedInt negative (mode.roundQuotient negative dividend divisor) := by
  have hquotient : (dividend : ℚ) / divisor =
      (dividend / divisor : Nat) + (dividend % divisor : Nat) / divisor := by
    have hd : (divisor : ℚ) ≠ 0 := by exact_mod_cast hpos.ne'
    rw [eq_comm, add_div_eq_mul_add_div _ _ hd]
    congr 1
    exact_mod_cast Nat.div_add_mod' dividend divisor
  have hround (mode : RoundingMode) :
      ((mode.roundQuotient false dividend divisor : Nat) : Int) = (dividend / divisor : Nat) +
        if mode.goesUp false (dividend / divisor) (dividend % divisor) divisor then 1 else 0 := by
    unfold roundQuotient
    dsimp only
    split <;> simp
  rw [hquotient]
  cases negative with
  | false =>
    rw [signedValue, if_neg Bool.false_ne_true, rounds_magnitude mode (Nat.mod_lt _ hpos), ← hround]
    rfl
  | true =>
    rw [signedValue, if_pos rfl, rounds_neg, rounds_magnitude _ (Nat.mod_lt _ hpos), ← hround,
      ← roundQuotient_opposite, neg_eq_iff_eq_neg]
    rfl

end RoundingMode

end Formulae.Number
