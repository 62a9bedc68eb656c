import Formulae.Proofs.Number.Tolerances

/-!
# The order up to a tolerance

Of two numbers one is less up to the tolerance, or they are equal up to it, or the other one is
less. Equality asks how far the numbers are apart, the order does not, and the two fit together
because the distance is the same from both sides and none at all from a number to itself. There is
no distance from an infinity to itself: their difference is no number, and so an infinity is neither
equal to itself nor less nor greater, and is not even at least or at most itself.

Main results:

* `abs_sub_comm` — two doubles are equally far apart from both sides.
* `isEqual_of_rank_eq` — numbers at one place of the order are equal, unless they are infinite.
* `comparisons_of_numbers` — how the five comparisons of numbers fit together.
-/

namespace Formulae.Number

open Float.Model Float.Model.UnpackedFloat

-- ---------------------------------------------------------------------------
-- Differences
-- ---------------------------------------------------------------------------

/-- The sign has no part in how a magnitude is rounded. -/
theorem abs_roundWithAccuracy (s t : Sign) (m : Nat) (e : Int) (a : Accuracy) :
    (roundWithAccuracy Format.binary64 s m e a).abs =
      (roundWithAccuracy Format.binary64 t m e a).abs := by
  unfold roundWithAccuracy
  dsimp only
  split <;> rfl

/-- An integer and its opposite are rounded to one magnitude. -/
theorem abs_normalize_neg (m e : Int) (s t : Sign) :
    (UnpackedFloat.normalize Format.binary64 (-m) e s).abs =
      (UnpackedFloat.normalize Format.binary64 m e t).abs := by
  unfold UnpackedFloat.normalize
  rcases lt_trichotomy m 0 with hneg | rfl | hpos
  · rw [Int.compare_eq_lt.mpr hneg, Int.compare_eq_gt.mpr (by omega)]
    exact abs_roundWithAccuracy ..
  · rfl
  · rw [Int.compare_eq_gt.mpr hpos, Int.compare_eq_lt.mpr (by omega), Int.neg_neg]
    exact abs_roundWithAccuracy ..

/-- Two differences of unpacked numbers, taken either way round, have one magnitude. -/
theorem abs_sub_swap (u v : UnpackedFloat) :
    (UnpackedFloat.sub Format.binary64 u v).abs = (UnpackedFloat.sub Format.binary64 v u).abs := by
  match u, v with
  | .finite s m e _, .finite t n f _ =>
    simp only [UnpackedFloat.sub]
    rw [← Int.neg_sub, min_comm e f]
    exact abs_normalize_neg ..
  | .notANumber, .notANumber => rfl
  | .notANumber, .infinity _ | .notANumber, .zero _ | .notANumber, .finite .. => rfl
  | .infinity _, .notANumber | .zero _, .notANumber | .finite .., .notANumber => rfl
  | .infinity s, .infinity t => cases s <;> cases t <;> rfl
  | .infinity _, .zero _ | .infinity _, .finite .. => rfl
  | .zero _, .infinity _ | .finite .., .infinity _ => rfl
  | .zero s, .zero t => cases s <;> cases t <;> rfl
  | .zero _, .finite .. | .finite .., .zero _ => rfl

/-- A number packed with either sign is unpacked with one magnitude. -/
theorem abs_unpack_packComponents (s t : Sign) (exponent : BitVec 11) (mantissa : BitVec 52) :
    (UnpackedFloat.unpack Format.binary64
        (packComponents Format.binary64 s exponent mantissa)).abs =
      (UnpackedFloat.unpack Format.binary64
        (packComponents Format.binary64 t exponent mantissa)).abs := by
  unfold UnpackedFloat.unpack
  simp only [unpackMantissa_packComponents, unpackExponent_packComponents,
    unpackSign_packComponents, Sign.ofBitVec_toBitVec]
  split
  · split <;> rfl
  · split
    · split <;> rfl
    · rfl

/-- Packing keeps no trace of the sign in the magnitude. -/
theorem abs_unpack_pack_abs (u : UnpackedFloat) :
    (Float.Model.pack u).unpack.abs = (Float.Model.pack u.abs).unpack.abs := by
  cases u with
  | notANumber => rfl
  | infinity s => exact abs_unpack_packComponents ..
  | zero s => exact abs_unpack_packComponents ..
  | finite s m e hm =>
    show (UnpackedFloat.unpack Format.binary64
        (UnpackedFloat.pack Format.binary64 (.finite s m e hm))).abs =
      (UnpackedFloat.unpack Format.binary64
        (UnpackedFloat.pack Format.binary64 (.finite .positive m e hm))).abs
    unfold UnpackedFloat.pack
    dsimp only
    split
    · exact abs_unpack_packComponents ..
    · split <;> exact abs_unpack_packComponents ..

variable {places : UInt32} {x y : Float}

/-- The magnitude of a difference is that of the difference of what is unpacked. -/
theorem abs_sub_eq (x y : Float) :
    (x - y).abs = .ofModel (.pack (Float.Model.pack
      (UnpackedFloat.sub Format.binary64 x.toModel.unpack y.toModel.unpack).abs).unpack.abs) := by
  rw [← abs_unpack_pack_abs]
  rfl

/-- Two doubles are equally far apart from both sides. -/
theorem abs_sub_comm (x y : Float) : (x - y).abs = (y - x).abs := by
  rw [abs_sub_eq, abs_sub_eq, abs_sub_swap]

/-- From a number to itself there is no distance, unless it is infinite. -/
theorem abs_sub_of_beq {u v : UnpackedFloat} (h : u.beq v = true) (hfinite : u.isInf = false) :
    (UnpackedFloat.sub Format.binary64 u v).abs = .zero .positive := by
  obtain ⟨hnumber, -, rfl | ⟨rfl, rfl⟩ | ⟨rfl, rfl⟩⟩ := (beq_iff_ne_notANumber_and_eq u v).mp h
  · cases u with
    | notANumber => exact absurd rfl hnumber
    | infinity s => cases hfinite
    | zero s => cases s <;> rfl
    | finite s m e hm =>
      simp only [UnpackedFloat.sub, Int.sub_self, UnpackedFloat.normalize]
      rfl
  · rfl
  · rfl

theorem exists_of_isInf (h : x.isInf = true) : ∃ s, x.toModel.unpack = .infinity s := by
  have hinf : x.toModel.unpack.isInf = true := h
  match hx : x.toModel.unpack with
  | .infinity s => exact ⟨s, rfl⟩
  | .notANumber | .zero _ | .finite .. => rw [hx] at hinf; cases hinf

/-- The distance from an infinity to itself is no number. -/
theorem abs_sub_self_of_isInf (h : x.isInf = true) : (x - x).abs = 0.0 / 0.0 := by
  obtain ⟨s, hx⟩ := exists_of_isInf h
  rw [abs_sub_eq, hx]
  cases s <;> decide

-- ---------------------------------------------------------------------------
-- Equality up to the tolerance
-- ---------------------------------------------------------------------------

/-- Being equal within a tolerance goes both ways. -/
theorem isEqual_comm (places : UInt32) (x y : Float) : isEqual places y x = isEqual places x y := by
  rw [isEqual, isEqual, abs_sub_comm]

/-- Numbers at one place of the order are equal, unless they are infinite. -/
theorem isEqual_of_rank_eq (hplaces : places.toNat ≤ 300) (hx : x.isNaN = false)
    (hy : y.isNaN = false) (hrank : rank x = rank y) (hfinite : x.isInf = false) :
    isEqual places x y = true := by
  have hbeq : x.toModel.unpack.beq y.toModel.unpack = true := (beq_iff hx hy).mpr hrank
  have hdistance : (x - y).abs = 0.0 := by
    rw [abs_sub_eq, abs_sub_of_beq hbeq hfinite]
    decide
  rw [isEqual, hdistance, decide_eq_true_eq]
  exact tolerance_nonneg hplaces

/-- An infinity is not equal to itself, as its distance from itself is not a number. -/
theorem isEqual_self_of_isInf (h : x.isInf = true) : isEqual places x x = false := by
  rw [isEqual, abs_sub_self_of_isInf h, decide_eq_false_iff_not]
  exact not_le_of_isNaN (.inl (by decide))

/-- There is one infinity at each end of the order. -/
theorem eq_of_rank_eq_of_isInf (hx : x.isNaN = false) (hy : y.isNaN = false)
    (hrank : rank x = rank y) (hinf : x.isInf = true) : x = y := by
  obtain ⟨s, hu⟩ := exists_of_isInf hinf
  have hbeq : x.toModel.unpack.beq y.toModel.unpack = true := (beq_iff hx hy).mpr hrank
  rw [hu] at hbeq
  obtain ⟨-, -, hv | ⟨hzero, -⟩ | ⟨hzero, -⟩⟩ := (beq_iff_ne_notANumber_and_eq _ _).mp hbeq
  · have hpx := (parts_eq x).trans (congrArg partsOf hu)
    have hpy := (parts_eq y).trans (congrArg partsOf hv.symm)
    rw [eq_of_parts_infinite hpx, eq_of_parts_infinite hpy]
  · cases hzero
  · cases hzero

-- ---------------------------------------------------------------------------
-- All five comparisons
-- ---------------------------------------------------------------------------

/-- Less read backwards is greater. -/
theorem isLess_comm (places : UInt32) (x y : Float) :
    isLess places y x = isGreater places x y := by
  rw [isLess, isGreater, isEqual_comm]

/-- At most is less or equal. -/
theorem isAtMost_eq (places : UInt32) (x y : Float) :
    isAtMost places x y = (isLess places x y || isEqual places x y) := by
  rw [isAtMost, isLess]
  cases isEqual places x y <;> cases decide (x < y) <;> rfl

/-- At least is equal or greater. -/
theorem isAtLeast_eq (places : UInt32) (x y : Float) :
    isAtLeast places x y = (isEqual places x y || isGreater places x y) := by
  rw [isAtLeast, isGreater]
  cases isEqual places x y <;> cases decide (x > y) <;> rfl

/-- Exactly one of the three holds of two numbers that are not one infinity. -/
theorem count_comparisons (hplaces : places.toNat ≤ 300) (hx : x.isNaN = false)
    (hy : y.isNaN = false) (hdistinct : ¬(x = y ∧ x.isInf = true)) :
    [isLess places x y, isEqual places x y, isGreater places x y].count true = 1 := by
  rw [isLess, isGreater]
  rcases lt_trichotomy (rank x) (rank y) with hlt | heq | hgt
  · have hless : decide (x < y) = true := decide_eq_true ((lt_iff hx hy).mpr hlt)
    have hnot : decide (x > y) = false :=
      decide_eq_false fun hgt => lt_asymm hlt ((lt_iff hy hx).mp hgt)
    rw [hless, hnot]
    cases isEqual places x y <;> rfl
  · have hfinite : x.isInf = false := by
      rw [← Bool.not_eq_true]
      exact fun hinf => hdistinct ⟨eq_of_rank_eq_of_isInf hx hy heq hinf, hinf⟩
    rw [isEqual_of_rank_eq hplaces hx hy heq hfinite]
    rfl
  · have hgreater : decide (x > y) = true := decide_eq_true ((lt_iff hy hx).mpr hgt)
    have hnot : decide (x < y) = false :=
      decide_eq_false fun hlt => lt_asymm hgt ((lt_iff hx hy).mp hlt)
    rw [hgreater, hnot]
    cases isEqual places x y <;> rfl

/-- An infinity is neither less than itself nor equal to itself nor greater. -/
theorem count_comparisons_of_isInf (hx : x.isNaN = false) (hinf : x.isInf = true) :
    [isLess places x x, isEqual places x x, isGreater places x x].count true = 0 := by
  have hnot : decide (x < x) = false :=
    decide_eq_false fun hlt => lt_irrefl _ ((lt_iff hx hx).mp hlt)
  rw [isLess, isGreater, isEqual_self_of_isInf hinf, hnot]
  rfl

/-- How the five comparisons of numbers fit together: exactly one of the first three holds, but none
between an infinity and itself. -/
theorem comparisons_of_numbers (hplaces : places.toNat ≤ 300) (hx : x.isNaN = false)
    (hy : y.isNaN = false) :
    [isLess places x y, isEqual places x y, isGreater places x y].count true =
        (if x = y ∧ x.isInf = true then 0 else 1) ∧
      isAtMost places x y = (isLess places x y || isEqual places x y) ∧
      isAtLeast places x y = (isEqual places x y || isGreater places x y) ∧
      isLess places y x = isGreater places x y ∧ isGreater places y x = isLess places x y ∧
      isEqual places y x = isEqual places x y ∧
      (isEqual places x x = true ↔ x.isInf = false) := by
  refine ⟨?_, isAtMost_eq .., isAtLeast_eq .., isLess_comm .., (isLess_comm ..).symm,
    isEqual_comm .., ?_⟩
  · split
    · rename_i hsame
      obtain ⟨rfl, hinf⟩ := hsame
      exact count_comparisons_of_isInf hx hinf
    · rename_i hdistinct
      exact count_comparisons hplaces hx hy hdistinct
  · constructor
    · intro hself
      rw [← Bool.not_eq_true]
      intro hinf
      rw [isEqual_self_of_isInf hinf] at hself
      cases hself
    · exact isEqual_of_rank_eq hplaces hx hx rfl

/-- At five places an infinity is not even at least itself, but it is more than one third. -/
theorem comparisons_of_infinity :
    [isLess 5 (1.0 / 0.0) (1.0 / 0.0), isEqual 5 (1.0 / 0.0) (1.0 / 0.0),
        isGreater 5 (1.0 / 0.0) (1.0 / 0.0)].count true = 0 ∧
      isAtLeast 5 (1.0 / 0.0) (1.0 / 0.0) = false ∧
      [isLess 5 (1.0 / 0.0) (1.0 / 3.0), isEqual 5 (1.0 / 0.0) (1.0 / 3.0),
        isGreater 5 (1.0 / 0.0) (1.0 / 3.0)].count true = 1 := by
  have hplaces : (5 : UInt32).toNat ≤ 300 := by decide
  have hinfinite : (1.0 / 0.0 : Float).isNaN = false := by decide
  have hthird : (1.0 / 3.0 : Float).isNaN = false := by decide +kernel
  have hsame := comparisons_of_numbers hplaces hinfinite hinfinite
  have hapart := comparisons_of_numbers hplaces hinfinite hthird
  have hnone := hsame.1.trans (if_pos ⟨rfl, by decide⟩)
  refine ⟨hnone, ?_, hapart.1.trans (if_neg (by decide +kernel))⟩
  have hfalse := List.count_eq_zero.mp hnone
  rw [hsame.2.2.1, Bool.or_eq_false_iff]
  simp only [List.mem_cons, not_or, Bool.true_eq, Bool.not_eq_true] at hfalse
  exact ⟨hfalse.2.1, hfalse.2.2.1⟩

end Formulae.Number
