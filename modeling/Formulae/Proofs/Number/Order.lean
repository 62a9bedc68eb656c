import Mathlib.Data.Prod.Lex
import Mathlib.Order.Compare
import Formulae.Proofs.Number.Bits

/-!
# The order of doubles

Doubles that are numbers, the infinities among them, are in the order of their ranks: first goes the
sign, then the exponent, then the mantissa. Both zeros have one rank. Ranks are in a linear order,
and so every two numbers can be compared, and comparisons go on in a chain. What is no number stands
neither before nor behind anything.

Main results:

* `compare_eq_rank` — comparing unpacked doubles is comparing ranks.
* `lt_iff`, `beq_iff` — the order and the equality of numbers.
* `compare_eq_none` — what is no number has no place in the order.
-/

namespace Formulae.Number

open Float.Model Float.Model.UnpackedFloat

-- ---------------------------------------------------------------------------
-- Ranks
-- ---------------------------------------------------------------------------

/-- The place of an unpacked double in the order: its kind with its sign, then its exponent, then
its mantissa, the last two turned round where it is negative. -/
def rankOf : UnpackedFloat → ℤ ×ₗ ℤ ×ₗ ℤ
  | .infinity .negative => toLex (-2, toLex (0, 0))
  | .finite .negative m e _ => toLex (-1, toLex (-e, -(m : ℤ)))
  | .zero _ | .notANumber => toLex (0, toLex (0, 0))
  | .finite .positive m e _ => toLex (1, toLex (e, (m : ℤ)))
  | .infinity .positive => toLex (2, toLex (0, 0))

/-- Negation turns the order round. -/
theorem compare_neg (k l : ℤ) : compare (-k) (-l) = (compare k l).swap := by
  rcases lt_trichotomy k l with hlt | rfl | hgt
  · rw [Int.compare_eq_lt.mpr hlt, Int.compare_eq_gt.mpr (Int.neg_lt_neg hlt)]
    rfl
  · simp
  · rw [Int.compare_eq_gt.mpr hgt, Int.compare_eq_lt.mpr (Int.neg_lt_neg hgt)]
    rfl

theorem compare_natCast (m n : Nat) : compare (m : ℤ) n = compare m n :=
  (compare_congr (by omega) (by omega)).symm

/-- Comparing unpacked doubles is comparing ranks. -/
theorem compare_eq_rank {u v : UnpackedFloat} (hu : u ≠ .notANumber) (hv : v ≠ .notANumber) :
    u.compare v = some (compare (rankOf u) (rankOf v)) := by
  match u, v with
  | .notANumber, _ => exact absurd rfl hu
  | _, .notANumber => exact absurd rfl hv
  -- only of two finite doubles of one sign more than the kinds are looked at
  | .finite .negative m e _, .finite .negative n f _ =>
    show some ((compare e f).then (compare m n)).swap =
      some ((compare (-e) (-f)).then (compare (-(m : ℤ)) (-(n : ℤ))))
    rw [Ordering.swap_then, compare_neg, compare_neg, compare_natCast]
  | .finite .positive m e _, .finite .positive n f _ =>
    show some ((compare e f).then (compare m n)) =
      some ((compare e f).then (compare (m : ℤ) (n : ℤ)))
    rw [compare_natCast]
  | .finite .negative .., .finite .positive .. | .finite .positive .., .finite .negative .. => rfl
  | .infinity s, .infinity t | .infinity s, .finite t .. | .finite s .., .infinity t =>
    cases s <;> cases t <;> rfl
  | .infinity s, .zero _ | .finite s .., .zero _ => cases s <;> rfl
  | .zero _, .infinity t | .zero _, .finite t .. => cases t <;> rfl
  | .zero _, .zero _ => rfl

-- ---------------------------------------------------------------------------
-- Comparing doubles
-- ---------------------------------------------------------------------------

/-- The place of a double in the order. -/
def rank (x : Float) : ℤ ×ₗ ℤ ×ₗ ℤ :=
  rankOf x.toModel.unpack

variable {x y : Float}

/-- A double is not a number if its unpacked form says so. -/
theorem isNaN_iff : x.isNaN = true ↔ x.toModel.unpack = .notANumber :=
  UnpackedFloat.isNaN_iff

theorem isNaN_eq_false_iff : x.isNaN = false ↔ x.toModel.unpack ≠ .notANumber := by
  rw [← Bool.not_eq_true, isNaN_iff]

/-- Numbers are ordered by their ranks. -/
theorem lt_iff (hx : x.isNaN = false) (hy : y.isNaN = false) : x < y ↔ rank x < rank y := by
  show decide ((x.toModel.unpack.compare y.toModel.unpack == some .lt) = true) = true ↔ _
  rw [compare_eq_rank (isNaN_eq_false_iff.mp hx) (isNaN_eq_false_iff.mp hy), decide_eq_true_eq,
    beq_iff_eq, Option.some.injEq, compare_lt_iff_lt]
  rfl

/-- Numbers are equal if their ranks are. -/
theorem beq_iff (hx : x.isNaN = false) (hy : y.isNaN = false) :
    (x == y) = true ↔ rank x = rank y := by
  show (x.toModel.unpack.compare y.toModel.unpack == some .eq) = true ↔ _
  rw [compare_eq_rank (isNaN_eq_false_iff.mp hx) (isNaN_eq_false_iff.mp hy), beq_iff_eq,
    Option.some.injEq, compare_eq_iff_eq]
  rfl

/-- What is no number has no place in the order. -/
theorem compare_eq_none (h : x.isNaN = true ∨ y.isNaN = true) :
    x.toModel.unpack.compare y.toModel.unpack = none := by
  rw [isNaN_iff, isNaN_iff] at h
  generalize x.toModel.unpack = u at h ⊢
  generalize y.toModel.unpack = v at h ⊢
  match u, v, h with
  | .notANumber, _, _ => rfl
  | .infinity _, .notANumber, _ | .zero _, .notANumber, _ | .finite .., .notANumber, _ => rfl

/-- What is not a number is not below anything. -/
theorem not_lt_of_isNaN (h : x.isNaN = true ∨ y.isNaN = true) : ¬ x < y := by
  show ¬ decide ((x.toModel.unpack.compare y.toModel.unpack == some .lt) = true) = true
  rw [compare_eq_none h]
  decide

/-- Nor is it at most anything. -/
theorem not_le_of_isNaN (h : x.isNaN = true ∨ y.isNaN = true) : ¬ x ≤ y := by
  show ¬ decide ((x.toModel.unpack.compare y.toModel.unpack).any (·.isLE) = true) = true
  rw [compare_eq_none h]
  decide

/-- Nor is it equal to anything, itself included. -/
theorem beq_eq_false_of_isNaN (h : x.isNaN = true ∨ y.isNaN = true) : (x == y) = false := by
  show (x.toModel.unpack.compare y.toModel.unpack == some .eq) = false
  rw [compare_eq_none h]
  rfl

end Formulae.Number
