import Formulae.Number.Tolerance
import Formulae.Proofs.Number.Order

/-!
# Tolerances

A tolerance is a power of ten less the two next ones, each of the powers and of the differences
rounded. Powers of ten are made by repeated squaring, and so the powers below the `2 ^ (i + 1)`-th
are those below the `2 ^ i`-th and their products with one more square. The table of powers that is
made in this way is the one that every tolerance is taken from. That the next two powers outweigh no
power is seen by going along the table.

Main results:

* `getElem?_powersOfTen` — the table has the powers of ten as they are computed.
* `tolerance_nonneg` — no tolerance for up to 300 places is negative.
-/

namespace Formulae.Number

-- ---------------------------------------------------------------------------
-- The table of powers
-- ---------------------------------------------------------------------------

/-- The factors of the powers of ten, each the rounded square of the one before. -/
def squareOfTen : Nat → Float
  | 0 => 10.0
  | i + 1 => squareOfTen i * squareOfTen i

/-- The powers of ten below the `2 ^ i`-th, made of the factors. -/
def powersOfTen : Nat → List Float
  | 0 => [1.0]
  | i + 1 => powersOfTen i ++ (powersOfTen i).map (· * squareOfTen i)

/-- The factor of the highest binary digit is the last one to be multiplied with. -/
theorem powerBySquaring_add {i n : Nat} (hn : n < 2 ^ i) (acc : Float) (j : Nat) :
    powerBySquaring acc (squareOfTen j) (2 ^ i + n) =
      powerBySquaring acc (squareOfTen j) n * squareOfTen (j + i) := by
  induction i generalizing acc j n with
  | zero =>
    obtain rfl : n = 0 := by omega
    rw [powerBySquaring, powerBySquaring.eq_def _ _ 0]
    rfl
  | succ i ih =>
    have hpos := Nat.two_pow_pos i
    have hmod : (2 ^ (i + 1) + n) % 2 = n % 2 := by omega
    have hdiv : (2 ^ (i + 1) + n) / 2 = 2 ^ i + n / 2 := by omega
    rw [powerBySquaring, powerBySquaring.eq_def _ _ n]
    simp only [hmod, hdiv]
    rw [if_neg (by omega), ← Nat.succ_add_eq_add_succ]
    refine (ih (by omega) _ (j + 1)).trans ?_
    -- the lower digits may be used up before
    by_cases hlast : n / 2 = 0
    · rw [if_pos hlast, hlast, powerBySquaring]
      rfl
    · rw [if_neg hlast]
      rfl

/-- The table for `i` binary digits has an entry for each number with no more of them. -/
theorem length_powersOfTen (i : Nat) : (powersOfTen i).length = 2 ^ i := by
  induction i with
  | zero => rfl
  | succ i ih =>
    rw [powersOfTen, List.length_append, List.length_map, ih, Nat.pow_succ, Nat.mul_two]

/-- The table has the powers of ten as they are computed. -/
theorem getElem?_powersOfTen {i n : Nat} (hn : n < 2 ^ i) :
    (powersOfTen i)[n]? = some (powerBySquaring 1.0 10.0 n) := by
  induction i generalizing n with
  | zero =>
    obtain rfl : n = 0 := by omega
    rw [powerBySquaring]
    rfl
  | succ i ih =>
    rw [powersOfTen]
    by_cases hlow : n < 2 ^ i
    · rw [List.getElem?_append_left (by rwa [length_powersOfTen]), ih hlow]
    · obtain ⟨k, rfl⟩ := Nat.exists_eq_add_of_le (Nat.le_of_not_lt hlow)
      have hk : k < 2 ^ i := by omega
      have hlast : powerBySquaring 1.0 10.0 (2 ^ i + k) =
          powerBySquaring 1.0 10.0 k * squareOfTen (0 + i) := powerBySquaring_add hk 1.0 0
      rw [List.getElem?_append_right (by rw [length_powersOfTen]; omega), length_powersOfTen,
        Nat.add_sub_cancel_left, List.getElem?_map, ih hk, hlast, Nat.zero_add]
      rfl

/-- A negative power is the quotient of one and the positive power. -/
theorem powerOfTen_neg (k : Nat) :
    powerOfTen (-(k : Int)) = 1.0 / powerBySquaring 1.0 10.0 k := by
  unfold powerOfTen
  rw [Int.natAbs_neg, Int.natAbs_natCast]
  rcases Nat.eq_zero_or_pos k with rfl | hpos
  · have hone : powerBySquaring 1.0 10.0 0 = 1.0 := powerBySquaring.eq_1 ..
    rw [hone, if_neg (by decide)]
    decide +kernel
  · exact if_pos (by omega)

/-- The powers of ten that the tolerances for up to 300 places are made of. -/
def unitsOfPlaces : List Float :=
  ((powersOfTen 9).take 303).map (1.0 / ·)

/-- The table of units holds the powers of ten with negative exponents. -/
theorem getElem?_unitsOfPlaces {k : Nat} (hk : k < 303) :
    unitsOfPlaces[k]? = some (powerOfTen (-(k : Int))) := by
  have hpower : (powersOfTen 9)[k]? = some (powerBySquaring 1.0 10.0 k) :=
    getElem?_powersOfTen (by omega)
  rw [unitsOfPlaces, List.getElem?_map, List.getElem?_take_of_lt hk, hpower, powerOfTen_neg]
  rfl

-- ---------------------------------------------------------------------------
-- Going along the table
-- ---------------------------------------------------------------------------

/-- The next two numbers, one taken away after the other, outweigh none of the numbers. -/
def noneOutweighed : List Float → Bool
  | x :: y :: z :: rest => decide (0.0 ≤ x - y - z) && noneOutweighed (y :: z :: rest)
  | _ => true

/-- If none is outweighed, taking the next two away from a number of the list leaves nothing
negative. -/
theorem sub_nonneg_of_noneOutweighed {xs : List Float} (h : noneOutweighed xs = true) {n : Nat}
    {x y z : Float} (hx : xs[n]? = some x) (hy : xs[n + 1]? = some y) (hz : xs[n + 2]? = some z) :
    0.0 ≤ x - y - z := by
  induction n generalizing xs with
  | zero =>
    match xs with
    | a :: b :: c :: rest =>
      rw [noneOutweighed, Bool.and_eq_true, decide_eq_true_eq] at h
      cases hx
      cases hy
      cases hz
      exact h.1
  | succ n ih =>
    match xs with
    | a :: b :: c :: rest =>
      rw [noneOutweighed, Bool.and_eq_true] at h
      exact ih h.2 hx hy hz

set_option maxRecDepth 10000 in
/-- No unit is outweighed by the next two, as a look at the table shows. -/
theorem noneOutweighed_unitsOfPlaces : noneOutweighed unitsOfPlaces = true := by
  decide +kernel

/-- The words that are the exponents do not overflow. -/
theorem toInt_neg_add {places : UInt32} (hplaces : places.toNat ≤ 300) {j : Int32} {k : Nat}
    (hj : j.toInt = k) (hk : k ≤ 2) :
    (-(places.toInt32 + j)).toInt = -((places.toNat + k : Nat) : Int) := by
  have hwrap (n : Int) (hn : -400 ≤ n ∧ n ≤ 400) : n.bmod (2 ^ 32) = n :=
    Int.bmod_eq_of_le (by omega) (by omega)
  have hword : places.toInt32.toInt = places.toNat :=
    (BitVec.toInt_eq_toNat_bmod _).trans (hwrap places.toNat (by omega))
  rw [Int32.toInt_neg, Int32.toInt_add, hword, hj, hwrap (places.toNat + k) (by omega),
    hwrap (-(places.toNat + k)) (by omega)]
  rfl

/-- No tolerance for up to 300 places is negative. -/
theorem tolerance_nonneg {places : UInt32} (hplaces : places.toNat ≤ 300) :
    0.0 ≤ tolerance places := by
  have h := sub_nonneg_of_noneOutweighed noneOutweighed_unitsOfPlaces
    (getElem?_unitsOfPlaces (k := places.toNat + 0) (by omega))
    (getElem?_unitsOfPlaces (k := places.toNat + 1) (by omega))
    (getElem?_unitsOfPlaces (k := places.toNat + 2) (by omega))
  have hzero : (0 : Int32).toInt = (0 : Nat) := rfl
  have hone : (1 : Int32).toInt = (1 : Nat) := rfl
  have htwo : (2 : Int32).toInt = (2 : Nat) := rfl
  rw [← toInt_neg_add hplaces hzero (by omega), ← toInt_neg_add hplaces hone (by omega),
    ← toInt_neg_add hplaces htwo (by omega), Int32.add_zero] at h
  exact h

end Formulae.Number
