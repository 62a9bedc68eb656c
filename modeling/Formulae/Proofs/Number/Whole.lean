import Mathlib
import Formulae.Number.Double

/-!
# Whole numbers as doubles

A double has 53 bits for its mantissa, so that every integer of less than that size is one. It is
packed into its bits and unpacked from them without a loss, the parts that the floor goes by are
those it is unpacked to, and a product of such integers is rounded to itself as long as it is small
enough. The doubles of integers are in the order of the integers.

Main results:

* `parts_eq` — the parts that are read off the bits of a double are what it unpacks to.
* `isExactly_ofInt`, `floorInt?_ofInt`, `ofInt_inj` — an integer is found again in its double.
* `ofInt_le_iff` — and so is the order of two.
* `ofInt_mul_ofNat`, `zero_sub_ofNat` — products and negatives of integers are exact.
-/

namespace Formulae.Number

open Float.Model Float.Model.UnpackedFloat

-- ---------------------------------------------------------------------------
-- Parts are what a double unpacks to
-- ---------------------------------------------------------------------------

/-- What an unpacked double is. -/
def partsOf : UnpackedFloat → Parts
  | .notANumber => .nan
  | .infinity s => .infinite (s == .negative)
  | .zero s => .finite (s == .negative) 0 (-1074)
  | .finite s m e _ => .finite (s == .negative) m e

/-- The mantissa is the last 52 bits. -/
theorem toNat_unpackMantissa (b : BitVec 64) :
    (@unpackMantissa Format.binary64 b).toNat = b.toNat % 2 ^ 52 := by
  simp [unpackMantissa, BitVec.extractLsb]

/-- The exponent is the 11 bits before them. -/
theorem toNat_unpackExponent (b : BitVec 64) :
    (@unpackExponent Format.binary64 b).toNat = b.toNat / 2 ^ 52 % 2 ^ 11 := by
  simp [unpackExponent, BitVec.extractLsb, Nat.shiftRight_eq_div_pow]

/-- The sign is the first bit. -/
theorem toNat_unpackSign (b : BitVec 64) :
    (@unpackSign Format.binary64 b).toNat = b.toNat / 2 ^ 63 := by
  have hb := b.isLt
  simp [unpackSign, BitVec.extractLsb, Nat.shiftRight_eq_div_pow]
  omega

/-- The sign bit is the highest one. -/
theorem sign_unpackSign (b : BitVec 64) :
    (Sign.ofBitVec (@unpackSign Format.binary64 b) == .negative) =
      decide (2 ^ 63 ≤ b.toNat) := by
  have hb := b.isLt
  have hs := toNat_unpackSign b
  unfold Sign.ofBitVec
  by_cases hneg : 2 ^ 63 ≤ b.toNat
  · have hne : @unpackSign Format.binary64 b ≠ 0#1 := by
      intro h
      rw [h] at hs
      simp at hs
      omega
    rw [if_neg hne, decide_eq_true hneg]
    rfl
  · have heq : @unpackSign Format.binary64 b = 0#1 := by
      apply BitVec.eq_of_toNat_eq
      rw [hs]
      simp
      omega
    rw [if_pos heq, decide_eq_false hneg]
    rfl

/-- The leading bit stands above the others. -/
theorem toNat_leading (m : BitVec 52) : (1#1 ++ m).toNat = 2 ^ 52 + m.toNat := by
  rw [BitVec.toNat_append, ← Nat.shiftLeft_add_eq_or_of_lt m.isLt]
  rfl

/-- A double is taken apart as it is unpacked. -/
theorem parts_eq (x : Float) : parts x = partsOf x.toModel.unpack := by
  let b : BitVec 64 := x.toModel.toBits.toBitVec
  have hm := toNat_unpackMantissa b
  have he := toNat_unpackExponent b
  have hbits : x.toBits.toNat = b.toNat := rfl
  have hfield : b.toNat / 2 ^ 52 % 2 ^ 11 = 2047 ↔
      @unpackExponent Format.binary64 b = -1#_ := by
    rw [← he, ← BitVec.toNat_inj]
    rfl
  have hzero : b.toNat / 2 ^ 52 % 2 ^ 11 = 0 ↔
      @unpackExponent Format.binary64 b = 0#_ := by
    rw [← he, ← BitVec.toNat_inj]
    rfl
  have hfraction : b.toNat % 2 ^ 52 = 0 ↔ @unpackMantissa Format.binary64 b = 0#_ := by
    rw [← hm, ← BitVec.toNat_inj]
    rfl
  have hbias : (Format.binary64.exponentBias : Int) = 1023 := rfl
  show parts x = partsOf (UnpackedFloat.unpack Format.binary64 b)
  unfold parts UnpackedFloat.unpack
  simp only [hbits, Nat.pow_eq]
  split
  · rename_i hinf
    rw [if_pos (hfield.mp hinf)]
    split
    · rename_i hnil
      rw [if_pos (hfraction.mp hnil), partsOf, sign_unpackSign]
    · rename_i hsome
      rw [if_neg (mt hfraction.mpr hsome), partsOf]
  · rename_i hfinite
    rw [if_neg (mt hfield.mpr hfinite)]
    split
    · rename_i hlow
      rw [if_pos (hzero.mp hlow)]
      split
      · rename_i hnil
        rw [partsOf, sign_unpackSign, hfraction.mpr hnil]
      · rw [partsOf, sign_unpackSign, hm, he, hlow, hbias]
        rfl
    · rename_i hnormal
      rw [if_neg (mt hzero.mpr hnormal), partsOf, sign_unpackSign, toNat_leading, hm, he, hbias]
      congr 1

-- ---------------------------------------------------------------------------
-- Whole numbers take no rounding
-- ---------------------------------------------------------------------------

/-- How far a whole number is shifted up to fill 53 bits. -/
def room (n : Nat) : Nat := 52 - n.log2

/-- A whole number as an unpacked double. -/
def unpackedWhole (s : Sign) (n : Nat) : UnpackedFloat :=
  if h : n = 0 then .zero s
  else .finite s (n * 2 ^ room n) (-(room n : Int))
    (Nat.mul_pos (Nat.pos_of_ne_zero h) (Nat.two_pow_pos _))

variable {n : Nat}

/-- A number below `2 ^ 53` has its first bit at the 52nd place or lower. -/
theorem log2_le_of_lt (hn : n < 2 ^ 53) : n.log2 ≤ 52 := by
  by_cases h : n = 0
  · rw [h]
    decide
  · have := (Nat.log2_lt h).mpr hn
    omega

theorem mul_two_pow_ne_zero (h : n ≠ 0) (k : Nat) : n * 2 ^ k ≠ 0 :=
  Nat.mul_ne_zero h (Nat.pos_iff_ne_zero.mp (Nat.two_pow_pos k))

/-- A shift to the left moves the first bit. -/
theorem log2_mul_two_pow (h : n ≠ 0) (k : Nat) : (n * 2 ^ k).log2 = n.log2 + k := by
  induction k with
  | zero => rw [Nat.pow_zero, Nat.mul_one, Nat.add_zero]
  | succ k ih =>
    have hpos : n * 2 ^ k ≠ 0 := mul_two_pow_ne_zero h k
    rw [Nat.pow_succ, ← Nat.mul_assoc, Nat.mul_comm _ 2, Nat.log2_two_mul hpos, ih]
    omega

/-- A mantissa that ends in zeros loses nothing by being shifted down over them. -/
theorem shiftRight_exact (m k : Nat) :
    (⟨m * 2 ^ k, false, false⟩ : ExtendedMantissa) >>> k = ⟨m, false, false⟩ := by
  show k.repeat ExtendedMantissa.shiftRightOne ⟨m * 2 ^ k, false, false⟩ = _
  induction k generalizing m with
  | zero => rw [Nat.pow_zero, Nat.mul_one]; rfl
  | succ k ih =>
    have hsplit : m * 2 ^ (k + 1) = (m * 2) * 2 ^ k := by
      rw [Nat.pow_succ, Nat.mul_assoc, Nat.mul_comm 2]
    rw [Nat.repeat, hsplit, ih]
    simp [ExtendedMantissa.shiftRightOne]

/-- The exponent that is wanted for a whole number, however many zeros stand behind it. -/
theorem targetExponent_whole (h : n ≠ 0) (hn : n < 2 ^ 53) (k : Nat) :
    Format.binary64.targetExponent (totalExponent (n * 2 ^ k) (-(k : Int))) = -(room n : Int) := by
  have hlog := log2_le_of_lt hn
  unfold Format.targetExponent totalExponent Format.mantissaBits Format.minExponent
  rw [log2_mul_two_pow h]
  simp only [room]
  show max _ (-1074 : Int) = _
  omega

/-- A whole number with enough bits behind it is shifted to 53 bits and stays what it is. -/
theorem shiftToTarget_whole (h : n ≠ 0) (hn : n < 2 ^ 53) {k : Nat} (hk : room n ≤ k) :
    shiftToTargetExponent Format.binary64 (n * 2 ^ k) (-(k : Int)) .exact =
      (⟨n * 2 ^ room n, false, false⟩, -(room n : Int)) := by
  have hamount : (-(room n : Int) - -(k : Int)).toNat = k - room n := by omega
  have hsplit : n * 2 ^ k = n * 2 ^ room n * 2 ^ (k - room n) := by
    rw [Nat.mul_assoc, ← Nat.pow_add, Nat.add_sub_cancel' hk]
  unfold shiftToTargetExponent shiftToExponent
  simp only [targetExponent_whole h hn, hamount, ExtendedMantissa.ofMantissaAndAccuracy]
  rw [hsplit, shiftRight_exact]
  congr 1
  omega

/-- A whole number is not rounded. -/
theorem roundWithAccuracy_whole (s : Sign) (h : n ≠ 0) (hn : n < 2 ^ 53) {k : Nat}
    (hk : room n ≤ k) :
    roundWithAccuracy Format.binary64 s (n * 2 ^ k) (-(k : Int)) .exact = unpackedWhole s n := by
  have hpos : n * 2 ^ room n ≠ 0 := mul_two_pow_ne_zero h _
  have hround : (⟨n * 2 ^ room n, false, false⟩ : ExtendedMantissa).roundedMantissa =
      n * 2 ^ room n := rfl
  unfold roundWithAccuracy
  simp only [shiftToTarget_whole h hn hk, hround, shiftToTarget_whole h hn (Nat.le_refl _)]
  rw [dif_neg hpos, unpackedWhole, dif_neg h]

/-- An integer that a double has room for is not changed by rounding. -/
theorem round_whole (s : Sign) (h : n ≠ 0) (hn : n < 2 ^ 53) (k : Nat) :
    UnpackedFloat.round Format.binary64 s (n * 2 ^ k) (-(k : Int)) = unpackedWhole s n := by
  have hshift : decreaseExponent (n * 2 ^ k) (-(k : Int)) (-(room n : Int)) =
      (n * 2 ^ max k (room n), -((max k (room n) : Nat) : Int)) := by
    have hamount : (-(k : Int) - -(room n : Int)).toNat = max k (room n) - k := by omega
    unfold decreaseExponent
    simp only [hamount, Nat.shiftLeft_eq]
    rw [Nat.mul_assoc, ← Nat.pow_add, Nat.add_sub_cancel' (Nat.le_max_left ..)]
    congr 1
    omega
  unfold UnpackedFloat.round
  simp only [targetExponent_whole h hn, hshift]
  exact roundWithAccuracy_whole s h hn (Nat.le_max_right ..)

/-- In its room an integer fills 53 bits. -/
theorem log2_mantissa (h : n ≠ 0) (hn : n < 2 ^ 53) : (n * 2 ^ room n).log2 = 52 := by
  have hlog := log2_le_of_lt hn
  rw [log2_mul_two_pow h]
  unfold room
  omega

/-- A whole number is packed and unpacked again without a loss. -/
theorem unpack_pack_whole (s : Sign) (hn : n < 2 ^ 53) :
    (Float.Model.pack (unpackedWhole s n)).unpack = unpackedWhole s n := by
  by_cases h : n = 0
  · subst h
    cases s <;> rfl
  · have hlog := log2_mantissa h hn
    have hroom : room n ≤ 52 := Nat.sub_le ..
    have hmantissa : n * 2 ^ room n % 2 ^ 52 + 2 ^ 52 = n * 2 ^ room n := by
      have hne := mul_two_pow_ne_zero h (room n)
      have hle := Nat.log2_self_le hne
      have hlt := Nat.lt_log2_self (n := n * 2 ^ room n)
      rw [hlog] at hle hlt
      omega
    -- the exponent field is neither the lowest nor the highest
    have hfield : (BitVec.ofNat 11 (1075 - room n)).toNat = 1075 - room n := by
      rw [BitVec.toNat_ofNat]
      omega
    have hnormal : BitVec.ofNat 11 (1075 - room n) ≠ 0#11 := by
      intro heq
      rw [heq] at hfield
      simp at hfield
      omega
    have hfinite : BitVec.ofNat 11 (1075 - room n) ≠ -1#11 := by
      intro heq
      rw [heq] at hfield
      simp at hfield
      omega
    have hpack : UnpackedFloat.pack Format.binary64 (unpackedWhole s n) =
        packComponents Format.binary64 s (BitVec.ofNat 11 (1075 - room n))
          (BitVec.ofNat 52 (n * 2 ^ room n)) := by
      have hbiased : (-(room n : Int) + (Format.binary64.exponentBias : Int) + (52 : Nat)).toNat =
          1075 - room n := by
        show (-(room n : Int) + 1023 + 52).toNat = _
        omega
      have hlow : ¬ 2 ^ 11 ≤ 1075 - room n + 1 := by omega
      have hbits : (n * 2 ^ room n).log2 + 1 = Format.binary64.mantissaBits := by rw [hlog]; rfl
      rw [unpackedWhole, dif_neg h, UnpackedFloat.pack]
      simp only [hbiased, hbits, if_neg hlow, if_true]
    show UnpackedFloat.unpack Format.binary64
      (UnpackedFloat.pack Format.binary64 (unpackedWhole s n)) = _
    rw [hpack, unpackedWhole, dif_neg h]
    unfold UnpackedFloat.unpack
    simp only [unpackMantissa_packComponents, unpackExponent_packComponents,
      unpackSign_packComponents, Sign.ofBitVec_toBitVec, if_neg hfinite, if_neg hnormal]
    rw [UnpackedFloat.finite.injEq]
    refine ⟨rfl, ?_, ?_⟩
    · rw [toNat_leading, BitVec.toNat_ofNat, Nat.add_comm]
      exact hmantissa
    · rw [hfield]
      show ((1075 - room n : Nat) : Int) - (1023 + 52) = _
      omega

/-- Products of whole numbers are exact while they fit. -/
theorem mul_whole (s t : Sign) {a b : Nat} (hab : a * b < 2 ^ 53) :
    UnpackedFloat.mul Format.binary64 (unpackedWhole s a) (unpackedWhole t b) =
      unpackedWhole (s * t) (a * b) := by
  by_cases ha : a = 0
  · subst ha
    by_cases hb : b = 0
    · subst hb
      rfl
    · simp [unpackedWhole, hb, UnpackedFloat.mul]
  · by_cases hb : b = 0
    · subst hb
      simp [unpackedWhole, ha, UnpackedFloat.mul]
    · have hne : a * b ≠ 0 := Nat.mul_ne_zero ha hb
      have hmantissa : a * 2 ^ room a * (b * 2 ^ room b) = a * b * 2 ^ (room a + room b) := by
        rw [Nat.pow_add]
        ac_rfl
      have hexponent : -(room a : Int) + -(room b : Int) = -((room a + room b : Nat) : Int) := by
        omega
      -- the product has at least as many bits as it needs
      have hroom : room (a * b) ≤ room a + room b := by
        have hle : 2 ^ (a.log2 + b.log2) ≤ a * b := by
          rw [Nat.pow_add]
          exact Nat.mul_le_mul (Nat.log2_self_le ha) (Nat.log2_self_le hb)
        have hlt : a.log2 + b.log2 < 53 :=
          (Nat.pow_lt_pow_iff_right (by decide)).mp (Nat.lt_of_le_of_lt hle hab)
        unfold room
        omega
      have hmul := roundWithAccuracy_whole (s * t) hne hab hroom
      rw [← hmantissa, ← hexponent] at hmul
      rw [← hmul]
      simp [unpackedWhole, ha, hb, UnpackedFloat.mul]

-- ---------------------------------------------------------------------------
-- Whole doubles
-- ---------------------------------------------------------------------------

/-- An integer as an unpacked double. -/
def unpackedInt (k : Int) : UnpackedFloat :=
  unpackedWhole (if k < 0 then .negative else .positive) k.natAbs

/-- A natural number is made a double without rounding. -/
theorem normalize_whole {n : Nat} (hn : n < 2 ^ 53) :
    UnpackedFloat.ofInt Format.binary64 n = unpackedWhole .positive n := by
  unfold UnpackedFloat.ofInt UnpackedFloat.normalize
  by_cases h : n = 0
  · subst h
    rfl
  · have hgt : compare (n : Int) 0 = .gt := by
      rw [Int.compare_eq_gt]
      omega
    have hround := round_whole .positive h hn 0
    rw [Nat.pow_zero, Nat.mul_one] at hround
    simp only [hgt, Int.toNat_natCast]
    exact hround

theorem unpack_one : (Float.ofBits 0x3FF0000000000000).toModel.unpack = unpackedWhole .positive 1 :=
  rfl

/-- A natural number is the double of that number. -/
theorem toModel_ofNat {n : Nat} (hn : n < 2 ^ 53) :
    (Float.ofNat n).toModel = .pack (unpackedWhole .positive n) := by
  have hword : n.toUInt64.toNat = n := by
    rw [UInt64.toNat_ofNat']
    omega
  have hfloat : n.toUInt64.toFloat.toModel = .pack (unpackedWhole .positive n) := by
    show Float.Model.pack (UnpackedFloat.ofInt Format.binary64 n.toUInt64.toNat) = _
    rw [hword, normalize_whole hn]
  -- it is made as a product with the power `1` of ten
  have hofNat : Float.ofNat n = n.toUInt64.toFloat * Float.ofBits 0x3FF0000000000000 := by
    show Float.ofScientific n false 0 = _
    unfold Float.ofScientific
    rw [dif_pos ⟨hn, by decide⟩]
    rfl
  rw [hofNat]
  show Float.Model.pack (UnpackedFloat.mul Format.binary64 n.toUInt64.toFloat.toModel.unpack
    (Float.ofBits 0x3FF0000000000000).toModel.unpack) = _
  have hone : n * 1 < 2 ^ 53 := by rwa [Nat.mul_one]
  rw [hfloat, unpack_one, unpack_pack_whole _ hn, mul_whole _ _ hone, Nat.mul_one]
  rfl

/-- Negation turns the sign round and keeps the integer. -/
theorem neg_whole (s : Sign) (n : Nat) :
    UnpackedFloat.neg (unpackedWhole s n) = unpackedWhole (-s) n := by
  unfold unpackedWhole
  split <;> rfl

/-- An integer is the double of that integer. -/
theorem toModel_ofInt {k : Int} (hk : k.natAbs < 2 ^ 53) :
    (Float.ofInt k).toModel = .pack (unpackedInt k) := by
  cases k with
  | ofNat n => exact toModel_ofNat hk
  | negSucc n =>
    have hn : n + 1 < 2 ^ 53 := hk
    show Float.Model.pack (UnpackedFloat.neg (Float.ofNat (n + 1)).toModel.unpack) = _
    rw [toModel_ofNat hn, unpack_pack_whole _ hn, neg_whole, unpackedInt,
      if_pos (Int.negSucc_lt_zero n)]
    rfl

/-- An integer is made a double without rounding. -/
theorem unpack_ofInt {k : Int} (hk : k.natAbs < 2 ^ 53) :
    (Float.ofInt k).toModel.unpack = unpackedInt k := by
  rw [toModel_ofInt hk, unpackedInt, unpack_pack_whole _ hk]

/-- The integer part of an integer is itself. -/
theorem whole_exact (n k : Nat) : whole (n * 2 ^ k) (-(k : Int)) = n := by
  unfold whole
  split
  · obtain rfl : k = 0 := by omega
    simp
  · rw [Int.neg_neg, Int.toNat_natCast]
    exact Nat.mul_div_cancel n (Nat.two_pow_pos k)

theorem isWhole_exact (n k : Nat) : isWhole (n * 2 ^ k) (-(k : Int)) = true := by
  unfold isWhole
  rw [Int.neg_neg, Int.toNat_natCast, Bool.or_eq_true]
  right
  simp

/-- An integer is its sign and its magnitude. -/
theorem signedInt_natAbs (k : Int) : signedInt (decide (k < 0)) k.natAbs = k := by
  unfold signedInt
  split
  · rename_i hneg
    have := of_decide_eq_true hneg
    omega
  · rename_i hpos
    rw [decide_eq_true_iff] at hpos
    omega

/-- An integer has some places behind the point, which are zeros. -/
theorem parts_ofInt {k : Int} (hk : k.natAbs < 2 ^ 53) :
    ∃ r : Nat, parts (Float.ofInt k) = .finite (decide (k < 0)) (k.natAbs * 2 ^ r) (-(r : Int)) := by
  rw [parts_eq, unpack_ofInt hk, unpackedInt, unpackedWhole]
  by_cases hzero : k.natAbs = 0
  · obtain rfl : k = 0 := Int.natAbs_eq_zero.mp hzero
    exact ⟨1074, by rw [dif_pos hzero, partsOf, hzero, Nat.zero_mul]; rfl⟩
  · refine ⟨room k.natAbs, ?_⟩
    rw [dif_neg hzero, partsOf]
    by_cases hneg : k < 0
    · rw [if_pos hneg, decide_eq_true hneg]
      rfl
    · rw [if_neg hneg, decide_eq_false hneg]
      rfl

/-- An integer is found again in its double. -/
theorem floorInt?_ofInt {k : Int} (hk : k.natAbs < 2 ^ 53) :
    floorInt? (Float.ofInt k) = some k := by
  obtain ⟨r, hparts⟩ := parts_ofInt hk
  unfold floorInt?
  rw [hparts]
  simp only [floorOf, whole_exact, isWhole_exact, signedInt_natAbs, Bool.not_true, Bool.and_false,
    Bool.false_eq_true, if_false]

/-- The double is this integer exactly; a zero has no sign. -/
def IsExactly (x : Float) (k : Int) : Prop :=
  ∃ significand exponent, parts x = .finite (decide (k < 0)) significand exponent ∧
    (significand : ℚ) * 2 ^ exponent = k.natAbs

/-- The double of an integer has just its value. -/
theorem isExactly_ofInt {k : Int} (hk : k.natAbs < 2 ^ 53) : IsExactly (Float.ofInt k) k := by
  obtain ⟨r, hparts⟩ := parts_ofInt hk
  refine ⟨_, _, hparts, ?_⟩
  rw [Nat.cast_mul, Nat.cast_pow, Nat.cast_ofNat, mul_assoc, zpow_neg, zpow_natCast,
    mul_inv_cancel₀ (by positivity), mul_one]

/-- Different integers have different doubles. -/
theorem ofInt_inj {k l : Int} (hk : k.natAbs < 2 ^ 53) (hl : l.natAbs < 2 ^ 53) :
    Float.ofInt k = Float.ofInt l ↔ k = l := by
  constructor
  · intro h
    have hfloor := floorInt?_ofInt hk
    rw [h, floorInt?_ofInt hl] at hfloor
    exact (Option.some.inj hfloor).symm
  · intro h
    rw [h]

/-- A double is known from its model. -/
theorem eq_of_toModel {x y : Float} (h : x.toModel = y.toModel) : x = y := by
  cases x
  cases y
  exact congrArg Float.ofModel h

/-- A product with a positive integer is exact. -/
theorem ofInt_mul_ofNat {k : Int} {n : Nat} (hk : k.natAbs < 2 ^ 53) (hpos : 0 < n)
    (hn : n < 2 ^ 53) (hproduct : (k * n).natAbs < 2 ^ 53) :
    Float.ofInt k * Float.ofNat n = Float.ofInt (k * n) := by
  have habs : (k * n).natAbs = k.natAbs * n := by
    rw [Int.natAbs_mul, Int.natAbs_natCast]
  have hneg : k * n < 0 ↔ k < 0 := by
    have hposInt : (0 : Int) < n := by omega
    constructor
    · intro h
      by_cases hk : k < 0
      · exact hk
      · have := Int.mul_nonneg (Int.not_lt.mp hk) (Int.le_of_lt hposInt)
        omega
    · intro h
      exact Int.mul_neg_of_neg_of_pos h hposInt
  have hsign : (if k * n < 0 then Sign.negative else .positive) =
      (if k < 0 then Sign.negative else .positive) * .positive := by
    simp only [hneg]
    split <;> rfl
  apply eq_of_toModel
  show Float.Model.pack (UnpackedFloat.mul Format.binary64 (Float.ofInt k).toModel.unpack
    (Float.ofNat n).toModel.unpack) = _
  rw [toModel_ofInt hproduct, unpack_ofInt hk, toModel_ofNat hn, unpack_pack_whole _ hn,
    unpackedInt, unpackedInt, mul_whole _ _ (habs ▸ hproduct), hsign, habs]

/-- An integer taken from zero is its negative. -/
theorem zero_sub_ofNat {n : Nat} (hn : n < 2 ^ 53) :
    0.0 - Float.ofNat n = Float.ofInt (-n) := by
  have hzero : (0.0 : Float).toModel.unpack = .zero .positive := rfl
  have hneg : (-(n : Int)).natAbs < 2 ^ 53 := by
    rwa [Int.natAbs_neg, Int.natAbs_natCast]
  apply eq_of_toModel
  show Float.Model.pack (UnpackedFloat.sub Format.binary64 (0.0 : Float).toModel.unpack
    (Float.ofNat n).toModel.unpack) = _
  rw [toModel_ofInt hneg, hzero, toModel_ofNat hn, unpack_pack_whole _ hn, unpackedInt,
    Int.natAbs_neg, Int.natAbs_natCast]
  by_cases hzero : n = 0
  · subst hzero
    rfl
  · have hsign : -(n : Int) < 0 := by omega
    rw [if_pos hsign, unpackedWhole, dif_neg hzero, unpackedWhole, dif_neg hzero]
    rfl

-- ---------------------------------------------------------------------------
-- Order
-- ---------------------------------------------------------------------------

/-- Of two magnitudes with 53 bits the greater one has the greater exponent, or else the greater
mantissa. -/
theorem compare_mantissas {a b : Nat} (ha : a ≠ 0) (hb : b ≠ 0) (ha' : a < 2 ^ 53)
    (hb' : b < 2 ^ 53) : (compare (-(room a : Int)) (-(room b : Int))).then
      (compare (a * 2 ^ room a) (b * 2 ^ room b)) = compare a b := by
  have hless : ∀ {a b : Nat}, a ≠ 0 → b < 2 ^ 53 → a < b →
      (compare (-(room a : Int)) (-(room b : Int))).then
        (compare (a * 2 ^ room a) (b * 2 ^ room b)) = .lt := by
    intro a b ha hb' hlt
    have hlog : a.log2 ≤ b.log2 := (Nat.le_log2 (by omega)).mpr ((Nat.log2_self_le ha).trans hlt.le)
    have hb52 := log2_le_of_lt hb'
    -- with the same number of binary digits both are shifted by the same places
    rcases hlog.lt_or_eq with hless | hsame
    · have hexponent : -(room a : Int) < -(room b : Int) := by
        unfold room
        omega
      rw [Int.compare_eq_lt.mpr hexponent]
      rfl
    · have hroom : room a = room b := by rw [room, room, hsame]
      rw [hroom, Int.compare_eq_eq.mpr rfl]
      exact Nat.compare_eq_lt.mpr (Nat.mul_lt_mul_of_pos_right hlt (Nat.two_pow_pos _))
  rcases lt_trichotomy a b with hlt | rfl | hgt
  · rw [hless ha hb' hlt, Nat.compare_eq_lt.mpr hlt]
  · simp
  · have hswap := congrArg Ordering.swap (hless hb ha' hgt)
    rw [Ordering.swap_then, Int.compare_swap, Nat.compare_swap] at hswap
    rw [hswap, Nat.compare_eq_gt.mpr hgt]
    rfl

/-- A positive integer is unpacked as a finite number with its magnitude. -/
theorem unpackedInt_of_pos {k : Int} (h : 0 < k) : ∃ hpos, unpackedInt k =
    .finite .positive (k.natAbs * 2 ^ room k.natAbs) (-(room k.natAbs : Int)) hpos := by
  have hsome : k.natAbs ≠ 0 := by omega
  refine ⟨Nat.pos_of_ne_zero (mul_two_pow_ne_zero hsome _), ?_⟩
  rw [unpackedInt, if_neg (Int.not_lt.mpr h.le), unpackedWhole, dif_neg hsome]

/-- So is a negative one, with the other sign. -/
theorem unpackedInt_of_neg {k : Int} (h : k < 0) : ∃ hpos, unpackedInt k =
    .finite .negative (k.natAbs * 2 ^ room k.natAbs) (-(room k.natAbs : Int)) hpos := by
  have hsome : k.natAbs ≠ 0 := by omega
  refine ⟨Nat.pos_of_ne_zero (mul_two_pow_ne_zero hsome _), ?_⟩
  rw [unpackedInt, if_pos h, unpackedWhole, dif_neg hsome]

/-- Numbers that are in order like others are compared like them. -/
theorem compare_congr {a b : Nat} {k l : Int} (hlt : a < b ↔ k < l) (heq : a = b ↔ k = l) :
    compare a b = compare k l := by
  show (if a < b then Ordering.lt else if a = b then .eq else .gt) =
    if k < l then .lt else if k = l then .eq else .gt
  simp only [hlt, heq]

/-- Unpacked integers are compared as integers. -/
theorem compare_unpackedInt {k l : Int} (hk : k.natAbs < 2 ^ 53) (hl : l.natAbs < 2 ^ 53) :
    (unpackedInt k).compare (unpackedInt l) = some (compare k l) := by
  have hmantissas (hk' : k ≠ 0) (hl' : l ≠ 0) :=
    compare_mantissas (Int.natAbs_ne_zero.mpr hk') (Int.natAbs_ne_zero.mpr hl') hk hl
  have hzero : unpackedInt 0 = .zero .positive := rfl
  -- different signs decide at once; only of two numbers of one sign are the mantissas compared
  rcases lt_trichotomy k 0 with hkneg | rfl | hkpos
  · obtain ⟨_, hk⟩ := unpackedInt_of_neg hkneg
    rcases lt_trichotomy l 0 with hlneg | rfl | hlpos
    · obtain ⟨_, hl⟩ := unpackedInt_of_neg hlneg
      rw [hk, hl]
      show some (Ordering.swap _) = _
      rw [hmantissas hkneg.ne hlneg.ne, Nat.compare_swap,
        compare_congr (k := k) (l := l) (by omega) (by omega)]
    · rw [hk, hzero, Int.compare_eq_lt.mpr hkneg]
      rfl
    · obtain ⟨_, hl⟩ := unpackedInt_of_pos hlpos
      rw [hk, hl, Int.compare_eq_lt.mpr (hkneg.trans hlpos)]
      rfl
  · rw [hzero]
    rcases lt_trichotomy l 0 with hlneg | rfl | hlpos
    · obtain ⟨_, hl⟩ := unpackedInt_of_neg hlneg
      rw [hl, Int.compare_eq_gt.mpr hlneg]
      rfl
    · rfl
    · obtain ⟨_, hl⟩ := unpackedInt_of_pos hlpos
      rw [hl, Int.compare_eq_lt.mpr hlpos]
      rfl
  · obtain ⟨_, hk⟩ := unpackedInt_of_pos hkpos
    rcases lt_trichotomy l 0 with hlneg | rfl | hlpos
    · obtain ⟨_, hl⟩ := unpackedInt_of_neg hlneg
      rw [hk, hl, Int.compare_eq_gt.mpr (hlneg.trans hkpos)]
      rfl
    · rw [hk, hzero, Int.compare_eq_gt.mpr hkpos]
      rfl
    · obtain ⟨_, hl⟩ := unpackedInt_of_pos hlpos
      rw [hk, hl]
      show some _ = _
      rw [hmantissas hkpos.ne' hlpos.ne', compare_congr (k := k) (l := l) (by omega) (by omega)]

/-- The doubles of integers are in the order of the integers. -/
theorem ofInt_le_iff {k l : Int} (hk : k.natAbs < 2 ^ 53) (hl : l.natAbs < 2 ^ 53) :
    Float.ofInt k ≤ Float.ofInt l ↔ k ≤ l := by
  show decide (((Float.ofInt k).toModel.unpack.compare (Float.ofInt l).toModel.unpack).any
    (·.isLE) = true) = true ↔ _
  rw [unpack_ofInt hk, unpack_ofInt hl, compare_unpackedInt hk hl, decide_eq_true_eq]
  exact Int.isLE_compare

end Formulae.Number
