import Formulae.Proofs.Number.Bits

/-!
# The sign of an integer's double

An integer of any size has a double, which is the integer itself while it is small, may be rounded
when it is not, and is infinite beyond the largest double. Its sign is the same all along: no
rounding makes a zero of a number that is at least one.

Main results:

* `signed_ofNat`, `signed_ofInt` — the sign of an integer's double.
* `compare_ofInt_zero` — comparing it with zero is comparing the integer.
-/

namespace Formulae.Number

open Float.Model Float.Model.UnpackedFloat

-- ---------------------------------------------------------------------------
-- Rounding
-- ---------------------------------------------------------------------------

/-- A mantissa that is shifted is divided by a power of two. -/
theorem mantissa_shiftRight (em : ExtendedMantissa) (k : Nat) :
    (em >>> k).mantissa = em.mantissa / 2 ^ k := by
  induction k with
  | zero => exact (Nat.div_one _).symm
  | succ k ih =>
    show (em >>> k).mantissa / 2 = _
    rw [ih, Nat.div_div_eq_div_mul, Nat.pow_succ]

/-- Nothing is lost by rounding at the last place. -/
theorem mantissa_le_roundedMantissa (em : ExtendedMantissa) : em.mantissa ≤ em.roundedMantissa := by
  have hround : ∀ a : Accuracy, em.mantissa ≤ a.roundToNearestEven em.mantissa := by
    intro a
    match a with
    | .exact | .inexact .lt => exact Nat.le_refl _
    | .inexact .eq | .inexact .gt => exact Nat.le_add_right _ _
  exact hround _

/-- A mantissa is shifted to 53 bits at most, and not below its first one. -/
theorem mantissa_shiftToTarget {m : Nat} (hm : m ≠ 0) {e : Int} (he : -1074 ≤ e) (a : Accuracy) :
    0 < (shiftToTargetExponent Format.binary64 m e a).1.mantissa ∧
      (shiftToTargetExponent Format.binary64 m e a).1.mantissa < 2 ^ 53 ∧
      e ≤ (shiftToTargetExponent Format.binary64 m e a).2 := by
  have hmantissa : (ExtendedMantissa.ofMantissaAndAccuracy m a).mantissa = m := by
    match a with
    | .exact | .inexact .lt | .inexact .eq | .inexact .gt => rfl
  have hshift : (Format.binary64.targetExponent (totalExponent m e) - e).toNat = m.log2 - 52 := by
    unfold Format.targetExponent totalExponent Format.mantissaBits Format.minExponent
    show (max ((m.log2 : Int) + 1 + e - (52 + 1 : Nat)) (-1074 : Int) - e).toNat = _
    omega
  have hlow := Nat.log2_self_le hm
  have hhigh := @Nat.lt_log2_self m
  unfold shiftToTargetExponent shiftToExponent
  simp only [mantissa_shiftRight, hmantissa, hshift]
  refine ⟨Nat.div_pos ?_ (Nat.two_pow_pos _), ?_, by omega⟩
  · exact Nat.le_trans (Nat.pow_le_pow_right (by decide) (Nat.sub_le _ _)) hlow
  · rw [Nat.div_lt_iff_lt_mul (Nat.two_pow_pos _), ← Nat.pow_add]
    exact Nat.lt_of_lt_of_le hhigh (Nat.pow_le_pow_right (by decide) (by omega))

/-- A magnitude that is not zero is rounded to one with at most 53 bits, not below the smallest
exponent. -/
theorem roundWithAccuracy_finite (s : Sign) {m : Nat} (hm : m ≠ 0) {e : Int} (he : -1074 ≤ e)
    (a : Accuracy) : ∃ m' e' h, roundWithAccuracy Format.binary64 s m e a = .finite s m' e' h ∧
      m' < 2 ^ 53 ∧ -1074 ≤ e' := by
  obtain ⟨hpos, -, hexponent⟩ := mantissa_shiftToTarget hm he a
  unfold roundWithAccuracy
  generalize shiftToTargetExponent Format.binary64 m e a = first at hpos hexponent ⊢
  obtain ⟨em, e₁⟩ := first
  have hrounded : em.roundedMantissa ≠ 0 :=
    Nat.ne_of_gt (Nat.lt_of_lt_of_le hpos (mantissa_le_roundedMantissa em))
  -- rounding up may have made one bit more
  obtain ⟨hpos', hlt, hexponent'⟩ := mantissa_shiftToTarget hrounded (Int.le_trans he hexponent)
    .exact
  exact ⟨_, _, hpos', dif_neg (Nat.ne_of_gt hpos'), hlt,
    Int.le_trans he (Int.le_trans hexponent hexponent')⟩

-- ---------------------------------------------------------------------------
-- Signs
-- ---------------------------------------------------------------------------

/-- A number of this sign, finite or not, and not zero. -/
def HasSign (s : Sign) : UnpackedFloat → Prop
  | .infinity t => t = s
  | .finite t _ _ _ => t = s
  | .zero _ | .notANumber => False

/-- The double is a number of this sign, and not zero. -/
def Signed (s : Sign) (x : Float) : Prop :=
  HasSign s x.toModel.unpack

variable {s : Sign} {x : Float}

/-- Fields that are not those of a zero, or of no number. -/
theorem signed_of_components {exponent : BitVec 11} {mantissa : BitVec 52}
    (hnumber : exponent = -1#11 → mantissa = 0#52) (hsome : exponent = 0#11 → mantissa ≠ 0#52)
    (h : x.toModel.toBits.toBitVec = packComponents Format.binary64 s exponent mantissa) :
    Signed s x := by
  show HasSign s (UnpackedFloat.unpack Format.binary64 x.toModel.toBits.toBitVec)
  rw [h]
  unfold UnpackedFloat.unpack
  simp only [unpackMantissa_packComponents, unpackExponent_packComponents,
    unpackSign_packComponents, Sign.ofBitVec_toBitVec]
  split
  · rename_i hexponent
    rw [if_pos (hnumber hexponent)]
    rfl
  · split
    · rename_i hexponent
      rw [dif_neg (hsome hexponent)]
      rfl
    · rfl

/-- An infinity has the sign that it is packed with. -/
theorem signed_pack_infinity (s : Sign) : Signed s (.ofModel (.pack (.infinity s))) :=
  signed_of_components (fun _ => rfl) (fun h => absurd h (by decide)) rfl

/-- What is packed stays what it is, or becomes infinite. -/
theorem signed_pack_finite {m : Nat} {e : Int} (h : 0 < m) (hm : m < 2 ^ 53) (he : -1074 ≤ e) :
    Signed s (.ofModel (.pack (.finite s m e h))) := by
  have hpacked : (Float.ofModel (.pack (.finite s m e h))).toModel.toBits.toBitVec =
      UnpackedFloat.pack Format.binary64 (.finite s m e h) := rfl
  have hbiased : (e + (Format.binary64.exponentBias : Int) +
      (Format.binary64.mantissaBitsWithoutImplicit : Nat)).toNat = (e + 1075).toNat := by
    show (e + 1023 + 52).toNat = _
    omega
  rw [UnpackedFloat.pack] at hpacked
  simp only [hbiased] at hpacked
  split at hpacked
  · exact signed_of_components (fun _ => rfl) (fun h => absurd h (by decide)) hpacked
  rename_i hlow
  have hlow' : (e + 1075).toNat + 1 < 2 ^ 11 := Nat.lt_of_not_le hlow
  split at hpacked
  · -- the exponent field is neither the lowest nor the highest
    have hfield : (BitVec.ofNat 11 (e + 1075).toNat).toNat = (e + 1075).toNat := by
      rw [BitVec.toNat_ofNat]
      omega
    refine signed_of_components (fun heq => ?_) (fun heq => ?_) hpacked
    · rw [heq] at hfield
      simp at hfield
      omega
    · rw [heq] at hfield
      simp at hfield
      omega
  · rename_i hbits
    refine signed_of_components (fun heq => absurd heq (by decide)) (fun _ heq => ?_) hpacked
    have hlog : m.log2 < 53 := (Nat.log2_lt (by omega)).mpr hm
    have hbits' : m.log2 + 1 ≠ 53 := hbits
    have hsmall : m < 2 ^ 52 := (Nat.log2_lt (by omega)).mp (by omega)
    have hfield := congrArg BitVec.toNat heq
    simp at hfield
    omega

/-- Negation turns the sign round. -/
theorem Signed.neg (h : Signed s x) : Signed (-s) (-x) := by
  have hneg : -x = .ofModel (.pack (UnpackedFloat.neg x.toModel.unpack)) := rfl
  unfold Signed at h
  rw [hneg]
  match hx : x.toModel.unpack with
  | .zero t => simp [hx, HasSign] at h
  | .notANumber => simp [hx, HasSign] at h
  | .infinity t =>
    rw [hx] at h
    obtain rfl : t = s := h
    exact signed_pack_infinity (-t)
  | .finite t m e hpos =>
    rw [hx] at h
    obtain rfl : t = s := h
    have hparts : parts x = .finite (t == .negative) m e := by rw [parts_eq, hx, partsOf]
    obtain ⟨places, rfl, -, hm, -⟩ := parts_bounds hparts
    exact signed_pack_finite hpos hm (by omega)

-- ---------------------------------------------------------------------------
-- Integers
-- ---------------------------------------------------------------------------

/-- The double of a positive integer is positive, however large that is. -/
theorem signed_ofNat {n : Nat} (hn : n ≠ 0) : Signed .positive (Float.ofNat n) := by
  by_cases hsmall : n < 2 ^ 53
  · unfold Signed
    rw [toModel_ofNat hsmall, unpack_pack_whole _ hsmall, unpackedWhole, dif_neg hn]
    rfl
  · -- it is rounded with 53 more places than it has
    have hshifted : n <<< Format.binary64.mantissaBits * 10 ^ (0 : Int).toNat ≠ 0 := by
      rw [Nat.shiftLeft_eq]
      exact Nat.mul_ne_zero (mul_two_pow_ne_zero hn 53) (by decide)
    obtain ⟨m, e, hpos, hround, hm, he⟩ := roundWithAccuracy_finite (.positive * .positive) hshifted
      (show -1074 ≤ (-(Format.binary64.mantissaBits : Int) + 0) by decide) .exact
    have hofNat : Float.ofNat n =
        .ofModel (.pack (UnpackedFloat.ofScientific Format.binary64 n 0)) := by
      show Float.ofScientific n false 0 = _
      rw [Float.ofScientific, dif_neg (fun h => hsmall h.1)]
      rfl
    have hlow : ¬ (0 : Int) < -((2 ^ Format.binary64.exponentBits : Int) + n.log2) := by
      show ¬ (0 : Int) < -(2048 + n.log2)
      omega
    rw [hofNat, UnpackedFloat.ofScientific, dif_neg hn, if_neg (by decide), if_neg hlow,
      if_pos (by decide), UnpackedFloat.mul, hround]
    exact signed_pack_finite hpos hm he

/-- The double of an integer is positive, negative or zero as the integer is. -/
theorem signed_ofInt (k : Int) : (0 < k → Signed .positive (Float.ofInt k)) ∧
    (k < 0 → Signed .negative (Float.ofInt k)) := by
  match k with
  | .ofNat n =>
    refine ⟨fun hpos => signed_ofNat ?_, fun hneg => ?_⟩
    · rintro rfl
      exact absurd hpos (by decide)
    · exact absurd hneg (Int.not_lt.mpr (Int.natCast_nonneg n))
  | .negSucc n =>
    refine ⟨fun hpos => ?_, fun _ => (signed_ofNat (Nat.succ_ne_zero n)).neg⟩
    exact absurd hpos (Int.not_lt.mpr (Int.le_of_lt (Int.negSucc_lt_zero n)))

/-- Comparing the double of an integer with zero is comparing the integer. -/
theorem compare_ofInt_zero (k : Int) :
    (Float.ofInt k).toModel.unpack.compare (0.0 : Float).toModel.unpack = some (compare k 0) := by
  have hsigned : ∀ {s : Sign} {x : Float}, Signed s x → x.toModel.unpack.compare (.zero .positive) =
      some (match s with | .negative => .lt | .positive => .gt) := by
    intro s x h
    unfold Signed at h
    match hx : x.toModel.unpack with
    | .zero t => simp [hx, HasSign] at h
    | .notANumber => simp [hx, HasSign] at h
    | .infinity t | .finite t m e hpos =>
      rw [hx] at h
      obtain rfl : t = s := h
      cases t <;> rfl
  show (Float.ofInt k).toModel.unpack.compare (.zero .positive) = _
  rcases lt_trichotomy k 0 with hneg | rfl | hpos
  · rw [hsigned ((signed_ofInt k).2 hneg), Int.compare_eq_lt.mpr hneg]
  · rfl
  · rw [hsigned ((signed_ofInt k).1 hpos), Int.compare_eq_gt.mpr hpos]

theorem ofInt_beq_zero_iff {k : Int} : (Float.ofInt k == 0.0) = true ↔ k = 0 := by
  show ((Float.ofInt k).toModel.unpack.compare (0.0 : Float).toModel.unpack == some .eq) = true ↔ _
  rw [compare_ofInt_zero, beq_iff_eq, Option.some.injEq, Int.compare_eq_eq]

/-- An integer is below zero as a double just if it is. -/
theorem ofInt_lt_zero_iff {k : Int} : Float.ofInt k < 0.0 ↔ k < 0 := by
  show decide (((Float.ofInt k).toModel.unpack.compare (0.0 : Float).toModel.unpack == some .lt) =
    true) = true ↔ _
  rw [compare_ofInt_zero, decide_eq_true_eq, beq_iff_eq, Option.some.injEq, Int.compare_eq_lt]

end Formulae.Number
