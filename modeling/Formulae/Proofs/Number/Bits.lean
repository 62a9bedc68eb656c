import Mathlib
import Formulae.Proofs.Number.Whole

/-!
# The bits of a double

A finite double is the number of its bits without the sign, and that is its significand with the
place of its exponent above it: the leading bit of the significand, where there is one, counts as
one more in the field of the exponent. All that is not finite is one of three doubles.

Main results:

* `signed_ofBits_of_parts` — a finite double is made again of its parts.
* `eq_of_parts_nan`, `eq_of_parts_infinite` — so are the others.
* `parts_bounds` — which parts a finite double has.
-/

namespace Formulae.Number

open Float.Model Float.Model.UnpackedFloat

-- ---------------------------------------------------------------------------
-- The parts of finite doubles
-- ---------------------------------------------------------------------------

/-- The bits of the double `significand * 2 ^ (places - 1074)` without its sign. -/
def magnitudeBits (significand places : Nat) : Nat :=
  places * 2 ^ 52 + significand

variable {x : Float} {negative : Bool} {significand : Nat} {exponent : Int}

/-- The parts of finite doubles: the significand has all its places, unless the exponent is the
smallest one. -/
theorem parts_bounds (h : parts x = .finite negative significand exponent) :
    ∃ places : Nat, exponent = places - 1074 ∧ places ≤ 2045 ∧ significand < 2 ^ 53 ∧
      (places = 0 ∨ 2 ^ 52 ≤ significand) ∧
      x.toBits.toNat = magnitudeBits significand places + if negative then 2 ^ 63 else 0 := by
  have hbits : x.toBits.toNat < 2 ^ 64 := x.toBits.toNat_lt
  unfold parts at h
  simp only [Nat.pow_eq] at h
  unfold magnitudeBits
  generalize x.toBits.toNat = b at h hbits ⊢
  have hsplit : b = b % 2 ^ 52 + b / 2 ^ 52 % 2 ^ 11 * 2 ^ 52 + if 2 ^ 63 ≤ b then 2 ^ 63 else 0 := by
    split <;> omega
  have hfield : b / 2 ^ 52 % 2 ^ 11 < 2048 := Nat.mod_lt _ (by decide)
  have hfraction : b % 2 ^ 52 < 2 ^ 52 := Nat.mod_lt _ (by decide)
  generalize b / 2 ^ 52 % 2 ^ 11 = field at h hsplit hfield
  generalize b % 2 ^ 52 = fraction at h hsplit hfraction
  split at h
  · split at h <;> exact absurd h (by simp)
  · rename_i hfinite
    split at h
    · rename_i hlow
      obtain ⟨hnegative, hsignificand, hexponent⟩ := Parts.finite.inj h
      refine ⟨0, by omega, by omega, by omega, .inl rfl, ?_⟩
      rw [hlow, Nat.zero_mul, Nat.add_zero] at hsplit
      rw [← hnegative, ← hsignificand, Nat.zero_mul, Nat.zero_add]
      simpa only [decide_eq_true_eq] using hsplit
    · rename_i hnormal
      obtain ⟨hnegative, hsignificand, hexponent⟩ := Parts.finite.inj h
      refine ⟨field - 1, by omega, by omega, by omega, .inr (by omega), ?_⟩
      rw [← hnegative, ← hsignificand]
      simp only [decide_eq_true_eq]
      omega

-- ---------------------------------------------------------------------------
-- Signs
-- ---------------------------------------------------------------------------

/-- The bits of finite doubles are not those of no number. -/
theorem not_isNaNBits {b : BitVec 64} (h : b.toNat / 2 ^ 52 % 2 ^ 11 < 2047) :
    @isNaNBits Format.binary64 b = false := by
  have hexponent : @unpackExponent Format.binary64 b ≠ -1#_ := by
    intro heq
    have hvalue := toNat_unpackExponent b
    have hlarge : (-BitVec.ofNat Format.binary64.exponentBits 1).toNat = 2047 := rfl
    rw [heq, hlarge] at hvalue
    omega
  unfold isNaNBits
  exact decide_eq_false fun hboth => hexponent hboth.1

/-- With the sign bit everything but the sign is unpacked alike. -/
theorem unpack_signed {b c : BitVec 64} (hb : b.toNat < 2 ^ 63) (hc : c.toNat = b.toNat + 2 ^ 63) :
    UnpackedFloat.unpack Format.binary64 c = (UnpackedFloat.unpack Format.binary64 b).neg := by
  have hmantissa : @unpackMantissa Format.binary64 c = @unpackMantissa Format.binary64 b := by
    apply BitVec.eq_of_toNat_eq
    rw [toNat_unpackMantissa, toNat_unpackMantissa]
    omega
  have hexponent : @unpackExponent Format.binary64 c = @unpackExponent Format.binary64 b := by
    apply BitVec.eq_of_toNat_eq
    rw [toNat_unpackExponent, toNat_unpackExponent]
    omega
  have hsign : Sign.ofBitVec (@unpackSign Format.binary64 c) =
      -Sign.ofBitVec (@unpackSign Format.binary64 b) := by
    have hlow : @unpackSign Format.binary64 b = 0#1 := by
      apply BitVec.eq_of_toNat_eq
      rw [toNat_unpackSign, Nat.div_eq_of_lt hb]
      rfl
    have hhigh : @unpackSign Format.binary64 c = 1#1 := by
      apply BitVec.eq_of_toNat_eq
      rw [toNat_unpackSign]
      simp
      omega
    rw [hlow, hhigh]
    rfl
  simp only [UnpackedFloat.unpack, hmantissa, hexponent, hsign]
  split
  · split <;> rfl
  · split
    · split <;> rfl
    · rfl

/-- What the bits of a number are unpacked to is packed into the same bits. -/
theorem pack_unpack_toBitVec {bits : UInt64} (h : bits.toNat / 2 ^ 52 % 2 ^ 11 < 2047) :
    (UnpackedFloat.unpack Format.binary64 bits.toBitVec).pack Format.binary64 =
      bits.toBitVec := by
  rw [pack_unpack, not_isNaNBits h, if_neg Bool.false_ne_true]

/-- The bits of a double that is a number are those that it is made of. -/
theorem unpack_ofBits {bits : UInt64} (h : bits.toNat / 2 ^ 52 % 2 ^ 11 < 2047) :
    (Float.ofBits bits).toModel.unpack = UnpackedFloat.unpack Format.binary64 bits.toBitVec := by
  show UnpackedFloat.unpack Format.binary64 ((UnpackedFloat.unpack Format.binary64
    bits.toBitVec).pack Format.binary64) = _
  rw [pack_unpack_toBitVec h]

/-- They are found again in the double. -/
theorem toBits_ofBits {bits : UInt64} (h : bits.toNat / 2 ^ 52 % 2 ^ 11 < 2047) :
    (Float.ofBits bits).toBits = bits := by
  rw [← UInt64.toBitVec_inj]
  exact pack_unpack_toBitVec h

/-- The negative of a finite double has the same bits, with the sign. -/
theorem neg_ofBits {bits : Nat} (h : bits < 2047 * 2 ^ 52) :
    -Float.ofBits (UInt64.ofNat bits) = Float.ofBits (UInt64.ofNat (bits + 2 ^ 63)) := by
  have hsize : UInt64.size = 2 ^ 64 := rfl
  have hbits : (UInt64.ofNat bits).toNat = bits := UInt64.toNat_ofNat_of_lt' (by omega)
  have hsigned : (UInt64.ofNat (bits + 2 ^ 63)).toNat = bits + 2 ^ 63 :=
    UInt64.toNat_ofNat_of_lt' (by omega)
  have hunpack : UnpackedFloat.unpack Format.binary64 (UInt64.ofNat (bits + 2 ^ 63)).toBitVec =
      (UnpackedFloat.unpack Format.binary64 (UInt64.ofNat bits).toBitVec).neg := by
    refine unpack_signed ?_ ?_
    · rw [UInt64.toNat_toBitVec, hbits]
      omega
    · rw [UInt64.toNat_toBitVec, UInt64.toNat_toBitVec, hbits, hsigned]
  apply eq_of_toModel
  show Float.Model.pack (Float.ofBits (UInt64.ofNat bits)).toModel.unpack.neg =
    Float.Model.pack (UnpackedFloat.unpack Format.binary64 (UInt64.ofNat (bits + 2 ^ 63)).toBitVec)
  rw [unpack_ofBits (by rw [hbits]; omega), hunpack]

/-- Only a double without any bits but the sign is zero. -/
theorem signed_ofBits_ne_zero (negative : Bool) {bits : Nat} (hpos : 0 < bits)
    (h : bits ≤ 2047 * 2 ^ 52) : signed negative (Float.ofBits (UInt64.ofNat bits)) ≠ 0.0 := by
  rcases h.eq_or_lt with rfl | h
  · cases negative <;> decide
  have hsize : UInt64.size = 2 ^ 64 := rfl
  have hzero : (0.0 : Float).toBits.toNat = 0 := by decide
  have hmade (made : Nat) (hmade : made < 2 ^ 64) (hfield : made / 2 ^ 52 % 2 ^ 11 < 2047)
      (hsome : made ≠ 0) : Float.ofBits (UInt64.ofNat made) ≠ 0.0 := by
    intro heq
    have hnat : (UInt64.ofNat made).toNat = made := UInt64.toNat_ofNat_of_lt' hmade
    rw [← heq, toBits_ofBits (by rwa [hnat]), hnat] at hzero
    exact hsome hzero
  cases negative with
  | false => exact hmade bits (by omega) (by omega) (by omega)
  | true =>
    have hneg : signed true (Float.ofBits (UInt64.ofNat bits)) =
        -Float.ofBits (UInt64.ofNat bits) := rfl
    rw [hneg, neg_ofBits h]
    exact hmade (bits + 2 ^ 63) (by omega) (by omega) (by omega)

/-- A finite double is made again of its parts. -/
theorem signed_ofBits_of_parts (h : parts x = .finite negative significand exponent) :
    ∃ places : Nat, exponent = places - 1074 ∧ places ≤ 2045 ∧ significand < 2 ^ 53 ∧
      (places = 0 ∨ 2 ^ 52 ≤ significand) ∧
      signed negative (Float.ofBits (UInt64.ofNat (magnitudeBits significand places))) = x := by
  obtain ⟨places, hexponent, hplaces, hsignificand, hfull, hbits⟩ := parts_bounds h
  refine ⟨places, hexponent, hplaces, hsignificand, hfull, ?_⟩
  have hmade : Float.ofBits (UInt64.ofNat x.toBits.toNat) = x := by
    rw [UInt64.ofNat_toNat, Float.ofBits_toBits]
  rw [hbits] at hmade
  cases negative with
  | false => rwa [if_neg Bool.false_ne_true, Nat.add_zero] at hmade
  | true =>
    rw [if_pos rfl] at hmade
    rw [← hmade]
    refine neg_ofBits ?_
    unfold magnitudeBits
    omega

-- ---------------------------------------------------------------------------
-- What is not finite
-- ---------------------------------------------------------------------------

/-- There is one double that is no number. -/
theorem eq_of_parts_nan (h : parts x = .nan) : x = 0.0 / 0.0 := by
  have hmodel : x.toModel.unpack = .notANumber := by
    rw [parts_eq] at h
    revert h
    cases x.toModel.unpack <;> simp [partsOf]
  have hbits : x.toModel.toBits.toBitVec = packedNaN Format.binary64 :=
    (unpack_eq_notANumber_iff_of_valid x.toModel.valid).mp hmodel
  have hnan : (0.0 / 0.0 : Float).toBits.toBitVec = packedNaN Format.binary64 := by
    decide
  rw [← Float.toBits_inj, ← UInt64.toBitVec_inj, hnan]
  exact hbits

/-- There is one infinity with each sign. -/
theorem eq_of_parts_infinite (h : parts x = .infinite negative) :
    x = signed negative (1.0 / 0.0) := by
  have hbits : x.toBits.toNat < 2 ^ 64 := x.toBits.toNat_lt
  have hnumber : x.toBits.toNat = 2047 * 2 ^ 52 + if negative then 2 ^ 63 else 0 := by
    unfold parts at h
    simp only [Nat.pow_eq] at h
    generalize x.toBits.toNat = b at h hbits ⊢
    split at h
    · split at h
      · obtain rfl := Parts.infinite.inj h
        simp only [decide_eq_true_eq]
        split <;> omega
      · exact absurd h (by simp)
    · split at h <;> exact absurd h (by simp)
  have hmade : Float.ofBits (UInt64.ofNat x.toBits.toNat) = x := by
    rw [UInt64.ofNat_toNat, Float.ofBits_toBits]
  rw [hnumber] at hmade
  rw [← hmade]
  cases negative <;> decide

end Formulae.Number
