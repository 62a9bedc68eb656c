/-!
# Doubles taken apart

Every number of a formula is an IEEE 754 double. `parts` reads a double as sign, significand and
exponent, so that what is done to its value can be said in integers: the whole number below it, the
remainder of a division, the nearest integer within bounds. The three operations that the processor
does in one step and rounds once (sum, product, quotient) stay the operations of `Float`.

Main statement: `clampedFloor_mem`, an integer made of a double stays within its bounds.
-/

namespace Formulae.Number

/-! ## Reading and writing the bits -/

/-- What a double is: not a number, an infinity, or `significand * 2 ^ exponent` with a sign. -/
inductive Parts
  | nan
  | infinite (negative : Bool)
  | finite (negative : Bool) (significand : Nat) (exponent : Int)
deriving Repr, DecidableEq

/-- The parts of a double. The exponent field counts from `2 ^ -1074`; fields `0` and `1` share that
place, the first without the leading bit. -/
def parts (x : Float) : Parts :=
  let bits := x.toBits.toNat
  let negative := Nat.pow 2 63 ≤ bits
  let field : Nat := bits / Nat.pow 2 52 % Nat.pow 2 11
  let fraction : Nat := bits % Nat.pow 2 52
  if field = 2047 then
    if fraction = 0 then .infinite negative else .nan
  else if field = 0 then .finite negative fraction (-1074)
  else .finite negative (Nat.pow 2 52 + fraction) ((field : Int) - 1075)

/-- The double `significand * 2 ^ exponent` for a significand below `2 ^ 53` and a value that is a
double: the significand is shifted up to 53 bits as far as the smallest exponent allows. -/
def ofParts (negative : Bool) (significand : Nat) (exponent : Int) : Float :=
  let offset := (exponent + 1074).toNat
  let room := 52 - significand.log2
  let bits :=
    if significand = 0 then 0
    -- too small for the first bit: the exponent field stays zero
    else if offset ≤ room then significand * Nat.pow 2 offset
    -- the first bit is not stored, but adds one to the exponent field
    else (offset - room) * Nat.pow 2 52 + significand * Nat.pow 2 room
  Float.ofBits (UInt64.ofNat (bits + if negative then Nat.pow 2 63 else 0))

/-- A double with the sign of the first argument and the magnitude of the second one. -/
def signed (negative : Bool) (x : Float) : Float :=
  if negative then -x else x

/-! ## The integer part -/

/-- The integer part of a magnitude. -/
def whole (significand : Nat) (exponent : Int) : Nat :=
  if 0 ≤ exponent then significand * Nat.pow 2 exponent.toNat
  else significand / Nat.pow 2 (-exponent).toNat

/-- Whether a magnitude is an integer. -/
def isWhole (significand : Nat) (exponent : Int) : Bool :=
  0 ≤ exponent || significand % Nat.pow 2 (-exponent).toNat == 0

/-- The integer of a sign and a magnitude that is rounded away from zero or toward it. -/
def signedInt (negative : Bool) (magnitude : Nat) : Int :=
  if negative then -(magnitude : Int) else magnitude

/-- The largest integer not above a finite value. -/
def floorOf (negative : Bool) (significand : Nat) (exponent : Int) : Int :=
  let below := whole significand exponent
  signedInt negative (if negative && !isWhole significand exponent then below + 1 else below)

/-- The largest integer not above a double; there is none for an infinity or no number. -/
def floorInt? (x : Float) : Option Int :=
  match parts x with
  | .finite negative significand exponent => some (floorOf negative significand exponent)
  | _ => none

/-- The largest integer not above a double, kept between two bounds; `0` when it is no number. -/
def clampedFloor (low high : Int) (x : Float) : Int :=
  match parts x with
  | .nan => 0
  | .infinite negative => if negative then low else high
  | .finite negative significand exponent =>
    max low (min high (floorOf negative significand exponent))

/-- An integer made of a double stays within its bounds. -/
theorem clampedFloor_mem {low high : Int} (hlow : low ≤ 0) (hhigh : 0 ≤ high) (x : Float) :
    low ≤ clampedFloor low high x ∧ clampedFloor low high x ≤ high := by
  unfold clampedFloor
  split
  · exact ⟨hlow, hhigh⟩
  · split <;> omega
  · omega

/-! ## Rounding to whole doubles -/

/-- The largest whole double not above `x`. A whole double is returned as it is, which keeps the
sign of a zero; the others are below `2 ^ 53`, so their integer parts are doubles. -/
def floor (x : Float) : Float :=
  match parts x with
  | .finite negative significand exponent =>
    if isWhole significand exponent then x
    else if negative then -(Float.ofNat (whole significand exponent + 1))
    else Float.ofNat (whole significand exponent)
  | _ => x

/-- The smallest whole double not below `x`. -/
def ceiling (x : Float) : Float :=
  -(floor (-x))

/-- The whole double nearest to `x`, a half going away from zero. -/
def nearestWhole (x : Float) : Float :=
  match parts x with
  | .finite negative significand exponent =>
    if isWhole significand exponent then x
    else
      -- one half in units of half the last place
      let half := Nat.pow 2 (-exponent).toNat
      signed negative (Float.ofNat (whole (2 * significand + half) (exponent - 1)))
  | _ => x

/-! ## Remainder -/

/-- The exact remainder of a division toward zero, with the sign of the dividend. There is none of
an infinity, by zero, or of no number; a finite value is its own remainder by an infinity. -/
def remainder (x y : Float) : Float :=
  match parts x, parts y with
  | .finite negative m e, .finite _ n f =>
    if n = 0 then 0.0 / 0.0
    else
      -- on the finer of the two grids both are integers
      let common := min e f
      let dividend := m * Nat.pow 2 (e - common).toNat
      let divisor := n * Nat.pow 2 (f - common).toNat
      ofParts negative (dividend % divisor) common
  | .finite .., .infinite _ => x
  | _, _ => 0.0 / 0.0

end Formulae.Number
