import Formulae.Number.Layout
import Formulae.Number.Reading
import Formulae.Proofs.Number.Digits
import Formulae.Proofs.Number.NearestDouble

/-!
# Doubles in writing

A double is written with its shortest decimal, around a point or with an exponent. Both texts are of
one form: digits, a point, digits, and an exponent or none. A text of this form is read as the
decimal that its digits denote, and the texts of a decimal denote a decimal of the same value. That
value is one that the double stands for, so the double is read again.

Main results:

* `WrittenDecimal.read?_text` — what a text of this form is read as.
* `exists_pointedText`, `exists_scientific` — the texts of a decimal are of this form, and keep its
  value.
* `read?_format` — every double is read again from its text.
-/

namespace Formulae.Number

-- ---------------------------------------------------------------------------
-- Texts of digits
-- ---------------------------------------------------------------------------

/-- A number of at least one digit has as many digits as it is written with. -/
theorem length_digitsOf (n : Nat) : n ≠ 0 → (digitsOf n).length = digitCount n := by
  unfold digitsOf
  induction n using digitCount.induct with
  | case1 => exact fun h => absurd rfl h
  | case2 n hn ih =>
    intro _
    rw [digitCount, if_neg hn]
    by_cases hlast : n / 10 = 0
    · rw [Nat.toDigits_of_lt_base (by omega), hlast, digitCount, if_pos rfl]
      rfl
    · rw [Nat.toDigits_of_base_le (by omega) (by omega), List.length_append, ih hlast]
      rfl

/-- An integer is written as its sign and the digits of its magnitude. -/
theorem integerText_eq (n : Int) : integerText n = withSign (n < 0) (digitsOf n.natAbs) := by
  unfold integerText withSign
  simp only [decide_eq_true_eq]

theorem mem_withSign {cs : List Char} {negative : Bool} {c : Char} (h : c ∈ withSign negative cs) :
    c = '-' ∨ c ∈ cs := by
  cases negative with
  | true => exact List.mem_cons.mp h
  | false => exact .inr h

/-- A sign in front of digits is taken off again. -/
theorem takeSign_withSign {cs : List Char} (h : ∀ c ∈ cs.head?, c.isDigit = true)
    (negative : Bool) : takeSign (withSign negative cs) = (negative, cs) := by
  cases negative with
  | true => rfl
  | false =>
    unfold withSign
    rw [if_neg Bool.false_ne_true]
    unfold takeSign
    split
    · exact absurd (h '-' rfl) (by decide)
    · exact absurd (h '+' rfl) (by decide)
    · rfl

/-- Digits are taken up to the first character that is none. -/
theorem takeDigits_append {digits rest : List Char} (h : ∀ c ∈ digits, c.isDigit = true)
    (hrest : ∀ c ∈ rest.head?, c.isDigit = false) :
    takeDigits (digits ++ rest) = (digits, rest) := by
  rw [takeDigits, List.takeWhile_append_of_pos h, List.dropWhile_append_of_pos h,
    Text.dropWhile_eq_self hrest]
  cases rest with
  | nil => simp
  | cons c rest => simp [hrest c rfl]

/-- An integer is read as an exponent where it is not beyond the bound. -/
theorem readExponent?_integerText {n : Int} (h : n.natAbs < exponentBound) :
    readExponent? ('E' :: integerText n) = some n := by
  have hhead : ∀ c ∈ (digitsOf n.natAbs).head?, c.isDigit = true := fun c hc =>
    isDigit_digitsOf _ c (List.mem_of_mem_head? hc)
  have hsome : (digitsOf n.natAbs).isEmpty = false := by
    simpa using digitsOf_ne_nil n.natAbs
  have hall : (digitsOf n.natAbs).all Char.isDigit = true :=
    List.all_eq_true.mpr (isDigit_digitsOf _)
  have hmagnitude : exponentOf (digitsOf n.natAbs) = n.natAbs := by
    rw [exponentOf_eq_ofDigits (by rwa [ofDigits_digitsOf]), ofDigits_digitsOf]
  rw [readExponent?, if_pos (.inr rfl), integerText_eq, takeSign_withSign hhead]
  dsimp only
  rw [hsome, hall, hmagnitude, if_neg (by decide), signedInt]
  simp only [decide_eq_true_eq]
  congr 1
  split <;> omega

-- ---------------------------------------------------------------------------
-- Decimals in writing
-- ---------------------------------------------------------------------------

/-- A decimal in writing: digits before a point, digits behind it, and an exponent or none. -/
structure WrittenDecimal where
  before : List Char
  after : List Char
  exponent : Option Int
  begun : before ≠ []
  digits : ∀ c ∈ before ++ after, c.isDigit = true
  /-- The exponent is read whole. -/
  readable : ∀ n ∈ exponent, n.natAbs < exponentBound

namespace WrittenDecimal

variable (w : WrittenDecimal)

/-- The exponent in writing. -/
def ending : List Char :=
  match w.exponent with
  | none => []
  | some n => 'E' :: integerText n

def text : List Char :=
  w.before ++ '.' :: (w.after ++ w.ending)

/-- The decimal that is written. -/
def meaning : Decimal :=
  ⟨ofDigits (w.before ++ w.after), w.exponent.getD 0 - w.after.length⟩

/-- The ending of a written decimal is read as its exponent. -/
theorem readExponent?_ending : readExponent? w.ending = some (w.exponent.getD 0) := by
  unfold ending
  split
  · rename_i hnone
    rw [hnone]
    rfl
  · rename_i n hsome
    rw [hsome, readExponent?_integerText (w.readable n hsome)]
    rfl

/-- Digits end where the exponent begins. -/
theorem head_ending : ∀ c ∈ w.ending.head?, c.isDigit = false := by
  unfold ending
  split <;> simp

/-- A decimal is read as what is written. -/
theorem readDecimal?_text : readDecimal? w.text = some w.meaning := by
  have hbefore : takeDigits w.text = (w.before, '.' :: (w.after ++ w.ending)) :=
    takeDigits_append (fun c hc => w.digits c (List.mem_append_left _ hc)) (by simp)
  have hafter : takeDigits (w.after ++ w.ending) = (w.after, w.ending) :=
    takeDigits_append (fun c hc => w.digits c (List.mem_append_right _ hc)) w.head_ending
  have hsome : w.before.isEmpty = false := by
    simpa using w.begun
  unfold readDecimal?
  simp only [hbefore, hafter, hsome, Bool.false_and, Bool.false_eq_true, ↓reduceIte,
    w.readExponent?_ending, Option.map_some]
  rfl

/-- No other characters stand in the ending. -/
theorem mem_ending {c : Char} (h : c ∈ w.ending) : c = 'E' ∨ c = '-' ∨ c.isDigit = true := by
  unfold ending at h
  split at h
  · exact absurd h List.not_mem_nil
  · rw [List.mem_cons, integerText_eq] at h
    exact h.imp id fun hc => (mem_withSign hc).imp id (isDigit_digitsOf _ c)

/-- A decimal in writing has neither white space nor a comma. -/
theorem mem_text {c : Char} (h : c ∈ w.text) : Text.isBlank c = false ∧ c ≠ ',' := by
  have hkinds : c = '.' ∨ c = 'E' ∨ c = '-' ∨ c.isDigit = true := by
    rw [text, List.mem_append, List.mem_cons, List.mem_append] at h
    rcases h with hbefore | hpoint | hafter | hending
    · exact .inr (.inr (.inr (w.digits c (List.mem_append_left _ hbefore))))
    · exact .inl hpoint
    · exact .inr (.inr (.inr (w.digits c (List.mem_append_right _ hafter))))
    · exact .inr (w.mem_ending hending)
  rcases hkinds with rfl | rfl | rfl | hdigit
  · decide
  · decide
  · decide
  · refine ⟨isBlank_of_isDigit hdigit, ?_⟩
    rintro rfl
    exact absurd hdigit (by decide)

/-- A written decimal begins with a digit. -/
theorem head_text : ∀ c ∈ w.text.head?, c.isDigit = true := by
  obtain ⟨first, more, hbefore⟩ := List.exists_cons_of_ne_nil w.begun
  intro c hc
  rw [text, hbefore, List.cons_append, List.head?_cons, Option.mem_some_iff] at hc
  subst hc
  exact w.digits first (by rw [hbefore]; exact List.mem_append_left _ List.mem_cons_self)

/-- A decimal with a sign is read as the double nearest to what is written. -/
theorem read?_text (negative : Bool) :
    read? (String.ofList (withSign negative w.text)) =
      some (signed negative w.meaning.toDouble) := by
  have hplain : ∀ c ∈ withSign negative w.text, Text.isBlank c = false ∧ c ≠ ',' := by
    intro c hc
    rcases mem_withSign hc with rfl | hc
    · decide
    · exact w.mem_text hc
  have htrim : Text.trim (withSign negative w.text) = withSign negative w.text :=
    Text.trimBy_eq_self (fun c hc => (hplain c (List.mem_of_mem_head? hc)).1)
      (fun c hc => (hplain c (List.mem_of_getLast? hc)).1)
  have hpoint : (withSign negative w.text).map (fun c => if c = ',' then '.' else c) =
      withSign negative w.text :=
    (List.map_congr_left fun c hc => if_neg (hplain c hc).2).trans (List.map_id _)
  rw [read?, String.toList_ofList, htrim, hpoint, readDouble?, takeSign_withSign w.head_text]
  dsimp only
  rw [w.readDecimal?_text]
  rfl

end WrittenDecimal

-- ---------------------------------------------------------------------------
-- The texts of a decimal
-- ---------------------------------------------------------------------------

/-- The digits behind a point, of which there is at least one. -/
def fraction (after : List Char) : List Char :=
  if after.isEmpty then ['0'] else after

/-- A zero behind the point makes no difference. -/
theorem value_fraction (before after : List Char) (n : Int) :
    (Decimal.mk (ofDigits (before ++ fraction after)) (n - (fraction after).length)).value =
      (Decimal.mk (ofDigits (before ++ after)) (n - after.length)).value := by
  cases after with
  | cons c after => rfl
  | nil =>
    have hzero : ofDigits (before ++ ['0']) = ofDigits before * 10 := ofDigits_append before ['0']
    show (Decimal.mk (ofDigits (before ++ ['0'])) (n - 1)).value = _
    rw [hzero, List.append_nil, Decimal.value, Decimal.value]
    push_cast
    rw [zpow_sub₀ (by norm_num)]
    simp
    ring

/-- Digits around a point are a decimal in writing. -/
theorem exists_written {before after : List Char} (exponent : Option Int) (hbegun : before ≠ [])
    (hdigits : ∀ c ∈ before ++ after, c.isDigit = true)
    (hreadable : ∀ n ∈ exponent, n.natAbs < exponentBound) :
    ∃ w : WrittenDecimal,
      w.before = before ∧ w.after = fraction after ∧ w.exponent = exponent ∧
        w.meaning.value =
          (Decimal.mk (ofDigits (before ++ after)) (exponent.getD 0 - after.length)).value := by
  have hfraction : ∀ c ∈ before ++ fraction after, c.isDigit = true := by
    cases after with
    | cons c after => exact hdigits
    | nil =>
      intro c hc
      rcases List.mem_append.mp hc with hc | hc
      · exact hdigits c (List.mem_append_left _ hc)
      · rw [List.mem_singleton.mp hc]
        rfl
  exact ⟨⟨before, fraction after, exponent, hbegun, hfraction, hreadable⟩, rfl, rfl, rfl,
    value_fraction before after (exponent.getD 0)⟩

namespace Decimal

variable (d : Decimal)

/-- The digits around the point are those of the decimal. -/
theorem pointed_digits :
    d.pointed.1 ≠ [] ∧ (∀ c ∈ d.pointed.1 ++ d.pointed.2, c.isDigit = true) ∧
      (Decimal.mk (ofDigits (d.pointed.1 ++ d.pointed.2)) (0 - d.pointed.2.length)).value =
        d.value := by
  have hzeros (count : Nat) : ∀ c ∈ List.replicate count '0', c.isDigit = true := fun c hc => by
    rw [List.eq_of_mem_replicate hc]
    rfl
  have hdigits := isDigit_digitsOf d.coefficient
  unfold pointed
  dsimp only
  split
  · rename_i hwhole
    refine ⟨List.append_ne_nil_of_left_ne_nil (digitsOf_ne_nil _) _, ?_, ?_⟩
    · intro c hc
      rw [List.append_nil] at hc
      exact (List.mem_append.mp hc).elim (hdigits c) (hzeros _ c)
    · rw [List.append_nil, ofDigits_append, ofDigits_digitsOf, ofDigits_zeros, List.length_replicate,
        value, value]
      push_cast
      rw [← zpow_natCast, Int.toNat_of_nonneg hwhole]
      simp
  · rename_i hbroken
    split
    · rename_i hplaces
      rw [List.splitAt_eq, List.take_append_drop, ofDigits_digitsOf, List.length_drop]
      refine ⟨?_, hdigits, ?_⟩
      · rw [ne_eq, List.take_eq_nil_iff, not_or]
        exact ⟨by omega, digitsOf_ne_nil _⟩
      · congr 2
        omega
    · rename_i hplaces
      refine ⟨List.cons_ne_nil _ _, ?_, ?_⟩
      · intro c hc
        rw [← List.append_assoc] at hc
        exact (List.mem_append.mp hc).elim (hzeros (_ + 1) c) (hdigits c)
      · rw [← List.append_assoc, ofDigits_append, ofDigits_digitsOf, List.singleton_append,
          ← List.replicate_succ, ofDigits_zeros, List.length_append, List.length_replicate]
        congr 2
        · omega
        · omega

/-- The text with a point is of the form, and keeps the value. -/
theorem exists_pointedText :
    ∃ w : WrittenDecimal, w.text = d.pointedText ∧ w.meaning.value = d.value := by
  obtain ⟨hbegun, hdigits, hvalue⟩ := d.pointed_digits
  obtain ⟨w, hbefore, hafter, hexponent, hmeaning⟩ :=
    exists_written none hbegun hdigits (by simp)
  refine ⟨w, ?_, hmeaning.trans hvalue⟩
  have hending : w.ending = [] := by rw [WrittenDecimal.ending, hexponent]
  rw [WrittenDecimal.text, hbefore, hafter, hending, List.append_nil, pointedText]
  obtain ⟨before, after⟩ := d.pointed
  cases after <;> rfl

/-- The text with an exponent is of the form where the exponent is not beyond the bound, and keeps
the value. -/
theorem exists_scientific (h : (d.exponent + (digitsOf d.coefficient).length - 1).natAbs <
    exponentBound) :
    ∃ w : WrittenDecimal, w.text = d.scientific ∧ w.meaning.value = d.value := by
  have hall := isDigit_digitsOf d.coefficient
  have hvalue := ofDigits_digitsOf d.coefficient
  obtain ⟨first, more, hdigits⟩ := List.exists_cons_of_ne_nil (digitsOf_ne_nil d.coefficient)
  rw [hdigits, List.length_cons] at h
  rw [hdigits] at hall hvalue
  obtain ⟨w, hbefore, hafter, hexponent, hmeaning⟩ :=
    @exists_written [first] more (some (d.exponent + more.length)) (List.cons_ne_nil _ _) hall (by
      intro n hn
      rw [← Option.mem_some_iff.mp hn]
      omega)
  refine ⟨w, ?_, hmeaning.trans ?_⟩
  · rw [WrittenDecimal.text, WrittenDecimal.ending, hbefore, hafter, hexponent, scientific, hdigits]
    rfl
  · rw [List.singleton_append, hvalue, Option.getD_some]
    congr 2
    omega

end Decimal

-- ---------------------------------------------------------------------------
-- Doubles in writing
-- ---------------------------------------------------------------------------

variable {significand places : Nat}

/-- Either text of the shortest decimal of a positive double is read as that double. -/
theorem read?_shortest (hsome : significand ≠ 0) (hsignificand : significand < 2 ^ 53)
    (hplaces : places ≤ 2045) (hfull : places = 0 ∨ 2 ^ 52 ≤ significand) (plain negative : Bool) :
    read? (String.ofList (withSign negative
        (if plain then (shortest significand (places - 1074)).pointedText
          else (shortest significand (places - 1074)).scientific))) =
      some (signed negative
        (Float.ofBits (UInt64.ofNat (magnitudeBits significand places)))) := by
  have hcovers := @covers_shortest significand (places - 1074) hsome
  generalize shortest significand (places - 1074) = d at hcovers ⊢
  obtain ⟨w, htext, hvalue⟩ : ∃ w : WrittenDecimal,
      w.text = (if plain then d.pointedText else d.scientific) ∧ w.meaning.value = d.value := by
    cases plain with
    | true => exact d.exists_pointedText
    | false =>
      obtain ⟨hcoefficient, hlow, hhigh⟩ :=
        Decimal.size_of_covers hsome hsignificand hplaces hcovers
      refine d.exists_scientific ?_
      rw [length_digitsOf _ hcoefficient]
      unfold Decimal.size at hlow hhigh
      unfold exponentBound
      omega
  rw [← hvalue] at hcovers
  rw [← htext, w.read?_text,
    Decimal.toDouble_of_covers hsome hsignificand hplaces hfull hcovers]

/-- Every double is read again from its text. -/
theorem read?_format (x : Float) : read? (format x) = some x := by
  unfold format
  cases hparts : parts x with
  | nan =>
    rw [eq_of_parts_nan hparts]
    decide
  | infinite negative =>
    rw [eq_of_parts_infinite hparts]
    cases negative <;> decide
  | finite negative significand exponent =>
    obtain ⟨places, rfl, hplaces, hsignificand, hfull, hx⟩ := signed_ofBits_of_parts hparts
    dsimp only
    by_cases hsome : significand = 0
    · obtain rfl : places = 0 := by omega
      subst hsome
      rw [← hx]
      cases negative <;> decide
    · rw [read?_shortest hsome hsignificand hplaces hfull, hx]

end Formulae.Number
