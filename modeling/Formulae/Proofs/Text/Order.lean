import Mathlib.Data.Char
import Mathlib.Data.List.Lex
import Formulae.Text.Search

/-!
# The order of texts

Texts are compared in three ways: `distance` subtracts the first two characters that differ, or else
the lengths; `precedes` looks for the first two characters that differ, too, but not at lengths; and
texts may be compared by the bytes of their UTF-8 form. All three are the lexicographic order of the
characters by their code points.

Main results:

* `precedes_iff`, `distance_neg_iff`, `bytes_lt_iff` — the order by each of the three.
* `distance_swap`, `distance_eq_zero_iff`, `distance_nonpos_trans` — what makes a distance of it.
-/

namespace Formulae.Text

variable {c d : Char} {cs ds es : List Char}

-- ---------------------------------------------------------------------------
-- Distances
-- ---------------------------------------------------------------------------

/-- A character that both texts begin with makes no difference. -/
theorem distance_cons_self (c : Char) (cs ds : List Char) :
    distance (c :: cs) (c :: ds) = distance cs ds := by
  rw [distance, distance, distanceFrom, if_pos rfl, List.length_cons, List.length_cons]
  congr 1
  omega

/-- The first characters that differ make the distance. -/
theorem distance_cons_of_ne (h : c ≠ d) (cs ds : List Char) :
    distance (c :: cs) (d :: ds) = (c.toNat : Int) - d.toNat := by
  rw [distance, distanceFrom, if_neg h]

theorem distance_nil_left (ds : List Char) : distance [] ds = -(ds.length : Int) := by
  simp [distance, distanceFrom]

theorem distance_nil_right (cs : List Char) : distance cs [] = cs.length := by
  cases cs <;> simp [distance, distanceFrom]

/-- Seen from the other text the distance is the opposite. -/
theorem distance_swap (cs ds : List Char) : distance ds cs = -distance cs ds := by
  induction cs generalizing ds with
  | nil => rw [distance_nil_left, distance_nil_right, Int.neg_neg]
  | cons c cs ih =>
    cases ds with
    | nil => rw [distance_nil_left, distance_nil_right]
    | cons d ds =>
      by_cases h : c = d
      · subst h
        rw [distance_cons_self, distance_cons_self, ih]
      · rw [distance_cons_of_ne h, distance_cons_of_ne (Ne.symm h)]
        omega

/-- Characters are in the order of their code points. -/
theorem char_lt_iff : c < d ↔ c.toNat < d.toNat := Iff.rfl

/-- A text is a negative distance away from those it stands before. -/
theorem distance_neg_iff : distance cs ds < 0 ↔ cs < ds := by
  induction cs generalizing ds with
  | nil =>
    rw [distance_nil_left]
    cases ds with
    | nil => exact iff_of_false (by simp) (List.not_lt_nil _)
    | cons d ds => exact iff_of_true (by rw [List.length_cons]; omega) (List.nil_lt_cons d ds)
  | cons c cs ih =>
    cases ds with
    | nil =>
      rw [distance_nil_right]
      exact iff_of_false (by omega) (List.not_lt_nil _)
    | cons d ds =>
      rw [List.cons_lt_cons_iff]
      by_cases h : c = d
      · subst h
        rw [distance_cons_self, ih]
        simp
      · rw [distance_cons_of_ne h, char_lt_iff, or_iff_left fun hsame => h hsame.1]
        omega

/-- A distance is not positive to the text itself and to those behind it. -/
theorem distance_nonpos_iff : distance cs ds ≤ 0 ↔ cs ≤ ds := by
  have hswap := distance_swap cs ds
  have hle : cs ≤ ds ↔ ¬ ds < cs := not_lt.symm
  rw [hle, ← distance_neg_iff]
  omega

/-- Only equal texts are not apart. -/
theorem distance_eq_zero_iff : distance cs ds = 0 ↔ cs = ds := by
  have hswap := distance_swap cs ds
  have heq : cs = ds ↔ cs ≤ ds ∧ ds ≤ cs := le_antisymm_iff
  rw [heq, ← distance_nonpos_iff, ← distance_nonpos_iff]
  omega

/-- The order that the distance makes is transitive. -/
theorem distance_nonpos_trans (h : distance cs ds ≤ 0) (h' : distance ds es ≤ 0) :
    distance cs es ≤ 0 :=
  distance_nonpos_iff.mpr (le_trans (distance_nonpos_iff.mp h) (distance_nonpos_iff.mp h'))

-- ---------------------------------------------------------------------------
-- Code points and bytes
-- ---------------------------------------------------------------------------

/-- A text precedes another one in the lexicographic order. -/
theorem precedes_iff : precedes cs ds = true ↔ cs < ds := by
  induction cs generalizing ds with
  | nil => cases ds <;> simp [precedes]
  | cons c cs ih =>
    cases ds with
    | nil => simp [precedes]
    | cons d ds =>
      rw [List.cons_lt_cons_iff, char_lt_iff]
      simp [precedes, ih]

/-- The bytes of a text in UTF-8. -/
def utf8 (cs : List Char) : List UInt8 :=
  cs.flatMap String.utf8EncodeChar

theorem char_toNat_lt (c : Char) : c.val.toNat < 0x110000 := by
  have h := c.valid
  simp only [UInt32.isValidChar, Nat.isValidChar] at h
  omega

/-- A code point of four bytes has so many digits, of which all but the first are below 64. -/
theorem four_digits {v : Nat} (h : v < 0x110000) : ∃ a b c d : Nat,
    a < 8 ∧ b < 64 ∧ c < 64 ∧ d < 64 ∧ v = 262144 * a + 4096 * b + 64 * c + d ∧
    v / 262144 % 8 = a ∧ v / 4096 % 64 = b ∧ v / 64 % 64 = c ∧ v % 64 = d :=
  ⟨_, _, _, _, Nat.mod_lt _ (by decide), Nat.mod_lt _ (by decide), Nat.mod_lt _ (by decide),
    Nat.mod_lt _ (by decide), by omega, rfl, rfl, rfl, rfl⟩

/-- The bytes of a character decide, whatever stands behind them: those of no character begin with
those of another one. -/
theorem utf8EncodeChar_lt (h : c < d) (bs bs' : List UInt8) :
    String.utf8EncodeChar c ++ bs < String.utf8EncodeChar d ++ bs' := by
  have hlt : c.val.toNat < d.val.toNat := h
  have hd := char_toNat_lt d
  unfold String.utf8EncodeChar
  generalize c.val.toNat = v at hlt ⊢
  generalize d.val.toNat = w at hlt hd ⊢
  simp only
  by_cases hfour : 0xffff < v
  · obtain ⟨a, b, c, d, ha, hb, hc, hd', hv, hva, hvb, hvc, hvd⟩ := four_digits (hlt.trans hd)
    obtain ⟨a', b', c', d', ha', hb', hc', hd'', hw, hwa, hwb, hwc, hwd⟩ := four_digits hd
    simp only [hva, hvb, hvc, hvd, hwa, hwb, hwc, hwd, if_neg (show ¬ v ≤ 0x7f by omega),
      if_neg (show ¬ v ≤ 0x7ff by omega), if_neg (show ¬ v ≤ 0xffff by omega),
      if_neg (show ¬ w ≤ 0x7f by omega), if_neg (show ¬ w ≤ 0x7ff by omega),
      if_neg (show ¬ w ≤ 0xffff by omega), List.cons_append, List.nil_append,
      List.cons_lt_cons_iff, UInt8.lt_iff_toNat_lt, ← UInt8.toNat_inj, UInt8.toNat_ofNat']
    clear hva hvb hvc hvd hwa hwb hwc hwd
    omega
  · -- one of the first bytes differs, as one of the first digits of the code points does
    split_ifs <;>
      simp only [List.cons_append, List.nil_append, List.cons_lt_cons_iff, UInt8.lt_iff_toNat_lt,
        ← UInt8.toNat_inj, UInt8.toNat_ofNat'] <;>
      omega

/-- A beginning that texts share has no part in their order. -/
theorem append_lt_append_iff {front bs bs' : List UInt8} :
    front ++ bs < front ++ bs' ↔ bs < bs' := by
  induction front with
  | nil => rfl
  | cons b front ih =>
    rw [List.cons_append, List.cons_append, List.cons_lt_cons_iff, ih]
    simp

/-- Texts are in the order of their bytes. -/
theorem utf8_lt_iff : utf8 cs < utf8 ds ↔ cs < ds := by
  induction cs generalizing ds with
  | nil =>
    cases ds with
    | nil => simp
    | cons d ds =>
      have hsome : utf8 (d :: ds) ≠ [] := by
        have hlength := String.length_utf8EncodeChar d
        have hpos := d.utf8Size_pos
        rw [utf8, List.flatMap_cons, ← List.length_pos_iff, List.length_append]
        omega
      obtain ⟨b, bs, hbytes⟩ := List.exists_cons_of_ne_nil hsome
      rw [hbytes]
      exact iff_of_true (List.nil_lt_cons b bs) (List.nil_lt_cons d ds)
  | cons c cs ih =>
    cases ds with
    | nil => simp [utf8]
    | cons d ds =>
      show String.utf8EncodeChar c ++ utf8 cs < String.utf8EncodeChar d ++ utf8 ds ↔ _
      rw [List.cons_lt_cons_iff]
      rcases lt_trichotomy c d with h | rfl | h
      · exact iff_of_true (utf8EncodeChar_lt h _ _) (.inl h)
      · rw [← ih, append_lt_append_iff]
        simp
      · refine iff_of_false (List.lt_asymm (utf8EncodeChar_lt h _ _)) ?_
        rintro (hlt | ⟨rfl, -⟩)
        · exact lt_asymm h hlt
        · exact lt_irrefl _ h

/-- The bytes that a text is stored as. -/
def bytes (s : String) : List UInt8 :=
  s.toByteArray.data.toList

/-- The bytes of a text are those of its characters in turn. -/
theorem bytes_eq_utf8 (s : String) : bytes s = utf8 s.toList := by
  rw [bytes, ← String.utf8Encode_toList, List.utf8Encode, List.data_toByteArray]
  rfl

/-- The bytes of texts are in the order of the texts. -/
theorem bytes_lt_iff {s t : String} : bytes s < bytes t ↔ s.toList < t.toList := by
  rw [bytes_eq_utf8, bytes_eq_utf8, utf8_lt_iff]

end Formulae.Text
