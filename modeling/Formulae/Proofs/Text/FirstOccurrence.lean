import Mathlib.Order.Bounds.Basic
import Formulae.Text.Search
import Formulae.Proofs.Text.Order

/-!
# The first occurrence of a text

A text is looked for from the left, a character at a time, and found at the first place where it
stands. It may also be looked for in the bytes of UTF-8: no character but a whole one begins with a
first byte, so that a text is never found inside of a character, and a place in bytes is a place in
characters. The first one in bytes is the first one in characters.

Main results:

* `find?_eq_some_iff`, `find?_eq_none_iff` — a text is found where it stands first.
* `utf8_prefix_drop_iff` — where its bytes stand.
* `exists_front_of_isLeast_utf8`, `occurrences_utf8_eq_empty_iff` — where they stand first.
-/

namespace Formulae.Text

variable {c d : Char} {needle cs ds : List Char} {k : Nat}

-- ---------------------------------------------------------------------------
-- Characters
-- ---------------------------------------------------------------------------

/-- The places where a list stands in another one, counted from zero. -/
def occurrences {α : Type} (needle cs : List α) : Set Nat :=
  {k | k ≤ cs.length ∧ needle <+: cs.drop k}

/-- At the very front a text stands if it is a beginning. -/
theorem zero_mem_occurrences_iff : 0 ∈ occurrences needle cs ↔ needle <+: cs := by
  simp [occurrences]

/-- Further on it stands where it does in the rest. -/
theorem succ_mem_occurrences_iff :
    k + 1 ∈ occurrences needle (c :: cs) ↔ k ∈ occurrences needle cs := by
  simp [occurrences]

/-- What a text begins with stands behind what is in front of the text. -/
theorem length_mem_occurrences {back : List Char} (front : List Char) (h : needle <+: back) :
    front.length ∈ occurrences needle (front ++ back) :=
  ⟨by simp, by rwa [List.drop_left]⟩

/-- The count only goes on from where it starts. -/
theorem findFrom?_eq_map (start : Nat) :
    findFrom? needle start cs = (find? needle cs).map (start + ·) := by
  induction cs generalizing start with
  | nil => simp [find?, findFrom?]
  | cons c cs ih =>
    rw [find?, findFrom?, findFrom?]
    split
    · rfl
    · rw [ih (start + 1), ih (0 + 1), Option.map_map]
      congr 1
      funext k
      show start + 1 + k = start + (0 + 1 + k)
      omega

theorem find?_cons : find? needle (c :: cs) =
    if needle.isPrefixOf (c :: cs) then some 0 else (find? needle cs).map (1 + ·) := by
  rw [find?, findFrom?, findFrom?_eq_map]

/-- A text is found where it stands first, if it stands anywhere. -/
theorem find?_spec (needle cs : List Char) :
    (∃ k, find? needle cs = some k ∧ IsLeast (occurrences needle cs) k) ∨
      find? needle cs = none ∧ occurrences needle cs = ∅ := by
  induction cs with
  | nil =>
    by_cases h : needle = []
    · subst h
      exact .inl ⟨0, rfl, zero_mem_occurrences_iff.mpr (List.prefix_refl _), fun k _ => k.zero_le⟩
    · refine .inr ⟨if_neg (by simpa using h), Set.eq_empty_of_forall_notMem fun k hk => h ?_⟩
      simpa using hk.2
  | cons c cs ih =>
    rw [find?_cons]
    by_cases h : needle <+: c :: cs
    · rw [if_pos (List.isPrefixOf_iff_prefix.mpr h)]
      exact .inl ⟨0, rfl, zero_mem_occurrences_iff.mpr h, fun k _ => k.zero_le⟩
    · rw [if_neg (mt List.isPrefixOf_iff_prefix.mp h)]
      have hzero : 0 ∉ occurrences needle (c :: cs) := mt zero_mem_occurrences_iff.mp h
      rcases ih with ⟨k, hfind, hmem, hleast⟩ | ⟨hfind, hnone⟩
      · refine .inl ⟨k + 1, by rw [hfind, Option.map_some, Nat.add_comm],
          succ_mem_occurrences_iff.mpr hmem, fun l hl => ?_⟩
        cases l with
        | zero => exact absurd hl hzero
        | succ l => exact Nat.succ_le_succ (hleast (succ_mem_occurrences_iff.mp hl))
      · refine .inr ⟨by rw [hfind, Option.map_none], Set.eq_empty_of_forall_notMem fun l hl => ?_⟩
        cases l with
        | zero => exact hzero hl
        | succ l =>
          have hmem := succ_mem_occurrences_iff.mp hl
          rw [hnone] at hmem
          exact hmem

/-- A text is found at the first place where it stands. -/
theorem find?_eq_some_iff : find? needle cs = some k ↔ IsLeast (occurrences needle cs) k := by
  rcases find?_spec needle cs with ⟨l, hfind, hleast⟩ | ⟨hfind, hnone⟩
  · rw [hfind, Option.some.injEq]
    exact ⟨fun h => h ▸ hleast, hleast.unique⟩
  · rw [hfind, hnone]
    exact iff_of_false (by simp) fun h => h.1

/-- A text is not found if it stands nowhere. -/
theorem find?_eq_none_iff : find? needle cs = none ↔ occurrences needle cs = ∅ := by
  rcases find?_spec needle cs with ⟨l, hfind, hleast⟩ | ⟨hfind, hnone⟩
  · rw [hfind]
    exact iff_of_false (by simp) fun h => by simpa [h] using hleast.1
  · exact iff_of_true hfind hnone

-- ---------------------------------------------------------------------------
-- Bytes
-- ---------------------------------------------------------------------------

theorem utf8_cons (c : Char) (cs : List Char) :
    utf8 (c :: cs) = String.utf8EncodeChar c ++ utf8 cs :=
  List.flatMap_cons

theorem utf8_append (cs ds : List Char) : utf8 (cs ++ ds) = utf8 cs ++ utf8 ds :=
  List.flatMap_append

/-- The bytes are as many as are measured. -/
theorem length_utf8 (cs : List Char) : (utf8 cs).length = byteLength cs := by
  induction cs with
  | nil => rfl
  | cons c cs ih =>
    rw [utf8_cons, List.length_append, String.length_utf8EncodeChar, ih, byteLength_cons]

/-- Behind the bytes of a beginning stand the bytes of the rest. -/
theorem drop_utf8 (front back : List Char) :
    (utf8 (front ++ back)).drop (byteLength front) = utf8 back := by
  rw [utf8_append, ← length_utf8, List.drop_left]

/-- The bytes of a text tell its first character. -/
theorem eq_of_utf8EncodeChar_append {bs bs' : List UInt8}
    (h : String.utf8EncodeChar c ++ bs = String.utf8EncodeChar d ++ bs') : c = d := by
  rcases lt_trichotomy c d with hlt | heq | hgt
  · exact absurd (h ▸ utf8EncodeChar_lt hlt bs bs') (List.lt_irrefl _)
  · exact heq
  · exact absurd (h ▸ utf8EncodeChar_lt hgt bs' bs) (List.lt_irrefl _)

/-- The bytes of a text begin with those of another one where it begins with that one. -/
theorem utf8_prefix_iff : utf8 cs <+: utf8 ds ↔ cs <+: ds := by
  constructor
  · intro h
    induction cs generalizing ds with
    | nil => exact List.nil_prefix
    | cons c cs ih =>
      obtain ⟨rest, hrest⟩ := h
      rw [utf8_cons, List.append_assoc] at hrest
      cases ds with
      | nil =>
        have hlength := congrArg List.length hrest
        have hpos := c.utf8Size_pos
        rw [List.length_append, String.length_utf8EncodeChar] at hlength
        simp [utf8] at hlength
        omega
      | cons d ds =>
        rw [utf8_cons] at hrest
        obtain rfl := eq_of_utf8EncodeChar_append hrest
        exact (List.prefix_cons_inj c).mpr (ih ⟨rest, List.append_cancel_left hrest⟩)
  · rintro ⟨rest, rfl⟩
    rw [utf8_append]
    exact List.prefix_append _ _

/-- Only at the beginning of a character a first byte stands. -/
theorem exists_front_of_firstByte {n : Nat} {b : UInt8} {bs : List UInt8}
    (hb : b.IsUTF8FirstByte) (h : (utf8 cs).drop n = b :: bs) :
    ∃ front back, cs = front ++ back ∧ byteLength front = n := by
  induction cs generalizing n with
  | nil => simp [utf8] at h
  | cons c cs ih =>
    have hlength := String.length_utf8EncodeChar c
    rw [utf8_cons] at h
    by_cases hinside : n < c.utf8Size
    · -- the byte is one of those of the first character
      have hn : n < (String.utf8EncodeChar c).length := by rwa [hlength]
      have hbyte : (String.utf8EncodeChar c)[n] = b := by
        rw [List.drop_append_of_le_length hn.le, List.drop_eq_getElem_cons hn] at h
        exact (List.cons.inj h).1
      rw [← hbyte, UInt8.isUTF8FirstByte_getElem_utf8EncodeChar] at hb
      exact ⟨[], c :: cs, rfl, hb.symm⟩
    · rw [List.drop_append, List.drop_eq_nil_of_le (by omega), List.nil_append, hlength] at h
      obtain ⟨front, back, rfl, hfront⟩ := ih h
      exact ⟨c :: front, back, rfl, by rw [byteLength_cons]; omega⟩

/-- The bytes of a text that is not empty stand where the text stands, in whole characters. -/
theorem utf8_prefix_drop_iff (h : needle ≠ []) {n : Nat} : utf8 needle <+: (utf8 cs).drop n ↔
    ∃ front back, cs = front ++ back ∧ byteLength front = n ∧ needle <+: back := by
  constructor
  · rintro ⟨rest, hrest⟩
    obtain ⟨c, needle, rfl⟩ := List.exists_cons_of_ne_nil h
    have hsome : 0 < (String.utf8EncodeChar c).length := by
      rw [String.length_utf8EncodeChar]
      exact c.utf8Size_pos
    have hfirst : (utf8 cs).drop n = (String.utf8EncodeChar c)[0] ::
        ((String.utf8EncodeChar c).drop 1 ++ utf8 needle ++ rest) := by
      rw [← hrest, utf8_cons, ← List.cons_append, ← List.cons_append, List.getElem_cons_drop]
      rfl
    obtain ⟨front, back, rfl, rfl⟩ :=
      exists_front_of_firstByte UInt8.isUTF8FirstByte_getElem_zero_utf8EncodeChar hfirst
    rw [drop_utf8] at hrest
    exact ⟨front, back, rfl, rfl, utf8_prefix_iff.mp ⟨rest, hrest⟩⟩
  · rintro ⟨front, back, rfl, rfl, hback⟩
    rw [drop_utf8]
    exact utf8_prefix_iff.mpr hback

/-- Where a text stands in another one its bytes stand, too. -/
theorem byteLength_take_mem_occurrences (h : k ∈ occurrences needle cs) :
    byteLength (cs.take k) ∈ occurrences (utf8 needle) (utf8 cs) := by
  have hdrop := drop_utf8 (cs.take k) (cs.drop k)
  rw [List.take_append_drop] at hdrop
  refine ⟨?_, by rw [hdrop]; exact utf8_prefix_iff.mpr h.2⟩
  calc byteLength (cs.take k) ≤ byteLength (cs.take k) + byteLength (cs.drop k) := Nat.le_add_right ..
    _ = (utf8 cs).length := by rw [length_utf8, ← byteLength_append, List.take_append_drop]

/-- Less of a text has less bytes. -/
theorem byteLength_take_lt {front : List Char} (h : k < front.length) :
    byteLength (front.take k) < byteLength front := by
  have hsplit := byteLength_append (front.take k) (front.drop k)
  have hpos := front[k].utf8Size_pos
  rw [List.take_append_drop, List.drop_eq_getElem_cons h, byteLength_cons] at hsplit
  omega

/-- The first place of the bytes of a text is the first place of the text. -/
theorem exists_front_of_isLeast_utf8 {n : Nat}
    (h : IsLeast (occurrences (utf8 needle) (utf8 cs)) n) :
    ∃ front back, cs = front ++ back ∧ byteLength front = n ∧
      IsLeast (occurrences needle cs) front.length := by
  obtain ⟨⟨-, hmem⟩, hleast⟩ := h
  by_cases hneedle : needle = []
  · -- nothing stands at the beginning already
    subst hneedle
    have hzero : 0 ∈ occurrences [] cs := zero_mem_occurrences_iff.mpr List.nil_prefix
    obtain rfl : n = 0 := Nat.le_zero.mp (hleast (byteLength_take_mem_occurrences hzero))
    exact ⟨[], cs, rfl, rfl, hzero, fun k _ => k.zero_le⟩
  · obtain ⟨front, back, rfl, rfl, hback⟩ := (utf8_prefix_drop_iff hneedle).mp hmem
    refine ⟨front, back, rfl, rfl, length_mem_occurrences front hback, fun k hk => ?_⟩
    by_contra hbefore
    have hlt : k < front.length := Nat.lt_of_not_le hbefore
    have hle := hleast (byteLength_take_mem_occurrences hk)
    rw [List.take_append_of_le_length hlt.le] at hle
    exact Nat.not_le.mpr (byteLength_take_lt hlt) hle

/-- The bytes of a text stand nowhere where the text does not. -/
theorem occurrences_utf8_eq_empty_iff :
    occurrences (utf8 needle) (utf8 cs) = ∅ ↔ occurrences needle cs = ∅ := by
  simp only [Set.eq_empty_iff_forall_notMem]
  constructor
  · exact fun h k hk => h _ (byteLength_take_mem_occurrences hk)
  · intro h n hn
    by_cases hneedle : needle = []
    · subst hneedle
      exact h 0 (zero_mem_occurrences_iff.mpr List.nil_prefix)
    · obtain ⟨front, back, rfl, -, hback⟩ := (utf8_prefix_drop_iff hneedle).mp hn.2
      exact h _ (length_mem_occurrences front hback)

end Formulae.Text
