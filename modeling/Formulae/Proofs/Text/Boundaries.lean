import Formulae.Text.Search

/-!
# Character boundaries

A byte offset of a text lies on a boundary if no character goes over it. A part of the text can be
cut out between two boundaries, the first of which is not behind the second one, and there is no
part between any other two offsets.

Main results:

* `isBoundary_iff` — a boundary has whole characters before and behind it.
* `slice?_eq_some_iff` — what is cut out has whole characters before and behind it.
* `isSome_slice?_iff` — between which offsets something can be cut out.
-/

namespace Formulae.Text

-- ---------------------------------------------------------------------------
-- Boundaries
-- ---------------------------------------------------------------------------

/-- Whether an offset lies between two characters of a text, or at one of its ends. -/
def IsBoundary (text : String) (offset : Nat) : Prop :=
  (String.Pos.Raw.mk offset).IsValid text

variable {text : String} {cs front back part : List Char} {n start stop : Nat}

theorem utf8ByteSize_ofList (cs : List Char) : (String.ofList cs).utf8ByteSize = byteLength cs := by
  induction cs with
  | nil => rfl
  | cons c cs ih =>
    rw [String.ofList_cons, String.utf8ByteSize_append, String.utf8ByteSize_singleton, ih,
      byteLength_cons]

/-- A text has as many bytes as its characters. -/
theorem utf8ByteSize_eq (text : String) : text.utf8ByteSize = byteLength text.toList := by
  rw [← utf8ByteSize_ofList, String.ofList_toList]

/-- A boundary has whole characters before and behind it. -/
theorem isBoundary_iff :
    IsBoundary text n ↔ ∃ front back, text.toList = front ++ back ∧ byteLength front = n := by
  rw [IsBoundary, String.Pos.Raw.isValid_iff_exists_append]
  constructor
  · rintro ⟨before, after, rfl, hn⟩
    refine ⟨before.toList, after.toList, String.toList_append, ?_⟩
    rw [← utf8ByteSize_eq]
    exact (congrArg String.Pos.Raw.byteIdx hn).symm
  · rintro ⟨front, back, htext, rfl⟩
    refine ⟨String.ofList front, String.ofList back, ?_, ?_⟩
    · rw [← String.ofList_append, ← htext, String.ofList_toList]
    · rw [String.Pos.Raw.ext_iff, String.byteIdx_rawEndPos, utf8ByteSize_ofList]

/-- Behind a beginning of the text there is a boundary. -/
theorem isBoundary_of_append (h : text.toList = front ++ back) :
    IsBoundary text (byteLength front) :=
  isBoundary_iff.mpr ⟨front, back, h, rfl⟩

/-- No boundary is behind the end of the text. -/
theorem IsBoundary.le (h : IsBoundary text n) : n ≤ text.utf8ByteSize := by
  obtain ⟨front, back, htext, rfl⟩ := isBoundary_iff.mp h
  rw [utf8ByteSize_eq, htext, byteLength_append]
  exact Nat.le_add_right _ _

/-- Of two beginnings of a text the one with more bytes goes on behind the other one. -/
theorem exists_append_of_byteLength_le {longer rest : List Char}
    (h : front ++ rest = longer ++ back) (hle : byteLength front ≤ byteLength longer) :
    ∃ part, longer = front ++ part := by
  rcases List.append_eq_append_iff.mp h with ⟨part, rfl, -⟩ | ⟨part, rfl, -⟩
  · exact ⟨part, rfl⟩
  · cases part with
    | nil => exact ⟨[], by simp⟩
    | cons c part =>
      have hpos := c.utf8Size_pos
      rw [byteLength_append, byteLength_cons] at hle
      omega

/-- On a boundary, and nowhere else, there is a rest of the text. -/
theorem isSome_dropBytes?_iff : (dropBytes? n text.toList).isSome = true ↔ IsBoundary text n := by
  rw [Option.isSome_iff_exists, isBoundary_iff]
  constructor
  · rintro ⟨back, h⟩
    obtain ⟨front, htext, hn⟩ := dropBytes?_eq_some_iff.mp h
    exact ⟨front, back, htext, hn⟩
  · rintro ⟨front, back, htext, hn⟩
    exact ⟨back, dropBytes?_eq_some_iff.mpr ⟨front, htext, hn⟩⟩

-- ---------------------------------------------------------------------------
-- Slices
-- ---------------------------------------------------------------------------

/-- The text before a byte offset; `none` past the end or inside a character. -/
def takeBytes? (n : Nat) (cs : List Char) : Option (List Char) :=
  (dropBytes? n cs).map fun back => cs.take (cs.length - back.length)

/-- The text between two byte offsets; `none` if they are in the wrong order, and past the end or
inside a character. -/
def slice? (start stop : Nat) (cs : List Char) : Option (List Char) :=
  if start ≤ stop then (dropBytes? start cs).bind (takeBytes? (stop - start)) else none

/-- A beginning is taken by its number of bytes. -/
theorem takeBytes?_eq_some_iff :
    takeBytes? n cs = some front ↔ ∃ back, cs = front ++ back ∧ byteLength front = n := by
  rw [takeBytes?, Option.map_eq_some_iff]
  constructor
  · rintro ⟨back, hdrop, rfl⟩
    obtain ⟨front, rfl, hn⟩ := dropBytes?_eq_some_iff.mp hdrop
    have hfront : (front ++ back).take ((front ++ back).length - back.length) = front := by
      rw [List.length_append, Nat.add_sub_cancel, List.take_left]
    rw [hfront]
    exact ⟨back, rfl, hn⟩
  · rintro ⟨back, rfl, hn⟩
    refine ⟨back, dropBytes?_eq_some_iff.mpr ⟨front, rfl, hn⟩, ?_⟩
    rw [List.length_append, Nat.add_sub_cancel, List.take_left]

/-- What is cut out has whole characters before and behind it. -/
theorem slice?_eq_some_iff : slice? start stop cs = some part ↔ ∃ front back,
    cs = front ++ part ++ back ∧ byteLength front = start ∧ byteLength (front ++ part) = stop := by
  constructor
  · intro h
    rw [slice?] at h
    split at h
    · rename_i hle
      obtain ⟨rest, hdrop, htake⟩ := Option.bind_eq_some_iff.mp h
      obtain ⟨front, rfl, hfront⟩ := dropBytes?_eq_some_iff.mp hdrop
      obtain ⟨back, rfl, hpart⟩ := takeBytes?_eq_some_iff.mp htake
      refine ⟨front, back, (List.append_assoc ..).symm, hfront, ?_⟩
      rw [byteLength_append, hfront, hpart]
      omega
    · cases h
  · rintro ⟨front, back, rfl, rfl, rfl⟩
    have hdrop : dropBytes? (byteLength front) (front ++ part ++ back) = some (part ++ back) :=
      dropBytes?_eq_some_iff.mpr ⟨front, List.append_assoc .., rfl⟩
    rw [byteLength_append, slice?, if_pos (Nat.le_add_right _ _), hdrop, Option.bind_some,
      Nat.add_sub_cancel_left]
    exact takeBytes?_eq_some_iff.mpr ⟨back, rfl, rfl⟩

/-- Between two boundaries in order something can be cut out, and not between other offsets. -/
theorem isSome_slice?_iff : (slice? start stop text.toList).isSome = true ↔
    IsBoundary text start ∧ IsBoundary text stop ∧ start ≤ stop := by
  rw [Option.isSome_iff_exists]
  constructor
  · rintro ⟨part, h⟩
    obtain ⟨front, back, htext, rfl, rfl⟩ := slice?_eq_some_iff.mp h
    refine ⟨?_, isBoundary_of_append htext, ?_⟩
    · rw [List.append_assoc] at htext
      exact isBoundary_of_append htext
    · rw [byteLength_append]
      exact Nat.le_add_right _ _
  · rintro ⟨hstart, hstop, hle⟩
    obtain ⟨rest, hdrop⟩ := Option.isSome_iff_exists.mp (isSome_dropBytes?_iff.mpr hstart)
    obtain ⟨back, hdrop'⟩ := Option.isSome_iff_exists.mp (isSome_dropBytes?_iff.mpr hstop)
    obtain ⟨front, htext, rfl⟩ := dropBytes?_eq_some_iff.mp hdrop
    obtain ⟨longer, htext', rfl⟩ := dropBytes?_eq_some_iff.mp hdrop'
    obtain ⟨part, rfl⟩ := exists_append_of_byteLength_le (htext.symm.trans htext') hle
    exact ⟨part, slice?_eq_some_iff.mpr ⟨front, back, htext', rfl, rfl⟩⟩

end Formulae.Text
