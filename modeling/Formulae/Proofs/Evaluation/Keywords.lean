import Formulae.Proofs.Evaluation.Offsets

/-!
# Which keyword is found

The keywords of ranges are looked for in a fixed order, and each anywhere in the text: the first one
in the order counts, and not the first one in the text. Some keywords are parts of others. As
`parent` is tried before `parents` and stands in it, `parents` is never found; every other keyword
is found where it is written as a keyword should be, with a parenthesis behind it.

The search goes through a copy of the text in lower case, but what is found is a place of the text
itself.

Main results:

* `Text.utf8_map_asciiLower` — the bytes of a text in lower case.
* `RangeKeyword.findIn?_eq_some_iff` — which keyword is found, and where.
* `RangeKeyword.findIn?_written` — a keyword with a parenthesis behind it is found.
* `RangeKeyword.findIn?_exact` — these together.
-/

namespace Formulae

namespace Text

variable {c d : Char} {needle cs ds : List Char}

-- ---------------------------------------------------------------------------
-- Bytes in lower case
-- ---------------------------------------------------------------------------

/-- The lower case of the byte of an ASCII letter; every other byte is kept. -/
def lowerByte (b : UInt8) : UInt8 :=
  if 65 ≤ b ∧ b ≤ 90 then b + 32 else b

/-- No byte of a character is that of a capital letter, unless the character is one. -/
theorem lowerByte_eq_self (hc : ¬(65 ≤ c.toNat ∧ c.toNat ≤ 90)) {b : UInt8}
    (hb : b ∈ String.utf8EncodeChar c) : lowerByte b = b := by
  refine if_neg fun hcapital => hc ?_
  rw [UInt8.le_iff_toNat_le, UInt8.le_iff_toNat_le] at hcapital
  change 65 ≤ c.val.toNat ∧ c.val.toNat ≤ 90
  unfold String.utf8EncodeChar at hb
  generalize c.val.toNat = v at hb ⊢
  simp only at hb
  split_ifs at hb <;> simp only [List.mem_cons, List.not_mem_nil, or_false] at hb <;>
    rcases hb with rfl | rfl | rfl | rfl <;>
    simp only [UInt8.toNat_ofNat', UInt8.reduceToNat] at hcapital <;>
    omega

/-- The bytes of a lowered character are its bytes with capital letters lowered. -/
theorem utf8EncodeChar_asciiLower (c : Char) :
    String.utf8EncodeChar (asciiLower c) = (String.utf8EncodeChar c).map lowerByte := by
  by_cases hc : 65 ≤ c.toNat ∧ c.toNat ≤ 90
  · have hletters : ∀ n < 26, String.utf8EncodeChar (asciiLower (Char.ofNat (65 + n))) =
        (String.utf8EncodeChar (Char.ofNat (65 + n))).map lowerByte := by decide
    have hself : Char.ofNat (65 + (c.toNat - 65)) = c := by
      rw [Nat.add_sub_cancel' hc.1, Char.ofNat_toNat]
    simpa only [hself] using hletters (c.toNat - 65) (by omega)
  · have hself : asciiLower c = c := dif_neg hc
    rw [hself, List.map_congr_left fun b hb => lowerByte_eq_self hc hb, List.map_id']

/-- The bytes of a text in lower case are the bytes of the text, each in lower case. -/
theorem utf8_map_asciiLower (cs : List Char) :
    utf8 (cs.map asciiLower) = (utf8 cs).map lowerByte := by
  rw [utf8, utf8, List.flatMap_map, List.map_flatMap]
  exact congrArg cs.flatMap (funext utf8EncodeChar_asciiLower)

-- ---------------------------------------------------------------------------
-- Parts of texts
-- ---------------------------------------------------------------------------

/-- A text stands somewhere in another one just if it is a part of it. -/
theorem nonempty_occurrences_iff : (occurrences needle cs).Nonempty ↔ needle <:+: cs := by
  constructor
  · rintro ⟨k, -, hk⟩
    exact hk.isInfix.trans (List.drop_suffix k cs).isInfix
  · rintro ⟨front, back, rfl⟩
    rw [List.append_assoc]
    exact ⟨_, length_mem_occurrences front (List.prefix_append needle back)⟩

/-- A beginning without some character does not go beyond it. -/
theorem prefix_of_prefix_append_cons (hd : d ∉ needle) (h : needle <+: cs ++ d :: ds) :
    needle <+: cs := by
  rcases Nat.lt_or_ge cs.length needle.length with hlonger | hshorter
  · have hbeyond : cs ++ [d] <+: needle :=
      List.prefix_of_prefix_length_le ⟨ds, by simp⟩ h (by rw [List.length_append]; exact hlonger)
    exact absurd (hbeyond.subset (by simp)) hd
  · exact List.prefix_of_prefix_length_le h (List.prefix_append _ _) hshorter

/-- A part without some character lies before it or behind it. -/
theorem infix_of_infix_append_cons (hd : d ∉ needle) (h : needle <:+: cs ++ d :: ds) :
    needle <:+: cs ∨ needle <:+: ds := by
  induction cs with
  | nil =>
    rcases List.infix_cons_iff.mp h with hbegins | hbehind
    · exact .inl (prefix_of_prefix_append_cons hd hbegins).isInfix
    · exact .inr hbehind
  | cons c cs ih =>
    rcases List.infix_cons_iff.mp h with hbegins | hlater
    · have hprefix : needle <+: c :: cs := prefix_of_prefix_append_cons hd hbegins
      exact .inl hprefix.isInfix
    · exact (ih hlater).imp_left fun hpart => hpart.trans (List.suffix_cons c cs).isInfix

end Text

namespace RangeKeyword

open Text

variable {k : RangeKeyword} {text : String} {n stop : Nat}

-- ---------------------------------------------------------------------------
-- Keywords in a text
-- ---------------------------------------------------------------------------

/-- The byte offsets of a text where a keyword is spelled, in whatever case. -/
def spelledAt (k : RangeKeyword) (text : String) : Set Nat :=
  {n | ∃ front word rest, bytes text = front ++ word ++ rest ∧ front.length = n ∧
    word.map lowerByte = bytes k.keyword}

/-- A keyword is spelled in a text where its bytes stand in the lower case of the text. -/
theorem spelledAt_eq (k : RangeKeyword) (text : String) :
    k.spelledAt text =
      occurrences (utf8 k.keyword.toList) (utf8 (text.toList.map asciiLower)) := by
  ext n
  rw [utf8_map_asciiLower, ← bytes_eq_utf8, ← bytes_eq_utf8]
  constructor
  · rintro ⟨front, word, rest, htext, rfl, hword⟩
    rw [htext, List.map_append, List.map_append, hword, List.append_assoc]
    exact ⟨by simp, by rw [← List.length_map (f := lowerByte), List.drop_left]; exact ⟨_, rfl⟩⟩
  · rintro ⟨hn, hstands⟩
    rw [← List.map_drop] at hstands
    obtain ⟨word, ⟨rest, hrest⟩, hword⟩ := List.prefix_map_iff.mp hstands
    refine ⟨(bytes text).take n, word, rest, ?_, ?_, hword.symm⟩
    · rw [List.append_assoc, hrest, List.take_append_drop]
    · rw [List.length_take, Nat.min_eq_left (by simpa using hn)]

/-- In bytes and in characters the same keywords are spelled. -/
theorem nonempty_spelledAt_iff :
    (k.spelledAt text).Nonempty ↔ k.keyword.toList <:+: text.toList.map asciiLower := by
  rw [spelledAt_eq, ← nonempty_occurrences_iff, Set.nonempty_iff_ne_empty,
    Set.nonempty_iff_ne_empty, Ne, occurrences_utf8_eq_empty_iff]

-- ---------------------------------------------------------------------------
-- The search
-- ---------------------------------------------------------------------------

/-- The keywords in the order, where each is spelled first. -/
theorem findIn?_eq_findSome? (text : String) :
    findIn? text = searchOrder.findSome? fun k =>
      (placeIn? (utf8 k.keyword.toList) (utf8 (text.toList.map asciiLower))).map fun n =>
        (k, n + k.keyword.utf8ByteSize) :=
  (findBytes?_eq text).symm

/-- A keyword is found if one is spelled out anywhere. -/
theorem isSome_findIn?_iff :
    (findIn? text).isSome = true ↔ ∃ k : RangeKeyword, (k.spelledAt text).Nonempty := by
  rw [findIn?_eq_findSome?, List.findSome?_isSome_iff]
  simp only [Option.isSome_map, mem_searchOrder, true_and]
  refine exists_congr fun k => ?_
  rw [Option.isSome_iff_ne_none, Ne, placeIn?_eq_none_iff, ← spelledAt_eq,
    Set.nonempty_iff_ne_empty]

/-- Before a keyword in the order stand those with a smaller index. -/
theorem mem_iff_idxOf_lt {before after : List RangeKeyword}
    (h : searchOrder = before ++ k :: after) (earlier : RangeKeyword) :
    earlier ∈ before ↔ searchOrder.idxOf earlier < searchOrder.idxOf k := by
  have hnodup : searchOrder.Nodup := by decide
  rw [h] at hnodup ⊢
  have hk : k ∉ before := fun hmem =>
    (List.nodup_append.mp hnodup).2.2 k hmem k List.mem_cons_self rfl
  rw [List.idxOf_append_of_notMem hk, List.idxOf_cons_self, Nat.add_zero]
  by_cases hmem : earlier ∈ before
  · rw [List.idxOf_append_of_mem hmem]
    exact iff_of_true hmem (List.idxOf_lt_length_iff.mpr hmem)
  · rw [List.idxOf_append_of_notMem hmem]
    exact iff_of_false hmem (by omega)

/-- The keyword that is found is the first one in the order that is spelled in the text, and the
offset lies behind the first place where it is. -/
theorem findIn?_eq_some_iff : findIn? text = some (k, stop) ↔
    (∀ earlier : RangeKeyword, searchOrder.idxOf earlier < searchOrder.idxOf k →
      earlier.spelledAt text = ∅) ∧
    ∃ start, IsLeast (k.spelledAt text) start ∧ stop = start + k.keyword.utf8ByteSize := by
  have hplace (k : RangeKeyword) (n : Nat) :
      placeIn? (utf8 k.keyword.toList) (utf8 (text.toList.map asciiLower)) = some n ↔
        IsLeast (k.spelledAt text) n := by
    rw [placeIn?_eq_some_iff, spelledAt_eq]
  have hnone (k : RangeKeyword) :
      placeIn? (utf8 k.keyword.toList) (utf8 (text.toList.map asciiLower)) = none ↔
        k.spelledAt text = ∅ := by
    rw [placeIn?_eq_none_iff, spelledAt_eq]
  rw [findIn?_eq_findSome?, List.findSome?_eq_some_iff]
  simp only [Option.map_eq_some_iff, Option.map_eq_none_iff, hplace, hnone, Prod.mk.injEq]
  constructor
  · rintro ⟨before, _, after, horder, ⟨start, hstart, rfl, rfl⟩, hbefore⟩
    exact ⟨fun earlier h => hbefore earlier ((mem_iff_idxOf_lt horder earlier).mpr h),
      start, hstart, rfl⟩
  · rintro ⟨hearlier, start, hstart, rfl⟩
    obtain ⟨before, after, horder⟩ := List.append_of_mem (mem_searchOrder k)
    exact ⟨before, k, after, horder, ⟨start, hstart, rfl, rfl⟩, fun earlier h =>
      hearlier earlier ((mem_iff_idxOf_lt horder earlier).mp h)⟩

/-- The bytes in front of the offset spell the keyword. -/
theorem exists_suffix (h : findIn? text = some (k, stop)) :
    ∃ word, word <:+ (bytes text).take stop ∧ word.map lowerByte = bytes k.keyword := by
  obtain ⟨-, start, ⟨⟨front, word, rest, htext, rfl, hword⟩, -⟩, rfl⟩ := findIn?_eq_some_iff.mp h
  have hsize : k.keyword.utf8ByteSize = word.length := by
    rw [utf8ByteSize_eq, ← length_utf8, ← bytes_eq_utf8, ← hword, List.length_map]
  rw [htext, hsize, ← List.length_append, List.take_left]
  exact ⟨word, List.suffix_append front word, hword⟩

-- ---------------------------------------------------------------------------
-- Keywords in keywords
-- ---------------------------------------------------------------------------

/-- Where `parents` is spelled, so is `parent`, which is tried before it. -/
theorem findIn?_ne_parents (text : String) (stop : Nat) : findIn? text ≠ some (.parents, stop) := by
  intro h
  obtain ⟨hearlier, start, hstart, -⟩ := findIn?_eq_some_iff.mp h
  have hparents := nonempty_spelledAt_iff.mp ⟨start, hstart.1⟩
  have hpart : parent.keyword.toList <:+: parents.keyword.toList := by decide
  have hparent := nonempty_spelledAt_iff.mpr (hpart.trans hparents)
  exact hparent.ne_empty (hearlier .parent (by decide))

/-- In no other keyword is there one that is tried before it. -/
theorem not_infix_keyword (hk : k ≠ .parents) {earlier : RangeKeyword}
    (h : searchOrder.idxOf earlier < searchOrder.idxOf k) :
    ¬ earlier.keyword.toList <:+: k.keyword.toList := by
  have hall : ∀ k ∈ searchOrder, k ≠ .parents → ∀ earlier ∈ searchOrder,
      searchOrder.idxOf earlier < searchOrder.idxOf k →
      ¬ earlier.keyword.toList <:+: k.keyword.toList := by decide +kernel
  exact hall k (mem_searchOrder k) hk earlier (mem_searchOrder earlier) h

/-- A keyword is in lower case, and has no parenthesis in it. -/
theorem keyword_lower (k : RangeKeyword) :
    k.keyword.toList.map asciiLower = k.keyword.toList ∧ '(' ∉ k.keyword.toList := by
  cases k <;> decide

variable {word rest : String}

/-- A keyword in whatever case, with a parenthesis behind it and no keyword behind that. -/
theorem findIn?_written (hk : k ≠ .parents)
    (hword : sameIgnoringCase word.toList k.keyword.toList = true)
    (hrest : ∀ k' : RangeKeyword, k'.spelledAt rest = ∅) :
    findIn? (word ++ "(" ++ rest) = some (k, k.keyword.utf8ByteSize) := by
  have hlower : word.toList.map asciiLower = k.keyword.toList := by
    rw [sameIgnoringCase, beq_iff_eq, (keyword_lower k).1] at hword
    exact hword
  refine findIn?_eq_some_iff.mpr ⟨fun earlier hearlier => ?_, 0, ⟨?_, fun _ _ => Nat.zero_le _⟩,
    (Nat.zero_add _).symm⟩
  · rw [← Set.not_nonempty_iff_eq_empty, nonempty_spelledAt_iff, String.toList_append,
      String.toList_append, List.append_assoc, List.map_append, hlower]
    intro h
    -- an earlier keyword does not go over the parenthesis
    rcases infix_of_infix_append_cons (keyword_lower earlier).2 h with hinside | hbehind
    · exact not_infix_keyword hk hearlier hinside
    · exact (nonempty_spelledAt_iff.mpr hbehind).ne_empty (hrest earlier)
  · refine ⟨[], bytes word, bytes ("(" ++ rest), ?_, rfl, ?_⟩
    · rw [bytes_eq_utf8, bytes_eq_utf8, bytes_eq_utf8, String.append_assoc, String.toList_append,
        utf8_append]
      rfl
    · rw [bytes_eq_utf8, bytes_eq_utf8, ← utf8_map_asciiLower, hlower]

-- ---------------------------------------------------------------------------
-- All of it
-- ---------------------------------------------------------------------------

/-- A keyword is found just if one is spelled in the text, in whatever case. It is the first one in
the order of all that are, the offset lies behind the first place where it is, and the bytes in
front of the offset spell it. `parents` is never found, and any other keyword is where it is written
in front of a parenthesis with no keyword behind it. -/
theorem findIn?_exact :
    (∀ text : String,
      ((findIn? text).isSome = true ↔ ∃ k : RangeKeyword, (k.spelledAt text).Nonempty) ∧
      (∀ k stop, findIn? text = some (k, stop) ↔
        (∀ earlier : RangeKeyword, searchOrder.idxOf earlier < searchOrder.idxOf k →
          earlier.spelledAt text = ∅) ∧
        ∃ start, IsLeast (k.spelledAt text) start ∧ stop = start + k.keyword.utf8ByteSize) ∧
      (∀ k stop, findIn? text = some (k, stop) →
        ∃ word, word <:+ (bytes text).take stop ∧ word.map lowerByte = bytes k.keyword) ∧
      ∀ stop, findIn? text ≠ some (.parents, stop)) ∧
    ∀ (k : RangeKeyword) (word rest : String), k ≠ .parents →
      sameIgnoringCase word.toList k.keyword.toList = true →
      (∀ k' : RangeKeyword, k'.spelledAt rest = ∅) →
      findIn? (word ++ "(" ++ rest) = some (k, k.keyword.utf8ByteSize) :=
  ⟨fun text => ⟨isSome_findIn?_iff, fun _ _ => findIn?_eq_some_iff, fun _ _ => exists_suffix,
    findIn?_ne_parents text⟩, fun _ _ _ => findIn?_written⟩

/-- Four keywords in one text: `this` stands first, but is tried last, and `parent` and `parents`
are tried after the one that they begin. -/
theorem findIn?_exact_overlapping :
    let text := "äThis PARENTSnotNull(x)"
    findIn? text = some (.parentsNotNull, 21) ∧ IsLeast (parentsNotNull.spelledAt text) 7 ∧
      parentNotNull.spelledAt text = ∅ ∧
      findIn? ("ParentNotNull" ++ "(" ++ "ü)") = some (.parentNotNull, 13) := by
  intro text
  have hfound : findIn? text = some (.parentsNotNull, 21) := by decide +kernel
  obtain ⟨hsearch, hwritten⟩ := findIn?_exact
  obtain ⟨hearlier, start, hstart, hstop⟩ := ((hsearch text).2.1 _ _).mp hfound
  obtain rfl : start = 7 := Nat.add_right_cancel hstop.symm
  have hnone (k : RangeKeyword) : k.spelledAt "ü)" = ∅ := by
    rw [← Set.not_nonempty_iff_eq_empty, nonempty_spelledAt_iff]
    cases k <;> decide
  exact ⟨hfound, hstart, hearlier .parentNotNull (by decide),
    hwritten .parentNotNull "ParentNotNull" "ü)" (by decide) (by decide) hnone⟩

end RangeKeyword

end Formulae
