import Formulae.Proofs.Text.FirstOccurrence
import Formulae.Proofs.Text.LetterCase
import Formulae.Proofs.Grammar.Offsets
import Formulae.Proofs.Grammar.Cutting
import Formulae.Proofs.Evaluation.Ranges

/-!
# Byte offsets

A formula is gone through by byte offsets: those of a scanner, those of a closing parenthesis and of
commas, and the one behind the keyword of a range. The keyword is looked for in the bytes of a copy
of the text in lower case, and its offset is used for the text itself; lower case in ASCII does not
move any character. All offsets are boundaries, whatever the text is and however the scanner is
moved, and nothing that is cut out between two of them lies outside of the text.

Main results:

* `RangeKeyword.findBytes?_eq` — a keyword in bytes is a keyword in characters.
* `Evaluation.rangeIn?_eq` — the range of an argument, cut out by offsets.
* `Evaluation.offsets_are_boundaries` — every offset is a boundary, and everything can be cut out.
-/

namespace Formulae

open Text Grammar.Arguments

-- ---------------------------------------------------------------------------
-- Keywords
-- ---------------------------------------------------------------------------

namespace Text

/-- The first place where bytes stand in others, by trying all places from the left. -/
def placeIn? (needle bs : List UInt8) : Option Nat :=
  (List.range (bs.length + 1)).find? fun n => needle.isPrefixOf (bs.drop n)

/-- Trying all places finds the first one where the bytes stand. -/
theorem placeIn?_eq_some_iff {needle bs : List UInt8} {n : Nat} :
    placeIn? needle bs = some n ↔ IsLeast (occurrences needle bs) n := by
  rw [placeIn?, List.find?_range_eq_some, List.mem_range, List.isPrefixOf_iff_prefix]
  constructor
  · rintro ⟨hstands, hn, hfirst⟩
    refine ⟨⟨Nat.le_of_lt_succ hn, hstands⟩, fun m hm => Nat.le_of_not_lt fun hlt => ?_⟩
    have hnot := hfirst m hlt
    rw [List.isPrefixOf_iff_prefix.mpr hm.2] at hnot
    cases hnot
  · rintro ⟨⟨hn, hstands⟩, hleast⟩
    refine ⟨hstands, Nat.lt_succ_of_le hn, fun m hm => ?_⟩
    rw [Bool.not_eq_true', ← Bool.not_eq_true, List.isPrefixOf_iff_prefix]
    exact fun hprefix => Nat.not_le.mpr hm (hleast ⟨by omega, hprefix⟩)

/-- It finds none if they stand nowhere. -/
theorem placeIn?_eq_none_iff {needle bs : List UInt8} :
    placeIn? needle bs = none ↔ occurrences needle bs = ∅ := by
  rw [placeIn?, List.find?_range_eq_none, Set.eq_empty_iff_forall_notMem]
  constructor
  · rintro h n ⟨hn, hstands⟩
    have hnot := h n (Nat.lt_succ_of_le hn)
    rw [List.isPrefixOf_iff_prefix.mpr hstands] at hnot
    cases hnot
  · intro h n hn
    rw [Bool.not_eq_true', ← Bool.not_eq_true, List.isPrefixOf_iff_prefix]
    exact fun hprefix => h n ⟨Nat.le_of_lt_succ hn, hprefix⟩

/-- Lower case in ASCII has as many bytes. -/
theorem byteLength_map_asciiLower (cs : List Char) :
    byteLength (cs.map asciiLower) = byteLength cs := by
  induction cs with
  | nil => rfl
  | cons c cs ih =>
    have hsize : (asciiLower c).utf8Size = c.utf8Size := asciiLower_congr (by decide) c
    rw [List.map_cons, byteLength_cons, byteLength_cons, ih, hsize]

/-- The offset behind the first place of a text in the lower case of another one, by bytes and by
characters. -/
theorem placeIn?_lower (needle cs : List Char) :
    (placeIn? (utf8 needle) (utf8 (cs.map asciiLower))).map (· + byteLength needle) =
      (find? needle (cs.map asciiLower)).map fun k => byteLength (cs.take (k + needle.length)) := by
  cases hfind : find? needle (cs.map asciiLower) with
  | none =>
    rw [placeIn?_eq_none_iff.mpr (occurrences_utf8_eq_empty_iff.mpr (find?_eq_none_iff.mp hfind))]
    rfl
  | some k =>
    have hleast := find?_eq_some_iff.mp hfind
    cases hplace : placeIn? (utf8 needle) (utf8 (cs.map asciiLower)) with
    | none =>
      have hnone := occurrences_utf8_eq_empty_iff.mp (placeIn?_eq_none_iff.mp hplace)
      exact absurd (hnone ▸ hleast.1) (Set.notMem_empty k)
    | some n =>
      obtain ⟨front, back, hcs, rfl, hfront⟩ :=
        exists_front_of_isLeast_utf8 (placeIn?_eq_some_iff.mp hplace)
      obtain rfl : k = front.length := hleast.unique hfront
      have hstands : needle <+: back := by
        have h := hleast.1.2
        rwa [hcs, List.drop_left] at h
      obtain ⟨rest, rfl⟩ := hstands
      have htake : (cs.take (front.length + needle.length)).map asciiLower = front ++ needle := by
        rw [List.map_take, hcs, ← List.append_assoc, ← List.length_append, List.take_left]
      rw [Option.map_some, Option.map_some, ← byteLength_map_asciiLower (cs.take _), htake,
        byteLength_append]

end Text

namespace RangeKeyword

/-- The keyword found in a text, and the byte offset behind it, by searching bytes. -/
def findBytes? (text : String) : Option (RangeKeyword × Nat) :=
  let lowered := utf8 (text.toList.map asciiLower)
  searchOrder.findSome? fun k =>
    (placeIn? (utf8 k.keyword.toList) lowered).map fun n => (k, n + k.keyword.utf8ByteSize)

/-- A keyword in bytes is a keyword in characters. -/
theorem findBytes?_eq (text : String) : findBytes? text = findIn? text := by
  rw [findBytes?, findIn?, find?, List.map_findSome?]
  congr 1
  funext k
  have h := congrArg (Option.map (Prod.mk k)) (placeIn?_lower k.keyword.toList text.toList)
  rw [Option.map_map, Option.map_map] at h
  rw [Function.comp_apply, Option.map_map, utf8ByteSize_eq]
  exact h

/-- Behind a keyword there is a boundary. -/
theorem isBoundary_of_findIn? {text : String} {k : RangeKeyword} {stop : Nat}
    (h : findIn? text = some (k, stop)) : IsBoundary text stop := by
  obtain ⟨⟨k', count⟩, -, hk⟩ := Option.map_eq_some_iff.mp h
  cases hk
  exact isBoundary_of_append (List.take_append_drop count text.toList).symm

/-- The text between the parentheses at both ends, cut out by offsets: nothing on the inside if
there are none, or nothing between them. -/
def insideBytes? (cs : List Char) : Option (Option (List Char)) :=
  let cs := trim cs
  if byteLength cs ≤ 2 ∨ cs.head? ≠ some '(' ∨ cs.getLast? ≠ some ')' then some none
  else (slice? 1 (byteLength cs - 1) cs).map fun inside => some (trim inside)

/-- Parentheses at both ends are two. -/
theorem exists_brackets {cs : List Char} (hhead : (trim cs).head? = some '(')
    (hlast : (trim cs).getLast? = some ')') : ∃ inside, Brackets cs inside := by
  obtain ⟨tail, htail⟩ := List.head?_eq_some_iff.mp hhead
  rw [htail] at hlast
  rcases List.eq_nil_or_concat' tail with rfl | ⟨inside, c, rfl⟩
  · cases hlast
  · rw [← List.cons_append, List.getLast?_concat] at hlast
    cases hlast
    exact ⟨inside, htail⟩

/-- Brackets take two bytes. -/
theorem byteLength_brackets {cs inside : List Char} (h : Brackets cs inside) :
    byteLength (trim cs) = byteLength inside + 2 := by
  rw [h, byteLength_cons, byteLength_append]
  exact Nat.add_comm ..

/-- Cutting by offsets never fails, and finds what stands between the parentheses. -/
theorem insideBytes?_eq (cs : List Char) : insideBytes? cs = some (insideParens? cs) := by
  rw [insideBytes?]
  split
  · rename_i hnone
    symm
    refine congrArg some (Option.eq_none_iff_forall_ne_some.mpr fun text htext => ?_)
    obtain ⟨inside, hbrackets, hinside, -⟩ := insideParens?_eq_some_iff.mp htext
    obtain ⟨c, rest, rfl⟩ := List.exists_cons_of_ne_nil hinside
    have hpos := c.utf8Size_pos
    have hsize := byteLength_brackets hbrackets
    rw [byteLength_cons] at hsize
    rcases hnone with hshort | hhead | hlast
    · omega
    · exact hhead (congrArg List.head? hbrackets)
    · refine hlast ((congrArg List.getLast? hbrackets).trans ?_)
      rw [← List.cons_append, List.getLast?_concat]
  · rename_i hends
    rw [not_or, not_or, not_not, not_not] at hends
    obtain ⟨hlong, hhead, hlast⟩ := hends
    obtain ⟨inside, hbrackets⟩ := exists_brackets hhead hlast
    have hsize := byteLength_brackets hbrackets
    have hinside : inside ≠ [] := by
      rintro rfl
      rw [hsize] at hlong
      exact hlong (Nat.le_refl 2)
    have hslice : slice? 1 (byteLength (trim cs) - 1) (trim cs) = some inside := by
      refine slice?_eq_some_iff.mpr ⟨['('], [')'], hbrackets, rfl, ?_⟩
      rw [hsize, byteLength_append]
      exact Nat.add_comm 1 _
    have hparens := insideParens?_eq_some_iff.mpr ⟨inside, hbrackets, hinside, rfl⟩
    rw [hslice, hparens]
    rfl

end RangeKeyword

-- ---------------------------------------------------------------------------
-- Ranges
-- ---------------------------------------------------------------------------

namespace Evaluation

open RangeKeyword

/-- The range that an argument names, and the text between its parentheses if it has any, by
offsets. -/
def rangeIn? (arg : String) : Option (Option (RangeKeyword × Option String)) :=
  let cs := trim arg.toList
  match findBytes? (String.ofList cs) with
  | none => some none
  | some (keyword, stop) => do
    let rest ← dropBytes? stop cs
    let inside ← insideBytes? rest
    return some (keyword, inside.map String.ofList)

/-- The range of an argument can always be cut out. -/
theorem rangeIn?_eq (arg : String) : rangeIn? arg = some (rangeOf? arg) := by
  rw [rangeIn?, rangeOf?, findBytes?_eq, findIn?, String.toList_ofList]
  cases RangeKeyword.find? (trim arg.toList) with
  | none => rfl
  | some found =>
    obtain ⟨keyword, count⟩ := found
    have hdrop : dropBytes? (byteLength ((trim arg.toList).take count)) (trim arg.toList) =
        some ((trim arg.toList).drop count) :=
      dropBytes?_eq_some_iff.mpr ⟨_, (List.take_append_drop count _).symm, rfl⟩
    show ((dropBytes? (byteLength ((trim arg.toList).take count)) (trim arg.toList)).bind
      fun rest => (insideBytes? rest).bind fun inside =>
        some (some (keyword, inside.map String.ofList))) = _
    rw [hdrop, Option.bind_some, insideBytes?_eq]
    rfl

-- ---------------------------------------------------------------------------
-- All offsets
-- ---------------------------------------------------------------------------

open Grammar

/-- Every offset is a boundary, and everything can be cut out. Any allowed motions move a scanner as
they move a cursor, from boundary to boundary, and none of them gets it stuck. The offsets of the
closing parenthesis, of the place behind a call and of the place behind a keyword are boundaries,
and the arguments of a call and the range of an argument are what is cut out between them.
Something is cut out just where the offsets are boundaries in order. -/
theorem offsets_are_boundaries (text : String) :
    (∀ motions : List Scanner.Motion, (∀ m ∈ motions, m.IsAllowed text) →
      ∃ s, motions.foldlM Scanner.move? ⟨text, 0⟩ = some s ∧
        Scanner.InStep text (motions.foldl Scanner.moved (Cursor.ofText text)) s) ∧
    (∀ start, closingIn? text start = closingOffset? text start ∧
      takeIn? text start = some (takeFrom? text start) ∧
      (∀ stop, closingOffset? text start = some stop →
        IsBoundary text stop ∧ stop < text.utf8ByteSize) ∧
      ∀ args stop, takeFrom? text start = some (args, stop) → IsBoundary text stop) ∧
    findBytes? text = findIn? text ∧ rangeIn? text = some (rangeOf? text) ∧
    (∀ k stop, findIn? text = some (k, stop) → IsBoundary text stop) ∧
    ∀ start stop, (slice? start stop text.toList).isSome = true ↔
      IsBoundary text start ∧ IsBoundary text stop ∧ start ≤ stop := by
  refine ⟨fun _ => Scanner.exists_inStep, fun start => ⟨closingIn?_eq text start,
    takeIn?_eq text start, fun stop h => ?_, fun _ _ => isBoundary_of_takeFrom?⟩,
    findBytes?_eq text, rangeIn?_eq text, fun _ _ => isBoundary_of_findIn?,
    fun _ _ => isSome_slice?_iff⟩
  obtain ⟨hstop, hbehind⟩ := isBoundary_of_closingOffset? h
  exact ⟨hstop, hbehind.le⟩

/-- Over a token and a character of two bytes, to a place behind them, and back; and a call that
begins there, ends at the seventeenth byte, and has a comma in a literal. -/
theorem offsets_are_boundaries_umlauts :
    let text := "1éf('ä,', (ü))"
    (∃ s, [.read, .advance, .seek 5, .retreat].foldlM Scanner.move? ⟨text, 0⟩ = some s ∧
      s.offset = 4 ∧ IsBoundary text s.offset) ∧
    takeFrom? text 5 = some (["'ä,'", "(ü)"], 17) ∧ IsBoundary text 17 := by
  intro text
  obtain ⟨hmoves, htake, -⟩ := offsets_are_boundaries text
  have hseek : IsBoundary text 5 :=
    isBoundary_iff.mpr ⟨['1', 'é', 'f', '('], text.toList.drop 4, by decide +kernel, rfl⟩
  obtain ⟨s, hs, hstep⟩ := hmoves [.read, .advance, .seek 5, .retreat] (by
    simp only [List.forall_mem_cons]
    exact ⟨trivial, trivial, .inl hseek, trivial, fun m hm => absurd hm List.not_mem_nil⟩)
  have hargs : takeFrom? text 5 = some (["'ä,'", "(ü)"], 17) := by decide +kernel
  refine ⟨⟨s, hs, ?_, hstep.boundary⟩, hargs, (htake 5).2.2.2 _ _ hargs⟩
  rw [hstep.offset]
  decide +kernel

end Evaluation

end Formulae
