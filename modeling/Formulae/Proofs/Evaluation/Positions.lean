import Formulae.Proofs.Number.Signs
import Formulae.Proofs.Text.FirstOccurrence
import Formulae.Proofs.Evaluation.Settling
import Formulae.Evaluation.Dispatch

/-!
# Positions of texts

`pos` is the number of characters in front of the first place where a text stands in another one, and
`-1` if it stands nowhere in it. A text without any characters stands at the beginning of each. The
first place may be looked for in the bytes of the texts, and the characters in front of it counted.

Main results:

* `positionOf_of_isLeast`, `positionOf_eq_minus_one_iff` — where a text is found.
* `positionOf_of_bytes` — what is found in bytes.
* `position_first` — these, and the function.
-/

namespace Formulae.Evaluation

open Number Text

variable {needle text : String} {k n : Nat}

-- ---------------------------------------------------------------------------
-- Places
-- ---------------------------------------------------------------------------

/-- The places where a text stands in another one, in characters. -/
def places (needle text : String) : Set Nat :=
  occurrences needle.toList text.toList

/-- The position is the least place, as a number. -/
theorem positionOf_of_isLeast (h : IsLeast (places needle text) k) :
    positionOf needle text = Float.ofNat k := by
  rw [positionOf, find?_eq_some_iff.mpr h]

/-- No double of a number of characters is negative. -/
theorem ofNat_ne_minus_one (k : Nat) : Float.ofNat k ≠ -1.0 := by
  intro h
  have hneg : Float.ofInt k < 0.0 := by
    show Float.ofNat k < 0.0
    rw [h]
    decide
  exact absurd (ofInt_lt_zero_iff.mp hneg) (Int.not_lt.mpr (Int.natCast_nonneg k))

/-- The position is `-1` exactly if the text stands nowhere. -/
theorem positionOf_eq_minus_one_iff : positionOf needle text = -1.0 ↔ places needle text = ∅ := by
  rcases find?_spec needle.toList text.toList with ⟨k, hfind, hleast⟩ | ⟨hfind, hnone⟩
  · have hsome : places needle text ≠ ∅ := fun h => by
      have hmem := hleast.1
      rwa [show occurrences needle.toList text.toList = ∅ from h] at hmem
    rw [positionOf_of_isLeast hleast]
    exact iff_of_false (ofNat_ne_minus_one k) hsome
  · rw [positionOf, hfind]
    exact iff_of_true rfl hnone

/-- Unless it is `-1`, the position is that of a place. -/
theorem exists_place (h : positionOf needle text ≠ -1.0) :
    ∃ k, positionOf needle text = Float.ofNat k ∧ IsLeast (places needle text) k := by
  rcases find?_spec needle.toList text.toList with ⟨k, -, hleast⟩ | ⟨-, hnone⟩
  · exact ⟨k, positionOf_of_isLeast hleast, hleast⟩
  · exact absurd (positionOf_eq_minus_one_iff.mpr hnone) h

/-- The first place in bytes has as many characters in front of it as the position says. -/
theorem positionOf_of_bytes (h : IsLeast (occurrences (bytes needle) (bytes text)) n) :
    ∃ front back, text = front ++ back ∧ (bytes front).length = n ∧
      positionOf needle text = Float.ofNat front.length := by
  rw [bytes_eq_utf8, bytes_eq_utf8] at h
  obtain ⟨front, back, htext, hfront, hleast⟩ := exists_front_of_isLeast_utf8 h
  refine ⟨String.ofList front, String.ofList back, ?_, ?_, ?_⟩
  · rw [← String.toList_inj, String.toList_append, String.toList_ofList, String.toList_ofList, htext]
  · rw [bytes_eq_utf8, String.toList_ofList, length_utf8, hfront]
  · rw [String.length_ofList]
    exact positionOf_of_isLeast hleast

-- ---------------------------------------------------------------------------
-- The function
-- ---------------------------------------------------------------------------

variable {e : Engine} {c : Call} {calls : List ProviderCall} {x : Float}

/-- A call has a position if both of its arguments have texts, which are evaluated in turn. -/
theorem settles_position_iff :
    e.Settles (Builtin.position.number c) ⟨calls, .value x⟩ ↔ c.args.length = 2 ∧
      ∃ before needle after text, e.Settles (c.text 0) ⟨before, .value needle⟩ ∧
        e.Settles (c.text 1) ⟨after, .value text⟩ ∧ calls = before ++ after ∧
        x = positionOf needle text := by
  have hcall : Builtin.position.number c = Builtin.position.checked (some fun c =>
      (c.text 0).bind fun needle => (c.text 1).bind fun text =>
        .value (positionOf needle text)) c := rfl
  rw [hcall, Engine.settles_checked_iff, show Builtin.position.arity = .exactly 2 from rfl,
    Arity.admits_exactly, Engine.settles_both_iff]

/-- The position of a text in another one is the least number of characters behind which the other
one goes on with it, zero for the empty text, and `-1` where there is none; and where it is not
negative, the characters from there on are those of the text. It is the number of characters in
front of the first place of the bytes, which stand nowhere else than the text. -/
theorem position_first :
    (∀ needle text : String,
      (∀ k, IsLeast (places needle text) k → positionOf needle text = Float.ofNat k) ∧
      positionOf "" text = 0.0 ∧
      (positionOf needle text = -1.0 ↔ places needle text = ∅) ∧
      (0.0 ≤ positionOf needle text → ∃ k, positionOf needle text = Float.ofNat k ∧
        (text.toList.drop k).take needle.length = needle.toList) ∧
      (∀ n, IsLeast (occurrences (bytes needle) (bytes text)) n →
        ∃ front back, text = front ++ back ∧ (bytes front).length = n ∧
          positionOf needle text = Float.ofNat front.length) ∧
      (positionOf needle text = -1.0 ↔ occurrences (bytes needle) (bytes text) = ∅)) ∧
    ∀ (e : Engine) (c : Call) (calls : List ProviderCall) (x : Float),
      e.Settles (Builtin.position.number c) ⟨calls, .value x⟩ ↔ c.args.length = 2 ∧
        ∃ before needle after text, e.Settles (c.text 0) ⟨before, .value needle⟩ ∧
          e.Settles (c.text 1) ⟨after, .value text⟩ ∧ calls = before ++ after ∧
          x = positionOf needle text := by
  refine ⟨fun needle text => ⟨fun k => positionOf_of_isLeast, ?_, positionOf_eq_minus_one_iff,
    fun h => ?_, fun n => positionOf_of_bytes, ?_⟩, fun e c calls x => settles_position_iff⟩
  · have hzero : 0 ∈ places "" text := zero_mem_occurrences_iff.mpr List.nil_prefix
    exact positionOf_of_isLeast ⟨hzero, fun k _ => k.zero_le⟩
  · have hfound : positionOf needle text ≠ -1.0 := by
      intro hnone
      rw [hnone] at h
      exact absurd h (by decide)
    obtain ⟨k, hk, hplace, -⟩ := exists_place hfound
    refine ⟨k, hk, ?_⟩
    rw [← String.length_toList]
    exact (List.prefix_iff_eq_take.mp hplace.2).symm
  · rw [positionOf_eq_minus_one_iff, bytes_eq_utf8, bytes_eq_utf8, occurrences_utf8_eq_empty_iff]
    rfl

/-- A text that overlaps itself is found behind characters of several bytes, at its first place. -/
theorem position_first_overlapping :
    let c : Call := ⟨({} : Engine).context, "pos", ["'aa'", "'é€aaa'"], "pos('aa', 'é€aaa')", 18⟩
    IsLeast (places "aa" "é€aaa") 2 ∧ IsLeast (occurrences (bytes "aa") (bytes "é€aaa")) 5 ∧
      (∃ front back, "é€aaa" = front ++ back ∧ (bytes front).length = 5 ∧
        positionOf "aa" "é€aaa" = Float.ofNat front.length) ∧
      ({} : Engine).Settles (Builtin.position.number c) ⟨[], .value 2.0⟩ := by
  intro c
  have hleast : IsLeast (places "aa" "é€aaa") 2 := find?_eq_some_iff.mp (by decide)
  obtain ⟨hpositions, hfunction⟩ := position_first
  obtain ⟨hplaces, -, -, -, hinBytes, -⟩ := hpositions "aa" "é€aaa"
  have hbytes : IsLeast (occurrences (bytes "aa") (bytes "é€aaa")) 5 := by
    have hearlier : ∀ n < 5, ¬bytes "aa" <+: (bytes "é€aaa").drop n := by decide +kernel
    exact ⟨⟨by decide, by decide +kernel⟩, fun n hn => Nat.le_of_not_lt fun h => hearlier n h hn.2⟩
  exact ⟨hleast, hbytes, hinBytes 5 hbytes, (hfunction {} c [] 2.0).mpr ⟨rfl, [], "aa", [], "é€aaa",
    ⟨1, by decide +kernel, by simp⟩, ⟨1, by decide +kernel, by simp⟩, rfl, (hplaces 2 hleast).symm⟩⟩

end Formulae.Evaluation
