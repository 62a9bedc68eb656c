import Formulae.Grammar.Numeric
import Formulae.Evaluation.Aggregate

/-!
# Names in any case

A letter of ASCII has the same classes in both cases: whatever is decided by classes of characters
is decided alike for a text and for its lower case. Names are looked up in five tables, by two
different ways of folding their case, and in all of them a name is found in any case.

Main results:

* `Text.asciiLower_congr` — what holds of the 26 pairs of letters holds of all characters.
* `Text.lower_map_asciiLower` — the full lower case of a text is that of its ASCII lower case.
* `Text.lower_eq_map_asciiLower` — where the two are the same.
* `Builtin.ofName?_lowerName`, `keepsOperand_lowerName` — names are looked up in any case.
* `Builtin.lowerName_of_ofName?` — a function is found by its own name only.
* `RangeKeyword.find?_map_asciiLower` — range keywords are found in any case.
-/

namespace Formulae

namespace Text

-- ---------------------------------------------------------------------------
-- Letters
-- ---------------------------------------------------------------------------

/-- A character has no lower case in ASCII, or is a capital letter. -/
theorem asciiLower_eq_self_or_letter (c : Char) :
    asciiLower c = c ∨ ∃ n < 26, c = Char.ofNat (65 + n) ∧ asciiLower c = Char.ofNat (97 + n) := by
  by_cases hcapital : c.val ≥ 'A'.val ∧ c.val ≤ 'Z'.val
  · have hlow : 65 ≤ c.toNat := hcapital.1
    have hhigh : c.toNat ≤ 90 := hcapital.2
    have hletters : ∀ n < 26, asciiLower (Char.ofNat (65 + n)) = Char.ofNat (97 + n) := by decide
    have hc : c = Char.ofNat (65 + (c.toNat - 65)) := by
      rw [Nat.add_sub_cancel' hlow, Char.ofNat_toNat]
    refine .inr ⟨c.toNat - 65, by omega, hc, ?_⟩
    rw [← hletters _ (by omega), ← hc]
  · exact .inl (dif_neg hcapital)

/-- What is the same for both cases of each letter is the same for each character and its lower
case. -/
theorem asciiLower_congr {α : Type} {f : Char → α}
    (h : ∀ n < 26, f (Char.ofNat (97 + n)) = f (Char.ofNat (65 + n))) (c : Char) :
    f (asciiLower c) = f c := by
  rcases asciiLower_eq_self_or_letter c with hself | ⟨n, hn, hc, hlower⟩
  · rw [hself]
  · rw [hlower, h n hn, ← hc]

/-- A character of a class without capital letters is its own lower case. -/
theorem asciiLower_eq_self {p : Char → Bool} (hp : ∀ n < 26, p (Char.ofNat (65 + n)) = false)
    {c : Char} (hc : p c = true) : asciiLower c = c := by
  rcases asciiLower_eq_self_or_letter c with hself | ⟨n, hn, rfl, -⟩
  · exact hself
  · rw [hp n hn] at hc
    simp at hc

@[simp] theorem asciiLower_asciiLower (c : Char) : asciiLower (asciiLower c) = asciiLower c :=
  asciiLower_congr (by decide) c

/-- A character that is no letter is the lower case of itself only. -/
theorem asciiLower_eq_iff {c d : Char} (hd : d.isAlpha = false) : asciiLower c = d ↔ c = d := by
  rcases asciiLower_eq_self_or_letter c with hself | ⟨n, hn, hc, hlower⟩
  · rw [hself]
  · have hletters : ∀ n < 26,
        (Char.ofNat (65 + n)).isAlpha = true ∧ (Char.ofNat (97 + n)).isAlpha = true := by decide
    refine iff_of_false ?_ ?_
    · rintro rfl
      rw [hlower, (hletters n hn).2] at hd
      simp at hd
    · rintro rfl
      rw [hc, (hletters n hn).1] at hd
      simp at hd

/-- A character is compared alike in either case with one that is no letter. -/
theorem asciiLower_beq {c d : Char} (hd : d.isAlpha = false) : (asciiLower c == d) = (c == d) := by
  rw [Bool.eq_iff_iff, beq_iff_eq, beq_iff_eq, asciiLower_eq_iff hd]

theorem isDigit_asciiLower (c : Char) : (asciiLower c).isDigit = c.isDigit :=
  asciiLower_congr (by decide) c

@[simp] theorem isBlank_asciiLower (c : Char) : isBlank (asciiLower c) = isBlank c :=
  asciiLower_congr (by decide) c

theorem isCased_asciiLower (c : Char) : isCased (asciiLower c) = isCased c :=
  asciiLower_congr (by decide) c

theorem isCaseIgnorable_asciiLower (c : Char) :
    isCaseIgnorable (asciiLower c) = isCaseIgnorable c :=
  asciiLower_congr (by decide +kernel) c

/-- The full lower case of a character does not depend on its case in ASCII. -/
theorem lowerOf_asciiLower (c : Char) : lowerOf (asciiLower c) = lowerOf c :=
  asciiLower_congr (by decide) c

-- ---------------------------------------------------------------------------
-- Words
-- ---------------------------------------------------------------------------

theorem map_asciiLower_map_asciiLower (cs : List Char) :
    (cs.map asciiLower).map asciiLower = cs.map asciiLower := by
  simp

/-- Whether a cased letter follows does not depend on the case. -/
theorem startsCased_map_asciiLower (cs : List Char) :
    startsCased (cs.map asciiLower) = startsCased cs := by
  have hclass : isCaseIgnorable ∘ asciiLower = isCaseIgnorable := funext isCaseIgnorable_asciiLower
  rw [startsCased, startsCased, List.dropWhile_map, hclass]
  cases cs.dropWhile isCaseIgnorable with
  | nil => rfl
  | cons c _ => exact isCased_asciiLower c

/-- Nor does what becomes of a character between others. -/
theorem lowerBetween_asciiLower (before : List Char) (c : Char) (after : List Char) :
    lowerBetween (before.map asciiLower) (asciiLower c) (after.map asciiLower) =
      lowerBetween before c after := by
  have hsigma : (asciiLower c).toNat == 0x03A3 ↔ c.toNat == 0x03A3 := by
    rw [asciiLower_congr (f := fun d => d.toNat == 0x03A3) (by decide) c]
  unfold lowerBetween
  simp only [hsigma, startsCased_map_asciiLower, lowerOf_asciiLower]

/-- Nor does the lower case of a text. -/
theorem lowerFrom_map_asciiLower (before done cs : List Char) :
    lowerFrom (before.map asciiLower) done (cs.map asciiLower) = lowerFrom before done cs := by
  induction cs generalizing before done with
  | nil => rfl
  | cons c cs ih =>
    rw [List.map_cons, lowerFrom, lowerFrom, lowerBetween_asciiLower, ← List.map_cons, ih]

/-- The lower case of a text is that of its lower case in ASCII. -/
theorem lower_map_asciiLower (cs : List Char) : lower (cs.map asciiLower) = lower cs :=
  lowerFrom_map_asciiLower [] [] cs

/-- No code point outside of ASCII is that of a small letter of ASCII. -/
theorem isLower_ofNat {n : Nat} (h : 128 ≤ n) : (Char.ofNat n).isLower = false := by
  by_cases hvalid : n.isValidChar
  · have hcode : (Char.ofNat n).toNat = n := by
      rw [Char.ofNat, dif_pos hvalid]
      rfl
    rw [Bool.eq_false_iff]
    intro hlower
    have hle : (Char.ofNat n).val ≤ 122 := of_decide_eq_true (Bool.and_eq_true_iff.mp hlower).2
    have hlast : (Char.ofNat n).toNat ≤ 122 := UInt32.le_iff_toNat_le.mp hle
    omega
  · rw [Char.ofNat, dif_neg hvalid]
    rfl

/-- Only the Kelvin sign moves into ASCII from outside of it. -/
theorem moveBy_lowerRuns {n : Nat} (h : 128 ≤ n) :
    128 ≤ moveBy lowerRuns n ∨ moveBy lowerRuns n = 'k'.toNat := by
  have hruns : ∀ run ∈ lowerRuns, run.last < 128 ∨ 128 ≤ (run.first : Int) + run.shift ∨
      (run.first = run.last ∧ run.first + run.shift = 'k'.toNat) := by
    decide +kernel
  unfold moveBy
  split
  · rename_i run hfind
    have hcovers := List.find?_some hfind
    simp only [CaseRun.covers, Bool.and_eq_true, decide_eq_true_eq] at hcovers
    have hrun := hruns run (List.mem_of_find?_eq_some hfind)
    omega
  · exact .inl h

/-- A character whose lower case is a plain letter other than `k` is that letter in one of its
cases. -/
theorem lowerBetween_eq_asciiLower {before after : List Char} {c : Char}
    (h : ∀ d ∈ lowerBetween before c after, d.isLower = true ∧ d ≠ 'k') :
    lowerBetween before c after = [asciiLower c] := by
  unfold lowerBetween at h ⊢
  split
  · rename_i hsigma
    rw [if_pos hsigma] at h
    split at h
    · exact absurd (h (Char.ofNat 0x03C2) (by simp)).1 (by decide)
    · exact absurd (h (Char.ofNat 0x03C3) (by simp)).1 (by decide)
  · rename_i hsigma
    rw [if_neg hsigma] at h
    unfold lowerOf at h ⊢
    split
    · rfl
    · rename_i hascii
      rw [if_neg hascii] at h
      split at h
      · exact absurd (h (Char.ofNat 0x0307) (by simp)).1 (by decide)
      · obtain ⟨hlower, hk⟩ := h _ (List.mem_singleton_self _)
        rcases moveBy_lowerRuns (Nat.le_of_not_lt hascii) with hge | hkelvin
        · rw [isLower_ofNat hge] at hlower
          simp at hlower
        · exact absurd (by rw [hkelvin]; rfl) hk

/-- What has been put into lower case stays. -/
theorem mem_lowerFrom {before done cs : List Char} {d : Char} (h : d ∈ done) :
    d ∈ lowerFrom before done cs := by
  induction cs generalizing before done with
  | nil => exact List.mem_reverse.mpr h
  | cons c cs ih => exact ih (List.mem_append_right _ h)

/-- A text whose lower case has only such letters is lowered letter by letter. -/
theorem lowerFrom_eq_asciiLower {before done cs : List Char}
    (h : ∀ d ∈ lowerFrom before done cs, d.isLower = true ∧ d ≠ 'k') :
    lowerFrom before done cs = done.reverse ++ cs.map asciiLower := by
  induction cs generalizing before done with
  | nil => rw [lowerFrom, List.map_nil, List.append_nil]
  | cons c cs ih =>
    rw [lowerFrom] at h ⊢
    have hc : lowerBetween before c cs = [asciiLower c] := by
      refine lowerBetween_eq_asciiLower fun d hd => h d (mem_lowerFrom ?_)
      exact List.mem_append_left _ (List.mem_reverse.mpr hd)
    rw [ih h, hc]
    simp

/-- A text whose full lower case is made of letters of ASCII other than `k` is in lower case up to
the case of ASCII letters. -/
theorem lower_eq_map_asciiLower {cs : List Char}
    (h : ∀ d ∈ lower cs, d.isLower = true ∧ d ≠ 'k') : lower cs = cs.map asciiLower :=
  lowerFrom_eq_asciiLower h

/-- A name is the same as another one in whatever case that one is written. -/
theorem sameIgnoringCase_map_asciiLower (cs ds : List Char) :
    sameIgnoringCase cs (ds.map asciiLower) = sameIgnoringCase cs ds := by
  rw [sameIgnoringCase, sameIgnoringCase, map_asciiLower_map_asciiLower]

/-- The case does not matter for what is blank. -/
theorem trim_map_asciiLower (cs : List Char) :
    trim (cs.map asciiLower) = (trim cs).map asciiLower :=
  trimBy_map isBlank_asciiLower cs

end Text

open Text

-- ---------------------------------------------------------------------------
-- Names
-- ---------------------------------------------------------------------------

/-- A name with its ASCII letters in lower case. -/
def lowerName (name : String) : String :=
  String.ofList (name.toList.map asciiLower)

@[simp] theorem toList_lowerName (name : String) :
    (lowerName name).toList = name.toList.map asciiLower :=
  String.toList_ofList

/-- What is looked up in any case is found in lower case. -/
theorem lookupIgnoringCase_lowerName {α : Type} (entries : List (String × α)) (name : String) :
    lookupIgnoringCase entries (lowerName name) = lookupIgnoringCase entries name := by
  simp only [lookupIgnoringCase, toList_lowerName, sameIgnoringCase_map_asciiLower]

/-- A built-in function is found alike when the ASCII letters of its name are in lower case. -/
@[simp] theorem Builtin.ofName?_lowerName (name : String) :
    ofName? (lowerName name) = ofName? name := by
  rw [ofName?, ofName?, toList_lowerName, lower_map_asciiLower]

/-- A function without `k` in its name is found by no other name than that, in any ASCII case. -/
theorem Builtin.lowerName_of_ofName? {f : Builtin} {name : String} (h : ofName? name = some f)
    (hk : 'k' ∉ f.name.toList) : lowerName name = f.name := by
  have hname : f.name.toList.all Char.isLower = true := by
    cases f <;> rfl
  have hletters := List.all_eq_true.mp hname
  have hkey : lower name.toList = f.name.toList := by
    have hfound := List.find?_some h
    rw [beq_iff_eq] at hfound
    rw [hfound, String.toList_ofList]
  rw [lowerName, ← lower_eq_map_asciiLower, hkey, String.ofList_toList]
  rw [hkey]
  exact fun d hd => ⟨hletters d hd, ne_of_mem_of_not_mem hd hk⟩

@[simp] theorem MathFunction.ofName?_lowerName (name : String) :
    ofName? (lowerName name) = ofName? name :=
  lookupIgnoringCase_lowerName _ name

@[simp] theorem TrimFunction.ofName?_lowerName (name : String) :
    ofName? (lowerName name) = ofName? name :=
  lookupIgnoringCase_lowerName _ name

@[simp] theorem Constant.ofName?_lowerName (name : String) :
    ofName? (lowerName name) = ofName? name :=
  lookupIgnoringCase_lowerName _ name

/-- The calls that keep their operands in the formula do so in any case. -/
@[simp] theorem Grammar.keepsOperand_lowerName (name : String) :
    keepsOperand (lowerName name) = keepsOperand name := by
  rw [keepsOperand, keepsOperand, Builtin.ofName?_lowerName, MathFunction.ofName?_lowerName]

-- ---------------------------------------------------------------------------
-- Range keywords
-- ---------------------------------------------------------------------------

namespace RangeKeyword

/-- A keyword is found in lower case where it is found as written. -/
theorem find?_map_asciiLower (cs : List Char) : find? (cs.map asciiLower) = find? cs := by
  rw [find?, find?, map_asciiLower_map_asciiLower]

theorem isSome_insideParens?_map_asciiLower (cs : List Char) :
    (insideParens? (cs.map asciiLower)).isSome = (insideParens? cs).isSome := by
  have hsign : ∀ {d : Char} (o : Option Char), d.isAlpha = false →
      (o.map asciiLower == some d) = (o == some d) := by
    rintro d (_ | c) hd
    · rfl
    · exact asciiLower_beq hd
  unfold insideParens?
  simp only [trim_map_asciiLower, List.length_map, List.head?_map, List.getLast?_map,
    hsign (d := '(') _ rfl, hsign (d := ')') _ rfl]
  split <;> rfl

end RangeKeyword

namespace Evaluation

/-- The range keyword of an argument, and whether it has parentheses, are the same in any case. -/
theorem rangeOf?_congr {arg arg' : String}
    (h : arg'.toList.map asciiLower = arg.toList.map asciiLower) :
    (rangeOf? arg').map (fun r => r.2.isSome) = (rangeOf? arg).map fun r => r.2.isSome := by
  have hlowered : ∀ cs : List Char, (RangeKeyword.find? (trim cs)).map
      (fun r => (RangeKeyword.insideParens? ((trim cs).drop r.2)).isSome) =
      (RangeKeyword.find? (trim (cs.map asciiLower))).map
        fun r => (RangeKeyword.insideParens? ((trim (cs.map asciiLower)).drop r.2)).isSome := by
    intro cs
    rw [trim_map_asciiLower, RangeKeyword.find?_map_asciiLower]
    simp only [← List.map_drop, RangeKeyword.isSome_insideParens?_map_asciiLower]
  simp only [rangeOf?, Option.map_map, Function.comp_def, Option.isSome_map]
  rw [hlowered, h, ← hlowered]

end Evaluation

end Formulae
