import Formulae.Proofs.Grammar.WellFormed
import Formulae.Evaluation.Calculate

/-!
# Clean formulas

A formula is cleaned before it is read, and places in it are counted in the clean one. What is said
about the text of a formula is therefore said of formulas that cleaning leaves as they are.

Main results:

* `cleanFormula_eq_self_iff` — what such a formula looks like.
* `cleanFormula_append` — clean formulas one after the other are clean.
-/

namespace Formulae

/-- A line break or tab is a space in a clean formula. -/
def smooth (c : Char) : Char :=
  if c = '\r' ∨ c = '\n' ∨ c = '\t' then ' ' else c

/-- A character is kept unless it is a line break or a tab. -/
theorem smooth_eq_self_iff {c : Char} : smooth c = c ↔ ¬ (c = '\r' ∨ c = '\n' ∨ c = '\t') := by
  unfold smooth
  split
  · rename_i h
    refine ⟨?_, fun hbroken => absurd h hbroken⟩
    rintro rfl
    simp at h
  · rename_i h
    exact ⟨fun _ => h, fun _ => rfl⟩

/-- A clean formula is trimmed first and smoothed then. -/
@[simp] theorem toList_cleanFormula (formula : String) :
    (cleanFormula formula).toList = (Text.trim formula.toList).map smooth :=
  String.toList_ofList

/-- Cleaning leaves a formula as it is if no white space stands at its ends and no line break or tab
in it. -/
theorem cleanFormula_eq_self_iff {formula : String} : cleanFormula formula = formula ↔
    Text.trim formula.toList = formula.toList ∧
      ∀ c ∈ formula.toList, ¬ (c = '\r' ∨ c = '\n' ∨ c = '\t') := by
  have hmap : ∀ cs : List Char, cs.map smooth = cs ↔
      ∀ c ∈ cs, ¬ (c = '\r' ∨ c = '\n' ∨ c = '\t') := by
    intro cs
    conv => lhs; rhs; rw [← List.map_id cs]
    rw [List.map_inj_left]
    exact forall₂_congr fun c _ => smooth_eq_self_iff
  rw [← String.toList_inj, toList_cleanFormula]
  constructor
  · intro h
    -- what is trimmed off is missing
    obtain ⟨before, after, hcs, -, -⟩ := Text.exists_padded Text.isBlank formula.toList
    have htrim : Text.trim formula.toList = formula.toList := by
      have hlength := congrArg List.length h
      have hpadded := congrArg List.length hcs
      rw [List.length_map] at hlength
      simp only [List.length_append] at hpadded
      have hnone : before = [] ∧ after = [] := by
        rw [← List.length_eq_zero_iff, ← List.length_eq_zero_iff]
        have : (Text.trimBy Text.isBlank formula.toList).length = formula.toList.length := hlength
        omega
      rw [hnone.1, hnone.2, List.nil_append, List.append_nil] at hcs
      exact hcs.symm
    rw [htrim] at h
    exact ⟨htrim, (hmap _).mp h⟩
  · rintro ⟨htrim, hunbroken⟩
    rw [htrim, (hmap _).mpr hunbroken]

/-- Clean formulas one after the other are clean. -/
theorem cleanFormula_append {f g : String} (hf : cleanFormula f = f) (hg : cleanFormula g = g) :
    cleanFormula (f ++ g) = f ++ g := by
  obtain ⟨htrimf, hunbrokenf⟩ := cleanFormula_eq_self_iff.mp hf
  obtain ⟨htrimg, hunbrokeng⟩ := cleanFormula_eq_self_iff.mp hg
  refine cleanFormula_eq_self_iff.mpr ⟨?_, fun c hc => ?_⟩
  · rw [String.toList_append]
    refine Text.trimBy_eq_self (fun c hc => ?_) (fun c hc => ?_)
    · rw [List.head?_append, Option.mem_def, Option.or_eq_some_iff] at hc
      rcases hc with hc | ⟨-, hc⟩
      · rw [← htrimf] at hc
        exact Text.head_trimBy _ _ c hc
      · rw [← htrimg] at hc
        exact Text.head_trimBy _ _ c hc
    · rw [List.getLast?_append, Option.mem_def, Option.or_eq_some_iff] at hc
      rcases hc with hc | ⟨-, hc⟩
      · rw [← htrimg] at hc
        exact Text.getLast_trimBy _ _ c hc
      · rw [← htrimf] at hc
        exact Text.getLast_trimBy _ _ c hc
  · rw [String.toList_append, List.mem_append] at hc
    exact hc.elim (hunbrokenf c) (hunbrokeng c)

/-- A clean formula between what opens a parenthesis and the parenthesis that closes it. -/
theorem cleanFormula_closed {front f : String} (hfront : cleanFormula front = front)
    (hf : cleanFormula f = f) : cleanFormula (front ++ f ++ ")") = front ++ f ++ ")" :=
  cleanFormula_append (cleanFormula_append hfront hf) rfl

-- ---------------------------------------------------------------------------
-- Cleaning twice
-- ---------------------------------------------------------------------------

/-- What becomes a space in a clean formula is white space. -/
theorem smooth_eq_self_or_blank (c : Char) :
    smooth c = c ∨ Text.isBlank c = true ∧ smooth c = ' ' := by
  unfold smooth
  split
  · rename_i h
    refine .inr ⟨?_, rfl⟩
    rcases h with rfl | rfl | rfl <;> rfl
  · exact .inl rfl

/-- White space stays white space, and nothing else becomes it. -/
@[simp] theorem isBlank_smooth (c : Char) : Text.isBlank (smooth c) = Text.isBlank c := by
  rcases smooth_eq_self_or_blank c with h | ⟨hblank, hspace⟩
  · rw [h]
  · rw [hspace, hblank]
    rfl

@[simp] theorem smooth_smooth (c : Char) : smooth (smooth c) = smooth c := by
  rcases smooth_eq_self_or_blank c with h | ⟨-, hspace⟩
  · rw [h, h]
  · rw [hspace]
    rfl

/-- It does not matter whether a text is trimmed or smoothed first. -/
theorem trim_map_smooth (cs : List Char) :
    Text.trim (cs.map smooth) = (Text.trim cs).map smooth :=
  Text.trimBy_map isBlank_smooth cs

/-- A clean formula is not cleaned any further. -/
@[simp] theorem cleanFormula_cleanFormula (formula : String) :
    cleanFormula (cleanFormula formula) = cleanFormula formula := by
  have htrim : Text.trim (Text.trim formula.toList) = Text.trim formula.toList :=
    Text.trimBy_trimBy _ _
  rw [← String.toList_inj, toList_cleanFormula, toList_cleanFormula, trim_map_smooth, htrim,
    List.map_map]
  exact List.map_congr_left fun c _ => smooth_smooth c

-- ---------------------------------------------------------------------------
-- Clean arguments
-- ---------------------------------------------------------------------------

namespace Grammar.Arguments

variable {arg : String} {args : List String} {inner : List Char}

/-- Cleaning opens and closes nothing. -/
theorem openBehind?_map_smooth (depth : Nat) (quoted : Bool) (cs : List Char) :
    openBehind? depth quoted (cs.map smooth) = openBehind? depth quoted cs := by
  induction cs generalizing depth quoted with
  | nil => rfl
  | cons c cs ih =>
    rw [List.map_cons]
    rcases smooth_eq_self_or_blank c with h | ⟨hblank, hspace⟩
    · simp only [h, openBehind?, ih]
    · have hspaceBlank : Text.isBlank ' ' = true := rfl
      rw [hspace, (passes_blank hspaceBlank).openBehind, (passes_blank hblank).openBehind, ih]

/-- A well-formed argument has no ends to be trimmed. -/
theorem WellFormed.toList_clean (h : WellFormed arg) :
    (cleanFormula arg).toList = arg.toList.map smooth := by
  rw [toList_cleanFormula, h.trimmed]

/-- A well-formed argument is well-formed when it is clean. -/
theorem WellFormed.clean (h : WellFormed arg) : WellFormed (cleanFormula arg) := by
  rw [wellFormed_iff, h.toList_clean, trim_map_smooth, h.trimmed, openBehind?_map_smooth]
  exact ⟨rfl, h.openBehind⟩

/-- White space is white space when it is clean. -/
theorem Blank.clean {blank : List Char} (h : Blank blank) : Blank (blank.map smooth) := by
  intro c hc
  obtain ⟨d, hd, rfl⟩ := List.mem_map.mp hc
  rw [isBlank_smooth]
  exact h d hd

/-- Clean arguments are spaced like the arguments themselves. -/
theorem Spaced.clean (h : ∀ a ∈ args, WellFormed a) (hspaced : Spaced args inner) :
    Spaced (args.map cleanFormula) (inner.map smooth) := by
  induction hspaced with
  | none hblank => exact .none hblank.clean
  | last arg hbefore hafter =>
    have hclean := Spaced.last (cleanFormula arg) hbefore.clean hafter.clean
    rwa [(h arg (by simp)).toList_clean, ← List.map_append, ← List.map_append] at hclean
  | more arg hbefore hafter _ ih =>
    have hrest := ih fun a ha => h a (List.mem_cons_of_mem _ ha)
    have hclean := Spaced.more (cleanFormula arg) hbefore.clean hafter.clean hrest
    have hcomma : smooth ',' = ',' := rfl
    simp only [List.map_cons, List.map_append, hcomma]
    rwa [(h arg (by simp)).toList_clean] at hclean

end Grammar.Arguments

end Formulae
