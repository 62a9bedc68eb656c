import Formulae.Proofs.Grammar.FoldedTrees
import Formulae.Proofs.Evaluation.Respelling
import Formulae.Proofs.Evaluation.Alone

/-!
# Formulas in any case

Formulas that differ only in the case of ASCII letters outside of literals come to the same, in both
channels and at every depth: names are found in any case, wherever they are looked up, and arguments
that are cut out as texts differ in nothing else in turn. A formula is compared with its folded form,
which is the same for both. Only the texts of errors can differ, since these quote names and
formulas; their kinds cannot.

Main results:

* `respelled_numericProgram`, `respelled_textProgram` — what a folded formula has evaluated.
* `Engine.nested_alike` — a formula comes to the same as its folded form.
* `Engine.calculates_in_any_case` — formulas that differ only in case come to the same.
-/

namespace Formulae

open Text Grammar Arguments Evaluation

-- ---------------------------------------------------------------------------
-- Differences of case
-- ---------------------------------------------------------------------------

/-- Texts that differ at most in the case of ASCII letters outside of literals in single quotes:
where an even number of these quotes stands before them. -/
structure SameButCase (cs ds : List Char) : Prop where
  length : cs.length = ds.length
  letters : ∀ i < cs.length, cs[i]? = ds[i]? ∨
    (cs.take i).count '\'' % 2 = 0 ∧ cs[i]?.map asciiLower = ds[i]?.map asciiLower

instance (cs ds : List Char) : Decidable (SameButCase cs ds) :=
  decidable_of_iff (cs.length = ds.length ∧ ∀ i < cs.length, cs[i]? = ds[i]? ∨
      (cs.take i).count '\'' % 2 = 0 ∧ cs[i]?.map asciiLower = ds[i]?.map asciiLower)
    ⟨fun ⟨length, letters⟩ => ⟨length, letters⟩, fun h => ⟨h.length, h.letters⟩⟩

/-- Texts that differ so have the same folded form. The induction goes through them with the quotes
that are open. -/
theorem folded_eq_folded {quoted : Bool} {cs ds : List Char} (hlength : cs.length = ds.length)
    (hletters : ∀ i < cs.length, cs[i]? = ds[i]? ∨
      quotedBehind quoted (cs.take i) = false ∧ cs[i]?.map asciiLower = ds[i]?.map asciiLower) :
    folded quoted cs = folded quoted ds := by
  induction cs generalizing quoted ds with
  | nil => rw [List.length_eq_zero_iff.mp hlength.symm]
  | cons c cs ih =>
    obtain ⟨d, ds, rfl⟩ : ∃ d ds', ds = d :: ds' := by
      cases ds with
      | nil => simp at hlength
      | cons d ds => exact ⟨d, ds, rfl⟩
    have hfirst : c = d ∨ quoted = false ∧ asciiLower c = asciiLower d := by
      simpa [quotedBehind] using hletters 0 (Nat.succ_pos _)
    have hlength' : cs.length = ds.length := Nat.succ.inj hlength
    have hrest : ∀ quoted',
        (∀ front, quotedBehind quoted (c :: front) = quotedBehind quoted' front) →
          folded quoted' cs = folded quoted' ds := by
      intro quoted' hbehind
      refine ih hlength' fun i hi => ?_
      simpa [hbehind] using hletters (i + 1) (Nat.succ_lt_succ hi)
    have hsame : c = '\'' ↔ d = '\'' := by
      rcases hfirst with rfl | ⟨-, hcase⟩
      · rfl
      · rw [← asciiLower_eq_iff (c := c) rfl, hcase, asciiLower_eq_iff rfl]
    by_cases hquote : c = '\''
    · rw [hquote, hsame.mp hquote, folded_quote, folded_quote]
      rw [hquote] at hrest
      rw [hrest _ fun _ => quotedBehind_quote]
    · have hquote' : d ≠ '\'' := fun hd => hquote (hsame.mpr hd)
      have hmore := hrest quoted fun _ => quotedBehind_cons hquote
      cases quoted with
      | true =>
        obtain rfl : c = d := by simpa using hfirst
        rw [folded_true hquote, folded_true hquote, hmore]
      | false =>
        have hcase : asciiLower c = asciiLower d := hfirst.elim (congrArg asciiLower) And.right
        rw [folded_false hquote, folded_false hquote', hcase, hmore]

/-- Formulas that differ so have the same folded form. -/
theorem SameButCase.foldCase_eq {f f' : String} (h : SameButCase f.toList f'.toList) :
    foldCase f' = foldCase f := by
  refine congrArg String.ofList (folded_eq_folded h.length fun i hi => ?_).symm
  simpa [quotedBehind] using h.letters i hi

-- ---------------------------------------------------------------------------
-- Folded formulas
-- ---------------------------------------------------------------------------

/-- Folding keeps the range that an argument names. -/
theorem keepsRanges_foldCase : KeepsRanges foldCase := fun arg =>
  rangeOf?_congr (by rw [toList_foldCase, map_asciiLower_folded])

/-- Cleaning a character and lowering it do not interfere. -/
theorem smooth_asciiLower (c : Char) : smooth (asciiLower c) = asciiLower (smooth c) := by
  rcases asciiLower_eq_self_or_letter c with hself | ⟨n, hn, rfl, -⟩
  · rw [hself]
    rcases smooth_eq_self_or_blank c with hsmooth | ⟨-, hspace⟩
    · rw [hsmooth, hself]
    · rw [hspace]
      rfl
  · have hletters : ∀ n < 26, smooth (asciiLower (Char.ofNat (65 + n))) =
        asciiLower (smooth (Char.ofNat (65 + n))) := by decide
    exact hletters n hn

/-- It makes no difference which of cleaning and folding comes first. -/
theorem folded_map_smooth (quoted : Bool) (cs : List Char) :
    folded quoted (cs.map smooth) = (folded quoted cs).map smooth := by
  induction cs generalizing quoted with
  | nil => rfl
  | cons c cs ih =>
    by_cases hquote : c = '\''
    · subst hquote
      exact congrArg ('\'' :: ·) (ih (!quoted))
    · have hquote' : smooth c ≠ '\'' := by
        rcases smooth_eq_self_or_blank c with hsmooth | ⟨-, hspace⟩
        · rwa [hsmooth]
        · simp [hspace]
      cases quoted with
      | true => rw [List.map_cons, folded_true hquote', folded_true hquote, List.map_cons, ih]
      | false =>
        rw [List.map_cons, folded_false hquote', folded_false hquote, List.map_cons, ih,
          smooth_asciiLower]

/-- A folded formula is cleaned like the formula. -/
theorem cleanFormula_foldCase (formula : String) :
    cleanFormula (foldCase formula) = foldCase (cleanFormula formula) := by
  rw [← String.toList_inj, toList_cleanFormula, toList_foldCase, toList_foldCase,
    toList_cleanFormula, trim_folded, folded_map_smooth]

/-- Cleaning makes no double quotes. -/
theorem not_mem_cleanFormula {formula : String} (h : '"' ∉ formula.toList) :
    '"' ∉ (cleanFormula formula).toList := by
  rw [toList_cleanFormula]
  intro hmem
  obtain ⟨c, hc, hsmooth⟩ := List.mem_map.mp hmem
  rcases smooth_eq_self_or_blank c with hself | ⟨-, hspace⟩
  · rw [hself] at hsmooth
    exact h ((trim_isInfix _).subset (hsmooth ▸ hc))
  · simp [hspace] at hsmooth

-- ---------------------------------------------------------------------------
-- Trees
-- ---------------------------------------------------------------------------

variable {formulas : String → Prop} {limit : Nat}

/-- What a folded tree has evaluated is what the tree has, but folded. -/
theorem Grammar.NumericTree.respelled_evaluate {tree : NumericTree} (h : tree.Within limit formulas)
    (x : Context) (formula formula' : String) :
    (tree.evaluate x formula).Respelled foldCase formulas (tree.folded.evaluate x formula') := by
  induction tree with
  | number n => exact .value n
  | value name position =>
    rw [folded, evaluate, evaluate, valueOf, valueOf, Constant.ofName?_lowerName]
    split
    · refine .ofOption ?_ _
      rfl
    · exact .ask (.error rfl)
  | call name args position =>
    have hcall : Call.Respelled foldCase ⟨x, name, args, formula, position⟩
        ⟨x, lowerName name, args.map foldCase, formula', position⟩ := ⟨rfl, rfl⟩
    exact (respells_callNumber keepsRanges_foldCase hcall
      (Builtin.ofName?_lowerName name)).mono h.2
  | apply f operand ih => exact (ih h).bind fun _ => .value _
  | prefixed op operand ih => exact (ih h).bind fun _ => .value _
  | binary op left right ihl ihr =>
    exact (ihl h.1).bind fun _ => (ihr h.2).bind fun _ => .value _
  | sequence first second ihf ihs => exact (ihf h.1).bind fun _ => ihs h.2
  | failure complaint => exact .error rfl

/-- What a folded tree has evaluated is what the tree has, but folded. -/
theorem Grammar.TextTree.respelled_evaluate {tree : TextTree} (h : tree.Within limit formulas)
    (x : Context) (formula formula' : String) :
    (tree.evaluate x formula).Respelled foldCase formulas (tree.folded.evaluate x formula') := by
  induction tree with
  | literal s => exact .value s
  | value name position => exact .ask (.error rfl)
  | call name args position =>
    have hcall : Call.Respelled foldCase ⟨x, name, args, formula, position⟩
        ⟨x, lowerName name, args.map foldCase, formula', position⟩ := ⟨rfl, rfl⟩
    exact (respells_callText keepsRanges_foldCase hcall (Builtin.ofName?_lowerName name)
      (TrimFunction.ofName?_lowerName name)).mono h.2
  | append left right ihl ihr =>
    exact (ihl h.1).bind fun _ => (ihr h.2).bind fun _ => .value _
  | sequence first second ihf ihs => exact (ihf h.1).bind fun _ => ihs h.2
  | failure complaint => exact .error rfl

/-- What a folded formula has evaluated are the folded arguments of the formula. -/
theorem respelled_numericProgram (x : Context) {formula : String} (h : '"' ∉ formula.toList) :
    (numericProgram x formula).Respelled foldCase (HasArgument formula)
      (numericProgram x (foldCase formula)) := by
  rw [numericProgram, numericProgram, cleanFormula_foldCase,
    NumericTree.ofFormula_foldCase (not_mem_cleanFormula h)]
  exact (NumericTree.respelled_evaluate (NumericTree.within_ofFormula _) x _ _).mono fun _ => .inl

/-- What a folded formula has evaluated are the folded arguments of the formula. -/
theorem respelled_textProgram (x : Context) {formula : String} (h : '"' ∉ formula.toList) :
    (textProgram x formula).Respelled foldCase (HasArgument formula)
      (textProgram x (foldCase formula)) := by
  rw [textProgram, textProgram, cleanFormula_foldCase,
    TextTree.ofFormula_foldCase (not_mem_cleanFormula h)]
  exact (TextTree.respelled_evaluate (TextTree.within_ofFormula _) x _ _).mono fun _ => .inr

-- ---------------------------------------------------------------------------
-- Calculations
-- ---------------------------------------------------------------------------

namespace Engine

/-- Without providers a formula comes to the same as its folded form, at every depth. -/
theorem nested_alike {e : Engine} (h : e.providers = []) (depth : Nat) {formula : String}
    (hdouble : '"' ∉ formula.toList) : (e.nested depth).Alike formula (foldCase formula) := by
  induction depth generalizing formula with
  | zero => exact ⟨.unfinished, .unfinished⟩
  | succ depth ih =>
    have harg : ∀ arg, HasArgument formula arg → (e.nested depth).Alike arg (foldCase arg) :=
      fun arg harg => ih fun hmem => not_mem_cleanFormula hdouble (harg.piece.subset hmem)
    constructor
    · show ((numericProgram e.context formula).run e.providers _).Alike
        ((numericProgram e.context (foldCase formula)).run e.providers _)
      rw [h]
      exact (respelled_numericProgram e.context hdouble).run_alike harg
    · show ((textProgram e.context formula).run e.providers _).Alike
        ((textProgram e.context (foldCase formula)).run e.providers _)
      rw [h]
      exact (respelled_textProgram e.context hdouble).run_alike harg

/-- Without providers formulas without double quotes that differ only in the case of ASCII letters
outside of literals come to the same: to one value, or to errors of one kind, or to an overflow. -/
theorem calculates_in_any_case (e : Engine) (h : e.providers = []) {f f' : String}
    (hdouble : '"' ∉ f.toList) (hsame : SameButCase f.toList f'.toList) :
    ((e.calculate f).Alike (e.calculate f') ∧ (e.calculate f).outcome ≠ .unfinished) ∧
      ((e.calculateText f).Alike (e.calculateText f') ∧
        (e.calculateText f).outcome ≠ .unfinished) := by
  have hdepth : e.depthFor f' = e.depthFor f := by
    rw [depthFor, depthFor, ← String.length_toList, ← String.length_toList, hsame.length]
  have hdouble' : '"' ∉ f'.toList := by
    rwa [← mem_folded_iff rfl, ← toList_foldCase, hsame.foldCase_eq, toList_foldCase,
      mem_folded_iff rfl]
  obtain ⟨hnumber, htext⟩ := nested_alike h (e.depthFor f + 1) hdouble
  obtain ⟨hnumber', htext'⟩ := nested_alike h (e.depthFor f + 1) hdouble'
  rw [hsame.foldCase_eq] at hnumber' htext'
  obtain ⟨hends, hendsText⟩ := calculation_ends h f
  refine ⟨⟨?_, hends.finished⟩, ?_, hendsText.finished⟩
  · rw [calculate, calculate, hdepth]
    exact hnumber.trans hnumber'.symm
  · rw [calculateText, calculateText, hdepth]
    exact htext.trans htext'.symm

/-- Functions of every kind and a keyword in one formula; and a name that is not known, which is the
message of an error and keeps its case. -/
theorem calculates_in_any_case_alone :
    let e : Engine := {}
    let f := "Concatenate(Left('aB', 1), lTrim(' cD'), Sum('éÉ', UPPERCASE('Childs')))"
    let f' := "cONCATENATE(LEFT('aB', 1), LTRIM(' cD'), sum('éÉ', upperCase('Childs')))"
    let g := "RaiseError(Foo + if('A'"
    let g' := "raiseERROR(fOO + IF('A'"
    let m := "RaiseError(Foo)"
    let m' := "RAISEERROR(foo)"
    (SameButCase f.toList f'.toList ∧ (e.calculateText f).outcome = .value "acDéÉCHILDS" ∧
      (e.calculateText f).Alike (e.calculateText f')) ∧
    (SameButCase g.toList g'.toList ∧ (e.calculate g).Alike (e.calculate g')) ∧
    (SameButCase m.toList m'.toList ∧
      (e.calculate m).outcome = .error ⟨.userException, some "Foo", m, 15⟩ ∧
      (e.calculate m').outcome = .error ⟨.userException, some "foo", m', 15⟩ ∧
      (e.calculate m).Alike (e.calculate m')) := by
  intro e f f' g g' m m'
  have hf : SameButCase f.toList f'.toList := by decide +kernel
  have hg : SameButCase g.toList g'.toList := by decide +kernel
  have hm : SameButCase m.toList m'.toList := by decide +kernel
  exact ⟨⟨hf, by decide +kernel, (calculates_in_any_case e rfl (by decide +kernel) hf).2.1⟩,
    ⟨hg, (calculates_in_any_case e rfl (by decide +kernel) hg).1.1⟩,
    ⟨hm, by decide +kernel, by decide +kernel,
      (calculates_in_any_case e rfl (by decide +kernel) hm).1.1⟩⟩

end Engine

end Formulae
