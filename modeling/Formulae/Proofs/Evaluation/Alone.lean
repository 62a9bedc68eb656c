import Formulae.Proofs.Grammar.Progress
import Formulae.Proofs.Evaluation.Containment

/-!
# Engines without providers

Without providers a formula has nothing evaluated but the arguments of its calls, which are shorter
than the formula itself. So every evaluation comes to an end, at a depth of nesting no greater than
the number of characters, and if it ends with an error then that lies in the formula or in an
argument that is nested in it: at a place in its text, which cleaning has left as it is.

Main results:

* `Program.KeepsTo.run_ends` — how programs end where the formulas end that they have evaluated.
* `Engine.nested_ends` — how formulas end without providers.
* `Engine.comes_to_an_end` — evaluation without providers always ends.
* `Engine.errors_lie_inside` — where its errors lie.
-/

namespace Formulae

open Relation Grammar

variable {α β : Type}

-- ---------------------------------------------------------------------------
-- Runs
-- ---------------------------------------------------------------------------

/-- The run comes to an end, and an error at its end is such a one. -/
structure Run.Ends (faults : FormulaError → Prop) (r : Run α) : Prop where
  finished : r.outcome ≠ .unfinished
  error : ∀ e, r.outcome = .error e → faults e

namespace Run.Ends

variable {faults faults' : FormulaError → Prop} {r : Run α}

/-- A run that ends with a value has no error to account for. -/
theorem value (calls : List ProviderCall) (a : α) :
    (⟨calls, .value a⟩ : Run α).Ends faults :=
  ⟨by simp, by simp⟩

/-- Ends are kept when more errors are allowed. -/
theorem mono (h : r.Ends faults) (hfaults : ∀ e, faults e → faults' e) : r.Ends faults' :=
  ⟨h.finished, fun e he => hfaults e (h.error e he)⟩

/-- A run that goes on to its end after another one ends. -/
theorem bind {f : α → Run β} (h : r.Ends faults) (hf : ∀ a, (f a).Ends faults) :
    (r >>= f).Ends faults := by
  obtain ⟨calls, outcome⟩ := r
  cases outcome with
  | value a => exact ⟨(hf a).finished, (hf a).error⟩
  | error e =>
    refine ⟨by simp, fun e' he' => ?_⟩
    obtain rfl : e = e' := by simpa using he'
    exact h.error e rfl
  | overflow => exact ⟨by simp, by simp⟩
  | unfinished => exact absurd rfl h.finished

/-- An attempt never ends with an error. -/
theorem attempt (h : r.Ends faults) : r.attempt.Ends faults' := by
  obtain ⟨calls, outcome⟩ := r
  cases outcome with
  | value | error => exact value _ _
  | overflow => exact ⟨by simp [Run.attempt], by simp [Run.attempt]⟩
  | unfinished => exact absurd rfl h.finished

end Run.Ends

/-- The formula ends so in both channels. -/
structure Nested.Ends (n : Nested) (faults : FormulaError → Prop) (formula : String) : Prop where
  number : (n.number formula).Ends faults
  text : (n.text formula).Ends faults

/-- A program comes to an end if the formulas do that it has evaluated, and its errors are its own
or theirs. -/
theorem Program.KeepsTo.run_ends {own faults : FormulaError → Prop} {formulas : String → Prop}
    {p : Program α} (hp : p.KeepsTo own formulas) {n : Nested} (hown : ∀ e, own e → faults e)
    (hn : ∀ formula, formulas formula → n.Ends faults formula) : (p.run [] n).Ends faults := by
  induction hp with
  | value a => exact .value [] a
  | @error e fault =>
    refine ⟨by simp [run, Run.fail], fun e' he' => ?_⟩
    obtain rfl : e = e' := by simpa [run, Run.fail] using he'
    exact hown e fault
  | overflow => exact ⟨by simp [run, Run.overflow], by simp [run, Run.overflow]⟩
  | number handed _ ih => exact (hn _ handed).number.bind ih
  | text handed _ ih => exact (hn _ handed).text.bind ih
  | attempt handed _ ih => exact (hn _ handed).text.attempt.bind ih
  | ask _ ih => exact (Run.Ends.value [] none).bind ih

-- ---------------------------------------------------------------------------
-- Formulas
-- ---------------------------------------------------------------------------

/-- Cleaning does not make a formula longer. -/
theorem length_cleanFormula_le (formula : String) :
    (cleanFormula formula).length ≤ formula.length := by
  rw [← String.length_toList, toList_cleanFormula, List.length_map, ← String.length_toList]
  exact (Arguments.trim_isInfix _).length_le

/-- The second text is the first formula, or nested in it as an argument of an argument. -/
def Nests : String → String → Prop :=
  ReflTransGen HasArgument

/-- A text that is nested in a clean formula is clean and stands in it. -/
theorem Nests.clean_piece {formula text : String} (hclean : cleanFormula formula = formula)
    (h : Nests formula text) : cleanFormula text = text ∧ text.toList <:+: formula.toList := by
  induction h with
  | refl => exact ⟨hclean, List.infix_rfl⟩
  | tail _ harg ih =>
    have hpiece := harg.piece
    rw [ih.1] at hpiece
    exact ⟨harg.clean, hpiece.trans ih.2⟩

/-- The error lies in the clean formula or in an argument nested in it. -/
structure FailsInside (formula : String) (e : FormulaError) : Prop where
  nested : Nests (cleanFormula formula) e.formula
  position : e.position ≤ e.formula.length

/-- What fails inside an argument fails inside the formula. -/
theorem FailsInside.of_argument {formula arg : String} (harg : HasArgument formula arg)
    {e : FormulaError} (h : FailsInside arg e) : FailsInside formula e := by
  have hfirst : HasArgument (cleanFormula formula) arg := by
    rwa [HasArgument, cleanFormula_cleanFormula]
  have hnested := h.nested
  rw [harg.clean] at hnested
  exact ⟨hnested.head hfirst, h.position⟩

namespace Engine

/-- Without providers a formula comes to an end within as many levels as it has characters, and an
error at its end lies inside it. -/
theorem nested_ends {e : Engine} (h : e.providers = []) {depth : Nat} {formula : String}
    (hdepth : (cleanFormula formula).length < depth) :
    (e.nested depth).Ends (FailsInside formula) formula := by
  induction depth generalizing formula with
  | zero => exact absurd hdepth (Nat.not_lt_zero _)
  | succ depth ih =>
    have hown : ∀ err, LiesIn (cleanFormula formula) (cleanFormula formula).length err →
        FailsInside formula err := by
      intro err herr
      refine ⟨?_, by rw [herr.formula]; exact herr.position⟩
      rw [herr.formula]
      exact .refl
    have harg : ∀ arg, HasArgument formula arg →
        (e.nested depth).Ends (FailsInside formula) arg := by
      intro arg harg
      have hshorter := harg.shorter
      have hends := @ih arg (by rw [harg.clean]; omega)
      exact ⟨hends.number.mono fun _ => .of_argument harg,
        hends.text.mono fun _ => .of_argument harg⟩
    constructor
    · show ((numericProgram e.context formula).run e.providers (e.nested depth)).Ends _
      rw [h]
      exact (keepsTo_numericProgram e.context formula).run_ends hown harg
    · show ((textProgram e.context formula).run e.providers (e.nested depth)).Ends _
      rw [h]
      exact (keepsTo_textProgram e.context formula).run_ends hown harg

/-- What is calculated without providers comes to an end. -/
theorem calculation_ends {e : Engine} (h : e.providers = []) (formula : String) :
    (e.calculate formula).Ends (FailsInside formula) ∧
      (e.calculateText formula).Ends (FailsInside formula) := by
  have hlength := length_cleanFormula_le formula
  have hends := @nested_ends e h (e.depthFor formula + 1) formula (by rw [depthFor]; omega)
  exact ⟨hends.number, hends.text⟩

-- ---------------------------------------------------------------------------
-- Termination
-- ---------------------------------------------------------------------------

/-- Evaluation without providers always comes to an end, within as many levels of nesting as the
formula has characters: a stage of the grammar that is entered again while it is active, or a loop
that goes round, has less of the formula left, and all formulas that are evaluated on the way are
arguments shorter than the formula. -/
theorem comes_to_an_end (e : Engine) (h : e.providers = []) (formula : String) :
    ((e.calculate formula).outcome ≠ .unfinished ∧
      (e.calculateText formula).outcome ≠ .unfinished) ∧
    (∀ depth, (cleanFormula formula).length < depth →
      ((e.nested depth).number formula).outcome ≠ .unfinished ∧
        ((e.nested depth).text formula).outcome ≠ .unfinished) ∧
    (NumericTree.ReentryConsumes (cleanFormula formula) ∧
      TextTree.ReentryConsumes (cleanFormula formula)) ∧
    (numericProgram e.context formula).KeepsTo (fun _ => True)
      (fun arg => HasArgument formula arg ∧ arg.length < (cleanFormula formula).length) ∧
    (textProgram e.context formula).KeepsTo (fun _ => True)
      (fun arg => HasArgument formula arg ∧ arg.length < (cleanFormula formula).length) := by
  obtain ⟨hnumber, htext⟩ := calculation_ends h formula
  refine ⟨⟨hnumber.finished, htext.finished⟩, fun depth hdepth => ?_,
    ⟨NumericTree.reentry_consumes _, TextTree.reentry_consumes _⟩, ?_, ?_⟩
  · have hends := nested_ends h hdepth
    exact ⟨hends.number.finished, hends.text.finished⟩
  · exact (keepsTo_numericProgram e.context formula).mono (fun _ _ => trivial)
      fun arg harg => ⟨harg, harg.shorter⟩
  · exact (keepsTo_textProgram e.context formula).mono (fun _ _ => trivial)
      fun arg harg => ⟨harg, harg.shorter⟩

/-- A concatenation comes up again inside the first one, in a formula that is never closed. -/
theorem comes_to_an_end_unclosed :
    let formula := "('é' + left('ü', 2"
    let o := Outline.ofText (fun _ => false) formula
    let enters := TextTree.Enters o.ending
    (cleanFormula formula).length < 19 ∧
      ((({} : Engine).nested 19).text formula).outcome ≠ .unfinished ∧
      ReflTransGen enters (.formula, o.items) (.concatenation, o.items) ∧
      TransGen enters (.concatenation, o.items) (.concatenation, o.items.tail) ∧
      ∃ cs cs', Outline.Remains (fun _ => false) formula o.items cs ∧
        Outline.Remains (fun _ => false) formula o.items.tail cs' ∧
        cs' <:+ cs ∧ cs'.length < cs.length := by
  intro formula o enters
  have hclean : cleanFormula formula = formula := by decide +kernel
  have hlength : (cleanFormula formula).length < 19 := by decide +kernel
  have hscan : scan formula.toList = (.token .leftParen, formula.toList.tail) := by decide +kernel
  have hread : o = (Outline.readFrom (fun _ => false) _ formula.toList.tail).push _ :=
    Outline.readFrom_token hscan fun name h => by simp at h
  obtain ⟨-, hends, ⟨-, hreentry⟩, -⟩ := comes_to_an_end {} rfl formula
  rw [hclean] at hreentry
  have hreached : ReflTransGen enters (.formula, o.items) (.concatenation, o.items) :=
    .single (.whole _)
  have hparens : enters (.atom, o.items) (.concatenation, o.items.tail) := by
    rw [hread]
    exact .parens _ _
  have hagain : TransGen enters (.concatenation, o.items) (.concatenation, o.items.tail) :=
    .tail (.single (.first _)) hparens
  exact ⟨hlength, (hends 19 hlength).2, hreached, hagain, hreentry _ _ _ hreached hagain⟩

-- ---------------------------------------------------------------------------
-- Errors
-- ---------------------------------------------------------------------------

/-- An error without providers lies in the clean formula or in an argument nested in it, a piece of
the formula, and at a place of that. All formulas on the way are texts that cleaning leaves as they
are, and each fails by itself with its own text. -/
theorem errors_lie_inside (e : Engine) (h : e.providers = []) (formula : String) :
    (∀ err, (e.calculate formula).outcome = .error err ∨
        (e.calculateText formula).outcome = .error err →
      Nests (cleanFormula formula) err.formula ∧
        err.formula.toList <:+: (cleanFormula formula).toList ∧
        err.position ≤ err.formula.length) ∧
    ∀ text, Nests (cleanFormula formula) text →
      (numericProgram e.context text).KeepsTo (LiesIn text text.length)
        (fun arg => HasArgument text arg ∧ cleanFormula arg = arg) ∧
      (textProgram e.context text).KeepsTo (LiesIn text text.length)
        (fun arg => HasArgument text arg ∧ cleanFormula arg = arg) := by
  obtain ⟨hnumber, htext⟩ := calculation_ends h formula
  have hclean := cleanFormula_cleanFormula formula
  refine ⟨fun err herr => ?_, fun text hnests => ?_⟩
  · have hinside : FailsInside formula err := herr.elim (hnumber.error err) (htext.error err)
    exact ⟨hinside.nested, (hinside.nested.clean_piece hclean).2, hinside.position⟩
  · have hnumeric := keepsTo_numericProgram e.context text
    have htextual := keepsTo_textProgram e.context text
    rw [(hnests.clean_piece hclean).1] at hnumeric htextual
    exact ⟨hnumeric.mono (fun _ => id) fun arg harg => ⟨harg, harg.clean⟩,
      htextual.mono (fun _ => id) fun arg harg => ⟨harg, harg.clean⟩⟩

/-- The call of an unknown function in an argument, behind characters of more than one byte. -/
theorem errors_lie_inside_unknown :
    let formula := " concatenate('é', 'a' + foo('ü', 'b') )"
    let err : FormulaError := ⟨.functionUnknown, some "foo", "'a' + foo('ü', 'b')", 19⟩
    (({} : Engine).calculateText formula).outcome = .error err ∧
      Nests (cleanFormula formula) err.formula ∧
      err.formula.toList <:+: (cleanFormula formula).toList ∧ err.position ≤ err.formula.length ∧
      (textProgram ({} : Engine).context err.formula).KeepsTo
        (LiesIn err.formula err.formula.length)
        (fun arg => HasArgument err.formula arg ∧ cleanFormula arg = arg) := by
  intro formula err
  have hfails : (({} : Engine).calculateText formula).outcome = .error err := by decide +kernel
  obtain ⟨herrors, htexts⟩ := errors_lie_inside {} rfl formula
  obtain ⟨hnests, hpiece, hposition⟩ := herrors err (.inr hfails)
  exact ⟨hfails, hnests, hpiece, hposition, (htexts _ hnests).2⟩

end Engine

end Formulae
