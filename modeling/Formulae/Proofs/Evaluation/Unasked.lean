import Formulae.Proofs.Evaluation.Alone

/-!
# Evaluations that ask no one

Providers are what can have formulas nested without end. An evaluation that comes to an end and has
put no request to a provider has gone into its own arguments only, which are shorter than the
formula, and so the depth that is allowed for a formula is enough for it, with any providers.

Main result: `Engine.calculate_of_unasked`, what a formula comes to without any request is
calculated.
-/

namespace Formulae

variable {α β : Type}

-- ---------------------------------------------------------------------------
-- Runs
-- ---------------------------------------------------------------------------

namespace Run

/-- The second run is the first one, if that comes to an end without any request. -/
def Repeats (r s : Run α) : Prop :=
  r.outcome ≠ .unfinished → r.calls = [] → s = r

namespace Repeats

theorem refl (r : Run α) : r.Repeats r :=
  fun _ _ => rfl

/-- Nothing is said of a run with a request. -/
theorem of_calls {r : Run α} (h : r.calls ≠ []) (s : Run α) : r.Repeats s :=
  fun _ hcalls => absurd hcalls h

/-- Runs that go on alike stay alike. -/
theorem bind {r s : Run α} {f g : α → Run β} (h : r.Repeats s) (k : ∀ a, (f a).Repeats (g a)) :
    (r >>= f).Repeats (s >>= g) := by
  intro hfinished hcalls
  obtain ⟨calls, outcome⟩ := r
  cases outcome with
  | value a =>
    rw [bind_value] at hfinished hcalls
    obtain ⟨rfl, hnext⟩ := List.append_eq_nil_iff.mp hcalls
    have hsame : g a = f a := k a hfinished hnext
    rw [h (by simp) rfl, bind_value, bind_value, hsame]
  | error err =>
    rw [h (by simp) hcalls]
    rfl
  | overflow =>
    rw [h (by simp) hcalls]
    rfl
  | unfinished => exact absurd rfl hfinished

/-- Attempts at runs that repeat are repeated. -/
theorem attempt {r s : Run α} (h : r.Repeats s) : r.attempt.Repeats s.attempt := by
  intro hfinished hcalls
  obtain ⟨calls, outcome⟩ := r
  cases outcome with
  | value | error | overflow => rw [h (by simp) hcalls]
  | unfinished => exact absurd rfl hfinished

end Repeats

end Run

/-- Asking anyone is a request. -/
theorem ask_repeats (n m : Nested) (request : Request) (ps : List Provider) :
    (ask n request 0 ps).Repeats (ask m request 0 ps) := by
  cases ps with
  | nil => exact .refl _
  | cons p ps =>
    refine .of_calls ?_ _
    rw [ask_cons]
    show [_] ++ _ ≠ []
    simp

/-- The second way evaluates the formula as the first one does, if that asks no one. -/
structure Nested.Repeats (n m : Nested) (formula : String) : Prop where
  number : (n.number formula).Repeats (m.number formula)
  text : (n.text formula).Repeats (m.text formula)

/-- A program that asks no one runs alike if the formulas do that it has evaluated. -/
theorem Program.KeepsTo.run_repeats {faults : FormulaError → Prop} {formulas : String → Prop}
    {p : Program α} (hp : p.KeepsTo faults formulas) {n m : Nested} (ps : List Provider)
    (hn : ∀ formula, formulas formula → n.Repeats m formula) :
    (p.run ps n).Repeats (p.run ps m) := by
  induction hp with
  | value | error | overflow => exact .refl _
  | number handed _ ih => exact (hn _ handed).number.bind ih
  | text handed _ ih => exact (hn _ handed).text.bind ih
  | attempt handed _ ih => exact (hn _ handed).text.attempt.bind ih
  | ask _ ih => exact (ask_repeats n m _ ps).bind ih

-- ---------------------------------------------------------------------------
-- Formulas
-- ---------------------------------------------------------------------------

namespace Engine

/-- What is evaluated without any request is evaluated within as many levels as the formula has
characters. -/
theorem nested_repeats (e : Engine) (enough : Nat) {depth : Nat} {formula : String}
    (hdepth : (cleanFormula formula).length < depth) :
    (e.nested enough).Repeats (e.nested depth) formula := by
  induction depth generalizing enough formula with
  | zero => exact absurd hdepth (Nat.not_lt_zero _)
  | succ depth ih =>
    cases enough with
    | zero => exact ⟨fun h => absurd rfl h, fun h => absurd rfl h⟩
    | succ enough =>
      have harg : ∀ arg, HasArgument formula arg →
          (e.nested enough).Repeats (e.nested depth) arg := by
        intro arg harg
        have hshorter := harg.shorter
        exact ih enough (by rw [harg.clean]; omega)
      exact ⟨(keepsTo_numericProgram e.context formula).run_repeats e.providers harg,
        (keepsTo_textProgram e.context formula).run_repeats e.providers harg⟩

/-- What a formula comes to without any request is calculated. -/
theorem calculate_of_unasked (e : Engine) (formula : String) :
    (∀ outcome, e.Calculates formula ⟨[], outcome⟩ → e.calculate formula = ⟨[], outcome⟩) ∧
      ∀ outcome, e.CalculatesText formula ⟨[], outcome⟩ →
        e.calculateText formula = ⟨[], outcome⟩ := by
  have hlength := length_cleanFormula_le formula
  have hrepeats : ∀ enough, (e.nested enough).Repeats (e.nested (e.depthFor formula + 1)) formula :=
    fun enough => e.nested_repeats enough (by rw [depthFor]; omega)
  constructor
  · rintro outcome ⟨enough, hrun, hfinished⟩
    rw [calculate, (hrepeats enough).number (by rwa [hrun]) (by rw [hrun]), hrun]
  · rintro outcome ⟨enough, hrun, hfinished⟩
    rw [calculateText, (hrepeats enough).text (by rwa [hrun]) (by rw [hrun]), hrun]

end Engine

end Formulae
