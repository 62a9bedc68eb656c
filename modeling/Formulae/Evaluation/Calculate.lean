import Formulae.Text.Blank
import Formulae.Evaluation.Engine
import Formulae.Evaluation.Tree

/-!
# Calculating formulas

A formula is cleaned, read into a tree, and the tree's program is run. The formulas inside it, which
are arguments of calls and what providers have evaluated, are calculated in the same way one level
deeper.

Arguments are shorter than the formula around them, so that without providers a formula is never
nested deeper than it has characters. Providers can have any formula evaluated, even the one that
asked; how deep formulas may be nested is therefore bounded, by the length of the formula and the
limit of the engine.

Main statements: `nested_within`, what is calculated within some depth is calculated alike within
any greater one, so that a formula has at most one result (`Calculates.unique`), and
`calculates_calculate`, a calculation that comes to an end has that result.
-/

namespace Formulae

/-- A formula without white space around it, and with line breaks and tabs as spaces. -/
def cleanFormula (formula : String) : String :=
  String.ofList ((Text.trim formula.toList).map fun c =>
    if c = '\r' ∨ c = '\n' ∨ c = '\t' then ' ' else c)

/-- What is to be done for the number of a formula. -/
def numericProgram (x : Context) (formula : String) : Program Float :=
  let cleaned := cleanFormula formula
  (Grammar.NumericTree.ofFormula cleaned).evaluate x cleaned

/-- What is to be done for the text of a formula. -/
def textProgram (x : Context) (formula : String) : Program String :=
  let cleaned := cleanFormula formula
  (Grammar.TextTree.ofFormula cleaned).evaluate x cleaned

namespace Engine

/-- The calculation of formulas that nest at most `depth` deep. -/
def nested (e : Engine) : Nat → Nested
  | 0 => ⟨fun _ => Run.unfinished, fun _ => Run.unfinished⟩
  | depth + 1 =>
    { number := fun formula => (numericProgram e.context formula).run e.providers (e.nested depth)
      text := fun formula => (textProgram e.context formula).run e.providers (e.nested depth) }

/-- How deep formulas may be nested in a text. -/
def depthFor (e : Engine) (text : String) : Nat :=
  text.length + e.nestingLimit

def calculate (e : Engine) (formula : String) : Run Float :=
  (e.nested (e.depthFor formula + 1)).number formula

def calculateText (e : Engine) (formula : String) : Run String :=
  (e.nested (e.depthFor formula + 1)).text formula

/-- Runs the program of a call with these arguments. -/
def runCall {α : Type} (e : Engine) (args : List String) (p : Program α) : Run α :=
  p.run e.providers (e.nested (e.depthFor (String.join args) + 1))

/-! ## Depth -/

end Engine

namespace Nested

/-- The second way evaluates formulas as the first one does, where that one is not too shallow. -/
structure Within (n m : Nested) : Prop where
  number (formula : String) : (n.number formula).Within (m.number formula)
  text (formula : String) : (n.text formula).Within (m.text formula)

end Nested

theorem Script.run_within {α : Type} {n m : Nested} (h : n.Within m) (s : Script α) :
    (s.run n).Within (s.run m) := by
  induction s with
  | decline | reply | raise => exact Run.Within.refl _
  | evaluate formula _ ih => exact (h.number formula).bind ih
  | evaluateText formula _ ih => exact (h.text formula).bind ih

theorem ask_within {n m : Nested} (h : n.Within m) (request : Request) (index : Nat)
    (ps : List Provider) : (ask n request index ps).Within (ask m request index ps) := by
  induction ps generalizing index with
  | nil => exact Run.Within.refl _
  | cons p ps ih =>
    refine (Run.Within.refl _).bind fun _ => (Script.run_within h _).bind fun reply => ?_
    cases reply with
    | some reply => exact Run.Within.refl _
    | none => exact ih _

theorem Program.run_within {α : Type} {n m : Nested} (h : n.Within m) (ps : List Provider)
    (p : Program α) : (p.run ps n).Within (p.run ps m) := by
  induction p with
  | value | error | overflow => exact Run.Within.refl _
  | number formula _ ih => exact (h.number formula).bind ih
  | text formula _ ih => exact (h.text formula).bind ih
  | attempt formula _ ih => exact (h.text formula).attempt.bind ih
  | ask request _ ih => exact (ask_within h request 0 ps).bind ih

namespace Engine

/-- What is calculated within some depth is calculated alike within any greater one. -/
theorem nested_within (e : Engine) {depth depth' : Nat} (h : depth ≤ depth') :
    (e.nested depth).Within (e.nested depth') := by
  induction depth generalizing depth' with
  | zero => exact ⟨fun _ => Run.Within.of_unfinished _, fun _ => Run.Within.of_unfinished _⟩
  | succ depth ih =>
    obtain ⟨depth', rfl⟩ : ∃ d, depth' = d + 1 := ⟨depth' - 1, by omega⟩
    have hd := ih (Nat.le_of_succ_le_succ h)
    exact ⟨fun _ => Program.run_within hd _ _, fun _ => Program.run_within hd _ _⟩

/-- Within some depth a formula is calculated as a number, and this is what happens. -/
def Calculates (e : Engine) (formula : String) (r : Run Float) : Prop :=
  ∃ depth, (e.nested depth).number formula = r ∧ r.outcome ≠ .unfinished

/-- Within some depth a formula is calculated as a text, and this is what happens. -/
def CalculatesText (e : Engine) (formula : String) (r : Run String) : Prop :=
  ∃ depth, (e.nested depth).text formula = r ∧ r.outcome ≠ .unfinished

/-- A formula has at most one result. -/
theorem Calculates.unique {e : Engine} {formula : String} {r s : Run Float}
    (hr : e.Calculates formula r) (hs : e.Calculates formula s) : r = s := by
  obtain ⟨d, rfl, hd⟩ := hr
  obtain ⟨d', rfl, hd'⟩ := hs
  rcases Nat.le_total d d' with h | h
  · exact (e.nested_within h).number formula hd
  · exact ((e.nested_within h).number formula hd').symm

theorem CalculatesText.unique {e : Engine} {formula : String} {r s : Run String}
    (hr : e.CalculatesText formula r) (hs : e.CalculatesText formula s) : r = s := by
  obtain ⟨d, rfl, hd⟩ := hr
  obtain ⟨d', rfl, hd'⟩ := hs
  rcases Nat.le_total d d' with h | h
  · exact (e.nested_within h).text formula hd
  · exact ((e.nested_within h).text formula hd').symm

/-- A calculation that comes to an end is what happens. -/
theorem calculates_calculate {e : Engine} {formula : String}
    (h : (e.calculate formula).outcome ≠ .unfinished) :
    e.Calculates formula (e.calculate formula) :=
  ⟨e.depthFor formula + 1, rfl, h⟩

theorem calculatesText_calculateText {e : Engine} {formula : String}
    (h : (e.calculateText formula).outcome ≠ .unfinished) :
    e.CalculatesText formula (e.calculateText formula) :=
  ⟨e.depthFor formula + 1, rfl, h⟩

end Engine

end Formulae
