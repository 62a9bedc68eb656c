import Formulae.Proofs.Evaluation.ThroughText

/-!
# Calls that join texts

Two built-in functions join the texts of their arguments. One goes through the arguments and appends
their texts in turn, the other one collects the values first, as for any aggregate, and looks for a
range if there is only one argument. With two arguments or more both do the same.

Main results:

* `Builtin.text_joining` — with two arguments or more both functions do the same.
* `Engine.calculatesText_joining` — the text of a call whose arguments have texts.
* `Engine.calculatesText_joining_stops` — a call with an argument that has none.
-/

namespace Formulae

open Grammar Arguments Evaluation

-- ---------------------------------------------------------------------------
-- Programs
-- ---------------------------------------------------------------------------

namespace Evaluation

/-- Appending the texts in turn is collecting them and joining them behind what is there. -/
theorem concatenateFrom_eq (done : String) (args : List String) :
    concatenateFrom done args = (evaluateAll .textual args).bind fun values =>
      .value (done ++ String.join (values.map textOfValue)) := by
  induction args generalizing done with
  | nil => simp [concatenateFrom, evaluateAll, Program.bind, String.join_nil]
  | cons arg args ih =>
    have hmore : ∀ text : String, concatenateFrom (done ++ text) args =
        (evaluateAll .textual args).bind fun values =>
          .value (done ++ String.join ((RangeValue.text text :: values).map textOfValue)) := by
      intro text
      rw [ih]
      simp [textOfValue, String.append_assoc]
    rw [concatenateFrom, evaluateAll]
    simp only [hmore, Program.bind_eq, Program.pure_eq, Program.bind_bind]
    rfl

end Evaluation

/-- A function that joins the texts of its arguments. -/
def Builtin.Joins (f : Builtin) : Prop :=
  f = .concatenate ∨ f = .sum

/-- With two arguments or more each function that joins texts appends them in turn. -/
theorem Builtin.text_joining {f : Builtin} (hf : f.Joins) {c : Call} (hargs : 2 ≤ c.args.length) :
    f.text c = concatenateFrom "" c.args := by
  rcases hf with rfl | rfl
  · exact if_pos (Arity.admits_atLeast.mpr hargs)
  · have hone : 1 ≤ c.args.length := by omega
    -- only an only argument can name a range
    have hrange : onlyRange? c.args = none := by
      unfold onlyRange?
      split
      · rename_i harg
        simp [harg] at hargs
      · rfl
    have hcollect : collect c .textual = evaluateAll .textual c.args := by
      rw [collect, hrange]
    refine (if_pos (Arity.admits_atLeast.mpr hone)).trans ?_
    rw [sumText, texts, hcollect, concatenateFrom_eq]
    simp [Program.bind_bind, Program.bind]

-- ---------------------------------------------------------------------------
-- Formulas in turn
-- ---------------------------------------------------------------------------

namespace Engine

/-- The formulas have these texts, and evaluating one after the other makes these requests. -/
inductive CalculatesTexts (e : Engine) : List String → List ProviderCall → List String → Prop
  | nil : CalculatesTexts e [] [] []
  | cons {arg s : String} {cs calls : List ProviderCall} {args texts : List String}
      (first : e.CalculatesText arg ⟨cs, .value s⟩) (more : CalculatesTexts e args calls texts) :
      CalculatesTexts e (arg :: args) (cs ++ calls) (s :: texts)

variable {e : Engine} {name formula arg : String} {f : Builtin} {args back texts : List String}
  {calls : List ProviderCall}

/-- The texts of formulas are appended in turn. -/
theorem settles_concatenateFrom (h : e.CalculatesTexts args calls texts) (done : String) :
    e.Settles (concatenateFrom done (args.map cleanFormula))
      ⟨calls, .value (done ++ String.join texts)⟩ := by
  induction h generalizing done with
  | nil =>
    rw [String.join_nil, String.append_empty]
    exact e.settles_value done
  | cons first _ ih =>
    rw [String.join_cons, ← String.append_assoc]
    exact (settles_evaluateText_clean.mpr first).bind (f := fun s => concatenateFrom (done ++ s) _)
      (ih _)

/-- Nothing is evaluated behind the first formula without a text. -/
theorem settles_concatenateFrom_stops (h : e.CalculatesTexts args calls texts) {r : Run String}
    (hstops : e.CalculatesText arg r) (hr : ∀ s, r.outcome ≠ .value s) (done : String) :
    e.Settles (concatenateFrom done ((args ++ arg :: back).map cleanFormula))
      ⟨calls ++ r.calls, r.outcome⟩ := by
  induction h generalizing done with
  | nil =>
    have hstops := settles_evaluateText_clean.mpr hstops
    obtain ⟨cs, outcome⟩ := r
    cases outcome with
    | value s => exact absurd rfl (hr s)
    | error err => exact hstops.bind_error
    | overflow => exact settles_bind_iff.mpr (.inr (.inr ⟨cs, hstops, rfl⟩))
    | unfinished =>
      obtain ⟨_, -, hfinished⟩ := hstops
      exact absurd rfl hfinished
  | cons first _ ih =>
    rw [List.append_assoc]
    exact (settles_evaluateText_clean.mpr first).bind (f := fun s => concatenateFrom (done ++ s) _)
      (ih _)

section

variable (hname : isName name = true) (hname' : Builtin.ofName? name = some f) (hf : f.Joins)

include hname hname' hf

/-- A call of a function that joins texts appends those of its arguments. -/
theorem calculatesText_joining_iff (hcall : IsCall name args formula) (hargs : 2 ≤ args.length)
    {r : Run String} :
    e.CalculatesText formula r ↔ e.Settles (concatenateFrom "" (args.map cleanFormula)) r := by
  have hempty : args ≠ [""] := by
    rintro rfl
    simp at hargs
  obtain ⟨position, hprogram⟩ := textProgram_call hname hname' hcall hempty e.context
  rw [calculatesText_iff_settles, hprogram, Builtin.text_joining hf (by simpa using hargs)]

/-- The text of a call of a function that joins texts is those of its arguments in turn. -/
theorem calculatesText_joining (hcall : IsCall name args formula) (hargs : 2 ≤ args.length)
    (h : e.CalculatesTexts args calls texts) :
    e.CalculatesText formula ⟨calls, .value (String.join texts)⟩ := by
  have hsettles := settles_concatenateFrom h ""
  rw [String.empty_append] at hsettles
  exact (calculatesText_joining_iff hname hname' hf hcall hargs).mpr hsettles

/-- A call of a function that joins texts stops at the first argument without one. -/
theorem calculatesText_joining_stops (hcall : IsCall name (args ++ arg :: back) formula)
    (hargs : 2 ≤ (args ++ arg :: back).length) (h : e.CalculatesTexts args calls texts)
    {r : Run String} (hstops : e.CalculatesText arg r) (hr : ∀ s, r.outcome ≠ .value s) :
    e.CalculatesText formula ⟨calls ++ r.calls, r.outcome⟩ :=
  (calculatesText_joining_iff hname hname' hf hcall hargs).mpr
    (settles_concatenateFrom_stops h hstops hr "")

end

end Engine

end Formulae
