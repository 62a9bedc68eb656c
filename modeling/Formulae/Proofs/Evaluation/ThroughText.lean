import Formulae.Proofs.Number.WrittenDecimals
import Formulae.Proofs.Evaluation.Untaken

/-!
# Numbers that become texts

One function writes the number of a formula as a text, and another one reads the number of a text. A
formula between the calls of both is evaluated once, and its number is written and read again, which
leaves it as it is. What else can come of the formula comes of the two calls alike: its requests are
made, and its error is passed on.

Main results:

* `Engine.calculates_toDouble_toText` — so it is with any two calls, whatever their names.
* `Engine.calculates_through_text` — every number is found again in its text, and every formula may
  be made a text and a number again.
-/

namespace Formulae

open Grammar Arguments Number Evaluation

namespace Evaluation

variable (x : Context) (name a formula : String) (position : Nat)

/-- The text of a number is that of the value of the argument. -/
theorem text_toText :
    Builtin.toText.text ⟨x, name, [a], formula, position⟩ =
      (Program.evaluate a).bind fun v => .value (format v) :=
  rfl

/-- The number of a text is parsed, or the call fails. -/
theorem number_toDouble :
    Builtin.toDouble.number ⟨x, name, [a], formula, position⟩ =
      (Program.evaluateText a).bind (parsed ⟨x, name, [a], formula, position⟩) :=
  rfl

/-- The text of a number is read as that number. -/
theorem parsed_format (c : Call) (v : Float) : parsed c (format v) = .value v := by
  rw [parsed, read?_format]
  rfl

end Evaluation

namespace Engine

variable {e : Engine} {name name' f inner outer : String}

/-- A clean text formula is calculated like the formula itself. -/
theorem settles_evaluateText_clean {formula : String} {r : Run String} :
    e.Settles (Program.evaluateText (cleanFormula formula)) r ↔ e.CalculatesText formula r := by
  rw [settles_evaluateText_iff, calculatesText_iff_settles, calculatesText_iff_settles, textProgram,
    cleanFormula_cleanFormula]
  rfl

/-- The text of a formula's number is that number in writing. -/
theorem calculatesText_toText_iff (hname : isName name = true)
    (hf : Builtin.ofName? name = some .toText) (hcall : IsCall name [f] inner) (hempty : f ≠ "")
    {r : Run String} :
    e.CalculatesText inner r ↔
      e.Settles ((Program.evaluate (cleanFormula f)).bind fun v => .value (format v)) r := by
  obtain ⟨position, hprogram⟩ := textProgram_call hname hf hcall (by simpa using hempty) e.context
  rw [calculatesText_iff_settles, hprogram, List.map_singleton, text_toText]

/-- A formula that is made a text and a number again is calculated like the formula itself. -/
theorem calculates_toDouble_toText (hname : isName name = true)
    (hf : Builtin.ofName? name = some .toText) (hcall : IsCall name [f] inner) (hempty : f ≠ "")
    (hname' : isName name' = true) (hf' : Builtin.ofName? name' = some .toDouble)
    (hcall' : IsCall name' [inner] outer) (r : Run Float) :
    e.Calculates outer r ↔ e.Calculates f r := by
  have hinner : inner ≠ "" := by
    rintro rfl
    obtain ⟨_, -, htext⟩ := hcall.written
    simp at htext
  obtain ⟨position, hprogram⟩ :=
    numericProgram_call hname' hf' hcall' (by simpa using hinner) e.context
  let c : Call := ⟨e.context, name', [cleanFormula inner], cleanFormula outer, position⟩
  let written := (Program.evaluate (cleanFormula f)).bind fun v => .value (format v)
  calc e.Calculates outer r
      ↔ e.Settles ((Program.evaluateText (cleanFormula inner)).bind (parsed c)) r := by
        rw [calculates_iff_settles, hprogram, List.map_singleton, number_toDouble]
    _ ↔ e.Settles (written.bind (parsed c)) r :=
        settles_bind_congr (fun s => settles_evaluateText_clean.trans
          (calculatesText_toText_iff hname hf hcall hempty)) fun _ _ _ _ => Iff.rfl
    _ ↔ e.Settles ((Program.evaluate (cleanFormula f)).bind fun v => parsed c (format v)) r := by
        rw [Program.bind_bind]
        rfl
    _ ↔ e.Settles (Program.evaluate (cleanFormula f)) r := by
        simp only [parsed_format, Program.bind_value]
    _ ↔ e.Calculates f r := settles_evaluate_clean

/-- A formula between parentheses behind a name is a call. -/
theorem isCall_single (hf : WellFormed f) : IsCall name [f] (name ++ "(" ++ f ++ ")") where
  wellFormed := by
    simpa using hf
  written := ⟨joined [f], spaced_joined [f], by simp⟩

/-- Every double is read again from its text, bit for bit, with the sign of a zero, and no number as
no number. So a formula that is made a text and a number again has the same number, or the same
error, with the same requests. -/
theorem calculates_through_text :
    (∀ x : Float, read? (format x) = some x) ∧
      ∀ (e : Engine) {f : String}, WellFormed f → f ≠ "" →
        ∀ r, e.Calculates ("todouble(tostr(" ++ f ++ "))") r ↔ e.Calculates f r := by
  refine ⟨read?_format, fun e f hf hempty r => ?_⟩
  have hinner : isName "tostr" = true ∧ Builtin.ofName? "tostr" = some .toText := by
    decide +kernel
  have houter : isName "todouble" = true ∧ Builtin.ofName? "todouble" = some .toDouble := by
    decide +kernel
  have hcall : IsCall "tostr" [f] ("tostr" ++ "(" ++ f ++ ")") := isCall_single hf
  have hcall' := @isCall_single "todouble" _ (hcall.isWellFormed hinner.1)
  have htext : "todouble(tostr(" ++ f ++ "))" =
      "todouble" ++ "(" ++ ("tostr" ++ "(" ++ f ++ ")") ++ ")" := by
    rw [← String.toList_inj]
    simp
  rw [htext]
  exact calculates_toDouble_toText hinner.1 hinner.2 hcall hempty houter.1 houter.2 hcall' r

/-- A third, with a line break and a quoted parenthesis in its formula, and the zero that is
negative. -/
theorem calculates_through_text_third :
    alarmed.Calculates "todouble(tostr(x / (1 +\nlen('1)'))))"
        ⟨[⟨0, .value "x"⟩], .value (2.0 / 3.0)⟩ ∧
      read? (format (-0.0)) = some (-0.0) := by
  have hf : WellFormed "x / (1 +\nlen('1)'))" := by decide +kernel
  have hsame := calculates_through_text.2 alarmed hf (by decide)
    ⟨[⟨0, .value "x"⟩], .value (2.0 / 3.0)⟩
  exact ⟨hsame.mpr ⟨2, by decide +kernel, by simp⟩, calculates_through_text.1 (-0.0)⟩

end Engine

end Formulae
