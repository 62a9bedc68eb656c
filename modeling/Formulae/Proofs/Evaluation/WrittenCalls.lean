import Formulae.Proofs.Grammar.Written
import Formulae.Proofs.Number.Whole
import Formulae.Proofs.Evaluation.Settling

/-!
# Evaluating written calls

A call of a built-in function is evaluated as that function with those arguments, cleaned, and a
written integer to that integer.

Main results: `numericProgram_call`, `textProgram_call` and `numericProgram_integer`.
-/

namespace Formulae

open Grammar Arguments

/-- An argument is clean, so it is parsed as it is written. -/
theorem numericProgram_of_argument (x : Context) {formula : String} (h : IsArgument formula) :
    numericProgram x formula = (NumericTree.ofFormula formula).evaluate x formula := by
  unfold numericProgram
  rw [h.clean]

section

variable {name formula : String} {args : List String} {f : Builtin} (hname : isName name = true)
  (hf : Builtin.ofName? name = some f) (hcall : IsCall name args formula) (hempty : args ≠ [""])

include hname hf hcall hempty

/-- A call of a built-in function does what the function does with the clean arguments. -/
theorem numericProgram_call (x : Context) : ∃ position, numericProgram x formula =
    f.number ⟨x, name, args.map cleanFormula, cleanFormula formula, position⟩ := by
  have hplace : keepsOperand name = false := by
    rw [keepsOperand, hf]
    rfl
  obtain ⟨position, htree⟩ := NumericTree.ofFormula_call hname hplace (hcall.clean hname)
    (map_cleanFormula_ne hcall.wellFormed hempty)
  refine ⟨position, ?_⟩
  show (NumericTree.ofFormula (cleanFormula formula)).evaluate x (cleanFormula formula) = _
  rw [htree]
  show callNumber _ = _
  rw [callNumber, hf]

/-- So it does in the text channel. -/
theorem textProgram_call (x : Context) : ∃ position, textProgram x formula =
    f.text ⟨x, name, args.map cleanFormula, cleanFormula formula, position⟩ := by
  obtain ⟨position, htree⟩ := TextTree.ofFormula_call hname (hcall.clean hname)
    (map_cleanFormula_ne hcall.wellFormed hempty)
  refine ⟨position, ?_⟩
  show (TextTree.ofFormula (cleanFormula formula)).evaluate x (cleanFormula formula) = _
  rw [htree]
  show callText _ = _
  rw [callText, hf]

end

/-- A written call of a built-in function does what the function does. -/
theorem numericProgram_builtin (x : Context) (f : Builtin) {args : List String}
    (h : ∀ a ∈ args, IsArgument a) :
    ∃ position, numericProgram x (writtenCall f.name args) =
      f.number ⟨x, f.name, args, writtenCall f.name args, position⟩ := by
  have hempty : args ≠ [""] := by
    rintro rfl
    exact (h "" (by simp)).nonempty rfl
  have hargs : args.map cleanFormula = args := by
    rw [List.map_congr_left fun a ha => (h a ha).clean, List.map_id']
  have hprogram := numericProgram_call (isName_builtin f) (Builtin.ofName?_name f)
    (isCall_writtenCall h) hempty x
  rwa [hargs, (isArgument_writtenCall (isName_builtin f) h).clean] at hprogram

/-- A written integer is that integer. -/
theorem numericProgram_integer (x : Context) {k : Int} (h : k.natAbs ≤ maxInteger) :
    numericProgram x (toString k) = .value (Float.ofInt k) := by
  rw [numericProgram_of_argument x (isArgument_integer k)]
  rcases natural_or_negative k with ⟨n, rfl⟩ | ⟨n, hn, rfl⟩
  · have hmax : n ≤ maxInteger := by omega
    rw [NumericTree.ofFormula_natural hmax]
    rfl
  · have hmax : n ≤ maxInteger := by omega
    have hsmall : n < 2 ^ 53 := Nat.lt_of_le_of_lt hmax (by decide)
    rw [NumericTree.ofFormula_negative hn hmax, ← Number.zero_sub_ofNat hsmall]
    rfl

namespace Engine

variable {e : Engine}

/-- An argument has the number of its formula. -/
theorem Yields.argument {c : Call} {index : Nat} {formula : String} {x : Float}
    (hc : c.args[index]? = some formula) (h : e.Yields (numericProgram e.context formula) x) :
    e.Yields (c.number index) x := by
  rw [(Call.number_of_arg hc).1]
  exact h.evaluate

/-- A written integer yields itself. -/
theorem yields_integer {k : Int} (h : k.natAbs ≤ maxInteger) :
    e.Yields (numericProgram e.context (toString k)) (Float.ofInt k) := by
  rw [numericProgram_integer e.context h]
  exact e.yields_value _

end Engine

end Formulae
