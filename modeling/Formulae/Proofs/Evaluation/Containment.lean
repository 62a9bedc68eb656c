import Formulae.Proofs.Grammar.Extent
import Formulae.Proofs.Evaluation.Cleaning
import Formulae.Proofs.Evaluation.Steps

/-!
# What an evaluation can come upon

A program can fail by itself, and it can have other formulas evaluated. `Program.KeepsTo` bounds
both: it says with which errors the program fails, whatever values it is given, and which formulas
it has evaluated. The call of a built-in function fails at its own place in its own formula and has
only its arguments evaluated, so that a formula fails inside its own text and hands on the arguments
of its calls.

Main results:

* `Builtin.confines_number`, `Builtin.confines_text` — what the call of a built-in function keeps to.
* `Grammar.NumericTree.keepsTo_evaluate`, `Grammar.TextTree.keepsTo_evaluate` — what trees keep to.
* `keepsTo_numericProgram`, `keepsTo_textProgram` — what formulas keep to.
* `HasArgument.clean`, `HasArgument.shorter`, `HasArgument.piece` — arguments are clean, shorter
  than the formula, and stand in it.
-/

namespace Formulae

variable {α β : Type} {faults faults' : FormulaError → Prop} {formulas formulas' : String → Prop}

-- ---------------------------------------------------------------------------
-- Programs
-- ---------------------------------------------------------------------------

namespace Program

/-- The program by itself fails with such errors only, and has only such formulas evaluated. -/
inductive KeepsTo (faults : FormulaError → Prop) (formulas : String → Prop) : Program α → Prop
  | value (a : α) : KeepsTo faults formulas (.value a)
  | error {e : FormulaError} (fault : faults e) : KeepsTo faults formulas (.error e)
  | overflow : KeepsTo faults formulas .overflow
  | number {formula : String} {next : Float → Program α} (handed : formulas formula)
      (rest : ∀ x, KeepsTo faults formulas (next x)) :
      KeepsTo faults formulas (.number formula next)
  | text {formula : String} {next : String → Program α} (handed : formulas formula)
      (rest : ∀ s, KeepsTo faults formulas (next s)) : KeepsTo faults formulas (.text formula next)
  | attempt {formula : String} {next : Option String → Program α} (handed : formulas formula)
      (rest : ∀ s, KeepsTo faults formulas (next s)) :
      KeepsTo faults formulas (.attempt formula next)
  | ask {request : Request} {next : Option request.Reply → Program α}
      (rest : ∀ r, KeepsTo faults formulas (next r)) : KeepsTo faults formulas (.ask request next)

namespace KeepsTo

/-- A program that goes on keeps to what both of its parts keep to. -/
theorem bind {p : Program α} {f : α → Program β} (hp : p.KeepsTo faults formulas)
    (hf : ∀ a, (f a).KeepsTo faults formulas) : (p.bind f).KeepsTo faults formulas := by
  induction hp with
  | value a => exact hf a
  | error fault => exact .error fault
  | overflow => exact .overflow
  | number handed _ ih => exact .number handed ih
  | text handed _ ih => exact .text handed ih
  | attempt handed _ ih => exact .attempt handed ih
  | ask _ ih => exact .ask ih

/-- A program keeps to any wider bounds. -/
theorem mono {p : Program α} (hp : p.KeepsTo faults formulas)
    (hfaults : ∀ e, faults e → faults' e) (hformulas : ∀ f, formulas f → formulas' f) :
    p.KeepsTo faults' formulas' := by
  induction hp with
  | value a => exact .value a
  | error fault => exact .error (hfaults _ fault)
  | overflow => exact .overflow
  | number handed _ ih => exact .number (hformulas _ handed) ih
  | text handed _ ih => exact .text (hformulas _ handed) ih
  | attempt handed _ ih => exact .attempt (hformulas _ handed) ih
  | ask _ ih => exact .ask ih

theorem evaluate {formula : String} (h : formulas formula) :
    (Program.evaluate formula).KeepsTo faults formulas :=
  .number h .value

theorem evaluateText {formula : String} (h : formulas formula) :
    (Program.evaluateText formula).KeepsTo faults formulas :=
  .text h .value

/-- Something that may be missing is an error or a value. -/
theorem ofOption {e : FormulaError} (h : faults e) (a : Option α) :
    (Program.ofOption a e).KeepsTo faults formulas := by
  cases a with
  | none => exact .error h
  | some a => exact .value a

/-- A request, and the error for want of a reply. -/
theorem request (r : Request) {e : FormulaError} (h : faults e) :
    ((Program.request r).bind fun reply => Program.ofOption reply e).KeepsTo faults formulas :=
  .ask fun reply => .ofOption h reply

end KeepsTo

end Program

open Program

-- ---------------------------------------------------------------------------
-- Calls
-- ---------------------------------------------------------------------------

namespace Call

/-- The error of a built-in function: it has the formula and the place of the call, and a function
that is not known in a channel is the one that was called. -/
structure Blames (c : Call) (e : FormulaError) : Prop where
  formula : e.formula = c.formula
  position : e.position = c.position
  unknown : e.kind = .functionUnknown → e.identifier = some c.name

/-- The program fails at the call only, and has only arguments of the call evaluated. -/
abbrev Confines (c : Call) (p : Program α) : Prop :=
  p.KeepsTo c.Blames (· ∈ c.args)

/-- An error that names the function is one to blame on the call. -/
theorem blames_error (c : Call) (kind : ErrorKind) : c.Blames (c.error kind) :=
  ⟨rfl, rfl, fun _ => rfl⟩

/-- So is an error that names something else, unless it is about an unknown function. -/
theorem blames_errorNaming (c : Call) {kind : ErrorKind} (hkind : kind ≠ .functionUnknown)
    (identifier : String) : c.Blames (c.errorNaming kind identifier) :=
  ⟨rfl, rfl, fun h => absurd h hkind⟩

/-- An argument that is there is one of the arguments, and one that is not is the fault of the
call. -/
theorem confines_arg_bind (c : Call) (index : Nat) {f : String → Program α}
    (h : ∀ arg ∈ c.args, c.Confines (f arg)) : c.Confines ((c.arg index).bind f) := by
  rw [arg]
  cases hindex : c.args[index]? with
  | none => exact .error (c.blames_error _)
  | some arg => exact h arg (List.mem_of_getElem? hindex)

/-- An argument that is evaluated is one of the call's own. -/
theorem confines_number (c : Call) (index : Nat) : c.Confines (c.number index) :=
  c.confines_arg_bind index fun _ => .evaluate

/-- So is one that is evaluated as a text. -/
theorem confines_text (c : Call) (index : Nat) : c.Confines (c.text index) :=
  c.confines_arg_bind index fun _ => .evaluateText

end Call

-- ---------------------------------------------------------------------------
-- Built-in functions
-- ---------------------------------------------------------------------------

namespace Builtin

/-- No step blames another place than the call's, or has another formula evaluated. -/
theorem steps_confines (f : Builtin) (c : Call) : f.Steps c fun p => c.Confines p where
  value := .value
  bind := KeepsTo.bind
  number _ := c.confines_number _
  text _ := c.confines_text _
  error hkind identifier :=
    .error (c.blames_errorNaming (ne_of_mem_of_not_mem hkind (by decide)) identifier)
  request r identifier := .request r (c.blames_errorNaming (by simp) identifier)
  overflow _ := .overflow
  raiseError _ := c.confines_arg_bind 0 fun _ harg =>
    .attempt harg fun _ => .error (c.blames_errorNaming (by simp) _)

/-- A function that is not known in the channel, or has too few or too many arguments, is the fault
of the call, too. -/
theorem confines_checked {f : Builtin} {action : Option (Call → Program α)} {c : Call}
    (h : ∀ act, action = some act → c.Confines (act c)) : c.Confines (f.checked action c) := by
  unfold checked
  split
  · exact .error (c.blames_error _)
  · split
    · exact h _ rfl
    · exact .error (c.blames_error _)

/-- The call of a function fails at its place, and only its arguments are evaluated. -/
theorem confines_number (f : Builtin) (c : Call) : c.Confines (f.number c) :=
  confines_checked fun _ h => (f.steps_confines c).numeric? h

/-- So does what it does in the text channel. -/
theorem confines_text (f : Builtin) (c : Call) : c.Confines (f.text c) :=
  confines_checked fun _ h => (f.steps_confines c).textual? h

end Builtin

-- ---------------------------------------------------------------------------
-- Trees
-- ---------------------------------------------------------------------------

namespace Grammar

/-- The error lies in the formula, no further than this. -/
structure LiesIn (formula : String) (limit : Nat) (e : FormulaError) : Prop where
  formula : e.formula = formula
  position : e.position ≤ limit

variable {limit : Nat}

/-- A call fails at its place, whoever answers it, and hands on its arguments. -/
theorem keepsTo_callNumber (c : Call) (hplace : c.position ≤ limit)
    (hargs : ∀ arg ∈ c.args, formulas arg) :
    (callNumber c).KeepsTo (LiesIn c.formula limit) formulas := by
  unfold callNumber
  split
  · exact (Builtin.confines_number _ c).mono
      (fun e he => ⟨he.formula, by rw [he.position]; exact hplace⟩) hargs
  · unfold userNumber
    split
    · exact .error ⟨rfl, hplace⟩
    · exact .request _ ⟨rfl, hplace⟩

/-- A call in the text channel does no more. -/
theorem keepsTo_callText (c : Call) (hplace : c.position ≤ limit)
    (hargs : ∀ arg ∈ c.args, formulas arg) :
    (callText c).KeepsTo (LiesIn c.formula limit) formulas := by
  unfold callText
  split
  · exact (Builtin.confines_text _ c).mono
      (fun e he => ⟨he.formula, by rw [he.position]; exact hplace⟩) hargs
  · have huser : (userArgs c.args).KeepsTo (LiesIn c.formula limit) formulas := by
      unfold userArgs
      split
      · rename_i arg heq
        exact KeepsTo.bind (.evaluateText (hargs arg (by simp [heq]))) fun _ => .value _
      · exact .value _
    refine huser.bind fun args => ?_
    split
    · exact .value _
    · split
      · exact .error ⟨rfl, hplace⟩
      · exact .request _ ⟨rfl, hplace⟩

/-- A tree fails inside its formula, and has its arguments evaluated. -/
theorem NumericTree.keepsTo_evaluate {tree : NumericTree} (h : tree.Within limit formulas)
    (x : Context) (formula : String) :
    (tree.evaluate x formula).KeepsTo (LiesIn formula limit) formulas := by
  induction tree with
  | number n => exact .value n
  | value name position =>
    unfold evaluate valueOf
    split
    · exact .ofOption ⟨rfl, h⟩ _
    · exact .request _ ⟨rfl, h⟩
  | call name args position => exact keepsTo_callNumber ⟨x, name, args, formula, position⟩ h.1 h.2
  | apply f operand ih => exact KeepsTo.bind (ih h) fun _ => .value _
  | prefixed op operand ih => exact KeepsTo.bind (ih h) fun _ => .value _
  | binary op left right ihl ihr =>
    exact KeepsTo.bind (ihl h.1) fun _ => KeepsTo.bind (ihr h.2) fun _ => .value _
  | sequence first second ihf ihs => exact KeepsTo.bind (ihf h.1) fun _ => ihs h.2
  | failure complaint => exact .error ⟨rfl, h.position⟩

/-- A tree fails inside its formula, and has its arguments evaluated. -/
theorem TextTree.keepsTo_evaluate {tree : TextTree} (h : tree.Within limit formulas) (x : Context)
    (formula : String) :
    (tree.evaluate x formula).KeepsTo (LiesIn formula limit) formulas := by
  induction tree with
  | literal s => exact .value s
  | value name position => exact .request _ ⟨rfl, h⟩
  | call name args position => exact keepsTo_callText ⟨x, name, args, formula, position⟩ h.1 h.2
  | append left right ihl ihr =>
    exact KeepsTo.bind (ihl h.1) fun _ => KeepsTo.bind (ihr h.2) fun _ => .value _
  | sequence first second ihf ihs => exact KeepsTo.bind (ihf h.1) fun _ => ihs h.2
  | failure complaint => exact .error ⟨rfl, h.position⟩

end Grammar

-- ---------------------------------------------------------------------------
-- Formulas
-- ---------------------------------------------------------------------------

open Grammar

/-- The text is an argument of a call in the formula, which is cleaned before it is read, in one of
the channels. -/
def HasArgument (formula arg : String) : Prop :=
  arg ∈ (Outline.ofText keepsOperand (cleanFormula formula)).arguments ∨
    arg ∈ (Outline.ofText (fun _ => false) (cleanFormula formula)).arguments

namespace HasArgument

variable {formula arg : String}

/-- An argument is a piece that was cut out of the clean formula. -/
theorem cutFrom (h : HasArgument formula arg) :
    Arguments.CutFrom (cleanFormula formula).toList arg :=
  h.elim Outline.cutFrom_of_mem_arguments Outline.cutFrom_of_mem_arguments

/-- An argument stands in the formula. -/
theorem piece (h : HasArgument formula arg) : arg.toList <:+: (cleanFormula formula).toList :=
  h.cutFrom.piece

/-- An argument is shorter than the formula. -/
theorem shorter (h : HasArgument formula arg) : arg.length < (cleanFormula formula).length := by
  rw [← String.length_toList (s := cleanFormula formula)]
  exact h.cutFrom.shorter

/-- An argument is not cleaned any further. -/
theorem clean (h : HasArgument formula arg) : cleanFormula arg = arg := by
  refine cleanFormula_eq_self_iff.mpr ⟨h.cutFrom.trimmed, fun c hc => ?_⟩
  exact (cleanFormula_eq_self_iff.mp (cleanFormula_cleanFormula formula)).2 c (h.piece.subset hc)

end HasArgument

/-- A formula fails inside its own text, and has the arguments of its calls evaluated. -/
theorem keepsTo_numericProgram (x : Context) (formula : String) :
    (numericProgram x formula).KeepsTo
      (LiesIn (cleanFormula formula) (cleanFormula formula).length) (HasArgument formula) :=
  (NumericTree.keepsTo_evaluate (NumericTree.within_ofFormula _) x _).mono (fun _ h => h)
    fun _ => .inl

/-- A formula fails inside its own text, and has the arguments of its calls evaluated. -/
theorem keepsTo_textProgram (x : Context) (formula : String) :
    (textProgram x formula).KeepsTo
      (LiesIn (cleanFormula formula) (cleanFormula formula).length) (HasArgument formula) :=
  (TextTree.keepsTo_evaluate (TextTree.within_ofFormula _) x _).mono (fun _ h => h) fun _ => .inr

end Formulae
