import Formulae.Evaluation.Calculate
import Formulae.Proofs.Evaluation.Steps

/-!
# Strict programs

No program of a formula goes on without something that it has asked for. A request that nobody
replies to is an error, and an attempt, which is how `raiseerror` evaluates its message, only finds
out which error to end with. `Program.Strict` says so of a program; it also says, by a relation
`blames` between the formula attempted and an error, which error follows when the attempt fails.

Everything that is said about errors and providers is derived from this one shape. The built-in
functions have it because their steps do.

Main results:

* `Builtin.strict_number`, `Builtin.strict_text` — the calls of all built-in functions are strict.
* `Grammar.NumericTree.strict_evaluate`, `Grammar.TextTree.strict_evaluate` — so are the trees of
  formulas; a numeric tree blames the calls of `raiseerror` in it, and a text tree blames nothing.
-/

namespace Formulae

variable {α β : Type} {blames : String → FormulaError → Prop}

namespace Program

/-- The program needs a reply to every request, and an attempt in it only decides about an error. -/
inductive Strict (blames : String → FormulaError → Prop) : Program α → Prop
  | value (a : α) : Strict blames (.value a)
  | error (e : FormulaError) : Strict blames (.error e)
  | overflow : Strict blames .overflow
  | number {formula : String} {next : Float → Program α} (rest : ∀ x, Strict blames (next x)) :
      Strict blames (.number formula next)
  | text {formula : String} {next : String → Program α} (rest : ∀ s, Strict blames (next s)) :
      Strict blames (.text formula next)
  | attempt {formula : String} {next : Option String → Program α}
      (blame : Option String → FormulaError) (fails : ∀ s, next s = .error (blame s))
      (blamed : blames formula (blame none)) : Strict blames (.attempt formula next)
  | ask {request : Request} {next : Option request.Reply → Program α}
      (needed : ∃ e, next none = .error e) (rest : ∀ r, Strict blames (next (some r))) :
      Strict blames (.ask request next)

/-- No error follows any attempt. -/
def Blameless : String → FormulaError → Prop := fun _ _ => False

namespace Strict

/-- Going on strictly after a strict program is strict. -/
theorem bind {p : Program α} {f : α → Program β} (hp : p.Strict blames)
    (hf : ∀ a, (f a).Strict blames) : (p.bind f).Strict blames := by
  induction hp with
  | value a => exact hf a
  | error e => exact .error e
  | overflow => exact .overflow
  | number _ ih => exact .number ih
  | text _ ih => exact .text ih
  | attempt blame fails blamed =>
    -- what follows an error is that error
    exact .attempt blame (fun s => by rw [fails s]; rfl) blamed
  | ask needed _ ih =>
    obtain ⟨e, he⟩ := needed
    exact .ask ⟨e, by rw [he]; rfl⟩ ih

/-- A program that blames less blames more, too. -/
theorem mono {blames' : String → FormulaError → Prop} (h : ∀ f e, blames f e → blames' f e)
    {p : Program α} (hp : p.Strict blames) : p.Strict blames' := by
  induction hp with
  | value a => exact .value a
  | error e => exact .error e
  | overflow => exact .overflow
  | number _ ih => exact .number ih
  | text _ ih => exact .text ih
  | attempt blame fails blamed => exact .attempt blame fails (h _ _ blamed)
  | ask needed _ ih => exact .ask needed ih

end Strict

/-! ## Steps -/

/-- To evaluate a formula is to ask for nothing oneself. -/
theorem strict_evaluate (formula : String) : (evaluate formula).Strict blames :=
  .number fun x => .value x

theorem strict_evaluateText (formula : String) : (evaluateText formula).Strict blames :=
  .text fun s => .value s

theorem strict_ofOption (a : Option α) (e : FormulaError) : (ofOption a e).Strict blames := by
  cases a with
  | none => exact .error e
  | some a => exact .value a

/-- A request is strict together with the error for want of a reply. -/
theorem strict_request (r : Request) (e : FormulaError) :
    ((request r).bind fun reply => ofOption reply e).Strict blames :=
  .ask ⟨e, rfl⟩ fun reply => .value reply

end Program

open Program

/-! ## Arguments -/

namespace Call

theorem strict_arg (c : Call) (index : Nat) : (c.arg index).Strict blames :=
  strict_ofOption _ _

theorem strict_number (c : Call) (index : Nat) : (c.number index).Strict blames :=
  (c.strict_arg index).bind strict_evaluate

theorem strict_text (c : Call) (index : Nat) : (c.text index).Strict blames :=
  (c.strict_arg index).bind strict_evaluateText

/-- What the call of `raiseerror` blames: it fails with the text of its argument. -/
def Raises (c : Call) (formula : String) (e : FormulaError) : Prop :=
  Builtin.ofName? c.name = some .raiseError ∧ c.args = [formula] ∧
    e = c.errorNaming .userException formula

end Call

/-! ## Built-in functions -/

namespace Evaluation

/-- The attempt of `raiseerror` ends with an error, and with its argument's text if it fails. -/
theorem strict_raiseError (c : Call) (hname : Builtin.ofName? c.name = some .raiseError)
    (hargs : c.args.length = 1) : (raiseError c).Strict c.Raises := by
  obtain ⟨formula, hformula⟩ := List.length_eq_one_iff.mp hargs
  have harg : c.arg 0 = .value formula := by
    rw [Call.arg, hformula]
    rfl
  have h : raiseError c = .attempt formula fun text =>
      .error (c.errorNaming .userException (text.getD formula)) := by
    rw [raiseError, harg]
    rfl
  rw [h]
  exact .attempt _ (fun _ => rfl) ⟨hname, hformula, rfl⟩

end Evaluation

namespace Builtin

/-- No step of a function other than `raiseerror` blames anything. -/
theorem steps_strict {f : Builtin} (hf : f ≠ .raiseError) (c : Call) :
    f.Steps c fun p => p.Strict blames where
  value := .value
  bind := Strict.bind
  number _ := c.strict_number _
  text _ := c.strict_text _
  error _ _ := .error _
  request r _ := strict_request r _
  overflow _ := .overflow
  raiseError raises := absurd raises hf

/-- A call of a built-in function by its name is strict; only `raiseerror` blames anything. -/
theorem strict_number {f : Builtin} {c : Call} (hname : ofName? c.name = some f) :
    (f.number c).Strict c.Raises := by
  unfold number checked
  split
  · exact .error _
  · rename_i act hact
    split
    · rename_i hargs
      by_cases hf : f = .raiseError
      · subst hf
        obtain rfl : Evaluation.raiseError = act := by simpa [numeric?] using hact
        exact Evaluation.strict_raiseError c hname (Arity.admits_exactly.mp hargs)
      · exact (steps_strict hf c).numeric? hact
    · exact .error _

/-- A call of a built-in function is strict in the text channel and blames nothing. -/
theorem strict_text (f : Builtin) (c : Call) : (f.text c).Strict blames := by
  unfold text checked
  split
  · exact .error _
  · rename_i act hact
    split
    · have hf : f ≠ .raiseError := by
        rintro rfl
        simp [textual?] at hact
      exact (steps_strict hf c).textual? hact
    · exact .error _

end Builtin

/-! ## Trees -/

namespace Grammar

/-- A value that nobody has is an error. -/
theorem strict_valueOf (x : Context) (name : String) (unknown : FormulaError) :
    (valueOf x name unknown).Strict blames := by
  unfold valueOf
  split
  · exact strict_ofOption _ _
  · exact strict_request _ _

theorem strict_textValueOf (name : String) (unknown : FormulaError) :
    (textValueOf name unknown).Strict blames :=
  strict_request _ _

/-- A call blames nothing, or what `raiseerror` does. -/
theorem strict_callNumber (c : Call) : (callNumber c).Strict c.Raises := by
  unfold callNumber
  split
  · rename_i f hname
    exact Builtin.strict_number hname
  · unfold userNumber
    split
    · exact .error _
    · exact strict_request _ _

/-- In the text channel a call blames nothing. -/
theorem strict_callText (c : Call) : (callText c).Strict blames := by
  unfold callText
  split
  · exact Builtin.strict_text _ c
  · have hargs : (userArgs c.args).Strict blames := by
      unfold userArgs
      split
      · exact (strict_evaluateText _).bind fun _ => .value _
      · exact .value _
    refine hargs.bind fun args => ?_
    split
    · exact .value _
    · split
      · exact .error _
      · exact strict_request _ _

/-- The calls that stand in a numeric formula itself: their names, arguments and places. -/
def NumericTree.calls : NumericTree → List (String × List String × Nat)
  | .number _ => []
  | .value _ _ => []
  | .call name args position => [(name, args, position)]
  | .apply _ operand => operand.calls
  | .prefixed _ operand => operand.calls
  | .binary _ left right => left.calls ++ right.calls
  | .sequence first second => first.calls ++ second.calls
  | .failure _ => []

/-- A call of `raiseerror` with the argument `arg` stands in the tree of `formula`, and `e` is the
error that it ends with when its argument fails. -/
def NumericTree.Raises (tree : NumericTree) (formula arg : String) (e : FormulaError) : Prop :=
  ∃ name position, (name, [arg], position) ∈ tree.calls ∧
    Builtin.ofName? name = some .raiseError ∧ e = ⟨.userException, some arg, formula, position⟩

/-- A numeric formula is strict, and blames the calls of `raiseerror` in it. -/
theorem NumericTree.strict_evaluate (x : Context) (formula : String) (tree : NumericTree) :
    (tree.evaluate x formula).Strict (tree.Raises formula) := by
  -- a part of the tree blames nothing that the whole does not
  have part : ∀ {p : Program Float} {inner outer : NumericTree}, p.Strict (inner.Raises formula) →
      (∀ call ∈ inner.calls, call ∈ outer.calls) → p.Strict (outer.Raises formula) := by
    intro p inner outer hp hsub
    refine hp.mono fun arg e ⟨name, position, hmem, hname, he⟩ => ?_
    exact ⟨name, position, hsub _ hmem, hname, he⟩
  induction tree with
  | number n => exact .value n
  | value name position => exact strict_valueOf x name _
  | call name args position =>
    refine (strict_callNumber ⟨x, name, args, formula, position⟩).mono ?_
    rintro arg e ⟨hname, rfl, rfl⟩
    exact ⟨name, position, by simp [calls], hname, rfl⟩
  | apply f operand ih => exact Program.Strict.bind ih fun _ => .value _
  | prefixed op operand ih => exact Program.Strict.bind ih fun _ => .value _
  | binary op left right ihl ihr =>
    refine Program.Strict.bind (part ihl fun _ h => List.mem_append_left _ h) fun l => ?_
    exact Program.Strict.bind (part ihr fun _ h => List.mem_append_right _ h) fun r => .value _
  | sequence first second ihf ihs =>
    refine Program.Strict.bind (part ihf fun _ h => List.mem_append_left _ h) fun _ => ?_
    exact part ihs fun _ h => List.mem_append_right _ h
  | failure complaint => exact .error _

/-- A text formula is strict and blames nothing. -/
theorem TextTree.strict_evaluate (x : Context) (formula : String) (tree : TextTree) :
    (tree.evaluate x formula).Strict blames := by
  induction tree with
  | literal s => exact .value s
  | value name position => exact strict_textValueOf name _
  | call name args position => exact strict_callText _
  | append left right ihl ihr => exact ihl.bind fun _ => ihr.bind fun _ => .value _
  | sequence first second ihf ihs => exact ihf.bind fun _ => ihs
  | failure complaint => exact .error _

end Grammar

end Formulae
