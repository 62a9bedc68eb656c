import Formulae.Proofs.Grammar.Likeness
import Formulae.Proofs.Evaluation.Settling

/-!
# Where a formula stands

An error tells the formula and the place where it was found, and nothing else about a formula
depends on them. So the same tree at another place, or in another formula, has the same value with
the same requests: places are taken off trees, calls and programs alike, and what is evaluated then
is compared.

A tree that holds a failure has no value, since all of it is evaluated.

Main results:

* `NumericTree.unplaced_evaluate`, `TextTree.unplaced_evaluate` — a tree without places is
  evaluated like the tree itself.
* `Engine.settles_unplaced_iff` — the values of a program do not depend on places.
* `Engine.isWhole_of_settles`, `Engine.isWhole_of_settlesText` — a tree with a value is whole.
* `Engine.Calculates.exists_part`, `Engine.calculates_iff_part` — a formula with a value is a part
  whose tree has that value.
-/

namespace Formulae

variable {α β : Type}

-- ---------------------------------------------------------------------------
-- Programs
-- ---------------------------------------------------------------------------

/-- An error without the formula and the place that it was found in. -/
def FormulaError.unplaced (e : FormulaError) : FormulaError :=
  { e with formula := "", position := 0 }

namespace Program

/-- A program whose own errors tell no place. -/
def unplaced : Program α → Program α
  | value a => value a
  | error e => error e.unplaced
  | overflow => overflow
  | number formula next => number formula fun x => (next x).unplaced
  | text formula next => text formula fun s => (next s).unplaced
  | attempt formula next => attempt formula fun s => (next s).unplaced
  | ask request next => ask request fun r => (next r).unplaced

@[simp] theorem unplaced_value (a : α) : (value a).unplaced = value a := rfl

@[simp] theorem unplaced_error (e : FormulaError) :
    (error e : Program α).unplaced = error e.unplaced := rfl

/-- Places are taken off a program, and off what it goes on with. -/
@[simp] theorem unplaced_bind (p : Program α) (f : α → Program β) :
    (p.bind f).unplaced = p.unplaced.bind fun a => (f a).unplaced := by
  induction p with
  | value | error | overflow => rfl
  | number _ _ ih | text _ _ ih | attempt _ _ ih | ask _ _ ih => simp only [bind, unplaced, ih]

theorem map_eq (f : α → β) (p : Program α) : f <$> p = p.bind fun a => value (f a) := rfl

@[simp] theorem unplaced_ofOption (a : Option α) (e : FormulaError) :
    (ofOption a e).unplaced = ofOption a e.unplaced := by
  cases a <;> rfl

@[simp] theorem unplaced_evaluate (formula : String) :
    (evaluate formula).unplaced = evaluate formula := rfl

@[simp] theorem unplaced_evaluateText (formula : String) :
    (evaluateText formula).unplaced = evaluateText formula := rfl

@[simp] theorem unplaced_attemptText (formula : String) :
    (attemptText formula).unplaced = attemptText formula := rfl

@[simp] theorem unplaced_request (r : Request) : (request r).unplaced = request r := rfl

end Program

-- ---------------------------------------------------------------------------
-- Calls
-- ---------------------------------------------------------------------------

namespace Call

/-- A call without its place. -/
def unplaced (c : Call) : Call :=
  { c with formula := "", position := 0 }

@[simp] theorem context_unplaced (c : Call) : c.unplaced.context = c.context := rfl

@[simp] theorem name_unplaced (c : Call) : c.unplaced.name = c.name := rfl

@[simp] theorem args_unplaced (c : Call) : c.unplaced.args = c.args := rfl

@[simp] theorem places_unplaced (c : Call) : c.unplaced.places = c.places := rfl

@[simp] theorem zone_unplaced (c : Call) : c.unplaced.zone = c.zone := rfl

@[simp] theorem unplaced_errorNaming (c : Call) (kind : ErrorKind) (identifier : String) :
    (c.errorNaming kind identifier).unplaced = c.unplaced.errorNaming kind identifier := rfl

@[simp] theorem unplaced_error (c : Call) (kind : ErrorKind) :
    (c.error kind).unplaced = c.unplaced.error kind := rfl

@[simp] theorem unplaced_arg (c : Call) (index : Nat) :
    (c.arg index).unplaced = c.unplaced.arg index := by
  simp [arg]

@[simp] theorem unplaced_number (c : Call) (index : Nat) :
    (c.number index).unplaced = c.unplaced.number index := by
  simp [number]

@[simp] theorem unplaced_text (c : Call) (index : Nat) :
    (c.text index).unplaced = c.unplaced.text index := by
  simp [text]

@[simp] theorem unplaced_orFail (c : Call) (a : Option α) :
    (c.orFail a).unplaced = c.unplaced.orFail a := by
  simp [orFail]

end Call

open Program Call

namespace Evaluation

@[simp] theorem unplaced_decides (truth : Bool) (formulas : List String) :
    (decides truth formulas).unplaced = decides truth formulas := by
  induction formulas with
  | nil => rfl
  | cons formula formulas ih => simp [decides, ih, apply_ite]

@[simp] theorem unplaced_evaluateAll (channel : Channel) (formulas : List String) :
    (evaluateAll channel formulas).unplaced = evaluateAll channel formulas := by
  induction formulas with
  | nil => rfl
  | cons formula formulas ih => cases channel <;> simp [evaluateAll, evaluateIn, map_eq, ih]

/-- A call collects its values wherever it stands; what it blames is the call without its place. -/
@[simp] theorem unplaced_collect (c : Call) (channel : Channel) :
    (collect c channel).unplaced = collect c.unplaced channel := by
  unfold collect
  rw [args_unplaced]
  split
  · exact unplaced_evaluateAll channel c.args
  · rfl
  · rw [bind_eq, unplaced_bind]
    simp only [unplaced_ofOption]
    rfl

@[simp] theorem unplaced_numbersOf (c : Call) (values : List RangeValue) :
    (numbersOf c values).unplaced = numbersOf c.unplaced values := by
  induction values with
  | nil => rfl
  | cons value values ih => cases value <;> simp [numbersOf, numberOfValue, ih]

@[simp] theorem unplaced_numbers (c : Call) : (numbers c).unplaced = numbers c.unplaced := by
  simp [numbers]

@[simp] theorem unplaced_instant (c : Call) (index : Nat) :
    (instant c index).unplaced = instant c.unplaced index := by
  simp [instant]

@[simp] theorem unplaced_component (c : Call) (low high : Int) (index : Nat) :
    (component c low high index).unplaced = component c.unplaced low high index := by
  simp [component]

@[simp] theorem unplaced_hourOf (c : Call) (i : Except Calendar.Failure Calendar.Instant) :
    (hourOf c i).unplaced = hourOf c.unplaced i := by
  match i with
  | .ok i => rfl
  | .error (.rejected _) => rfl
  | .error .beyondCalendar => rfl

@[simp] theorem unplaced_parsed (c : Call) (text : String) :
    (parsed c text).unplaced = parsed c.unplaced text := by
  simp [parsed]

@[simp] theorem unplaced_texts (c : Call) : (texts c).unplaced = texts c.unplaced := by
  simp [texts]

@[simp] theorem unplaced_concatenateFrom (done : String) (formulas : List String) :
    (concatenateFrom done formulas).unplaced = concatenateFrom done formulas := by
  induction formulas generalizing done with
  | nil => rfl
  | cons formula formulas ih => simp [concatenateFrom, ih]

end Evaluation

open Evaluation

namespace Builtin

/-- What a function does with a call does not depend on the place of the call. -/
theorem unplaced_numeric? {f : Builtin} {act : Call → Program Float} (h : f.numeric? = some act)
    (c : Call) : (act c).unplaced = act c.unplaced := by
  cases f <;> simp only [numeric?, Option.some.injEq, reduceCtorEq] at h <;> subst h
  case round =>
    simp only [Evaluation.round, bind_eq, unplaced_bind, unplaced_number]
    congr
    funext x
    congr
    funext y
    split <;> rfl
  case textToDateTime =>
    simp only [Evaluation.textToDateTime, bind_eq, unplaced_bind, unplaced_text]
    congr
    funext text
    congr
    funext pattern
    rw [zone_unplaced]
    split <;> rfl
  -- the others evaluate their arguments in turn, and what they blame is the call
  all_goals
    simp [chooseNumber, Evaluation.conjunction, Evaluation.disjunction, Evaluation.negation,
      Evaluation.between, Evaluation.raiseError, quotient, ceilingOf, floorOf, Evaluation.toDouble,
      isEmpty, Evaluation.length, Evaluation.position, Evaluation.equals,
      Evaluation.equalsIgnoreCase, Evaluation.compareTo, Evaluation.compareToIgnoreCase, numberOf,
      Evaluation.left, Evaluation.right, Evaluation.substring, Evaluation.sum, Evaluation.maximum,
      Evaluation.minimum, Evaluation.count, Evaluation.average, fieldOf, clockOf, moved,
      Evaluation.toDate, Evaluation.toDateTime, Evaluation.distanceFromNow,
      Evaluation.distanceFromToday, map_eq, field, yearField, apply_ite]

@[simp] theorem unplaced_number (f : Builtin) (c : Call) :
    (f.number c).unplaced = f.number c.unplaced := by
  unfold number checked
  cases hact : f.numeric? with
  | none => rfl
  | some act =>
    dsimp only
    rw [apply_ite Program.unplaced, unplaced_numeric? hact]
    rfl

/-- What a function does with a call does not depend on the place of the call. -/
theorem unplaced_textual? {f : Builtin} {act : Call → Program String} (h : f.textual? = some act)
    (c : Call) : (act c).unplaced = act c.unplaced := by
  cases f <;> simp only [textual?, Option.some.injEq, reduceCtorEq] at h <;> subst h
  case conditional =>
    simp only [chooseText, bind_eq, unplaced_bind, Call.unplaced_number,
      apply_ite Program.unplaced, Call.unplaced_text]
    rfl
  all_goals
    simp [Evaluation.left, Evaluation.right, Evaluation.substring, Evaluation.concatenate,
      Evaluation.replicate, Evaluation.toText, Evaluation.upperCase, Evaluation.lowerCase, sumText,
      maximumText, minimumText, countText]

@[simp] theorem unplaced_text (f : Builtin) (c : Call) :
    (f.text c).unplaced = f.text c.unplaced := by
  unfold text checked
  cases hact : f.textual? with
  | none => rfl
  | some act =>
    dsimp only
    rw [apply_ite Program.unplaced, unplaced_textual? hact]
    rfl

end Builtin

-- ---------------------------------------------------------------------------
-- Trees
-- ---------------------------------------------------------------------------

namespace Grammar

/-- Who is asked for a value does not depend on where its name stands. -/
@[simp] theorem unplaced_valueOf (x : Context) (name : String) (unknown : FormulaError) :
    (valueOf x name unknown).unplaced = valueOf x name unknown.unplaced := by
  unfold valueOf
  split
  · exact unplaced_ofOption _ _
  · rw [bind_eq, unplaced_bind]
    simp only [unplaced_ofOption]
    rfl

/-- Nor does what a call does, whether its function is built in or not. -/
theorem unplaced_callNumber (c : Call) : (callNumber c).unplaced = callNumber c.unplaced := by
  unfold callNumber
  rw [name_unplaced]
  split
  · exact Builtin.unplaced_number _ c
  · unfold userNumber
    rw [context_unplaced]
    split
    · rfl
    · rw [bind_eq, unplaced_bind]
      simp only [unplaced_ofOption]
      rfl

/-- A tree without places is evaluated like the tree itself, without telling places. -/
theorem NumericTree.unplaced_evaluate (x : Context) (formula : String) (tree : NumericTree) :
    (tree.evaluate x formula).unplaced = tree.unplaced.evaluate x "" := by
  induction tree with
  | number n => rfl
  | value name position => exact unplaced_valueOf x name _
  | call name args position => exact unplaced_callNumber _
  | apply f operand ih => simp [evaluate, unplaced, ih]
  | prefixed op operand ih => simp [evaluate, unplaced, ih]
  | binary op left right ihl ihr => simp [evaluate, unplaced, ihl, ihr]
  | sequence first second ihf ihs => simp [evaluate, unplaced, ihf, ihs]
  | failure complaint => rfl

@[simp] theorem unplaced_textValueOf (name : String) (unknown : FormulaError) :
    (textValueOf name unknown).unplaced = textValueOf name unknown.unplaced := by
  rw [textValueOf, bind_eq, unplaced_bind]
  simp only [unplaced_ofOption]
  rfl

/-- In the text channel, too, a call does the same wherever it stands. -/
theorem unplaced_callText (c : Call) : (callText c).unplaced = callText c.unplaced := by
  have hargs : ∀ args, (userArgs args).unplaced = userArgs args := by
    intro args
    unfold userArgs
    split <;> rfl
  unfold callText
  rw [name_unplaced]
  split
  · exact Builtin.unplaced_text _ c
  · unfold userText
    rw [bind_eq, unplaced_bind, hargs, args_unplaced]
    refine congrArg _ (funext fun args => ?_)
    rw [name_unplaced, context_unplaced]
    split
    · rfl
    · split
      · rfl
      · rw [bind_eq, unplaced_bind]
        simp only [unplaced_ofOption]
        rfl

/-- A tree without places is evaluated like the tree itself, without telling places. -/
theorem TextTree.unplaced_evaluate (x : Context) (formula : String) (tree : TextTree) :
    (tree.evaluate x formula).unplaced = tree.unplaced.evaluate x "" := by
  induction tree with
  | literal s => rfl
  | value name position => exact unplaced_textValueOf name _
  | call name args position => exact unplaced_callText _
  | append left right ihl ihr => simp [evaluate, unplaced, ihl, ihr]
  | sequence first second ihf ihs => simp [evaluate, unplaced, ihf, ihs]
  | failure complaint => rfl

end Grammar

-- ---------------------------------------------------------------------------
-- Runs
-- ---------------------------------------------------------------------------

def Outcome.unplaced : Outcome α → Outcome α
  | error e => error e.unplaced
  | outcome => outcome

namespace Run

/-- A run whose error, if it ends with one, tells no place. -/
def unplaced (r : Run α) : Run α :=
  { r with outcome := r.outcome.unplaced }

/-- A run with a value has no error to take a place off. -/
theorem unplaced_eq_value {r : Run α} {calls : List ProviderCall} {a : α} :
    r.unplaced = ⟨calls, .value a⟩ ↔ r = ⟨calls, .value a⟩ := by
  obtain ⟨calls', outcome⟩ := r
  cases outcome <;> simp [unplaced, Outcome.unplaced]

/-- Runs go on alike, but for places, if what they go on with is alike. -/
theorem unplaced_bind_congr (r : Run α) {f g : α → Run β}
    (h : ∀ a, (f a).unplaced = (g a).unplaced) : (r >>= f).unplaced = (r >>= g).unplaced := by
  obtain ⟨calls, outcome⟩ := r
  cases outcome with
  | value a =>
    obtain ⟨hcalls, houtcome⟩ := Run.mk.inj (h a)
    rw [bind_value, bind_value, unplaced, unplaced, hcalls]
    exact congrArg (Run.mk _) houtcome
  | error | overflow | unfinished => rfl

end Run

/-- A program runs alike whether its errors tell places or not, but for those places. -/
theorem Program.unplaced_run (ps : List Provider) (n : Nested) (p : Program α) :
    (p.unplaced.run ps n).unplaced = (p.run ps n).unplaced := by
  induction p with
  | value | error | overflow => rfl
  | number _ _ ih | text _ _ ih | attempt _ _ ih | ask _ _ ih =>
    exact Run.unplaced_bind_congr _ ih

namespace Engine

variable {e : Engine} {calls : List ProviderCall}

/-- The value of a program, and who is asked for it, do not depend on places. -/
theorem settles_unplaced_iff {p : Program α} {a : α} :
    e.Settles p.unplaced ⟨calls, .value a⟩ ↔ e.Settles p ⟨calls, .value a⟩ := by
  refine exists_congr fun depth => and_congr_left fun _ => ?_
  rw [← Run.unplaced_eq_value, Program.unplaced_run, Run.unplaced_eq_value]

/-- A tree that has a value is whole. -/
theorem isWhole_of_settles {tree : Grammar.NumericTree} {formula : String} {v : Float}
    (h : e.Settles (tree.evaluate e.context formula) ⟨calls, .value v⟩) : tree.isWhole = true := by
  induction tree generalizing calls v with
  | number | value | call => rfl
  | apply f operand ih =>
    obtain ⟨_, _, _, hoperand, -⟩ := h.of_bind
    exact ih hoperand
  | prefixed op operand ih =>
    obtain ⟨_, _, _, hoperand, -⟩ := h.of_bind
    exact ih hoperand
  | binary op left right ihl ihr =>
    obtain ⟨_, _, _, hleft, hrest, -⟩ := h.of_bind
    obtain ⟨_, _, _, hright, -⟩ := hrest.of_bind
    rw [Grammar.NumericTree.isWhole, ihl hleft, ihr hright]
    rfl
  | sequence first second ihf ihs =>
    obtain ⟨_, _, _, hfirst, hsecond, -⟩ := h.of_bind
    rw [Grammar.NumericTree.isWhole, ihf hfirst, ihs hsecond]
    rfl
  | failure complaint => exact absurd (h.unique (e.settles_error _)) (by simp)

/-- A tree that has a value is whole. -/
theorem isWhole_of_settlesText {tree : Grammar.TextTree} {formula : String} {s : String}
    (h : e.Settles (tree.evaluate e.context formula) ⟨calls, .value s⟩) : tree.isWhole = true := by
  induction tree generalizing calls s with
  | literal | value | call => rfl
  | append left right ihl ihr =>
    obtain ⟨_, _, _, hleft, hrest, -⟩ := h.of_bind
    obtain ⟨_, _, _, hright, -⟩ := hrest.of_bind
    rw [Grammar.TextTree.isWhole, ihl hleft, ihr hright]
    rfl
  | sequence first second ihf ihs =>
    obtain ⟨_, _, _, hfirst, hsecond, -⟩ := h.of_bind
    rw [Grammar.TextTree.isWhole, ihf hfirst, ihs hsecond]
    rfl
  | failure complaint => exact absurd (h.unique (e.settles_error _)) (by simp)

end Engine

-- ---------------------------------------------------------------------------
-- Formulas as parts
-- ---------------------------------------------------------------------------

open Grammar Outline

namespace Engine

variable {e : Engine} {formula : String} {calls : List ProviderCall} {v : Float}

/-- A formula that is a part has the value of its tree, wherever the part stands. -/
theorem calculates_iff_part (hclean : cleanFormula formula = formula) {ws : List Symbol}
    {tree : NumericTree} (hsaid : Says keepsOperand formula.toList ws)
    (hpart : Part (.chain .sequence) ws tree) :
    e.Calculates formula ⟨calls, .value v⟩ ↔
      e.Settles (tree.evaluate e.context "") ⟨calls, .value v⟩ := by
  rw [calculates_iff_settles, numericProgram, hclean, ← settles_unplaced_iff,
    NumericTree.unplaced_evaluate, unplaced_ofFormula hsaid hpart]

/-- A formula that has a value is a part with that value. -/
theorem Calculates.exists_part (h : e.Calculates formula ⟨calls, .value v⟩)
    (hclean : cleanFormula formula = formula) :
    ∃ ws tree, Says keepsOperand formula.toList ws ∧ Part (.chain .sequence) ws tree ∧
      e.Settles (tree.evaluate e.context "") ⟨calls, .value v⟩ := by
  have hsettles := calculates_iff_settles.mp h
  rw [numericProgram, hclean] at hsettles
  obtain ⟨ws, hsaid, hpart⟩ := says_of_isWhole (isWhole_of_settles hsettles)
  exact ⟨ws, _, hsaid, hpart, (calculates_iff_part hclean hsaid hpart).mp h⟩

end Engine

end Formulae
