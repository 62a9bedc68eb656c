import Formulae.Proofs.Evaluation.Untaken

/-!
# Conjunctions as negated disjunctions

A conjunction stops at the first argument that is not true, and a disjunction at the first one that
is. Of negated arguments the disjunction stops where the conjunction stops of the arguments
themselves. On the way a truth value is made a number and tested again at each negation, which
leaves it as it is, and every argument is cut out of one text or out of another, once or three
times. What is evaluated is the same formula in both cases, and so are its requests and its error.

Main results:

* `Engine.settles_decides_negated` — both go through their arguments alike.
* `Engine.calculates_deMorgan` — both calls come to the same.
-/

namespace Formulae

open Grammar Arguments Number Evaluation

/-- The number of a truth value is tested as that value. -/
theorem Number.isTrue_ofTruth (b : Bool) : isTrue (ofTruth b) = b := by
  cases b <;> decide

namespace Evaluation

variable {c : Call}

/-- A conjunction looks for a false argument. -/
theorem number_conjunction (h : 2 ≤ c.args.length) :
    Builtin.conjunction.number c =
      (decides false c.args).bind fun found => .value (ofTruth (!found)) :=
  if_pos (Arity.admits_atLeast.mpr h)

/-- A disjunction looks for a true one. -/
theorem number_disjunction (h : 2 ≤ c.args.length) :
    Builtin.disjunction.number c = (decides true c.args).bind fun found => .value (ofTruth found) :=
  if_pos (Arity.admits_atLeast.mpr h)

/-- A negation is the other truth value. -/
theorem number_negation (x : Context) (name a formula : String) (position : Nat) :
    Builtin.negation.number ⟨x, name, [a], formula, position⟩ =
      (Program.evaluate a).bind fun v => .value (ofTruth (!isTrue v)) :=
  rfl

end Evaluation

theorem writtenCall_ne_empty (name : String) (args : List String) : writtenCall name args ≠ "" := by
  intro h
  have hlist := congrArg String.toList h
  rw [toList_writtenCall] at hlist
  simp at hlist

/-- The call of `not` with a formula as its argument. -/
def negated (formula : String) : String :=
  writtenCall "not" [formula]

/-- The negation of a well-formed formula is a call. -/
theorem isCall_negated {formula : String} (h : WellFormed formula) :
    IsCall "not" [formula] (negated formula) :=
  isCall_of_wellFormed (by simpa using h)

namespace Engine

variable {e : Engine} {formula : String} {args : List String}

/-- A negated formula has the opposite truth value of the formula. -/
theorem calculates_negated_iff (h : WellFormed formula) (hempty : formula ≠ "") {r : Run Float} :
    e.Calculates (negated formula) r ↔
      e.Settles ((Program.evaluate (cleanFormula formula)).bind fun v =>
        .value (ofTruth (!isTrue v))) r := by
  obtain ⟨position, hprogram⟩ := numericProgram_call (isName_builtin .negation)
    (Builtin.ofName?_name .negation) (isCall_negated h) (by simpa using hempty) e.context
  rw [calculates_iff_settles, hprogram, List.map_singleton, number_negation]

/-- The first argument that is not true is the first one whose negation is. The induction goes
through the arguments as both programs do. -/
theorem settles_decides_negated (h : ∀ a ∈ args, WellFormed a ∧ a ≠ "") {r : Run Bool} :
    e.Settles (decides false (args.map cleanFormula)) r ↔
      e.Settles (decides true ((args.map negated).map cleanFormula)) r := by
  induction args generalizing r with
  | nil => rfl
  | cons a args ih =>
    obtain ⟨ha, hargs⟩ := List.forall_mem_cons.mp h
    let value := Program.evaluate (cleanFormula a)
    let opposite := value.bind fun v => .value (ofTruth (!isTrue v))
    let more := decides true ((args.map negated).map cleanFormula)
    calc e.Settles (decides false ((a :: args).map cleanFormula)) r
        ↔ e.Settles (value.bind fun v => if isTrue v = false then .value true else more) r := by
          refine settles_bind_congr (fun _ => Iff.rfl) fun _ v _ s => ?_
          split
          · rfl
          · exact ih hargs
      _ ↔ e.Settles (opposite.bind fun w => if isTrue w = true then .value true else more) r := by
          rw [Program.bind_bind]
          simp only [Program.bind, isTrue_ofTruth, Bool.not_eq_true']
      _ ↔ e.Settles (decides true (((a :: args).map negated).map cleanFormula)) r :=
          settles_bind_congr (fun s => (settles_evaluate_clean.trans
            (calculates_negated_iff ha.1 ha.2)).symm) fun _ _ _ _ => Iff.rfl

/-- A conjunction comes to the same as the negation of the disjunction of its negated arguments: to
the same value or the same error, with the same requests in the same order. -/
theorem calculates_deMorgan (e : Engine) {args : List String}
    (h : ∀ a ∈ args, WellFormed a ∧ a ≠ "") (hcount : 2 ≤ args.length) (r : Run Float) :
    e.Calculates (writtenCall "and" args) r ↔
      e.Calculates (negated (writtenCall "or" (args.map negated))) r := by
  have hnegated : ∀ a ∈ args.map negated, WellFormed a := by
    intro a ha
    obtain ⟨formula, hformula, rfl⟩ := List.mem_map.mp ha
    exact (isCall_negated (h formula hformula).1).isWellFormed (isName_builtin .negation)
  have hnot_empty : ∀ {l : List String}, 2 ≤ l.length → l ≠ [""] := by
    rintro l hlength rfl
    simp at hlength
  have hand : IsCall "and" args (writtenCall "and" args) :=
    isCall_of_wellFormed fun a ha => (h a ha).1
  have hor : IsCall "or" (args.map negated) (writtenCall "or" (args.map negated)) :=
    isCall_of_wellFormed hnegated
  obtain ⟨_, hconjunction⟩ := numericProgram_call (isName_builtin .conjunction)
    (Builtin.ofName?_name .conjunction) hand (hnot_empty hcount) e.context
  obtain ⟨_, hdisjunction⟩ := numericProgram_call (isName_builtin .disjunction)
    (Builtin.ofName?_name .disjunction) hor (hnot_empty (by simpa using hcount)) e.context
  rw [number_conjunction (by simpa using hcount)] at hconjunction
  rw [number_disjunction (by simpa using hcount)] at hdisjunction
  let found := decides true ((args.map negated).map cleanFormula)
  calc e.Calculates (writtenCall "and" args) r
      ↔ e.Settles ((decides false (args.map cleanFormula)).bind fun b =>
          .value (ofTruth (!b))) r := by
        rw [calculates_iff_settles, hconjunction]
    _ ↔ e.Settles (found.bind fun b => .value (ofTruth (!b))) r :=
        settles_bind_congr (fun _ => settles_decides_negated h) fun _ _ _ _ => Iff.rfl
    _ ↔ e.Settles ((found.bind fun b => .value (ofTruth b)).bind fun v =>
          .value (ofTruth (!isTrue v))) r := by
        rw [Program.bind_bind]
        simp only [Program.bind, isTrue_ofTruth]
    _ ↔ e.Settles ((Program.evaluate (cleanFormula (writtenCall "or" (args.map negated)))).bind
          fun v => .value (ofTruth (!isTrue v))) r :=
        settles_bind_congr (fun _ => by
          rw [settles_evaluate_clean, calculates_iff_settles, hdisjunction]) fun _ _ _ _ => Iff.rfl
    _ ↔ e.Calculates (negated (writtenCall "or" (args.map negated))) r :=
        (calculates_negated_iff (hor.isWellFormed (isName_builtin .disjunction))
          (writtenCall_ne_empty _ _)).symm

/-- Behind the argument that is not true, or fails, nothing is asked for in either form. A comma and
a parenthesis stand between quotes three levels deep. -/
theorem calculates_deMorgan_alarmed :
    alarmed.Calculates "not(or(not(x), not(len('a,)') - 3), not(boom)))"
        ⟨[⟨0, .value "x"⟩], .value 0.0⟩ ∧
      alarmed.Calculates "not(or(not(x), not(boom), not(0)))"
        ⟨[⟨0, .value "x"⟩, ⟨0, .value "boom"⟩], .error (.raised "boom" "boom")⟩ := by
  constructor
  · have hargs : ∀ a ∈ ["x", "len('a,)') - 3", "boom"], WellFormed a ∧ a ≠ "" := by
      decide
    exact (calculates_deMorgan alarmed hargs (by decide) _).mp ⟨3, by decide +kernel, by simp⟩
  · have hargs : ∀ a ∈ ["x", "boom", "0"], WellFormed a ∧ a ≠ "" := by
      decide
    exact (calculates_deMorgan alarmed hargs (by decide) _).mp ⟨3, by decide +kernel, by simp⟩

end Engine

end Formulae
