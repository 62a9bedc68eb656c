import Formulae.Proofs.Evaluation.WrittenCalls

/-!
# Arguments that are not looked at

A choice evaluates its condition and one branch, and a conjunction or disjunction no argument
behind the one that decides. What else is written in the call has no part in what happens: the
texts are cut out and left alone, whatever they would be as formulas. Nor do the errors of the
arguments that are evaluated tell of them, since each is a formula of its own.

Main results:

* `Engine.settles_decides_congr` — nothing behind an argument that decides is evaluated.
* `Engine.calculates_untaken` — calls whose arguments differ only where they are not looked at are
  calculated alike.
-/

namespace Formulae

open Grammar Arguments Number Evaluation

namespace Evaluation

section

variable (x : Context) (name c a b formula : String) (position : Nat)

/-- A choice between two numbers evaluates the condition and one of them. -/
theorem number_conditional :
    Builtin.conditional.number ⟨x, name, [c, a, b], formula, position⟩ =
      (Program.evaluate c).bind fun v =>
        if isTrue v then Program.evaluate a else Program.evaluate b :=
  rfl

/-- A choice between two texts does so, too, with a condition that is compared with one. -/
theorem text_conditional :
    Builtin.conditional.text ⟨x, name, [c, a, b], formula, position⟩ =
      (Program.evaluate c).bind fun v =>
        if isAtLeast x.settings.decimalNumbers v 1.0 then Program.evaluateText a
        else Program.evaluateText b :=
  rfl

end

/-- The functions that evaluate their arguments up to one that decides, and the truth that does. -/
def deciders : List (Builtin × Bool) :=
  [(.conjunction, false), (.disjunction, true)]

/-- A call of such a function decides about its arguments, if there are enough. -/
theorem number_decider {f : Builtin} {truth : Bool} (known : (f, truth) ∈ deciders) :
    ∃ finish : Bool → Float, ∀ call : Call, 2 ≤ call.args.length →
      f.number call = (decides truth call.args).bind fun found => .value (finish found) := by
  have hadmits : ∀ {count : Nat}, 2 ≤ count → (Arity.atLeast 2).admits count = true :=
    Arity.admits_atLeast.mpr
  simp only [deciders, List.mem_cons, Prod.mk.injEq, List.not_mem_nil, or_false] at known
  rcases known with ⟨rfl, rfl⟩ | ⟨rfl, rfl⟩
  · exact ⟨fun found => ofTruth (!found), fun call hargs => if_pos (hadmits hargs)⟩
  · exact ⟨ofTruth, fun call hargs => if_pos (hadmits hargs)⟩

end Evaluation

namespace Engine

variable {e : Engine} {name c a b a' b' d F F' : String} {front back back' : List String}

/-- A clean formula is calculated like the formula itself. -/
theorem settles_evaluate_clean {formula : String} {r : Run Float} :
    e.Settles (Program.evaluate (cleanFormula formula)) r ↔ e.Calculates formula r := by
  rw [settles_evaluate_iff, calculates_iff_settles, calculates_iff_settles, numericProgram,
    cleanFormula_cleanFormula]
  rfl

/-- Whatever number a formula has passes a test or not as told. A formula that has no number does
either. -/
def Tests (e : Engine) (formula : String) (test : Float → Bool) (truth : Bool) : Prop :=
  ∀ calls x, e.Calculates formula ⟨calls, .value x⟩ → test x = truth

/-- A formula that has a number is tested as the number is. -/
theorem Tests.of_value {formula : String} {calls : List ProviderCall} {x : Float}
    {test : Float → Bool} {truth : Bool} (h : e.Calculates formula ⟨calls, .value x⟩)
    (htest : test x = truth) : e.Tests formula test truth := by
  intro calls' y hy
  have hsame := hy.unique h
  simp only [Run.mk.injEq, Outcome.value.injEq] at hsame
  rw [hsame.2, htest]

/-- A formula that has an error passes every test as told. -/
theorem Tests.of_error {formula : String} {calls : List ProviderCall} {err : FormulaError}
    (h : e.Calculates formula ⟨calls, .error err⟩) (test : Float → Bool) (truth : Bool) :
    e.Tests formula test truth := by
  intro calls' y hy
  have hsame := hy.unique h
  simp at hsame

/-- What follows a condition matters only for the truth that the condition can have. -/
theorem settles_choice_congr {α : Type} (branch : String → Program α) {test : Float → Bool}
    {r : Run α} (hfirst : a = a' ∨ e.Tests c test false) (hsecond : b = b' ∨ e.Tests c test true) :
    e.Settles ((Program.evaluate (cleanFormula c)).bind fun x =>
        if test x then branch a else branch b) r ↔
      e.Settles ((Program.evaluate (cleanFormula c)).bind fun x =>
        if test x then branch a' else branch b') r := by
  refine settles_bind_congr (fun _ => Iff.rfl) fun calls x hx s => ?_
  have htests : ∀ {truth}, e.Tests c test truth → test x = truth := fun htest =>
    htest calls x (settles_evaluate_clean.mp hx)
  cases hx : test x with
  | true =>
    rcases hfirst with rfl | hfalse
    · rfl
    · exact absurd (htests hfalse) (by simp [hx])
  | false =>
    rcases hsecond with rfl | htrue
    · rfl
    · exact absurd (htests htrue) (by simp [hx])

/-- Nothing behind an argument that decides, or fails, is evaluated. -/
theorem settles_decides_congr {truth : Bool} {r : Run Bool} (hd : e.Tests d isTrue truth) :
    e.Settles (decides truth ((front ++ d :: back).map cleanFormula)) r ↔
      e.Settles (decides truth ((front ++ d :: back').map cleanFormula)) r := by
  induction front generalizing r with
  | nil =>
    refine settles_bind_congr (fun _ => Iff.rfl) fun calls x hx s => ?_
    have hdecided := hd calls x (settles_evaluate_clean.mp hx)
    rw [if_pos hdecided, if_pos hdecided]
  | cons formula front ih =>
    refine settles_bind_congr (fun _ => Iff.rfl) fun calls x hx s => ?_
    split
    · rfl
    · exact ih

-- ---------------------------------------------------------------------------
-- Calls
-- ---------------------------------------------------------------------------

section Choice

variable (hname : isName name = true) (hf : Builtin.ofName? name = some .conditional)
  (hF : IsCall name [c, a, b] F) (hF' : IsCall name [c, a', b'] F')

include hname hf hF hF'

/-- A choice between two numbers does not depend on the branch that is not taken. -/
theorem calculates_choice_congr (hfirst : a = a' ∨ e.Tests c isTrue false)
    (hsecond : b = b' ∨ e.Tests c isTrue true) (r : Run Float) :
    e.Calculates F r ↔ e.Calculates F' r := by
  obtain ⟨_, hprogram⟩ := numericProgram_call hname hf hF (by simp) e.context
  obtain ⟨_, hprogram'⟩ := numericProgram_call hname hf hF' (by simp) e.context
  simp only [List.map_cons, List.map_nil, number_conditional] at hprogram hprogram'
  rw [calculates_iff_settles, calculates_iff_settles, hprogram, hprogram']
  exact settles_choice_congr (fun branch => Program.evaluate (cleanFormula branch)) hfirst hsecond

/-- Nor does a choice between two texts, whose condition is tested differently. -/
theorem calculatesText_choice_congr
    (hfirst : a = a' ∨ e.Tests c (isAtLeast e.settings.decimalNumbers · 1.0) false)
    (hsecond : b = b' ∨ e.Tests c (isAtLeast e.settings.decimalNumbers · 1.0) true)
    (r : Run String) : e.CalculatesText F r ↔ e.CalculatesText F' r := by
  obtain ⟨_, hprogram⟩ := textProgram_call hname hf hF (by simp) e.context
  obtain ⟨_, hprogram'⟩ := textProgram_call hname hf hF' (by simp) e.context
  simp only [List.map_cons, List.map_nil, text_conditional] at hprogram hprogram'
  rw [calculatesText_iff_settles, calculatesText_iff_settles, hprogram, hprogram']
  exact settles_choice_congr (fun branch => Program.evaluateText (cleanFormula branch)) hfirst
    hsecond

end Choice

/-- A conjunction or disjunction does not depend on the arguments behind one that decides. -/
theorem calculates_decided_congr {f : Builtin} {truth : Bool} (known : (f, truth) ∈ deciders)
    (hname : isName name = true) (hf : Builtin.ofName? name = some f)
    (hF : IsCall name (front ++ d :: back) F) (hF' : IsCall name (front ++ d :: back') F')
    (hback : 2 ≤ (front ++ d :: back).length) (hback' : 2 ≤ (front ++ d :: back').length)
    (hd : e.Tests d isTrue truth) (r : Run Float) : e.Calculates F r ↔ e.Calculates F' r := by
  have hempty : ∀ {args : List String}, 2 ≤ args.length → args ≠ [""] := by
    rintro args hlength rfl
    simp at hlength
  obtain ⟨_, hprogram⟩ := numericProgram_call hname hf hF (hempty hback) e.context
  obtain ⟨_, hprogram'⟩ := numericProgram_call hname hf hF' (hempty hback') e.context
  obtain ⟨finish, hnumber⟩ := number_decider known
  rw [calculates_iff_settles, calculates_iff_settles, hprogram, hprogram',
    hnumber _ (by simpa using hback), hnumber _ (by simpa using hback')]
  exact settles_bind_congr (fun s => settles_decides_congr hd) fun _ _ _ _ => Iff.rfl

/-- Calls of one function, whose arguments differ only where they are not looked at, have the same
outcome with the same requests: choices in the branch that is not taken, in either channel, and
conjunctions and disjunctions behind an argument that decides or fails. -/
theorem calculates_untaken (e : Engine) {name F F' : String} (hname : isName name = true) :
    (Builtin.ofName? name = some .conditional →
      ∀ {c a b a' b' : String}, IsCall name [c, a, b] F → IsCall name [c, a', b'] F' →
        (a = a' ∨ e.Tests c isTrue false → b = b' ∨ e.Tests c isTrue true →
          ∀ r, e.Calculates F r ↔ e.Calculates F' r) ∧
        (a = a' ∨ e.Tests c (isAtLeast e.settings.decimalNumbers · 1.0) false →
          b = b' ∨ e.Tests c (isAtLeast e.settings.decimalNumbers · 1.0) true →
          ∀ r, e.CalculatesText F r ↔ e.CalculatesText F' r)) ∧
    ∀ {f : Builtin} {truth : Bool}, (f, truth) ∈ deciders → Builtin.ofName? name = some f →
      ∀ {front back back' : List String} {d : String}, IsCall name (front ++ d :: back) F →
        IsCall name (front ++ d :: back') F' → 2 ≤ (front ++ d :: back).length →
        2 ≤ (front ++ d :: back').length → e.Tests d isTrue truth →
        ∀ r, e.Calculates F r ↔ e.Calculates F' r :=
  ⟨fun hf _ _ _ _ _ hF hF' => ⟨calculates_choice_congr hname hf hF hF',
      calculatesText_choice_congr hname hf hF hF'⟩,
    fun known hf _ _ _ _ hF hF' hback hback' =>
      calculates_decided_congr known hname hf hF hF' hback hback'⟩

/-- An engine whose provider knows a number and raises an error for another name. -/
def alarmed : Engine :=
  { providers := [ProviderTable.provider
      { values := [("x", .number 2.0), ("boom", .raise "boom")] }] }

/-- A name for which an error is raised, and what is no formula, where neither is looked at: in the
branch that is not taken, behind a condition that fails, and behind an argument that decides. -/
theorem calculates_untaken_alarmed :
    alarmed.Calculates "if(x > 1, x, + * ')')" ⟨[⟨0, .value "x"⟩, ⟨0, .value "x"⟩], .value 2.0⟩ ∧
      alarmed.CalculatesText "if(x, 'a', + * ')')" ⟨[⟨0, .value "x"⟩], .value "a"⟩ ∧
      alarmed.Calculates "if(boom, ', ', + *)"
        ⟨[⟨0, .value "boom"⟩], .error (.raised "boom" "boom")⟩ ∧
      alarmed.Calculates "and(x, false)" ⟨[⟨0, .value "x"⟩], .value 0.0⟩ := by
  have hx : alarmed.Calculates "x" ⟨[⟨0, .value "x"⟩], .value 2.0⟩ :=
    ⟨2, by decide +kernel, by simp⟩
  have hgreater : alarmed.Calculates "x > 1" ⟨[⟨0, .value "x"⟩], .value 1.0⟩ :=
    ⟨2, by decide +kernel, by simp⟩
  have hboom : alarmed.Calculates "boom" ⟨[⟨0, .value "boom"⟩], .error (.raised "boom" "boom")⟩ :=
    ⟨2, by decide +kernel, by simp⟩
  have hfalse : alarmed.Calculates "false" ⟨[], .value 0.0⟩ := ⟨1, by decide +kernel, by simp⟩
  have hif : isName "if" = true ∧ Builtin.ofName? "if" = some .conditional := by decide +kernel
  have hand : isName "and" = true ∧ Builtin.ofName? "and" = some .conjunction := by decide +kernel
  have known : (.conjunction, false) ∈ deciders := by simp [deciders]
  refine ⟨?_, ?_, ?_, ?_⟩
  · have hcall : IsCall "if" ["x > 1", "x", "boom"] "if(x > 1, x, boom)" :=
      isCall_writtenCall (by decide +kernel)
    have hcall' : IsCall "if" ["x > 1", "x", "+ * ')'"] "if(x > 1, x, + * ')')" :=
      isCall_writtenCall (by decide +kernel)
    have htrue : alarmed.Tests "x > 1" isTrue true := .of_value hgreater (by decide +kernel)
    have hsame := ((calculates_untaken alarmed hif.1).1 hif.2 hcall hcall').1 (.inl rfl)
      (.inr htrue)
    exact (hsame _).mp ⟨2, by decide +kernel, by simp⟩
  · have hcall : IsCall "if" ["x", "'a'", "boom"] "if(x, 'a', boom)" :=
      isCall_writtenCall (by decide +kernel)
    have hcall' : IsCall "if" ["x", "'a'", "+ * ')'"] "if(x, 'a', + * ')')" :=
      isCall_writtenCall (by decide +kernel)
    have hsame := ((calculates_untaken alarmed hif.1).1 hif.2 hcall hcall').2 (.inl rfl)
      (.inr (.of_value hx (by decide +kernel)))
    exact (hsame _).mp ⟨2, by decide +kernel, by simp⟩
  · have hcall : IsCall "if" ["boom", "x", "x"] "if(boom, x, x)" :=
      isCall_writtenCall (by decide +kernel)
    have hcall' : IsCall "if" ["boom", "', '", "+ *"] "if(boom, ', ', + *)" :=
      isCall_writtenCall (by decide +kernel)
    have hfails := fun truth => Tests.of_error hboom isTrue truth
    have hsame := ((calculates_untaken alarmed hif.1).1 hif.2 hcall hcall').1
      (.inr (hfails false)) (.inr (hfails true))
    exact (hsame _).mp ⟨3, by decide +kernel, by simp⟩
  · have hcall : IsCall "and" (["x"] ++ "false" :: ["boom"]) "and(x, false, boom)" :=
      isCall_writtenCall (by decide +kernel)
    have hcall' : IsCall "and" (["x"] ++ "false" :: []) "and(x, false)" :=
      isCall_writtenCall (by decide +kernel)
    have hsame := (calculates_untaken alarmed hand.1).2 known hand.2 hcall hcall' (by decide)
      (by decide) (.of_value hfalse (by decide +kernel))
    exact (hsame _).mp ⟨2, by decide +kernel, by simp⟩

end Engine

end Formulae
