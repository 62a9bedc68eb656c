import Formulae.Proofs.Grammar.Sequencing
import Formulae.Proofs.Evaluation.Cleaning
import Formulae.Proofs.Evaluation.Placement
import Formulae.Proofs.Evaluation.Registration

/-!
# Formulas one after the other

A formula that has a value, a semicolon, and any other formula are evaluated as one formula like the
two in turn: the requests of the first one come first, and then everything goes as it goes with the
second one alone, be it well-formed or not. Only the places of errors are others.

Main results:

* `Grammar.Sequencing.Behind.meaning` — what a tree behind another one means.
* `Engine.settles_behind` — how a program ends that does what two programs do in turn.
* `Engine.calculates_sequence` — how a formula after another one ends.
-/

namespace Formulae

open Grammar

variable {α β τ : Type}

-- ---------------------------------------------------------------------------
-- Trees
-- ---------------------------------------------------------------------------

namespace Grammar

/-- If trees one after the other mean what they mean in turn, then so does a tree that is behind
another one. -/
theorem Sequencing.Behind.meaning {S : Sequencing τ} (meaning : τ → Program α)
    (hjoin : ∀ first second,
      meaning (S.join first second) = (meaning first).bind fun _ => meaning second)
    {prior tree tree' : τ} (h : S.Behind prior tree tree') :
    meaning (S.unplaced tree') =
      (meaning (S.unplaced prior)).bind fun _ => meaning (S.unplaced tree) := by
  induction h with
  | first halike => rw [S.unplaced_join, hjoin, halike]
  | join _ halike ih =>
    rw [S.unplaced_join, S.unplaced_join, hjoin, hjoin, ih, halike, Program.bind_bind]

end Grammar

/-- What is to be done for a formula after one with a whole tree is, but for places, what is to be
done for both in turn. -/
theorem unplaced_numericProgram_sequence (x : Context) {f g : String} (hf : cleanFormula f = f)
    (hg : cleanFormula g = g) (hwhole : (NumericTree.ofFormula f).isWhole = true) :
    (numericProgram x (f ++ ";" ++ g)).unplaced =
      ((numericProgram x f).bind fun _ => numericProgram x g).unplaced := by
  have hboth : cleanFormula (f ++ ";" ++ g) = f ++ ";" ++ g :=
    cleanFormula_append (cleanFormula_append hf rfl) hg
  obtain ⟨prior, hprior, hbehind⟩ := NumericTree.ofFormula_behind g hwhole
  have hmeaning : (NumericTree.ofFormula (f ++ ";" ++ g)).unplaced.evaluate x "" = _ :=
    hbehind.meaning (NumericTree.evaluate x "") fun _ _ => rfl
  simp only [numericProgram, hf, hg, hboth, Program.unplaced_bind, NumericTree.unplaced_evaluate]
  rw [hmeaning, show NumericTree.sequencing.unplaced prior = _ from hprior]
  rfl

/-- What is to be done for a formula after one with a whole tree is, but for places, what is to be
done for both in turn. -/
theorem unplaced_textProgram_sequence (x : Context) {f g : String} (hf : cleanFormula f = f)
    (hg : cleanFormula g = g) (hwhole : (TextTree.ofFormula f).isWhole = true) :
    (textProgram x (f ++ ";" ++ g)).unplaced =
      ((textProgram x f).bind fun _ => textProgram x g).unplaced := by
  have hboth : cleanFormula (f ++ ";" ++ g) = f ++ ";" ++ g :=
    cleanFormula_append (cleanFormula_append hf rfl) hg
  obtain ⟨prior, hprior, hbehind⟩ := TextTree.ofFormula_behind g hwhole
  have hmeaning : (TextTree.ofFormula (f ++ ";" ++ g)).unplaced.evaluate x "" = _ :=
    hbehind.meaning (TextTree.evaluate x "") fun _ _ => rfl
  simp only [textProgram, hf, hg, hboth, Program.unplaced_bind, TextTree.unplaced_evaluate]
  rw [hmeaning, show TextTree.sequencing.unplaced prior = _ from hprior]
  rfl

-- ---------------------------------------------------------------------------
-- Programs
-- ---------------------------------------------------------------------------

/-- The run makes these requests and then those of the other one, and ends like it, but for the
formula and the place of an error. -/
structure Run.Succeeds (r : Run α) (cs : List ProviderCall) (s : Run α) : Prop where
  calls : r.calls = cs ++ s.calls
  outcome : r.outcome.unplaced = s.outcome.unplaced

/-- Only the formula and the place of an error differ. -/
theorem Run.Succeeds.error {r : Run α} {cs calls : List ProviderCall} {err : FormulaError}
    (h : r.Succeeds cs ⟨calls, .error err⟩) :
    ∃ err', r = ⟨cs ++ calls, .error err'⟩ ∧ err'.kind = err.kind ∧
      err'.identifier = err.identifier := by
  obtain ⟨rcalls, outcome⟩ := r
  obtain ⟨rfl, houtcome⟩ := h
  cases outcome with
  | error err' =>
    have hsame : err'.unplaced = err.unplaced := Outcome.error.inj houtcome
    have hkind : err'.unplaced.kind = err.unplaced.kind := by rw [hsame]
    have hidentifier : err'.unplaced.identifier = err.unplaced.identifier := by rw [hsame]
    exact ⟨err', rfl, hkind, hidentifier⟩
  | value | overflow | unfinished => simp [Outcome.unplaced] at houtcome

namespace Engine

variable {e : Engine} {p : Program α} {q : Program β} {both : Program β} {a : α}
  {cs : List ProviderCall}

/-- A program that does the same but for places settles alike but for places. -/
theorem Settles.unplaced_congr {p p' : Program α} (hsame : p.unplaced = p'.unplaced) {r : Run α}
    (h : e.Settles p r) : ∃ s, e.Settles p' s ∧ s.unplaced = r.unplaced := by
  obtain ⟨depth, hrun, hr⟩ := h
  have hrun' : (p'.run e.providers (e.nested depth)).unplaced = r.unplaced := by
    rw [← hrun, ← Program.unplaced_run, ← hsame, Program.unplaced_run]
  refine ⟨_, ⟨depth, rfl, fun hu => hr ?_⟩, hrun'⟩
  have houtcome := congrArg Run.outcome hrun'
  rw [Run.unplaced, hu] at houtcome
  obtain ⟨calls, outcome⟩ := r
  cases outcome with
  | unfinished => rfl
  | value | error | overflow => simp [Run.unplaced, Outcome.unplaced] at houtcome

/-- Behind a program with a value another one settles as it does alone. -/
theorem Settles.bind_iff (hp : e.Settles p ⟨cs, .value a⟩) {r : Run β} :
    e.Settles (p.bind fun _ => q) r ↔
      ∃ s, e.Settles q s ∧ r = ⟨cs ++ s.calls, s.outcome⟩ := by
  constructor
  · intro h
    rcases settles_bind_iff.mp h with ⟨calls, b, s, hp', hq, rfl⟩ | ⟨_, _, hp', -⟩ | ⟨_, hp', -⟩
    · obtain ⟨rfl, -⟩ := Run.mk.inj (hp.unique hp')
      exact ⟨s, hq, rfl⟩
    · exact absurd (hp.unique hp') (by simp)
    · exact absurd (hp.unique hp') (by simp)
  · rintro ⟨s, hq, rfl⟩
    exact hp.bind hq

/-- A program that does, but for places, what two programs do in turn, settles as the second one
does where the first one has a value. -/
theorem settles_behind (hboth : both.unplaced = (p.bind fun _ => q).unplaced)
    (hp : e.Settles p ⟨cs, .value a⟩) :
    (∀ s, e.Settles q s → ∃ r, e.Settles both r ∧ r.Succeeds cs s) ∧
      ∀ r, e.Settles both r → ∃ s, e.Settles q s ∧ r.Succeeds cs s := by
  constructor
  · intro s hq
    obtain ⟨r, hr, hsame⟩ := (hp.bind hq).unplaced_congr hboth.symm
    obtain ⟨hcalls, houtcome⟩ := Run.mk.inj hsame
    exact ⟨r, hr, hcalls, houtcome⟩
  · intro r hr
    obtain ⟨_, hbind, hsame⟩ := hr.unplaced_congr hboth
    obtain ⟨s, hq, rfl⟩ := hp.bind_iff.mp hbind
    obtain ⟨hcalls, houtcome⟩ := Run.mk.inj hsame
    exact ⟨s, hq, hcalls.symm, houtcome.symm⟩

-- ---------------------------------------------------------------------------
-- Formulas
-- ---------------------------------------------------------------------------

/-- Behind a formula that has a value and a semicolon any formula is calculated as it is alone,
after the requests of the first one: both end if it ends, and with the same value, or with an error
of the same kind about the same name. -/
theorem calculates_sequence (e : Engine) {f g : String} (hf : cleanFormula f = f)
    (hg : cleanFormula g = g) (cs : List ProviderCall) :
    (∀ x, e.Calculates f ⟨cs, .value x⟩ →
      (∀ s, e.Calculates g s → ∃ r, e.Calculates (f ++ ";" ++ g) r ∧ r.Succeeds cs s) ∧
        ∀ r, e.Calculates (f ++ ";" ++ g) r → ∃ s, e.Calculates g s ∧ r.Succeeds cs s) ∧
    (∀ t, e.CalculatesText f ⟨cs, .value t⟩ →
      (∀ s, e.CalculatesText g s → ∃ r, e.CalculatesText (f ++ ";" ++ g) r ∧ r.Succeeds cs s) ∧
        ∀ r, e.CalculatesText (f ++ ";" ++ g) r →
          ∃ s, e.CalculatesText g s ∧ r.Succeeds cs s) := by
  simp only [calculates_iff_settles, calculatesText_iff_settles]
  refine ⟨fun x hvalue => ?_, fun t hvalue => ?_⟩
  · have hwhole : (NumericTree.ofFormula f).isWhole = true := by
      rw [numericProgram, hf] at hvalue
      exact isWhole_of_settles hvalue
    exact settles_behind (unplaced_numericProgram_sequence _ hf hg hwhole) hvalue
  · have hwhole : (TextTree.ofFormula f).isWhole = true := by
      rw [textProgram, hf] at hvalue
      exact isWhole_of_settlesText hvalue
    exact settles_behind (unplaced_textProgram_sequence _ hf hg hwhole) hvalue

/-- Behind a number and behind a text comes a formula that goes wrong after some requests. -/
theorem calculates_sequence_acquainted :
    (∃ err, acquainted.Calculates ("x; 7" ++ ";" ++ "x * 'b")
      ⟨[⟨0, .value "x"⟩, ⟨1, .value "x"⟩] ++ [⟨0, .value "x"⟩, ⟨1, .value "x"⟩], .error err⟩ ∧
        err.kind = .invalidString) ∧
    ∃ err, acquainted.CalculatesText ("s;" ++ ";" ++ "nobody('b', t) + (")
      ⟨[⟨0, .textValue "s"⟩, ⟨1, .textValue "s"⟩] ++
        [⟨0, .textFunction "nobody" ["'b'", "t"]⟩, ⟨1, .textFunction "nobody" ["'b'", "t"]⟩],
        .error err⟩ ∧ err.kind = .externalFunctionError ∧ err.identifier = some "nobody" := by
  have hnumber : acquainted.Calculates "x; 7" ⟨[⟨0, .value "x"⟩, ⟨1, .value "x"⟩], .value 7.0⟩ :=
    ⟨3, by decide +kernel, by simp⟩
  have hfails : acquainted.Calculates "x * 'b" ⟨[⟨0, .value "x"⟩, ⟨1, .value "x"⟩],
      .error ⟨.invalidString, none, "x * 'b", 6⟩⟩ :=
    ⟨3, by decide +kernel, by simp⟩
  have htext : acquainted.CalculatesText "s;"
      ⟨[⟨0, .textValue "s"⟩, ⟨1, .textValue "s"⟩], .value ""⟩ :=
    ⟨3, by decide +kernel, by simp⟩
  have hdeclined : acquainted.CalculatesText "nobody('b', t) + ("
      ⟨[⟨0, .textFunction "nobody" ["'b'", "t"]⟩, ⟨1, .textFunction "nobody" ["'b'", "t"]⟩],
      .error ⟨.externalFunctionError, some "nobody", "nobody('b', t) + (", 14⟩⟩ :=
    ⟨3, by decide +kernel, by simp⟩
  constructor
  · obtain ⟨r, hr, hsucceeds⟩ := ((calculates_sequence acquainted rfl rfl _).1 _ hnumber).1 _ hfails
    obtain ⟨err, rfl, hkind, -⟩ := hsucceeds.error
    exact ⟨err, hr, hkind⟩
  · obtain ⟨r, hr, hsucceeds⟩ :=
      ((calculates_sequence acquainted rfl rfl _).2 _ htext).1 _ hdeclined
    obtain ⟨err, rfl, hkind, hidentifier⟩ := hsucceeds.error
    exact ⟨err, hr, hkind, hidentifier⟩

end Engine

end Formulae
