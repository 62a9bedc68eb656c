import Formulae.Proofs.Evaluation.Steps
import Formulae.Proofs.Evaluation.Containment

/-!
# Numbers of arguments

How many arguments a function takes stands in one table, and what it does with them is written
elsewhere, for each channel. The two fit together: a function that is called with a number of
arguments that it takes asks for those arguments only. So it never fails for want of one, and an
error of that kind comes from inside of an argument, or from a provider. A call with any other
number of arguments, or in a channel that the function has no value in, fails at once.

Main results:

* `Call.AsksBelow.keepsTo` — who asks for arguments that are there does not fail for want of one.
* `Program.KeepsTo.exists_of_error` — where the error of a run comes from.
* `Builtin.steps_asksBelow` — which arguments functions ask for.
* `Builtin.arity_covers_arguments` — the table covers what functions ask for.
-/

namespace Formulae

open Program

variable {α β : Type}

-- ---------------------------------------------------------------------------
-- Asking for arguments
-- ---------------------------------------------------------------------------

namespace Call

/-- The program asks for arguments of the call by indices below a bound only, and all that it has
evaluated are such arguments. It fails by itself for other reasons than the number of arguments. -/
inductive AsksBelow (c : Call) (bound : Nat) : Program α → Prop
  | value (a : α) : c.AsksBelow bound (.value a)
  | error {e : FormulaError} (other : e.kind ≠ .wrongParamCount) : c.AsksBelow bound (.error e)
  | overflow : c.AsksBelow bound .overflow
  | number {index : Nat} {next : Float → Program α} (below : index < bound)
      (rest : ∀ x, c.AsksBelow bound (next x)) : c.AsksBelow bound ((c.number index).bind next)
  | text {index : Nat} {next : String → Program α} (below : index < bound)
      (rest : ∀ s, c.AsksBelow bound (next s)) : c.AsksBelow bound ((c.text index).bind next)
  | attempt {index : Nat} {next : String → Option String → Program α} (below : index < bound)
      (rest : ∀ formula s, c.AsksBelow bound (next formula s)) :
      c.AsksBelow bound ((c.arg index).bind fun formula => .attempt formula (next formula))
  | ask {request : Request} {next : Option request.Reply → Program α}
      (rest : ∀ r, c.AsksBelow bound (next r)) : c.AsksBelow bound (.ask request next)

/-- An argument that is asked for is not there just if its index is not below their number. -/
theorem arg_eq_error_iff {c : Call} {index : Nat} :
    c.arg index = .error (c.error .wrongParamCount) ↔ c.args.length ≤ index := by
  rw [← List.getElem?_eq_none_iff, arg]
  cases c.args[index]? <;> simp [ofOption]

variable {c : Call} {bound index : Nat} {p : Program α}

/-- An index below the bound is one to ask for. -/
theorem asksBelow_number (below : index < bound) : c.AsksBelow bound (c.number index) := by
  rw [← bind_value (c.number index)]
  exact .number below .value

theorem asksBelow_text (below : index < bound) : c.AsksBelow bound (c.text index) := by
  rw [← bind_value (c.text index)]
  exact .text below .value

namespace AsksBelow

/-- Programs that go on from one to another stay below the bound if both do. -/
theorem bind {f : α → Program β} (hp : c.AsksBelow bound p) (hf : ∀ a, c.AsksBelow bound (f a)) :
    c.AsksBelow bound (p.bind f) := by
  induction hp with
  | value a => exact hf a
  | error other => exact .error other
  | overflow => exact .overflow
  | number below _ ih =>
    rw [bind_bind]
    exact .number below ih
  | text below _ ih =>
    rw [bind_bind]
    exact .text below ih
  | attempt below _ ih =>
    rw [bind_bind]
    exact .attempt below ih
  | ask _ ih => exact .ask ih

/-- Who asks for arguments that are there has them evaluated, and does not fail for want of one. -/
theorem keepsTo (h : c.AsksBelow bound p) (hbound : bound ≤ c.args.length) :
    p.KeepsTo (fun e => e.kind ≠ .wrongParamCount) (· ∈ c.args) := by
  have there {index : Nat} (below : index < bound) : ∃ arg ∈ c.args, c.args[index]? = some arg :=
    ⟨_, List.getElem_mem (below.trans_le hbound), List.getElem?_eq_getElem _⟩
  induction h with
  | value a => exact .value a
  | error other => exact .error other
  | overflow => exact .overflow
  | number below _ ih =>
    obtain ⟨arg, hmem, harg⟩ := there below
    rw [(number_of_arg harg).1]
    exact .number hmem ih
  | text below _ ih =>
    obtain ⟨arg, hmem, harg⟩ := there below
    rw [(number_of_arg harg).2]
    exact .text hmem ih
  | attempt below _ ih =>
    obtain ⟨arg, hmem, harg⟩ := there below
    rw [Call.arg, harg]
    exact .attempt hmem (ih arg)
  | ask _ ih => exact .ask ih

end AsksBelow

end Call

-- ---------------------------------------------------------------------------
-- Errors of runs
-- ---------------------------------------------------------------------------

/-- An error of a run that goes on after another one is one of either part. -/
theorem Run.exists_of_bind_error {r : Run α} {next : α → Run β} {e : FormulaError}
    (h : (r >>= next).outcome = .error e) :
    r.outcome = .error e ∨ ∃ a, (next a).outcome = .error e := by
  obtain ⟨calls, outcome⟩ := r
  cases outcome with
  | value a => exact .inr ⟨a, h⟩
  | error e' =>
    rw [Run.bind_error, Outcome.error.injEq] at h
    exact .inl (congrArg Outcome.error h)
  | overflow => exact absurd h (by simp)
  | unfinished => exact absurd h (by simp)

/-- An attempt does not end with an error. -/
theorem Run.attempt_ne_error (r : Run α) (e : FormulaError) : r.attempt.outcome ≠ .error e := by
  obtain ⟨calls, outcome⟩ := r
  cases outcome <;> simp [Run.attempt]

/-- An error of a run is one of the program's own, of a formula that it has evaluated, or of a
request that it puts to providers. -/
theorem Program.KeepsTo.exists_of_error {faults : FormulaError → Prop} {formulas : String → Prop}
    {p : Program α} (hp : p.KeepsTo faults formulas) {ps : List Provider} {n : Nested}
    {e : FormulaError} (h : (p.run ps n).outcome = .error e) :
    faults e ∨ (∃ formula, formulas formula ∧
      ((n.number formula).outcome = .error e ∨ (n.text formula).outcome = .error e)) ∨
      ∃ request, (Formulae.ask n request 0 ps).outcome = .error e := by
  induction hp with
  | value a => exact absurd h (by simp [run])
  | @error e' fault =>
    obtain rfl : e' = e := by simpa [run, Run.fail] using h
    exact .inl fault
  | overflow => exact absurd h (by simp [run, Run.overflow])
  | number handed _ ih =>
    rcases Run.exists_of_bind_error h with hfirst | ⟨x, hrest⟩
    · exact .inr (.inl ⟨_, handed, .inl hfirst⟩)
    · exact ih x hrest
  | text handed _ ih =>
    rcases Run.exists_of_bind_error h with hfirst | ⟨s, hrest⟩
    · exact .inr (.inl ⟨_, handed, .inr hfirst⟩)
    · exact ih s hrest
  | attempt _ _ ih =>
    rcases Run.exists_of_bind_error h with hfirst | ⟨s, hrest⟩
    · exact absurd hfirst (Run.attempt_ne_error _ e)
    · exact ih s hrest
  | ask _ ih =>
    rcases Run.exists_of_bind_error h with hfirst | ⟨reply, hrest⟩
    · exact .inr (.inr ⟨_, hfirst⟩)
    · exact ih reply hrest

-- ---------------------------------------------------------------------------
-- Functions
-- ---------------------------------------------------------------------------

namespace Builtin

open Call

variable {f : Builtin} {c : Call}

/-- With a number of arguments that it takes, the steps of a function ask for those only. -/
theorem steps_asksBelow (hcount : f.arity.admits c.args.length = true) :
    f.Steps c fun p => c.AsksBelow c.args.length p where
  value a := .value a
  bind := .bind
  number there := asksBelow_number (there hcount)
  text there := asksBelow_text (there hcount)
  error hkind _ := .error (ne_of_mem_of_not_mem hkind (by decide))
  request r identifier := by
    refine .ask fun reply => ?_
    cases reply with
    | none => exact .error (by simp [errorNaming])
    | some reply => exact .value reply
  overflow _ := .overflow
  raiseError raises := by
    subst raises
    have hfirst : 0 < c.args.length := by
      rw [Arity.admits_exactly.mp hcount]
      decide
    exact .attempt hfirst fun formula s => .error (by simp [errorNaming])

/-- The table covers what a function does with its call in a channel. -/
structure Covers (f : Builtin) (action : Option (Call → Program α)) (c : Call) (p : Program α) :
    Prop where
  /-- A number of arguments that the function takes is enough: it asks for arguments that are there,
  and an error for want of one is not its own. -/
  covered : ∀ act, action = some act → f.arity.admits c.args.length = true →
    p = act c ∧ c.AsksBelow c.args.length p ∧
      ∀ ps n e, (p.run ps n).outcome = .error e → e.kind = .wrongParamCount →
        (∃ arg ∈ c.args, (n.number arg).outcome = .error e ∨ (n.text arg).outcome = .error e) ∨
          ∃ request, (ask n request 0 ps).outcome = .error e
  /-- With another number of arguments the call fails at once, whoever there is to ask, and however
  an argument would be evaluated. -/
  miscounted : action ≠ none → f.arity.admits c.args.length = false →
    ∀ ps n, p.run ps n = ⟨[], .error (c.error .wrongParamCount)⟩
  /-- So does a call in a channel that the function has no value in. -/
  unknown : action = none → ∀ ps n, p.run ps n = ⟨[], .error (c.error .functionUnknown)⟩

/-- The table covers a function if it covers its steps. -/
theorem covers_checked {action : Option (Call → Program α)}
    (h : ∀ act, action = some act → f.arity.admits c.args.length = true →
      c.AsksBelow c.args.length (act c)) :
    f.Covers action c (f.checked action c) where
  covered act haction hcount := by
    subst haction
    have hact : f.checked (some act) c = act c := if_pos hcount
    have hasks := h act rfl hcount
    rw [hact]
    refine ⟨rfl, hasks, fun ps n e herror hkind => ?_⟩
    rcases (hasks.keepsTo (Nat.le_refl _)).exists_of_error herror with hown | hothers
    · exact absurd hkind hown
    · exact hothers
  miscounted haction hcount ps n := by
    obtain ⟨act, rfl⟩ := Option.ne_none_iff_exists'.mp haction
    have hrefused : f.checked (some act) c = .error (c.error .wrongParamCount) :=
      if_neg (by simp [hcount])
    rw [hrefused]
    rfl
  unknown haction ps n := by
    subst haction
    rfl

/-- The table of arities covers every function, in both channels: a call with a number of arguments
that the function takes asks for arguments that are there, and every other call fails at once. An
argument is missing just where an index is not below the number of arguments. -/
theorem arity_covers_arguments (f : Builtin) (c : Call) :
    f.Covers f.numeric? c (f.number c) ∧ f.Covers f.textual? c (f.text c) ∧
      ∀ index, c.arg index = .error (c.error .wrongParamCount) ↔ c.args.length ≤ index :=
  ⟨covers_checked fun _ hact hcount => (steps_asksBelow hcount).numeric? hact,
    covers_checked fun _ hact hcount => (steps_asksBelow hcount).textual? hact,
    fun _ => arg_eq_error_iff⟩

/-- A choice with an argument for each of its three, in both channels, and one with two; and a
function without a value in the numeric channel. -/
theorem arity_covers_arguments_choice :
    let c : Call := ⟨({} : Engine).context, "if", ["1", "'a'", "'b'"], "if(1, 'a', 'b')", 15⟩
    let short : Call := ⟨({} : Engine).context, "if", ["1", "'a'"], "if(1, 'a')", 10⟩
    c.AsksBelow 3 (conditional.number c) ∧ c.AsksBelow 3 (conditional.text c) ∧
      (∀ ps n, (conditional.text short).run ps n = ⟨[], .error (short.error .wrongParamCount)⟩) ∧
      ∀ ps n, (concatenate.number c).run ps n = ⟨[], .error (c.error .functionUnknown)⟩ := by
  intro c short
  obtain ⟨hnumber, htext, -⟩ := arity_covers_arguments conditional c
  exact ⟨(hnumber.covered _ rfl rfl).2.1, (htext.covered _ rfl rfl).2.1,
    (arity_covers_arguments conditional short).2.1.miscounted (by simp [textual?]) rfl,
    (arity_covers_arguments concatenate c).1.unknown rfl⟩

end Builtin

end Formulae
