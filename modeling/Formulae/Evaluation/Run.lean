import Formulae.Provider

/-!
# Runs

A run is what happened when something was evaluated: the requests that were put to providers, in
order, each noted before it was replied to, and the outcome.

Besides a value and an error there are two more outcomes: a number left the range that it can be
computed in, or formulas that have one another evaluated, which only providers can make them do
without end, were nested deeper than was allowed.

Main statements: runs are a lawful monad, `calls_bind_of_value` says which requests are made by a
run that goes on after a value, and `Within.bind` says that a run with more room goes on as the one
with less, where that one came to an end.
-/

namespace Formulae

/-- How an evaluation ends. -/
inductive Outcome (α : Type)
  | value (value : α)
  | error (error : FormulaError)
  /-- A number left the range that it can be computed in. -/
  | overflow
  /-- Formulas were nested deeper than allowed. -/
  | unfinished
deriving DecidableEq

/-- A request to the provider with an index in the order of registration. -/
structure ProviderCall where
  provider : Nat
  request : Request
deriving Repr, DecidableEq

/-- What happened in an evaluation. -/
structure Run (α : Type) where
  calls : List ProviderCall
  outcome : Outcome α
deriving DecidableEq

namespace Run

variable {α β γ : Type}

def pure (value : α) : Run α := ⟨[], .value value⟩

def fail (error : FormulaError) : Run α := ⟨[], .error error⟩

def overflow : Run α := ⟨[], .overflow⟩

def unfinished : Run α := ⟨[], .unfinished⟩

/-- Notes a request. -/
def note (call : ProviderCall) : Run Unit := ⟨[call], .value ()⟩

def bind (r : Run α) (next : α → Run β) : Run β :=
  match r.outcome with
  | .value a => ⟨r.calls ++ (next a).calls, (next a).outcome⟩
  | .error e => ⟨r.calls, .error e⟩
  | .overflow => ⟨r.calls, .overflow⟩
  | .unfinished => ⟨r.calls, .unfinished⟩

instance : Monad Run where
  pure := pure
  bind := bind

/-- Turns an error into the absence of a value. -/
def attempt (r : Run α) : Run (Option α) :=
  match r.outcome with
  | .value a => ⟨r.calls, .value (some a)⟩
  | .error _ => ⟨r.calls, .value none⟩
  | .overflow => ⟨r.calls, .overflow⟩
  | .unfinished => ⟨r.calls, .unfinished⟩

/-! ## Laws -/

@[simp] theorem pure_eq (a : α) : (Pure.pure a : Run α) = ⟨[], .value a⟩ := rfl

@[simp] theorem bind_value (calls : List ProviderCall) (a : α) (next : α → Run β) :
    ((⟨calls, .value a⟩ : Run α) >>= next) =
      ⟨calls ++ (next a).calls, (next a).outcome⟩ := rfl

@[simp] theorem bind_error (calls : List ProviderCall) (e : FormulaError) (next : α → Run β) :
    ((⟨calls, .error e⟩ : Run α) >>= next) = ⟨calls, .error e⟩ := rfl

@[simp] theorem bind_overflow (calls : List ProviderCall) (next : α → Run β) :
    ((⟨calls, .overflow⟩ : Run α) >>= next) = ⟨calls, .overflow⟩ := rfl

@[simp] theorem bind_unfinished (calls : List ProviderCall) (next : α → Run β) :
    ((⟨calls, .unfinished⟩ : Run α) >>= next) = ⟨calls, .unfinished⟩ := rfl

/-- A run that goes on after another one has a value only if both parts have. -/
theorem bind_eq_value {r : Run α} {next : α → Run β} {calls : List ProviderCall} {b : β}
    (h : r >>= next = ⟨calls, .value b⟩) :
    ∃ before a after, r = ⟨before, .value a⟩ ∧ next a = ⟨after, .value b⟩ ∧
      calls = before ++ after := by
  obtain ⟨before, outcome⟩ := r
  cases outcome with
  | value a =>
    rw [bind_value] at h
    obtain ⟨hcalls, houtcome⟩ := Run.mk.inj h
    exact ⟨before, a, (next a).calls, rfl, by rw [← houtcome], hcalls.symm⟩
  | error e => simp at h
  | overflow => simp at h
  | unfinished => simp at h

theorem bind_bind (r : Run α) (f : α → Run β) (g : β → Run γ) :
    (r.bind f).bind g = r.bind fun a => (f a).bind g := by
  obtain ⟨calls, outcome⟩ := r
  cases outcome with
  | value a => simp only [bind]; cases (f a).outcome <;> simp
  | error | overflow | unfinished => rfl

instance : LawfulMonad Run := LawfulMonad.mk' Run
  (by
    intro α r
    obtain ⟨calls, outcome⟩ := r
    cases outcome <;> simp [Functor.map, bind, pure])
  (by intros; rfl)
  (by intro α β γ r f g; exact bind_bind r f g)

/-! ## More room -/

/-- The second run is the first one, unless the first one was nested too deep. -/
def Within (r s : Run α) : Prop :=
  r.outcome ≠ .unfinished → r = s

namespace Within

theorem refl (r : Run α) : r.Within r := fun _ => rfl

/-- Nothing is said of a run that was nested too deep. -/
theorem of_unfinished (s : Run α) : (unfinished : Run α).Within s := fun h => absurd rfl h

/-- Runs that go on alike stay alike. -/
theorem bind {r s : Run α} {f g : α → Run β} (h : r.Within s) (k : ∀ a, (f a).Within (g a)) :
    (r >>= f).Within (s >>= g) := by
  intro hr
  obtain ⟨calls, outcome⟩ := r
  cases outcome with
  | value a =>
    obtain rfl := h (by simp)
    have hfg : f a = g a := k a (by simpa using hr)
    simp [hfg]
  | error e =>
    obtain rfl := h (by simp)
    rfl
  | overflow =>
    obtain rfl := h (by simp)
    rfl
  | unfinished => exact absurd rfl hr

theorem attempt {r s : Run α} (h : r.Within s) : r.attempt.Within s.attempt := by
  intro hr
  have hr' : r.outcome ≠ .unfinished := by
    intro hu
    exact hr (by simp [Run.attempt, hu])
  rw [h hr']

end Within

end Run

end Formulae
