import Formulae.Provider

/-!
# Programs

Evaluating a formula or a call is a program: it may have other formulas evaluated and may ask
providers, and what it does next depends on the values and replies that it gets. A program says
what is needed and in which order, and nothing about how it is come by.

An error of a formula that a program has evaluated ends the program with that error, unless the
formula was only attempted. There is one more way to fail: a calculation may leave the range of its
numbers in a way that has no error, and nothing can catch that.

Main statement: programs are a lawful monad.
-/

namespace Formulae

/-- What is to be done for a value. -/
inductive Program (α : Type)
  | value (value : α)
  | error (error : FormulaError)
  /-- A number left the range that it can be computed in. -/
  | overflow
  /-- Has a numeric formula evaluated, and goes on with its value. -/
  | number (formula : String) (next : Float → Program α)
  /-- Has a text formula evaluated, and goes on with its value. -/
  | text (formula : String) (next : String → Program α)
  /-- Has a text formula evaluated, and goes on with its value or, if it fails, without one. -/
  | attempt (formula : String) (next : Option String → Program α)
  /-- Asks the providers, and goes on with the reply, if there is one. -/
  | ask (request : Request) (next : Option request.Reply → Program α)

namespace Program

variable {α β γ : Type}

/-- Goes on with the value of a program. -/
def bind : Program α → (α → Program β) → Program β
  | value a, f => f a
  | error e, _ => error e
  | overflow, _ => overflow
  | number formula next, f => number formula fun x => (next x).bind f
  | text formula next, f => text formula fun s => (next s).bind f
  | attempt formula next, f => attempt formula fun s => (next s).bind f
  | ask request next, f => ask request fun r => (next r).bind f

instance : Monad Program where
  pure := value
  bind := bind

/-! ## Steps -/

def evaluate (formula : String) : Program Float :=
  number formula value

def evaluateText (formula : String) : Program String :=
  text formula value

def attemptText (formula : String) : Program (Option String) :=
  attempt formula value

def request (r : Request) : Program (Option r.Reply) :=
  ask r value

/-- A value, or else an error. -/
def ofOption (a : Option α) (e : FormulaError) : Program α :=
  match a with
  | some a => value a
  | none => error e

/-! ## Laws -/

@[simp] theorem pure_eq (a : α) : (pure a : Program α) = value a := rfl

@[simp] theorem bind_eq (p : Program α) (f : α → Program β) : p >>= f = p.bind f := rfl

theorem bind_value (p : Program α) : p.bind value = p := by
  induction p with
  | value | error | overflow => rfl
  | number _ _ ih | text _ _ ih | attempt _ _ ih | ask _ _ ih => simp only [bind, ih]

theorem bind_bind (p : Program α) (f : α → Program β) (g : β → Program γ) :
    (p.bind f).bind g = p.bind fun a => (f a).bind g := by
  induction p with
  | value | error | overflow => rfl
  | number _ _ ih | text _ _ ih | attempt _ _ ih | ask _ _ ih => simp only [bind, ih]

instance : LawfulMonad Program := LawfulMonad.mk'
  Program (fun p => bind_value p) (fun _ _ => rfl) (fun p f g => bind_bind p f g)

end Program

end Formulae
