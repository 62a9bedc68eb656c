import Formulae.Evaluation.Call
import Formulae.Evaluation.Run

/-!
# Engines

An engine has settings, providers in the order of their registration, a clock, and a limit to how
deep providers may have formulas nested. Programs are run with its providers and a way to evaluate
formulas. A request goes to the providers one after the other until one of them does not decline,
and what a provider does about it is run in the same way.

Main statements: `ask_nil` and `ask_cons` give the order in which providers are asked, and
`run_bind` says that one program after another runs as one run after the other.
-/

namespace Formulae

/-- What formulas are evaluated with. -/
structure Engine where
  settings : Settings := {}
  providers : List Provider := []
  /-- The present moment. -/
  clock : Calendar.Instant := ⟨0⟩
  /-- How deep formulas may be nested beyond what the length of the outermost one accounts for. No
  evaluation in practice comes near the default. -/
  nestingLimit : Nat := 4294967296

/-- A way to evaluate formulas in both channels. -/
structure Nested where
  number : String → Run Float
  text : String → Run String

/-! ## Asking -/

/-- Follows a script; there is no reply if it declines. -/
def Script.run {α : Type} (nested : Nested) : Script α → Run (Option α)
  | decline => pure none
  | reply value => pure (some value)
  | raise error => Run.fail error
  | evaluate formula next => do
    let x ← nested.number formula
    (next x).run nested
  | evaluateText formula next => do
    let s ← nested.text formula
    (next s).run nested

/-- Asks providers, the first of which has an index, until one does not decline. -/
def ask (nested : Nested) (request : Request) : Nat → List Provider → Run (Option request.Reply)
  | _, [] => pure none
  | index, p :: ps => do
    Run.note ⟨index, request⟩
    match ← (p.script request).run nested with
    | some reply => pure (some reply)
    | none => ask nested request (index + 1) ps

/-- Nobody replies if nobody is asked. -/
theorem ask_nil (nested : Nested) (request : Request) (index : Nat) :
    ask nested request index [] = pure none := rfl

/-- The first provider is asked first, and the others only if it declines. -/
theorem ask_cons (nested : Nested) (request : Request) (index : Nat) (p : Provider)
    (ps : List Provider) :
    ask nested request index (p :: ps) = (do
      Run.note ⟨index, request⟩
      match ← (p.script request).run nested with
      | some reply => pure (some reply)
      | none => ask nested request (index + 1) ps) := rfl

/-! ## Running -/

namespace Program

variable {α β : Type}

/-- Runs a program with providers and a way to evaluate formulas. -/
def run (providers : List Provider) (nested : Nested) : Program α → Run α
  | value a => pure a
  | error e => Run.fail e
  | overflow => Run.overflow
  | number formula next => do
    let x ← nested.number formula
    (next x).run providers nested
  | text formula next => do
    let s ← nested.text formula
    (next s).run providers nested
  | attempt formula next => do
    let s ← (nested.text formula).attempt
    (next s).run providers nested
  | ask request next => do
    let reply ← Formulae.ask nested request 0 providers
    (next reply).run providers nested

/-- A program after another one runs as its run after the other's. -/
theorem run_bind (providers : List Provider) (nested : Nested) (p : Program α)
    (f : α → Program β) :
    (p.bind f).run providers nested =
      p.run providers nested >>= fun a => (f a).run providers nested := by
  induction p with
  | value a => simp [bind, run]
  | error | overflow => rfl
  | number _ _ ih | text _ _ ih | attempt _ _ ih | ask _ _ ih =>
    simp only [bind, run, ih, bind_assoc]

end Program

namespace Engine

/-- What an evaluation knows of an engine. -/
def context (e : Engine) : Context :=
  ⟨e.settings, e.clock, e.providers.isEmpty⟩

/-- The engine with one more provider, who is asked after the others. -/
def register (e : Engine) (p : Provider) : Engine :=
  { e with providers := e.providers ++ [p] }

def summary (e : Engine) : String :=
  "Engine \x7b settings: " ++ e.settings.summary ++ ", providers: " ++
    toString e.providers.length ++ " \x7d"

end Engine

end Formulae
