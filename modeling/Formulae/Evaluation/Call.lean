import Formulae.Calendar.Instant
import Formulae.Evaluation.Program

/-!
# Settings and calls

What can be set before a formula is evaluated is how many decimal places comparisons respect, and the
zone in which dates are read. The zone is given as a distance from UTC in seconds; a distance of a
day or more is no zone, and UTC is used instead.

A built-in function gets its call: the name as written, the texts of its arguments, the place to
blame, and what there is to know about the engine. What it does is a program, which evaluates an
argument when it needs it, as a formula of its own, in the channel that it needs; an argument that
it does not need is never looked at.

Main statement: `number_of_arg`, an argument that is there is evaluated as a formula.
-/

namespace Formulae

/-! ## Settings -/

/-- The settings of an engine. -/
structure Settings where
  decimalNumbers : UInt32 := 5
  utcOffset : Int := 0
deriving Repr, DecidableEq

namespace Settings

def zone (s : Settings) : Calendar.Zone :=
  .ofSeconds s.utcOffset

def ofZone (zone : Calendar.Zone) : Settings :=
  { utcOffset := zone.offset }

def summary (s : Settings) : String :=
  "EngineSettings \x7b decimal_numbers: " ++ toString s.decimalNumbers.toNat ++
    ", utc_offset_seconds: " ++ toString s.utcOffset ++ " \x7d"

end Settings

/-! ## Calls -/

/-- What an evaluation knows of the engine. -/
structure Context where
  settings : Settings
  /-- The present moment. -/
  clock : Calendar.Instant
  /-- Whether there is no provider to ask. -/
  isAlone : Bool

/-- A call that is being evaluated. -/
structure Call where
  context : Context
  /-- The name as written. -/
  name : String
  args : List String
  /-- The formula with the call. -/
  formula : String
  /-- The number of characters of the formula up to behind the call. -/
  position : Nat

namespace Call

/-- An error of the call that names something. -/
def errorNaming (c : Call) (kind : ErrorKind) (identifier : String) : FormulaError :=
  ⟨kind, some identifier, c.formula, c.position⟩

/-- An error of the call that names the function. -/
def error (c : Call) (kind : ErrorKind) : FormulaError :=
  c.errorNaming kind c.name

def arg (c : Call) (index : Nat) : Program String :=
  Program.ofOption c.args[index]? (c.error .wrongParamCount)

/-- The number of an argument. -/
def number (c : Call) (index : Nat) : Program Float := do
  Program.evaluate (← c.arg index)

/-- The text that an argument evaluates to. -/
def text (c : Call) (index : Nat) : Program String := do
  Program.evaluateText (← c.arg index)

/-- An argument that is there is evaluated as a formula. -/
theorem number_of_arg {c : Call} {index : Nat} {formula : String}
    (h : c.args[index]? = some formula) :
    c.number index = Program.evaluate formula ∧ c.text index = Program.evaluateText formula := by
  simp [number, text, arg, h, Program.ofOption, Program.bind]

def places (c : Call) : UInt32 :=
  c.context.settings.decimalNumbers

def zone (c : Call) : Calendar.Zone :=
  c.context.settings.zone

/-- A value, or else an error of the call that names the function. -/
def orFail {α : Type} (c : Call) (value : Option α) : Program α :=
  Program.ofOption value (c.error .functionError)

end Call

end Formulae
