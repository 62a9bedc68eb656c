import Formulae.Range
import Formulae.Error

/-!
# Providers

A provider answers what the language itself does not know: names, user functions and ranges. What it
can be asked is a `Request`, and every request has a type of replies. A provider has no memory. Its
answer to a request is a script: it declines, replies, raises an error, or has a formula evaluated
first and goes on with the value. A script cannot see an error of such a formula; the error is the
error of the request.

`ProviderTable` is the provider that is made of lists of entries, of which the first that fits a
request decides.
-/

namespace Formulae

/-! ## Requests and scripts -/

/-- What a provider can be asked. -/
inductive Request
  | value (name : String)
  | textValue (name : String)
  | range (keyword : RangeKeyword) (inner : String) (channel : Channel)
  | numericFunction (name : String) (args : List String)
  | textFunction (name : String) (args : List String)
deriving Repr, DecidableEq

/-- What a reply to a request is. -/
@[reducible] def Request.Reply : Request → Type
  | value _ => Float
  | textValue _ => String
  | range _ _ _ => List RangeValue
  | numericFunction _ _ => Float
  | textFunction _ _ => String

/-- What a provider does about a request. -/
inductive Script (α : Type)
  /-- The request is not for this provider. -/
  | decline
  | reply (value : α)
  | raise (error : FormulaError)
  /-- Has a numeric formula evaluated, and goes on with its value. -/
  | evaluate (formula : String) (next : Float → Script α)
  /-- Has a text formula evaluated, and goes on with its value. -/
  | evaluateText (formula : String) (next : String → Script α)

/-- Somebody who can be asked. -/
structure Provider where
  /-- What the provider does about a request. -/
  script : (r : Request) → Script r.Reply

namespace Provider

/-- The provider that declines every request. -/
def silent : Provider := ⟨fun _ => .decline⟩

end Provider

/-! ## Tables -/

/-- How a table answers with a number. -/
inductive NumberRule
  | number (value : Float)
  /-- The value of a formula. -/
  | formula (formula : String)
  | raise (message : String)

/-- How a table answers with a text. -/
inductive TextRule
  | text (value : String)
  /-- The value of a formula. -/
  | formula (formula : String)
  | raise (message : String)

/-- How a table answers with the values of a range. -/
inductive RangeRule
  | values (values : List RangeValue)
  | raise (message : String)

/-- How a table answers a call of a numeric function. -/
inductive NumericFunctionRule
  | rule (rule : NumberRule)
  /-- A multiple of the sum of the arguments' values. -/
  | scale (factor : Float)

/-- How a table answers a call of a text function. -/
inductive TextFunctionRule
  | rule (rule : TextRule)
  /-- The arguments as they are, with a separator between them. -/
  | joinRaw (separator : String)
  /-- The arguments' values, with a separator between them. -/
  | joinEvaluated (separator : String)

/-- The rule of a function, for calls with `arity` arguments or, without it, for all calls. -/
structure FunctionEntry (ρ : Type) where
  name : String
  arity : Option Nat
  rule : ρ

/-- A provider as lists of what it knows. -/
structure ProviderTable where
  values : List (String × NumberRule) := []
  textValues : List (String × TextRule) := []
  ranges : List (RangeKeyword × String × RangeRule) := []
  numericFunctions : List (FunctionEntry NumericFunctionRule) := []
  textFunctions : List (FunctionEntry TextFunctionRule) := []

/-- Whether an entry is for a call with these arguments. -/
def FunctionEntry.fits {ρ : Type} (e : FunctionEntry ρ) (name : String) (args : List String) :
    Bool :=
  e.name == name && e.arity.all (args.length == ·)

namespace Script

/-- Answers with the sum of the values of formulas, added from left to right to `total`, times a
factor. -/
def scaledSum (factor total : Float) : List String → Script Float
  | [] => .reply (factor * total)
  | formula :: formulas => .evaluate formula fun x => scaledSum factor (total + x) formulas

/-- Answers with the values of text formulas, evaluated from left to right after `done`. -/
def joinedTexts (separator : String) (done : List String) : List String → Script String
  | [] => .reply (separator.intercalate done)
  | formula :: formulas =>
    .evaluateText formula fun s => joinedTexts separator (done ++ [s]) formulas

/-- The script of the first entry that there is. -/
def ofEntry {α ρ : Type} (entry : Option ρ) (script : ρ → Script α) : Script α :=
  match entry with
  | some rule => script rule
  | none => .decline

end Script

/-- Answers by a rule about something. -/
def NumberRule.script (about : String) : NumberRule → Script Float
  | number value => .reply value
  | formula f => .evaluate f .reply
  | raise message => .raise (.raised message about)

def TextRule.script (about : String) : TextRule → Script String
  | text value => .reply value
  | formula f => .evaluateText f .reply
  | raise message => .raise (.raised message about)

def RangeRule.script (about : String) : RangeRule → Script (List RangeValue)
  | values vs => .reply vs
  | raise message => .raise (.raised message about)

/-- Answers a call by a rule. -/
def NumericFunctionRule.script (name : String) (args : List String) :
    NumericFunctionRule → Script Float
  | rule r => r.script name
  | scale factor => .scaledSum factor 0.0 args

def TextFunctionRule.script (name : String) (args : List String) :
    TextFunctionRule → Script String
  | rule r => r.script name
  | joinRaw separator => .reply (separator.intercalate args)
  | joinEvaluated separator => .joinedTexts separator [] args

namespace ProviderTable

/-- What a table does about a request. -/
def script (t : ProviderTable) : (r : Request) → Script r.Reply
  | .value name => .ofEntry (t.values.lookup name) (·.script name)
  | .textValue name => .ofEntry (t.textValues.lookup name) (·.script name)
  | .range keyword inner _ =>
    .ofEntry (t.ranges.find? fun e => e.1 == keyword && e.2.1 == inner) (·.2.2.script inner)
  | .numericFunction name args =>
    .ofEntry (t.numericFunctions.find? (·.fits name args)) (·.rule.script name args)
  | .textFunction name args =>
    .ofEntry (t.textFunctions.find? (·.fits name args)) (·.rule.script name args)

def provider (t : ProviderTable) : Provider := ⟨t.script⟩

end ProviderTable

end Formulae
