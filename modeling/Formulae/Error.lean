/-!
# Evaluation errors

Everything that can go wrong with a formula is one of eight kinds. An error carries the formula that
was being evaluated, which for an argument is the argument's own text, and the number of characters
of it that had been read.
-/

namespace Formulae

inductive ErrorKind
  /-- A string literal without its closing quote. -/
  | invalidString
  /-- An unexpected token, an unbalanced parenthesis, or input after the end. -/
  | syntaxError
  /-- An unknown name, a call without its closing parenthesis, or a value a function cannot take. -/
  | functionError
  /-- A built-in function called with the wrong number of arguments. -/
  | wrongParamCount
  /-- A function that nothing can handle. -/
  | functionUnknown
  /-- A text that is no number or no date. -/
  | parseError
  /-- A user function that every provider declines. -/
  | externalFunctionError
  /-- Raised on purpose, by a formula or by a provider. -/
  | userException
deriving Repr, DecidableEq

namespace ErrorKind

def all : List ErrorKind :=
  [invalidString, syntaxError, functionError, wrongParamCount, functionUnknown, parseError,
    externalFunctionError, userException]

def code : ErrorKind → String
  | invalidString => "INVALID_STRING"
  | syntaxError => "SYNTAX_ERROR"
  | functionError => "FUNCTION_ERROR"
  | wrongParamCount => "WRONG_PARAM_COUNT"
  | functionUnknown => "FUNCTION_UNKNOWN"
  | parseError => "PARSE_ERROR"
  | externalFunctionError => "EXTERNAL_FUNCTION_ERROR"
  | userException => "USER_EXCEPTION"

def ofCode? (code : String) : Option ErrorKind :=
  all.find? fun kind => kind.code == code

def description : ErrorKind → String
  | invalidString => "Invalid string"
  | syntaxError => "Syntax error"
  | functionError => "Function error"
  | wrongParamCount => "Wrong parameters count"
  | functionUnknown => "Function unknown"
  | parseError => "Parse error"
  | externalFunctionError => "External function error"
  | userException => "User exception"

/-- No kind is missing from the list. -/
theorem mem_all (kind : ErrorKind) : kind ∈ all := by
  cases kind <;> decide

end ErrorKind

/-- An evaluation that failed. -/
structure FormulaError where
  kind : ErrorKind
  /-- The name or text at fault, or the message of a user exception. -/
  identifier : Option String
  /-- The formula that was being evaluated. -/
  formula : String
  /-- How many characters of the formula had been read. -/
  position : Nat
deriving Repr, DecidableEq

namespace FormulaError

/-- An error raised on purpose, outside of any formula. -/
def raised (message about : String) : FormulaError :=
  ⟨.userException, some message, about, 0⟩

/-- The text of an error. An empty identifier is not mentioned. -/
def message (e : FormulaError) : String :=
  let subject := match e.identifier with
    | some name => if name.isEmpty then "" else " while validating " ++ name
    | none => ""
  "Error " ++ e.kind.code ++ " (description: " ++ e.kind.description ++ ")" ++ subject ++
    " in formula [" ++ e.formula ++ "] before position " ++ toString e.position

end FormulaError

end Formulae
