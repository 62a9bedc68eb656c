import Formulae.Function.Builtin
import Formulae.Function.Named
import Formulae.Grammar.Outline

/-!
# Numeric formulas

The grammar of formulas that have a number, from loosest to tightest:

    sequence       := bitwise (';' bitwise)*
    bitwise        := comparison (('|' | '^' | '&') comparison)*
    comparison     := additive (('<' | '<=' | '==' | '<>' | '>=' | '>') additive)*
    additive       := multiplicative (('+' | '-') multiplicative)*
    multiplicative := unary (('*' | '/' | '%' | '%%') unary)*
    unary          := ('!' | '~' | '+' | '-') unary | power
    power          := term ('**' term)?
    term           := number | '(' sequence ')' | name | call | function '(' bitwise ')'

Every formula has a tree. Where the items cannot go on the tree has a `failure`, and since a tree is
evaluated from left to right, all that stands before the failure is evaluated first: an unknown name
on the left is found before a missing parenthesis on the right.
-/

namespace Formulae.Grammar

/-! ## Trees -/

inductive BinaryOperation
  | or
  | xor
  | and
  | less
  | atMost
  | equal
  | different
  | atLeast
  | greater
  | add
  | subtract
  | multiply
  | divide
  | modulo
  | percent
  | power
deriving Repr, DecidableEq

inductive PrefixOperation
  | not
  | invert
  | plus
  | minus
deriving Repr, DecidableEq

inductive NumericTree
  | number (value : Float)
  /-- A name; it is blamed at `position`. -/
  | value (name : String) (position : Nat)
  /-- A call with the texts of its arguments; `position` is behind it. -/
  | call (name : String) (args : List String) (position : Nat)
  | apply (f : MathFunction) (operand : NumericTree)
  | prefixed (op : PrefixOperation) (operand : NumericTree)
  | binary (op : BinaryOperation) (left right : NumericTree)
  /-- The second formula, after the first one has been evaluated. -/
  | sequence (first second : NumericTree)
  /-- The formula cannot be read from here on. -/
  | failure (complaint : Complaint)

/-! ## Operators -/

/-- The levels of operators that are chained from left to right, from loosest to tightest. -/
inductive Level
  | sequence
  | bitwise
  | comparison
  | additive
  | multiplicative
deriving Repr, DecidableEq

namespace Level

/-- The next tighter level of chains. -/
def tighter? : Level → Option Level
  | sequence => some bitwise
  | bitwise => some comparison
  | comparison => some additive
  | additive => some multiplicative
  | multiplicative => none

/-- How many levels of chains are tighter. -/
def depth : Level → Nat
  | sequence => 4
  | bitwise => 3
  | comparison => 2
  | additive => 1
  | multiplicative => 0

theorem depth_tighter {level next : Level} (h : level.tighter? = some next) :
    next.depth < level.depth := by
  cases level <;> simp_all [tighter?] <;> subst h <;> decide

end Level

/-- The operation of an operator that is chained at a level. -/
def Operator.chained? : Level → Operator → Option BinaryOperation
  | .bitwise, .or => some .or
  | .bitwise, .xor => some .xor
  | .bitwise, .and => some .and
  | .comparison, .less => some .less
  | .comparison, .atMost => some .atMost
  | .comparison, .equal => some .equal
  | .comparison, .different => some .different
  | .comparison, .atLeast => some .atLeast
  | .comparison, .greater => some .greater
  | .additive, .add => some .add
  | .additive, .subtract => some .subtract
  | .multiplicative, .multiply => some .multiply
  | .multiplicative, .divide => some .divide
  | .multiplicative, .modulo => some .modulo
  | .multiplicative, .percent => some .percent
  | _, _ => none

/-- How a symbol joins two trees at a level. -/
def Symbol.joiner? (level : Level) : Symbol → Option (NumericTree → NumericTree → NumericTree)
  | .token .semicolon => if level = .sequence then some .sequence else none
  | .token (.operator op) => (op.chained? level).map .binary
  | _ => none

/-- The operation of an operator before its operand. -/
def Operator.prefix? : Operator → Option PrefixOperation
  | .not => some .not
  | .invert => some .invert
  | .add => some .plus
  | .subtract => some .minus
  | _ => none

/-- The operation of a symbol before its operand. -/
def Symbol.prefix? : Symbol → Option PrefixOperation
  | .token (.operator op) => op.prefix?
  | _ => none

def Symbol.isPower : Symbol → Bool
  | .token (.operator .power) => true
  | _ => false

/-- Whether a call of this name keeps its operand in the numeric formula. -/
def keepsOperand (name : String) : Bool :=
  (Builtin.ofName? name).isNone && (MathFunction.ofName? name).isSome

/-! ## Parsing -/

namespace NumericTree

/-- A tree and a failure after it. -/
def thenFail (tree : NumericTree) (c : Complaint) : NumericTree :=
  .sequence tree (.failure c)

/-- A name that stands for a number. It is blamed at the look-ahead behind it, which is read
first. -/
def named (ending : Ending) (name : String) (rest : List Item) {bound : Nat}
    (fits : rest.length ≤ bound) : Parsed NumericTree bound :=
  if ending.isOpenLiteral rest then .stuck (.failure (ending.noOperand rest))
  else .done (.value name (ending.lookAhead rest)) rest fits

mutual

/-- A chain of operands of a level. -/
def chain (ending : Ending) (level : Level) (items : List Item) :
    Parsed NumericTree items.length :=
  match operand ending level items with
  | .stuck left => .stuck left
  | .done left rest fits => (chainRest ending level left rest).widen fits
termination_by 32 * items.length + (3 * level.depth + 7)

/-- The rest of a chain behind its first operands. -/
def chainRest (ending : Ending) (level : Level) (left : NumericTree) (items : List Item) :
    Parsed NumericTree items.length :=
  match items with
  | [] => .done left [] (Nat.le_refl _)
  | item :: rest =>
    match item.symbol.joiner? level with
    | none => .done left (item :: rest) (Nat.le_refl _)
    | some join =>
      match operand ending level rest with
      | .stuck right => .stuck (join left right)
      | .done right more fits =>
        (chainRest ending level (join left right) more).widen (Nat.le_trans fits (Nat.le_succ _))
termination_by 32 * items.length + (3 * level.depth + 6)

/-- An operand of a level: a chain of the next tighter one. -/
def operand (ending : Ending) (level : Level) (items : List Item) :
    Parsed NumericTree items.length :=
  match _h : level.tighter? with
  | some next =>
    have := Level.depth_tighter _h
    chain ending next items
  | none => unary ending items
termination_by 32 * items.length + (3 * level.depth + 5)

/-- Operators before an operand. -/
def unary (ending : Ending) (items : List Item) : Parsed NumericTree items.length :=
  match items with
  | [] => power ending []
  | item :: rest =>
    match item.symbol.prefix? with
    | some op => ((unary ending rest).map (.prefixed op)).widen (Nat.le_succ _)
    | none => power ending (item :: rest)
termination_by 32 * items.length + 3

def power (ending : Ending) (items : List Item) : Parsed NumericTree items.length :=
  match term ending items with
  | .stuck base => .stuck base
  | .done base [] fits => .done base [] fits
  | .done base (item :: rest) fits =>
    if item.symbol.isPower then
      ((term ending rest).map (.binary .power base)).widen (Nat.le_trans (Nat.le_succ _) fits)
    else .done base (item :: rest) fits
termination_by 32 * items.length + 2
decreasing_by
  · omega
  · rw [List.length_cons] at fits
    omega

def term (ending : Ending) (items : List Item) : Parsed NumericTree items.length :=
  match items with
  | ⟨.token (.integer n), _⟩ :: rest => .done (.number (Float.ofNat n)) rest (Nat.le_succ _)
  | ⟨.token (.double x), _⟩ :: rest => .done (.number x) rest (Nat.le_succ _)
  | ⟨.call name args closed, _⟩ :: rest => .done (.call name args closed) rest (Nat.le_succ _)
  | ⟨.token .leftParen, _⟩ :: rest =>
    ((chain ending .sequence rest).closing ending .syntaxError none thenFail).widen
      (Nat.le_succ _)
  | ⟨.token (.identifier name), _⟩ :: ⟨.token .leftParen, stop⟩ :: inner =>
    -- calls of all other functions come as one item
    match MathFunction.ofName? name with
    | some f =>
      (((chain ending .bitwise inner).closing ending .functionError (some name) thenFail).map
        (.apply f)).widen (Nat.le_trans (Nat.le_succ _) (Nat.le_succ _))
    | none => named ending name (⟨.token .leftParen, stop⟩ :: inner) (Nat.le_succ _)
  | ⟨.token (.identifier name), _⟩ :: rest => named ending name rest (Nat.le_succ _)
  | items => .stuck (.failure (ending.noOperand items))
termination_by 32 * items.length + 1
decreasing_by all_goals (simp only [Level.depth, List.length_cons]; omega)

end

def ofOutline (o : Outline) : NumericTree :=
  match chain o.ending .sequence o.items with
  | .stuck tree => tree
  | .done tree rest _ =>
    if rest.isEmpty && o.ending.cause == .complete then tree
    else tree.thenFail (o.ending.unexpected rest .syntaxError none)

def ofFormula (formula : String) : NumericTree :=
  ofOutline (.ofText keepsOperand formula)

end NumericTree

end Formulae.Grammar
