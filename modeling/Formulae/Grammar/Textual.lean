import Formulae.Grammar.Outline

/-!
# Text formulas

The grammar of formulas that have a text:

    text          := concatenation (';' concatenation)*
    concatenation := atom ('+' atom)*
    atom          := literal | '(' concatenation ')' | name | call | nothing

An atom may be empty: what does not fit is left to whatever comes after it. As in numeric formulas,
every text formula has a tree, and a failure in it is found after all that stands before it.
-/

namespace Formulae.Grammar

inductive TextTree
  | literal (value : String)
  /-- A name; it is blamed at `position`. -/
  | value (name : String) (position : Nat)
  /-- A call with the texts of its arguments; `position` is behind it. -/
  | call (name : String) (args : List String) (position : Nat)
  | append (left right : TextTree)
  /-- The second formula, after the first one has been evaluated. -/
  | sequence (first second : TextTree)
  /-- The formula cannot be read from here on. -/
  | failure (complaint : Complaint)

namespace TextTree

/-- A tree and a failure after it. -/
def thenFail (tree : TextTree) (c : Complaint) : TextTree :=
  .sequence tree (.failure c)

/-- An atom that takes no item. It is no atom if the text ends in a literal or a call that is not
closed. -/
def nothing (ending : Ending) (items : List Item) : Parsed TextTree items.length :=
  match items, ending.cause with
  | [], .openLiteral | [], .openCall .. => .stuck (.failure (ending.noOperand []))
  | items, _ => .done (.literal "") items (Nat.le_refl _)

/-- A name that stands for a text. It is blamed at the look-ahead behind it, which is read
first. -/
def named (ending : Ending) (name : String) (rest : List Item) {bound : Nat}
    (fits : rest.length ≤ bound) : Parsed TextTree bound :=
  if ending.isOpenLiteral rest then .stuck (.failure (ending.noOperand rest))
  else .done (.value name (ending.lookAhead rest)) rest fits

mutual

/-- Atoms joined by `+`. -/
def concatenation (ending : Ending) (items : List Item) : Parsed TextTree items.length :=
  match atom ending items with
  | .stuck left => .stuck left
  | .done left rest fits => (concatenationRest ending left rest).widen fits
termination_by 8 * items.length + 4

/-- The rest of a concatenation behind its first atoms. -/
def concatenationRest (ending : Ending) (left : TextTree) (items : List Item) :
    Parsed TextTree items.length :=
  match items with
  | ⟨.token (.operator .add), _⟩ :: rest =>
    match atom ending rest with
    | .stuck right => .stuck (.append left right)
    | .done right more fits =>
      (concatenationRest ending (.append left right) more).widen
        (Nat.le_trans fits (Nat.le_succ _))
  | items => .done left items (Nat.le_refl _)
termination_by 8 * items.length + 3

def atom (ending : Ending) (items : List Item) : Parsed TextTree items.length :=
  match items with
  | ⟨.token (.text s), _⟩ :: rest => .done (.literal s) rest (Nat.le_succ _)
  | ⟨.call name args closed, _⟩ :: rest => .done (.call name args closed) rest (Nat.le_succ _)
  | ⟨.token .leftParen, _⟩ :: rest =>
    ((concatenation ending rest).closing ending .syntaxError none thenFail).widen (Nat.le_succ _)
  | ⟨.token (.identifier name), _⟩ :: rest => named ending name rest (Nat.le_succ _)
  | items => nothing ending items
termination_by 8 * items.length + 1

end

/-- The rest of a text behind its first concatenations. -/
def sequenceRest (ending : Ending) (first : TextTree) (items : List Item) :
    Parsed TextTree items.length :=
  match items with
  | ⟨.token .semicolon, _⟩ :: rest =>
    match concatenation ending rest with
    | .stuck second => .stuck (.sequence first second)
    | .done second more fits =>
      (sequenceRest ending (.sequence first second) more).widen
        (Nat.le_trans fits (Nat.le_succ _))
  | items => .done first items (Nat.le_refl _)
termination_by items.length

def ofOutline (o : Outline) : TextTree :=
  match concatenation o.ending o.items with
  | .stuck tree => tree
  | .done first rest _ =>
    match sequenceRest o.ending first rest with
    | .stuck tree => tree
    | .done tree rest _ =>
      if rest.isEmpty && o.ending.cause == .complete then tree
      else tree.thenFail (o.ending.unexpected rest .syntaxError none)

/-- The tree of a formula. All its calls are cut out. -/
def ofFormula (formula : String) : TextTree :=
  ofOutline (.ofText (fun _ => false) formula)

end TextTree

end Formulae.Grammar
