import Formulae.Text.Letter
import Formulae.Number.Decimal

/-!
# Tokens

A formula is read one token at a time. `scan` skips plain spaces and reads the token that follows;
it hands back the rest of the text. Reading can also find that the text is over, that a string
literal has no end, or a character no token begins with, before which it stops. An integer beyond
31 bits is unreadable too, but stops behind its digits.

Main statements: `scan_suffix` (what is left is an end of the text) and `length_scan_lt` (a token
uses up at least one character).
-/

namespace Formulae.Grammar

/-- The operators. Some of them are binary, some stand before an operand, two do both. -/
inductive Operator
  | add
  | subtract
  | multiply
  | divide
  | power
  | modulo
  | percent
  | not
  | invert
  | or
  | xor
  | and
  | less
  | atMost
  | equal
  | different
  | atLeast
  | greater
deriving Repr, DecidableEq

/-- A token of a formula. -/
inductive Token
  | leftParen
  | rightParen
  | semicolon
  | operator (op : Operator)
  | integer (value : Nat)
  | double (value : Float)
  | text (value : String)
  | identifier (name : String)
deriving DecidableEq

/-- What stands at a place of a formula. -/
inductive Reading
  | token (t : Token)
  /-- Nothing is left. -/
  | finished
  /-- A character that begins no token, or an integer that is too large. -/
  | unreadable
  /-- A string literal that is not closed. -/
  | openLiteral
deriving DecidableEq

/-! ## Single tokens -/

/-- The token of a sign of one or two characters; the longer sign is taken. -/
def scanSign? : List Char → Option (Token × List Char)
  | '=' :: '=' :: rest => some (.operator .equal, rest)
  | '*' :: '*' :: rest => some (.operator .power, rest)
  | '%' :: '%' :: rest => some (.operator .percent, rest)
  | '<' :: '=' :: rest => some (.operator .atMost, rest)
  | '<' :: '>' :: rest => some (.operator .different, rest)
  | '>' :: '=' :: rest => some (.operator .atLeast, rest)
  | '>' :: '<' :: rest => some (.operator .different, rest)
  | '!' :: '=' :: rest => some (.operator .different, rest)
  | '+' :: rest => some (.operator .add, rest)
  | '-' :: rest => some (.operator .subtract, rest)
  | '*' :: rest => some (.operator .multiply, rest)
  | '/' :: rest => some (.operator .divide, rest)
  | '%' :: rest => some (.operator .modulo, rest)
  | '!' :: rest => some (.operator .not, rest)
  | '~' :: rest => some (.operator .invert, rest)
  | '|' :: rest => some (.operator .or, rest)
  | '^' :: rest => some (.operator .xor, rest)
  | '&' :: rest => some (.operator .and, rest)
  | '<' :: rest => some (.operator .less, rest)
  | '>' :: rest => some (.operator .greater, rest)
  | '(' :: rest => some (.leftParen, rest)
  | ')' :: rest => some (.rightParen, rest)
  | ';' :: rest => some (.semicolon, rest)
  | _ => none

/-- The largest integer of a formula. -/
def maxInteger : Nat := 2147483647

/-- A double with its fraction added digit by digit, each with the weight of its place. -/
def addFraction (value : Float) (digits : List Char) : Float :=
  (digits.foldl (fun (value, weight) digit =>
    let weight := weight / 10.0
    (value + weight * Float.ofNat (Number.digitValue digit), weight)) (value, 1.0)).1

/-- A number: digits, and after a point or a comma the digits of its fraction, if any. -/
def scanNumber (cs : List Char) : Reading × List Char :=
  let n := Number.ofDigits (cs.takeWhile Char.isDigit)
  let rest := cs.dropWhile Char.isDigit
  if maxInteger < n then (.unreadable, rest)
  else match rest with
    | '.' :: rest | ',' :: rest =>
      (.token (.double (addFraction (Float.ofNat n) (rest.takeWhile Char.isDigit))),
        rest.dropWhile Char.isDigit)
    | rest => (.token (.integer n), rest)

/-- A string literal behind its opening quote, up to the next such quote. -/
def scanLiteral (quote : Char) (cs : List Char) : Reading × List Char :=
  match cs.dropWhile (· != quote) with
  | _ :: rest => (.token (.text (String.ofList (cs.takeWhile (· != quote)))), rest)
  | [] => (.openLiteral, [])

/-- A character that can begin a name. -/
def isNameStart (c : Char) : Bool :=
  Text.isLetter c || c == '_' || c == '@'

/-- A character that can stand in a name. -/
def isNamePart (c : Char) : Bool :=
  Text.isLetter c || Text.isNumeral c || c == '_' || c == '@'

def scanName (cs : List Char) : Token × List Char :=
  (.identifier (String.ofList (cs.takeWhile isNamePart)), cs.dropWhile isNamePart)

/-! ## Reading -/

/-- What a text that does not begin with a space begins with. -/
def scanHere : List Char → Reading × List Char
  | [] => (.finished, [])
  | c :: rest =>
    if c = '\'' ∨ c = '"' then scanLiteral c rest
    else if c.isDigit then scanNumber (c :: rest)
    else if isNameStart c then
      let (t, rest) := scanName (c :: rest)
      (.token t, rest)
    else match scanSign? (c :: rest) with
      | some (t, rest) => (.token t, rest)
      | none => (.unreadable, c :: rest)

/-- What a text begins with after plain spaces. -/
def scan (cs : List Char) : Reading × List Char :=
  scanHere (cs.dropWhile (· == ' '))

/-! ## What is left -/

/-- A sign is the beginning of the text and is not empty. -/
theorem scanSign?_suffix {cs rest : List Char} {t : Token} (h : scanSign? cs = some (t, rest)) :
    ∃ c sign, cs = c :: sign ++ rest := by
  unfold scanSign? at h
  split at h <;> first
    | (simp only [Option.some.injEq, Prod.mk.injEq] at h
       obtain ⟨-, rfl⟩ := h
       first
         | exact ⟨_, [_], rfl⟩
         | exact ⟨_, [], rfl⟩)
    | simp at h

/-- What is left behind a number is an end of what follows its first digit. -/
theorem scanNumber_suffix {c : Char} (hc : c.isDigit = true) (cs : List Char) :
    (scanNumber (c :: cs)).2 <:+ cs := by
  have hdrop : (c :: cs).dropWhile Char.isDigit <:+ cs := by
    simpa [hc] using List.dropWhile_suffix Char.isDigit
  unfold scanNumber
  dsimp only
  split
  · exact hdrop
  · split
    · rename_i rest heq
      rw [heq] at hdrop
      exact (List.dropWhile_suffix _).trans ((List.suffix_cons _ _).trans hdrop)
    · rename_i rest heq
      rw [heq] at hdrop
      exact (List.dropWhile_suffix _).trans ((List.suffix_cons _ _).trans hdrop)
    · exact hdrop

/-- What is left behind a literal is an end of what follows its opening quote. -/
theorem scanLiteral_suffix (quote : Char) (cs : List Char) : (scanLiteral quote cs).2 <:+ cs := by
  unfold scanLiteral
  split
  · rename_i rest heq
    exact (List.suffix_cons _ _).trans (heq ▸ List.dropWhile_suffix _)
  · exact List.nil_suffix

/-- The first character of a name may stand inside it too. -/
theorem isNamePart_of_isNameStart {c : Char} (h : isNameStart c = true) : isNamePart c = true := by
  simp only [isNameStart, isNamePart, Bool.or_eq_true] at h ⊢
  rcases h with (h | h) | h <;> simp [h]

/-- A reading leaves an end of the text; a token leaves less than the whole. -/
theorem scanHere_suffix (cs : List Char) :
    (scanHere cs).2 <:+ cs ∧
      ∀ t, (scanHere cs).1 = .token t → (scanHere cs).2.length < cs.length := by
  cases cs with
  | nil => simp [scanHere]
  | cons c rest =>
    have shorter : ∀ {left : List Char}, left <:+ rest →
        left <:+ c :: rest ∧ left.length < (c :: rest).length := fun h =>
      ⟨h.trans (List.suffix_cons _ _), Nat.lt_succ_of_le h.length_le⟩
    rw [scanHere]
    split
    -- a literal
    · obtain ⟨h, hlt⟩ := shorter (scanLiteral_suffix c rest)
      exact ⟨h, fun _ _ => hlt⟩
    · split
      -- a number
      · rename_i hd
        obtain ⟨h, hlt⟩ := shorter (scanNumber_suffix hd rest)
        exact ⟨h, fun _ _ => hlt⟩
      · split
        -- a name
        · rename_i hn
          have hdrop : (c :: rest).dropWhile isNamePart <:+ rest := by
            simpa [isNamePart_of_isNameStart hn] using List.dropWhile_suffix isNamePart
          obtain ⟨h, hlt⟩ := shorter hdrop
          exact ⟨h, fun _ _ => hlt⟩
        · split
          -- a sign
          · rename_i t left heq
            obtain ⟨d, sign, hcons⟩ := scanSign?_suffix heq
            obtain ⟨rfl, htail⟩ := List.cons.inj hcons
            obtain ⟨h, hlt⟩ := shorter ⟨sign, htail.symm⟩
            exact ⟨h, fun _ _ => hlt⟩
          · exact ⟨List.suffix_refl _, fun t ht => Reading.noConfusion ht⟩

/-- What is left after a reading is an end of the text. -/
theorem scan_suffix (cs : List Char) : (scan cs).2 <:+ cs :=
  (scanHere_suffix _).1.trans (List.dropWhile_suffix _)

/-- A token uses up at least one character. -/
theorem length_scan_lt {cs : List Char} {t : Token} (h : (scan cs).1 = .token t) :
    (scan cs).2.length < cs.length :=
  Nat.lt_of_lt_of_le ((scanHere_suffix _).2 t h) (List.dropWhile_suffix _).length_le

end Formulae.Grammar
