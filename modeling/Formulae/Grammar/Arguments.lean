import Formulae.Text.Blank
import Formulae.Text.Search

/-!
# Arguments as texts

The arguments of most calls are not read as tokens. The text between the parentheses of the call is
cut at its top-level commas, and every piece is evaluated later as a formula of its own. Both scans,
the one for the closing parenthesis and the one for the commas, pass over nested parentheses and
over literals in single quotes. Double quotes mean nothing to them.

Main statements: `append_of_closeFrom?`, the parts around a closing parenthesis make up the text,
and `length_take?_lt`, what follows it is shorter.
-/

namespace Formulae.Grammar.Arguments

/-! ## The closing parenthesis -/

/-- Splits a text at the parenthesis that closes it, `depth` counting the ones open inside. -/
def closeFrom? (depth : Nat) (quoted : Bool) : List Char → Option (List Char × List Char)
  | [] => none
  | c :: cs =>
    let put := fun result : List Char × List Char => (c :: result.1, result.2)
    if c = '\'' then (closeFrom? depth (!quoted) cs).map put
    else if quoted then (closeFrom? depth true cs).map put
    else if c = '(' then (closeFrom? (depth + 1) false cs).map put
    else if c = ')' then
      if depth = 0 then some ([], cs) else (closeFrom? (depth - 1) false cs).map put
    else (closeFrom? depth false cs).map put

/-- Splits a text at the parenthesis that closes it: what lies before, and what lies after. -/
def close? (cs : List Char) : Option (List Char × List Char) :=
  closeFrom? 0 false cs

/-! ## The commas -/

/-- Puts a character in front of the first piece. -/
def putFirst (c : Char) : List (List Char) → List (List Char)
  | piece :: pieces => (c :: piece) :: pieces
  | [] => [[c]]

/-- Cuts a text at the commas where no parenthesis and no quote is open. The depth is any integer: a
count in a signed word of 32 bits is the same one for texts with fewer than `2 ^ 31` parentheses. -/
def piecesFrom (depth : Int) (quoted : Bool) : List Char → List (List Char)
  | [] => [[]]
  | c :: cs =>
    if c = '\'' then putFirst c (piecesFrom depth (!quoted) cs)
    else if quoted then putFirst c (piecesFrom depth true cs)
    else if c = '(' then putFirst c (piecesFrom (depth + 1) false cs)
    else if c = ')' then putFirst c (piecesFrom (depth - 1) false cs)
    else if c = ',' ∧ depth = 0 then [] :: piecesFrom depth false cs
    else putFirst c (piecesFrom depth false cs)

/-- The arguments in a text: its pieces without the white space around them. A blank text holds
none. -/
def split (cs : List Char) : List String :=
  let inner := Text.trim cs
  if inner.isEmpty then []
  else (piecesFrom 0 false inner).map fun piece => String.ofList (Text.trim piece)

/-- The arguments of a call behind its opening parenthesis, and what follows the closing one. -/
def take? (cs : List Char) : Option (List String × List Char) :=
  (close? cs).map fun (inner, rest) => (split inner, rest)

/-! ## By byte offsets -/

/-- The byte offset of the parenthesis that closes a text from an offset on. -/
def closingOffset? (text : String) (start : Nat) : Option Nat := do
  let cs ← Text.dropBytes? start text.toList
  let (inner, _) ← close? cs
  return start + Text.byteLength inner

/-- The arguments of a call whose opening parenthesis ends at a byte offset, and the offset behind
the closing one. -/
def takeFrom? (text : String) (start : Nat) : Option (List String × Nat) := do
  let cs ← Text.dropBytes? start text.toList
  let (inner, _) ← close? cs
  return (split inner, start + Text.byteLength inner + 1)

/-! ## What is left -/

/-- The parts around a closing parenthesis make up the text. -/
theorem append_of_closeFrom? {depth : Nat} {quoted : Bool} {cs inner rest : List Char}
    (h : closeFrom? depth quoted cs = some (inner, rest)) : cs = inner ++ ')' :: rest := by
  have put : ∀ {c : Char} {cs : List Char} {result : Option (List Char × List Char)}
      {inner rest : List Char},
      (∀ inner rest, result = some (inner, rest) → cs = inner ++ ')' :: rest) →
      result.map (fun r => (c :: r.1, r.2)) = some (inner, rest) →
      c :: cs = inner ++ ')' :: rest := by
    -- a character that is put in front of both
    intro c cs result inner rest ih h
    obtain ⟨⟨i, r⟩, hr, heq⟩ := Option.map_eq_some_iff.1 h
    obtain ⟨rfl, rfl⟩ := Prod.mk.inj heq
    rw [ih i r hr]
    rfl
  induction cs generalizing depth quoted inner rest with
  | nil => simp [closeFrom?] at h
  | cons c cs ih =>
    rw [closeFrom?] at h
    split at h
    · exact put (fun _ _ => ih) h
    · split at h
      · exact put (fun _ _ => ih) h
      · split at h
        · exact put (fun _ _ => ih) h
        · split at h
          -- a closing parenthesis, which closes the text if no other one is open
          · rename_i hc
            split at h
            · obtain ⟨rfl, rfl⟩ := Prod.mk.inj (Option.some.inj h)
              rw [hc]
              rfl
            · exact put (fun _ _ => ih) h
          · exact put (fun _ _ => ih) h

/-- What follows the closing parenthesis is shorter than the text. -/
theorem length_take?_lt {cs rest : List Char} {args : List String}
    (h : take? cs = some (args, rest)) : rest.length < cs.length := by
  obtain ⟨⟨inner, r⟩, hclose, heq⟩ := Option.map_eq_some_iff.1 h
  obtain ⟨-, rfl⟩ := Prod.mk.inj heq
  rw [append_of_closeFrom? hclose]
  simp
  omega

end Formulae.Grammar.Arguments
