import Formulae.Text.Letter
import Formulae.Text.CaseTable

/-!
# Lower and upper case

Full case mapping of a text, without regard to a language. Three rules go beyond one character for
one character: some letters are spelled out in upper case (`ß` becomes `SS`), the dotted capital
`İ` becomes `i` with a dot above, and a capital sigma becomes `ς` at the end of a word and `σ`
elsewhere. A word's end is where a cased letter stands before and none follows, characters such as
apostrophes and combining marks being passed over.

Within ASCII, `asciiLower` is the whole of it, and `sameIgnoringCase` compares two names by it.
-/

namespace Formulae.Text

/-! ## ASCII -/

/-- The lower case of an ASCII letter; every other character is kept. -/
def asciiLower (c : Char) : Char :=
  c.toLower

/-- Whether two texts agree up to the case of ASCII letters. -/
def sameIgnoringCase (cs ds : List Char) : Bool :=
  cs.map asciiLower == ds.map asciiLower

/-! ## One character -/

/-- Where a code point moves by the first run that covers it. -/
def moveBy (runs : List CaseRun) (code : Nat) : Nat :=
  match runs.find? (·.covers code) with
  | some run => (code + run.shift).toNat
  | none => code

/-- The lower case of a character outside of any word. -/
def lowerOf (c : Char) : List Char :=
  if c.toNat < 128 then [c.toLower]
  else if c.toNat == 0x0130 then ['i', Char.ofNat 0x0307]
  else [Char.ofNat (moveBy lowerRuns c.toNat)]

/-- The upper case of a character. -/
def upperOf (c : Char) : List Char :=
  if c.toNat < 128 then [c.toUpper]
  else match upperSpellings.lookup c.toNat with
    | some codes => codes.map Char.ofNat
    | none => [Char.ofNat (moveBy upperRuns c.toNat)]

/-! ## Words -/

/-- A letter that has a case. -/
def isCased (c : Char) : Bool :=
  inRanges casedRanges c.toNat

/-- A character that is passed over when the case around it is asked for. -/
def isCaseIgnorable (c : Char) : Bool :=
  inRanges caseIgnorableRanges c.toNat

/-- Whether the first character that is not passed over has a case. -/
def startsCased (cs : List Char) : Bool :=
  match cs.dropWhile isCaseIgnorable with
  | c :: _ => isCased c
  | [] => false

/-- The lower case of a character between what stands before it (nearest first) and after it. -/
def lowerBetween (before : List Char) (c : Char) (after : List Char) : List Char :=
  if c.toNat == 0x03A3 then
    if startsCased before && !startsCased after then [Char.ofNat 0x03C2]
    else [Char.ofNat 0x03C3]
  else lowerOf c

/-- Lower case of the rest of a text, `before` and `done` holding what was read and written so far,
both nearest first. -/
def lowerFrom (before done : List Char) : List Char → List Char
  | [] => done.reverse
  | c :: after =>
    lowerFrom (c :: before) ((lowerBetween before c after).reverse ++ done) after

def lower (cs : List Char) : List Char :=
  lowerFrom [] [] cs

def upper (cs : List Char) : List Char :=
  cs.flatMap upperOf

end Formulae.Text
