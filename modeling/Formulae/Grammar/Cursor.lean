import Formulae.Text.Search
import Formulae.Grammar.Token
import Formulae.Error

/-!
# Cursors

A cursor is a text with a place in it. What lies before the place is kept nearest character first,
so that a step forward or back moves one character from one side to the other; the place is always
between two characters. On the outside it is a number of bytes or of characters.

Main statements: `text_advance`, `text_retreat`, `text_seek` and `text_next` (no motion changes the
text), `retreat_advance` and `advance_retreat` (a step forward and a step back undo each other).
-/

namespace Formulae.Grammar

structure Cursor where
  /-- What lies before the place, the nearest character first. -/
  before : List Char
  /-- What lies after it. -/
  after : List Char
deriving Repr, DecidableEq

namespace Cursor

/-- The beginning of a text. -/
def ofText (text : String) : Cursor :=
  ⟨[], text.toList⟩

def text (c : Cursor) : List Char :=
  c.before.reverse ++ c.after

/-- Bytes before the place. -/
def byteOffset (c : Cursor) : Nat :=
  Text.byteLength c.before

/-- Characters before the place. -/
def charOffset (c : Cursor) : Nat :=
  c.before.length

def atEnd (c : Cursor) : Bool :=
  c.after.isEmpty

/-- The character after the place. -/
def current? (c : Cursor) : Option Char :=
  c.after.head?

/-! ## Motions -/

/-- One character forward, unless at the end. -/
def advance : Cursor → Cursor
  | ⟨before, c :: after⟩ => ⟨c :: before, after⟩
  | atEnd => atEnd

/-- One character back, unless at the beginning. -/
def retreat : Cursor → Cursor
  | ⟨c :: before, after⟩ => ⟨before, c :: after⟩
  | atStart => atStart

/-- As many characters forward. -/
def skip : Nat → Cursor → Cursor
  | 0, c => c
  | n + 1, c => skip n c.advance

/-- Forward over all characters that fit into a number of bytes. -/
def seekFrom (before : List Char) (bytes : Nat) : List Char → Cursor
  | [] => ⟨before, []⟩
  | c :: after =>
    if c.utf8Size ≤ bytes then seekFrom (c :: before) (bytes - c.utf8Size) after
    else ⟨before, c :: after⟩

/-- The place behind a number of bytes; the end of the text if it is shorter. -/
def seek (bytes : Nat) (c : Cursor) : Cursor :=
  seekFrom [] bytes c.text

/-- Reads what stands at the place and moves behind it. -/
def next (c : Cursor) : Reading × Cursor :=
  let (reading, rest) := scan c.after
  (reading, c.skip (c.after.length - rest.length))

def error (c : Cursor) (kind : ErrorKind) (identifier : Option String) : FormulaError :=
  ⟨kind, identifier, String.ofList c.text, c.charOffset⟩

/-! ## Motions keep the text -/

@[simp] theorem text_advance (c : Cursor) : c.advance.text = c.text := by
  unfold advance
  split <;> simp [text]

@[simp] theorem text_retreat (c : Cursor) : c.retreat.text = c.text := by
  unfold retreat
  split <;> simp [text]

@[simp] theorem text_skip (n : Nat) (c : Cursor) : (c.skip n).text = c.text := by
  induction n generalizing c with
  | zero => rfl
  | succ n ih => rw [skip, ih, text_advance]

theorem text_seekFrom (before : List Char) (bytes : Nat) (after : List Char) :
    (seekFrom before bytes after).text = before.reverse ++ after := by
  induction after generalizing before bytes with
  | nil => rfl
  | cons c after ih =>
    rw [seekFrom]
    split
    · rw [ih]; simp
    · rfl

@[simp] theorem text_seek (bytes : Nat) (c : Cursor) : (c.seek bytes).text = c.text := by
  simp [seek, text_seekFrom]

@[simp] theorem text_next (c : Cursor) : c.next.2.text = c.text := by
  simp [next]

/-- A step back undoes a step forward, except at the end. -/
theorem retreat_advance {c : Cursor} (h : c.atEnd = false) : c.advance.retreat = c := by
  obtain ⟨before, after⟩ := c
  cases after with
  | nil => simp [atEnd] at h
  | cons d after => rfl

/-- A step forward undoes a step back, except at the beginning. -/
theorem advance_retreat {c : Cursor} (h : c.before ≠ []) : c.retreat.advance = c := by
  obtain ⟨before, after⟩ := c
  cases before with
  | nil => exact absurd rfl h
  | cons d before => rfl

/-! ## What a reading leaves -/

@[simp] theorem after_skip (n : Nat) (c : Cursor) : (c.skip n).after = c.after.drop n := by
  induction n generalizing c with
  | zero => rfl
  | succ n ih =>
    rw [skip, ih]
    obtain ⟨before, after⟩ := c
    cases after <;> simp [advance]

/-- Behind a reading lies what the reading leaves. -/
theorem after_next (c : Cursor) : c.next.2.after = (scan c.after).2 := by
  obtain ⟨front, h⟩ := scan_suffix c.after
  have hlength : c.after.length - (scan c.after).2.length = front.length := by
    have := congrArg List.length h
    rw [List.length_append] at this
    omega
  simp only [next, after_skip, hlength]
  exact (congrArg (List.drop front.length) h.symm).trans List.drop_left

/-- Behind a token there is less text than before it. -/
theorem length_after_next_lt {c : Cursor} {t : Token} (h : c.next.1 = .token t) :
    c.next.2.after.length < c.after.length := by
  rw [after_next]
  exact length_scan_lt h

/-- The readings up to the first that is no token, each with the place behind it. -/
def readings (c : Cursor) : List (Reading × Cursor) :=
  match _h : c.next with
  | (.token t, place) => (.token t, place) :: place.readings
  | stop => [stop]
termination_by c.after.length
decreasing_by
  have := length_after_next_lt (congrArg Prod.fst _h)
  rwa [_h] at this

end Cursor

end Formulae.Grammar
