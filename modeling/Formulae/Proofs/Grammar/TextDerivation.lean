import Formulae.Grammar.Textual
import Formulae.Proofs.Grammar.Stream

/-!
# Derivations of text formulas

The grammar of text formulas without calls, given by itself, as the one of numeric formulas is: a
derivation is built by the productions, spells a list of tokens, and has a text.

An atom may be empty, and then it is there without a token. It is still clear where atoms are, for
the signs tell: an atom is read up to a sign, and behind it no other one can begin. So a list of
tokens has at most one derivation, and the parser, which never goes back, finds it.

Main results:

* `Segments.unique` — derivations with the same tokens are the same.
* `Segments.accepted` — on the tokens of a derivation the parser does not get stuck, and leaves
  nothing.
-/

namespace Formulae.Grammar

-- ---------------------------------------------------------------------------
-- The grammar
-- ---------------------------------------------------------------------------

mutual

/-- What a concatenation is made of. -/
inductive Atom
  | literal (value : String)
  | name (name : String)
  | parens (inner : Concatenation)
  | empty

/-- Atoms joined by `+`. -/
inductive Concatenation
  | single (atom : Atom)
  | join (first : Atom) (more : Concatenation)

end

/-- A text: concatenations with semicolons between them. -/
inductive Segments
  | last (segment : Concatenation)
  | behind (segment : Concatenation) (more : Segments)

mutual

/-- The tokens of an atom. -/
def Atom.tokens : Atom → List Token
  | .literal value => [.text value]
  | .name name => [.identifier name]
  | .parens inner => .leftParen :: (inner.tokens ++ [.rightParen])
  | .empty => []

def Concatenation.tokens : Concatenation → List Token
  | .single atom => atom.tokens
  | .join first more => first.tokens ++ .operator .add :: more.tokens

end

def Segments.tokens : Segments → List Token
  | .last segment => segment.tokens
  | .behind segment more => segment.tokens ++ .semicolon :: more.tokens

mutual

/-- The text of an atom, given those of names. -/
def Atom.text (word : String → String) : Atom → String
  | .literal value => value
  | .name name => word name
  | .parens inner => inner.text word
  | .empty => ""

/-- The texts of the atoms, from left to right. -/
def Concatenation.text (word : String → String) : Concatenation → String
  | .single atom => atom.text word
  | .join first more => first.text word ++ more.text word

end

/-- The text of the last segment. -/
def Segments.text (word : String → String) : Segments → String
  | .last segment => segment.text word
  | .behind _ more => more.text word

-- ---------------------------------------------------------------------------
-- There is one derivation at most
-- ---------------------------------------------------------------------------

/-- Whether an atom that is not empty begins with the token. -/
def Token.opensAtom : Token → Bool
  | text _ | identifier _ | leftParen => true
  | _ => false

/-- No atom begins with the tokens, so that one in front of them has ended, be it empty or not. -/
def Clear (ts : List Token) : Prop :=
  ∀ t ∈ ts.head?, t.opensAtom = false

/-- A concatenation in front of the tokens has ended. -/
structure Ended (ts : List Token) : Prop where
  clear : Clear ts
  noSign : ∀ us, ts ≠ .operator .add :: us

@[simp] theorem clear_nil : Clear [] := by
  intro t ht
  simp at ht

@[simp] theorem clear_cons {t : Token} {ts : List Token} :
    Clear (t :: ts) ↔ t.opensAtom = false := by
  simp [Clear]

@[simp] theorem ended_nil : Ended [] :=
  ⟨clear_nil, fun _ => by simp⟩

@[simp] theorem ended_rightParen (ts : List Token) : Ended (.rightParen :: ts) :=
  ⟨clear_cons.mpr rfl, fun _ => by simp⟩

@[simp] theorem ended_semicolon (ts : List Token) : Ended (.semicolon :: ts) :=
  ⟨clear_cons.mpr rfl, fun _ => by simp⟩

theorem clear_add (ts : List Token) : Clear (.operator .add :: ts) :=
  clear_cons.mpr rfl

mutual

/-- Two atoms at the beginning of the same tokens are the same, if both have ended there. -/
theorem Atom.prefix_unique (a a' : Atom) {us us' : List Token}
    (h : a.tokens ++ us = a'.tokens ++ us') (hus : Clear us) (hus' : Clear us') :
    a = a' ∧ us = us' := by
  match a, a' with
  | .empty, .empty => exact ⟨rfl, h⟩
  | .literal value, .literal value' =>
    obtain ⟨hvalue, rfl⟩ := List.cons.inj h
    rw [Token.text.inj hvalue]
    exact ⟨rfl, rfl⟩
  | .name name, .name name' =>
    obtain ⟨hname, rfl⟩ := List.cons.inj h
    rw [Token.identifier.inj hname]
    exact ⟨rfl, rfl⟩
  | .parens inner, .parens inner' =>
    simp only [Atom.tokens, List.cons_append, List.append_assoc, List.nil_append, List.cons.injEq,
      true_and] at h
    obtain ⟨rfl, htail⟩ :=
      inner.prefix_unique inner' h (ended_rightParen us) (ended_rightParen us')
    exact ⟨rfl, (List.cons.inj htail).2⟩
  -- an empty atom would stand where another one begins
  | .empty, .literal value | .empty, .name name | .empty, .parens inner =>
    simp only [Atom.tokens, List.nil_append, List.cons_append] at h
    rw [h] at hus
    simp [Token.opensAtom] at hus
  | .literal value, .empty | .name name, .empty | .parens inner, .empty =>
    simp only [Atom.tokens, List.nil_append, List.cons_append] at h
    rw [← h] at hus'
    simp [Token.opensAtom] at hus'
  -- atoms of different kinds begin differently
  | .literal _, .name _ | .literal _, .parens _ | .name _, .literal _ | .name _, .parens _
  | .parens _, .literal _ | .parens _, .name _ => simp [Atom.tokens] at h

/-- Two concatenations that are followed by what does not go on are the same. -/
theorem Concatenation.prefix_unique (c c' : Concatenation) {us us' : List Token}
    (h : c.tokens ++ us = c'.tokens ++ us') (hus : Ended us) (hus' : Ended us') :
    c = c' ∧ us = us' := by
  match c, c' with
  | .single atom, .single atom' =>
    simp only [Concatenation.tokens] at h
    obtain ⟨rfl, rfl⟩ := atom.prefix_unique atom' h hus.clear hus'.clear
    exact ⟨rfl, rfl⟩
  | .single atom, .join first more =>
    simp only [Concatenation.tokens, List.append_assoc, List.cons_append] at h
    exact absurd (atom.prefix_unique first h hus.clear (clear_add _)).2 (hus.noSign _)
  | .join first more, .single atom =>
    simp only [Concatenation.tokens, List.append_assoc, List.cons_append] at h
    exact absurd (first.prefix_unique atom h (clear_add _) hus'.clear).2.symm (hus'.noSign _)
  | .join first more, .join first' more' =>
    simp only [Concatenation.tokens, List.append_assoc, List.cons_append] at h
    obtain ⟨rfl, htail⟩ := first.prefix_unique first' h (clear_add _) (clear_add _)
    obtain ⟨rfl, rfl⟩ := more.prefix_unique more' (List.cons.inj htail).2 hus hus'
    exact ⟨rfl, rfl⟩

end

/-- A list of tokens has one derivation at most. -/
theorem Segments.unique {d d' : Segments} (h : d.tokens = d'.tokens) : d = d' := by
  induction d generalizing d' with
  | last segment =>
    cases d' with
    | last segment' =>
      have happend : segment.tokens ++ [] = segment'.tokens ++ [] := by
        simpa [Segments.tokens] using h
      rw [(segment.prefix_unique segment' happend ended_nil ended_nil).1]
    | behind segment' more' =>
      have happend : segment.tokens ++ [] = segment'.tokens ++ .semicolon :: more'.tokens := by
        simpa [Segments.tokens] using h
      have hrest := (segment.prefix_unique segment' happend ended_nil (ended_semicolon _)).2
      simp at hrest
  | behind segment more ih =>
    cases d' with
    | last segment' =>
      have happend : segment.tokens ++ .semicolon :: more.tokens = segment'.tokens ++ [] := by
        simpa [Segments.tokens] using h
      have hrest := (segment.prefix_unique segment' happend (ended_semicolon _) ended_nil).2
      simp at hrest
    | behind segment' more' =>
      obtain ⟨rfl, hrest⟩ :=
        segment.prefix_unique segment' h (ended_semicolon _) (ended_semicolon _)
      rw [ih (List.cons.inj hrest).2]

-- ---------------------------------------------------------------------------
-- What is derivable is parsed
-- ---------------------------------------------------------------------------

/-- The items begin with the first token. -/
theorem exists_item_of_spells {items : List Item} {t : Token} {ts : List Token}
    (h : Spells items (t :: ts)) :
    ∃ stop rest, items = ⟨.token t, stop⟩ :: rest ∧ Spells rest ts := by
  cases items with
  | nil => simp [Spells] at h
  | cons item rest =>
    obtain ⟨symbol, stop⟩ := item
    obtain ⟨rfl, hrest⟩ := List.cons.inj h
    exact ⟨stop, rest, rfl, hrest⟩

/-- The parser is done, and what it has left are these tokens. -/
def Parsed.StopsAt {bound : Nat} (p : Parsed TextTree bound) (us : List Token) : Prop :=
  ∃ tree rest fits, p = .done tree rest fits ∧ Spells rest us

namespace Parsed.StopsAt

variable {small large : Nat} {p : Parsed TextTree small} {us : List Token}

theorem widen (hp : p.StopsAt us) (h : small ≤ large) : (p.widen h).StopsAt us := by
  obtain ⟨tree, rest, fits, rfl, hrest⟩ := hp
  exact ⟨tree, rest, Nat.le_trans fits h, rfl, hrest⟩

/-- A closing parenthesis that was left is taken. -/
theorem closing (hp : p.StopsAt (.rightParen :: us)) (ending : Ending) :
    (p.closing ending .syntaxError none TextTree.thenFail).StopsAt us := by
  obtain ⟨tree, rest, fits, rfl, hrest⟩ := hp
  obtain ⟨stop, more, rfl, hmore⟩ := exists_item_of_spells hrest
  exact ⟨tree, more, Nat.le_trans (Nat.le_succ _) fits, rfl, hmore⟩

end Parsed.StopsAt

open TextTree

variable {ending : Ending} {us : List Token} {items : List Item}

/-- Where no atom begins there is an empty one. -/
theorem Clear.stopsAt_atom (hus : Clear us) (hend : ending.cause = .complete)
    (hitems : Spells items us) : (atom ending items).StopsAt us := by
  obtain ⟨cause, stop⟩ := ending
  subst hend
  have hopens : ∀ t stop rest, items = ⟨.token t, stop⟩ :: rest → t.opensAtom = false := by
    rintro t stop rest rfl
    cases us with
    | nil => simp [Spells] at hitems
    | cons u us =>
      obtain rfl := Symbol.token.inj (List.cons.inj hitems).1
      exact clear_cons.mp hus
  have hcall : ∀ name args closed stop rest, items ≠ ⟨.call name args closed, stop⟩ :: rest := by
    rintro name args closed stop rest rfl
    cases us with
    | nil => simp [Spells] at hitems
    | cons u us => simp [Spells] at hitems
  have hatom : atom ⟨.complete, stop⟩ items = nothing ⟨.complete, stop⟩ items := by
    rw [atom]
    · intro s stop rest h
      simpa [Token.opensAtom] using hopens _ _ _ h
    · exact hcall
    · intro stop rest h
      simpa [Token.opensAtom] using hopens _ _ _ h
    · intro name stop rest h
      simpa [Token.opensAtom] using hopens _ _ _ h
  rw [hatom]
  cases items with
  | nil => exact ⟨_, [], _, rfl, hitems⟩
  | cons item rest => exact ⟨_, item :: rest, _, rfl, hitems⟩

/-- Where no sign follows the concatenation is complete. -/
theorem Ended.stopsAt_concatenationRest (hus : Ended us) (left : TextTree)
    (hitems : Spells items us) : (concatenationRest ending left items).StopsAt us := by
  rw [concatenationRest]
  · exact ⟨left, items, Nat.le_refl _, rfl, hitems⟩
  · rintro stop rest rfl
    cases us with
    | nil => simp [Spells] at hitems
    | cons u us =>
      obtain rfl := Symbol.token.inj (List.cons.inj hitems).1
      exact hus.noSign us rfl

mutual

/-- The parser takes an atom that has ended. -/
theorem Atom.accepted (a : Atom) (hend : ending.cause = .complete) {us : List Token}
    (hus : Clear us) {items : List Item} (hitems : Spells items (a.tokens ++ us)) :
    (TextTree.atom ending items).StopsAt us := by
  match a with
  | .literal s =>
    obtain ⟨stop, rest, rfl, hrest⟩ := exists_item_of_spells hitems
    rw [TextTree.atom]
    exact ⟨_, rest, Nat.le_succ _, rfl, hrest⟩
  | .name name =>
    obtain ⟨stop, rest, rfl, hrest⟩ := exists_item_of_spells hitems
    have hopen : ending.isOpenLiteral rest = false := by
      simp [Ending.isOpenLiteral, hend]
    have hcall : ∀ stop' inner, rest ≠ ⟨.token .leftParen, stop'⟩ :: inner := by
      rintro stop' inner rfl
      cases us with
      | nil => simp [Spells] at hrest
      | cons u us =>
        obtain rfl := Symbol.token.inj (List.cons.inj hrest).1
        simp [Token.opensAtom] at hus
    rw [TextTree.atom, named, hopen]
    exact ⟨_, rest, Nat.le_succ _, rfl, hrest⟩
  | .parens inner =>
    rw [Atom.tokens, List.cons_append, List.append_assoc] at hitems
    obtain ⟨stop, rest, rfl, hrest⟩ := exists_item_of_spells hitems
    rw [TextTree.atom]
    exact ((inner.accepted hend (ended_rightParen us) hrest).closing ending).widen _
  | .empty => exact hus.stopsAt_atom hend hitems

/-- The parser takes a concatenation that has ended. -/
theorem Concatenation.accepted (c : Concatenation) (hend : ending.cause = .complete)
    {us : List Token} (hus : Ended us) {items : List Item}
    (hitems : Spells items (c.tokens ++ us)) :
    (TextTree.concatenation ending items).StopsAt us := by
  match c with
  | .single first =>
    obtain ⟨left, rest, fits, hfirst, hrest⟩ := first.accepted hend hus.clear hitems
    rw [TextTree.concatenation, hfirst]
    exact (hus.stopsAt_concatenationRest left hrest).widen fits
  | .join first more =>
    rw [Concatenation.tokens, List.append_assoc] at hitems
    obtain ⟨left, rest, fits, hfirst, hrest⟩ := first.accepted hend (clear_add _) hitems
    rw [TextTree.concatenation, hfirst]
    exact (more.accepted_rest hend left hus hrest).widen fits

/-- The parser takes a concatenation behind a sign. -/
theorem Concatenation.accepted_rest (c : Concatenation) (hend : ending.cause = .complete)
    (left : TextTree) {us : List Token} (hus : Ended us) {items : List Item}
    (hitems : Spells items (.operator .add :: (c.tokens ++ us))) :
    (concatenationRest ending left items).StopsAt us := by
  obtain ⟨stop, items, rfl, hbehind⟩ := exists_item_of_spells hitems
  match c with
  | .single first =>
    obtain ⟨right, rest, fits, hfirst, hrest⟩ := first.accepted hend hus.clear hbehind
    rw [concatenationRest, hfirst]
    exact (hus.stopsAt_concatenationRest _ hrest).widen _
  | .join first more =>
    rw [Concatenation.tokens, List.append_assoc] at hbehind
    obtain ⟨right, rest, fits, hfirst, hrest⟩ := first.accepted hend (clear_add _) hbehind
    rw [concatenationRest, hfirst]
    exact (more.accepted_rest hend _ hus hrest).widen _

end

theorem stopsAt_sequenceRest_nil (ending : Ending) (first : TextTree) :
    (sequenceRest ending first []).StopsAt [] := by
  rw [sequenceRest]
  · exact ⟨first, [], Nat.le_refl _, rfl, rfl⟩
  · simp

/-- The parser takes all segments behind a semicolon. -/
theorem Segments.accepted_rest (d : Segments) (hend : ending.cause = .complete)
    (first : TextTree) {items : List Item} (hitems : Spells items (.semicolon :: d.tokens)) :
    (sequenceRest ending first items).StopsAt [] := by
  induction d generalizing first items with
  | last segment =>
    obtain ⟨stop, items, rfl, hbehind⟩ := exists_item_of_spells hitems
    rw [Segments.tokens, ← List.append_nil segment.tokens] at hbehind
    obtain ⟨second, rest, fits, hsegment, hrest⟩ := segment.accepted hend ended_nil hbehind
    obtain rfl : rest = [] := by simpa [Spells] using hrest
    rw [sequenceRest, hsegment]
    exact (stopsAt_sequenceRest_nil _ _).widen _
  | behind segment more ih =>
    obtain ⟨stop, items, rfl, hbehind⟩ := exists_item_of_spells hitems
    obtain ⟨second, rest, fits, hsegment, hrest⟩ :=
      segment.accepted hend (ended_semicolon more.tokens) hbehind
    rw [sequenceRest, hsegment]
    exact (ih _ hrest).widen _

/-- All segments, as one part of the grammar. -/
def TextTree.segments (ending : Ending) (items : List Item) : Parsed TextTree items.length :=
  match concatenation ending items with
  | .stuck first => .stuck first
  | .done first rest fits => (sequenceRest ending first rest).widen fits

/-- A formula is all its segments, and a failure if they are not all of it. -/
theorem TextTree.ofOutline_eq (o : Outline) :
    ofOutline o = match segments o.ending o.items with
      | .stuck tree => tree
      | .done tree rest _ =>
        if rest.isEmpty && o.ending.cause == .complete then tree
        else tree.thenFail (o.ending.unexpected rest .syntaxError none) := by
  unfold ofOutline segments
  cases concatenation o.ending o.items with
  | stuck first => rfl
  | done first rest fits =>
    dsimp only
    cases sequenceRest o.ending first rest <;> rfl

/-- On the tokens of a derivation the parser does not get stuck, and leaves nothing. -/
theorem Segments.accepted (d : Segments) (hend : ending.cause = .complete) {items : List Item}
    (hitems : Spells items d.tokens) : (segments ending items).StopsAt [] := by
  cases d with
  | last segment =>
    rw [Segments.tokens, ← List.append_nil segment.tokens] at hitems
    obtain ⟨first, rest, fits, hsegment, hrest⟩ := segment.accepted hend ended_nil hitems
    obtain rfl : rest = [] := by simpa [Spells] using hrest
    rw [segments, hsegment]
    exact (stopsAt_sequenceRest_nil ending first).widen fits
  | behind segment more =>
    obtain ⟨first, rest, fits, hsegment, hrest⟩ :=
      segment.accepted hend (ended_semicolon more.tokens) hitems
    rw [segments, hsegment]
    exact (more.accepted_rest hend first hrest).widen fits

end Formulae.Grammar
