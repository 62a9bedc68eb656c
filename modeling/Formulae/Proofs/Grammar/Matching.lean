import Formulae.Proofs.Grammar.Stream
import Formulae.Proofs.Grammar.Agreement

/-!
# Matching parentheses

The scan for the closing parenthesis of a call looks at quotes and parentheses of the text and at
nothing else; the stream of tokens has numbers, names and literals besides. In a formula without
double quotes that is read to its end both find the same parenthesis: behind every token the scan is
outside of quotes, and has counted the parentheses that are tokens.

Main results:

* `closeBehind?_token` — what the scan does over one token.
* `Cursor.closeBehind?_after` — over a stream the scan finds the parenthesis that matches.
* `Cursor.matching?_eq_some_iff` — which parenthesis of a stream that is.
* `closingOffset?_eq_some_iff` — the scan and the stream agree about every opening parenthesis.
-/

namespace Formulae.Grammar

open Arguments

variable {t : Token} {cs rest : List Char} {depth depth' : Nat}

-- ---------------------------------------------------------------------------
-- Counting
-- ---------------------------------------------------------------------------

/-- How many parentheses a reading opens. -/
def Reading.weight : Reading → Int
  | .token .leftParen => 1
  | .token .rightParen => -1
  | _ => 0

/-- How many more parentheses are opened in a stream than closed. -/
def nesting : List (Reading × Cursor) → Int
  | [] => 0
  | r :: rs => r.1.weight + nesting rs

@[simp] theorem nesting_nil : nesting [] = 0 := rfl

@[simp] theorem nesting_cons (r : Reading × Cursor) (rs : List (Reading × Cursor)) :
    nesting (r :: rs) = r.1.weight + nesting rs := rfl

/-- With so many parentheses open before it, a stream closes all of them and those that it opens,
and none that is not open. -/
structure Matched (start : Int) (rs : List (Reading × Cursor)) : Prop where
  nested : ∀ front back, rs = front ++ back → 0 ≤ start + nesting front
  closed : start + nesting rs = 0

theorem Matched.nonneg {start : Int} {rs : List (Reading × Cursor)} (h : Matched start rs) :
    0 ≤ start := by
  simpa using h.nested [] rs rfl

theorem matched_nil {start : Int} : Matched start [] ↔ start = 0 := by
  constructor
  · intro h
    simpa using h.closed
  · rintro rfl
    refine ⟨fun front back h => ?_, rfl⟩
    rw [(List.append_eq_nil_iff.mp h.symm).1]
    simp

/-- Readings are matched if those behind the first one are, so many parentheses being open then. -/
theorem matched_cons {start : Int} {r : Reading × Cursor} {rs : List (Reading × Cursor)} :
    Matched start (r :: rs) ↔ 0 ≤ start ∧ Matched (start + r.1.weight) rs := by
  constructor
  · intro h
    refine ⟨h.nonneg, fun front back hrs => ?_, ?_⟩
    · have hfront := h.nested (r :: front) back (by rw [hrs]; rfl)
      rwa [nesting_cons, ← Int.add_assoc] at hfront
    · rw [Int.add_assoc, ← nesting_cons]
      exact h.closed
  · rintro ⟨hstart, h⟩
    refine ⟨fun front back hrs => ?_, ?_⟩
    · cases front with
      | nil => simpa using hstart
      | cons r' front =>
        obtain ⟨rfl, hfront⟩ := List.cons.inj hrs
        rw [nesting_cons, ← Int.add_assoc]
        exact h.nested front back hfront
    · rw [nesting_cons, ← Int.add_assoc]
      exact h.closed

/-- The parentheses that are open behind a reading; none if it closes one that is not open. -/
def Reading.openBehind? : Reading → Nat → Option Nat
  | .token .leftParen, depth => some (depth + 1)
  | .token .rightParen, 0 => none
  | .token .rightParen, depth + 1 => some depth
  | _, depth => some depth

/-- Only a closing parenthesis can be one too many. -/
theorem Reading.openBehind?_eq_none {r : Reading} (h : r.openBehind? depth = none) :
    r = .token .rightParen ∧ depth = 0 := by
  unfold openBehind? at h
  split at h <;> simp_all

/-- Otherwise a reading adds its weight. -/
theorem Reading.openBehind?_eq_some {r : Reading} (h : r.openBehind? depth = some depth') :
    (depth : Int) + r.weight = depth' ∧ ¬ (r = .token .rightParen ∧ depth = 0) := by
  cases r with
  | token t =>
    cases t with
    | rightParen =>
      cases depth with
      | zero => simp [openBehind?] at h
      | succ depth =>
        obtain rfl := Option.some.inj h
        refine ⟨?_, by simp⟩
        show ((depth + 1 : Nat) : Int) + -1 = depth
        omega
    | _ =>
      obtain rfl := Option.some.inj h
      simp [weight]
  | _ =>
    obtain rfl := Option.some.inj h
    simp [weight]

-- ---------------------------------------------------------------------------
-- Over one token
-- ---------------------------------------------------------------------------

namespace Arguments

/-- The text behind the parenthesis that closes a text. -/
def closeBehind? (depth : Nat) (quoted : Bool) (cs : List Char) : Option (List Char) :=
  (closeFrom? depth quoted cs).map Prod.snd

theorem closeBehind?_eq_some_iff {quoted : Bool} : closeBehind? depth quoted cs = some rest ↔
    ∃ inner, closeFrom? depth quoted cs = some (inner, rest) := by
  simp [closeBehind?]

theorem closeBehind?_of_closeFrom? {quoted quoted' : Bool} {c : Char}
    (h : closeFrom? depth quoted (c :: cs) =
      (closeFrom? depth' quoted' cs).map fun r => (c :: r.1, r.2)) :
    closeBehind? depth quoted (c :: cs) = closeBehind? depth' quoted' cs := by
  rw [closeBehind?, h, Option.map_map]
  rfl

/-- The scan goes on behind a text without marks as before it. Unlike the scan for the commas, it
is not held up by one. -/
theorem closeBehind?_unmarked {piece : List Char} (h : piece.filter isMark = []) :
    closeBehind? depth false (piece ++ rest) = closeBehind? depth false rest := by
  induction piece with
  | nil => rfl
  | cons c piece ih =>
    rw [List.filter_eq_nil_iff] at h
    have hc := h c (by simp)
    rw [isMark_iff, not_or, not_or, not_or] at hc
    rw [List.cons_append, closeBehind?_of_closeFrom?]
    · exact ih (List.filter_eq_nil_iff.mpr fun d hd => h d (List.mem_cons_of_mem _ hd))
    · rw [closeFrom?, if_neg hc.1, if_neg (by simp), if_neg hc.2.1, if_neg hc.2.2.1]

/-- The scan passes over a literal in single quotes. -/
theorem closeBehind?_literal (h : '\'' ∉ cs) :
    closeBehind? depth false ('\'' :: (cs ++ '\'' :: rest)) = closeBehind? depth false rest := by
  rw [closeBehind?_of_closeFrom? (passes_quote.closeFrom _)]
  induction cs with
  | nil => exact closeBehind?_of_closeFrom? (passes_quote.closeFrom _)
  | cons c cs ih =>
    rw [List.mem_cons, not_or] at h
    have hpasses := @passes_quoted depth c (Ne.symm h.1)
    exact (closeBehind?_of_closeFrom? (hpasses.closeFrom _)).trans (ih h.2)

end Arguments

/-- A literal is written between quotes behind spaces. -/
theorem scan_text {s : String} (h : scan cs = (.token (.text s), rest)) :
    ∃ spaces quote, cs = spaces ++ quote :: (s.toList ++ quote :: rest) ∧
      spaces.filter isMark = [] ∧ (quote = '\'' ∨ quote = '"') ∧ quote ∉ s.toList := by
  obtain ⟨spaces, word, rfl, hword, -⟩ := scan_eq_token_iff.mp h
  cases hword with
  | sign h => simp [signs] at h
  | @text quote s hquote hclosed =>
    refine ⟨List.replicate spaces ' ', quote, ?_, filter_spaces spaces, hquote, ?_⟩
    · simp
    · rwa [String.toList_ofList]

/-- Over a token the scan counts the parenthesis that the token is, if it is one, and it ends behind
the token if that closes what is not open. -/
theorem closeBehind?_token (hscan : scan cs = (.token t, rest)) (hquote : '"' ∉ cs) :
    closeBehind? depth false cs =
      match (Reading.token t).openBehind? depth with
      | some depth => closeBehind? depth false rest
      | none => some rest := by
  by_cases htext : ∃ s, t = .text s
  · obtain ⟨s, rfl⟩ := htext
    obtain ⟨spaces, quote, rfl, hspaces, rfl | rfl, hs⟩ := scan_text hscan
    · rw [closeBehind?_unmarked hspaces, closeBehind?_literal hs]
      rfl
    · simp at hquote
  obtain ⟨front, rfl, hfront⟩ := scan_front hscan (by simpa using htext)
  rw [List.append_assoc, closeBehind?_unmarked hfront]
  cases t with
  | leftParen => exact closeBehind?_of_closeFrom? (passes_open.closeFrom _)
  | rightParen =>
    cases depth with
    | zero => rfl
    | succ depth => exact closeBehind?_of_closeFrom? (passes_close.closeFrom _)
  | semicolon => exact closeBehind?_of_closeFrom? rfl
  | text s => exact absurd ⟨s, rfl⟩ htext
  | operator | integer | double | identifier => rfl

/-- Where no token is left the scan finds nothing. -/
theorem closeBehind?_finished (h : (scan cs).1 = .finished) :
    closeBehind? depth false cs = none := by
  obtain ⟨spaces, rfl⟩ := scan_eq_finished_iff.mp h
  rw [← List.append_nil (List.replicate _ _), closeBehind?_unmarked (filter_spaces spaces)]
  rfl

-- ---------------------------------------------------------------------------
-- Over a stream
-- ---------------------------------------------------------------------------

/-- The place behind the parenthesis of a stream that closes the last of the open ones. -/
def matching? (depth : Nat) : List (Reading × Cursor) → Option Cursor
  | [] => none
  | (reading, place) :: rs =>
    match reading.openBehind? depth with
    | some depth => matching? depth rs
    | none => some place

/-- The parenthesis that closes the last of the open ones is the one in front of which all that are
opened in between are closed. -/
theorem matching?_eq_some_iff {rs : List (Reading × Cursor)} {close : Cursor} :
    matching? depth rs = some close ↔ ∃ inner rest,
      rs = inner ++ (.token .rightParen, close) :: rest ∧ Matched depth inner := by
  induction rs generalizing depth with
  | nil => simp [matching?]
  | cons r rs ih =>
    obtain ⟨reading, place⟩ := r
    rw [matching?]
    cases hopen : reading.openBehind? depth with
    | none =>
      obtain ⟨rfl, rfl⟩ := Reading.openBehind?_eq_none hopen
      constructor
      · rintro ⟨⟩
        exact ⟨[], rs, rfl, matched_nil.mpr rfl⟩
      · rintro ⟨inner, rest, hrs, hinner⟩
        cases inner with
        | nil =>
          obtain ⟨hplace, -⟩ := List.cons.inj hrs
          rw [(Prod.mk.inj hplace).2]
        | cons r inner =>
          -- nothing is open that the first parenthesis could close
          obtain ⟨rfl, -⟩ := List.cons.inj hrs
          have hbelow : (0 : Int) ≤ 0 + -1 := (matched_cons.mp hinner).2.nonneg
          exact absurd hbelow (by decide)
    | some depth' =>
      obtain ⟨hdepth, hfirst⟩ := Reading.openBehind?_eq_some hopen
      rw [ih]
      constructor
      · rintro ⟨inner, rest, rfl, hinner⟩
        refine ⟨(reading, place) :: inner, rest, rfl, matched_cons.mpr ⟨by omega, ?_⟩⟩
        rwa [hdepth]
      · rintro ⟨inner, rest, hrs, hinner⟩
        cases inner with
        | nil =>
          obtain ⟨hplace, -⟩ := List.cons.inj hrs
          have hclosed := matched_nil.mp hinner
          exact absurd ⟨(Prod.mk.inj hplace).1, by omega⟩ hfirst
        | cons r inner =>
          obtain ⟨rfl, hrest⟩ := List.cons.inj hrs
          have hmore := (matched_cons.mp hinner).2
          rw [hdepth] at hmore
          exact ⟨inner, rest, hrest, hmore⟩

namespace Cursor

variable {c place : Cursor} {front back : List (Reading × Cursor)}

/-- A stream that goes on with a token goes on behind it. -/
theorem readings_eq_cons {r : Reading × Cursor} (h : c.readings = r :: back) :
    (∃ t, c.next.1 = .token t ∧ r = (.token t, c.next.2) ∧ c.next.2.readings = back) ∨
      (∀ t, r.1 ≠ .token t) ∧ back = [] := by
  by_cases hstop : ∀ t, c.next.1 ≠ .token t
  · rw [readings_of_stop hstop] at h
    obtain ⟨rfl, rfl⟩ := List.cons.inj h
    exact .inr ⟨hstop, rfl⟩
  · obtain ⟨t, hread⟩ : ∃ t, c.next.1 = .token t := by simpa using hstop
    rw [readings_of_token hread] at h
    obtain ⟨rfl, hback⟩ := List.cons.inj h
    exact .inl ⟨t, hread, rfl, hback⟩

/-- Behind a token the stream goes on as one of the same text. -/
theorem readings_behind (h : c.readings = front ++ (.token t, place) :: back) :
    place.readings = back ∧ place.text = c.text ∧ (place.Finishes ↔ c.Finishes) := by
  induction front generalizing c with
  | nil =>
    rcases readings_eq_cons h with ⟨t', hread, hplace, hback⟩ | ⟨hstop, -⟩
    · obtain ⟨-, rfl⟩ := Prod.mk.inj hplace
      exact ⟨hback, c.text_next, (finishes_of_token hread).symm⟩
    · exact absurd rfl (hstop t)
  | cons r front ih =>
    rcases readings_eq_cons h with ⟨t', hread, -, hmore⟩ | ⟨-, hnone⟩
    · obtain ⟨hback, htext, hfinishes⟩ := ih hmore
      exact ⟨hback, htext.trans c.text_next, hfinishes.trans (finishes_of_token hread).symm⟩
    · simp at hnone

/-- Over a stream that is read to the end of the text the scan finds the parenthesis that closes the
last of the open ones. -/
theorem closeBehind?_after (hfinishes : c.Finishes) (hquote : '"' ∉ c.after) :
    closeBehind? depth false c.after = (matching? depth c.readings).map Cursor.after := by
  induction hlen : c.after.length using Nat.strongRecOn generalizing c depth with
  | ind length ih =>
    by_cases hstop : ∀ t, c.next.1 ≠ .token t
    · have hfinished := (finishes_of_stop hstop).mp hfinishes
      have hnext : c.next = (.finished, c.next.2) := by rw [← hfinished]
      rw [closeBehind?_finished hfinished, readings_of_stop hstop, hnext]
      rfl
    obtain ⟨t, hread⟩ : ∃ t, c.next.1 = .token t := by simpa using hstop
    have hscan : scan c.after = (.token t, c.next.2.after) := Prod.ext hread c.after_next.symm
    have hlt : c.next.2.after.length < length := hlen ▸ length_after_next_lt hread
    have hbehind : '"' ∉ c.next.2.after := by
      rw [c.after_next]
      exact fun hmem => hquote ((scan_suffix c.after).mem hmem)
    rw [closeBehind?_token hscan hquote, readings_of_token hread, matching?]
    cases (Reading.token t).openBehind? depth with
    | none => rfl
    | some depth => exact ih _ hlt ((finishes_of_token hread).mp hfinishes) hbehind rfl

/-- A place in a text is found again by what lies behind it. -/
theorem before_eq {close : Cursor} {inner : List Char} (htext : close.text = place.text)
    (hafter : place.after = inner ++ ')' :: close.after) :
    close.before = ')' :: (inner.reverse ++ place.before) := by
  have hwhole : close.before.reverse ++ close.after =
      place.before.reverse ++ inner ++ [')'] ++ close.after := by
    refine htext.trans ?_
    simp [text, hafter]
  have hbefore := List.append_cancel_right hwhole
  rw [← List.reverse_inj, hbefore]
  simp

/-- The scan from a place of a formula is that of what lies behind the place. -/
theorem closingOffset?_iff {formula : String} (htext : place.text = formula.toList) {i : Nat} :
    closingOffset? formula place.byteOffset = some i ↔
      ∃ inner rest, closeFrom? 0 false place.after = some (inner, rest) ∧
        place.byteOffset + Text.byteLength inner = i := by
  have hdrop : Text.dropBytes? place.byteOffset formula.toList = some place.after :=
    Text.dropBytes?_eq_some_iff.mpr ⟨_, htext.symm, Text.byteLength_reverse _⟩
  rw [closingOffset?, hdrop]
  show (close? place.after).bind _ = some i ↔ _
  simp [Option.bind_eq_some_iff, close?]

end Cursor

-- ---------------------------------------------------------------------------
-- Formulas
-- ---------------------------------------------------------------------------

/-- In a formula without double quotes whose tokens go on to its end, the scan for the parenthesis
that closes an opening one ends at the closing one that matches it among the tokens, and finds none
if none does. -/
theorem closingOffset?_eq_some_iff {formula : String} (hquote : '"' ∉ formula.toList)
    (hfinishes : (Cursor.ofText formula).Finishes) {front back : List (Reading × Cursor)}
    {place : Cursor}
    (hopen : (Cursor.ofText formula).readings = front ++ (.token .leftParen, place) :: back)
    (i : Nat) :
    closingOffset? formula place.byteOffset = some i ↔
      ∃ inner before after rest,
        back = inner ++ (.token .rightParen, ⟨')' :: before, after⟩) :: rest ∧
          Matched 0 inner ∧ Text.byteLength before = i := by
  obtain ⟨hback, htext, hends⟩ := Cursor.readings_behind hopen
  have hafter : '"' ∉ place.after := by
    have hformula : formula.toList = place.before.reverse ++ place.after := htext.symm
    rw [hformula, List.mem_append, not_or] at hquote
    exact hquote.2
  have hscan : closeBehind? 0 false place.after = (matching? 0 back).map Cursor.after := by
    rw [← hback]
    exact Cursor.closeBehind?_after (hends.mpr hfinishes) hafter
  -- a parenthesis of the stream stands where the text behind it says
  have hplaced : ∀ {inner close rest}, back = inner ++ (.token .rightParen, close) :: rest →
      ∀ {piece}, place.after = piece ++ ')' :: close.after →
        close.before = ')' :: (piece.reverse ++ place.before) := by
    intro inner close rest hrest piece hpiece
    have hwhole : (Cursor.ofText formula).readings =
        (front ++ (.token .leftParen, place) :: inner) ++ (.token .rightParen, close) :: rest := by
      rw [hopen, hrest]
      simp
    exact Cursor.before_eq ((Cursor.readings_behind hwhole).2.1.trans htext.symm) hpiece
  rw [Cursor.closingOffset?_iff htext]
  constructor
  · rintro ⟨piece, after, hclose, rfl⟩
    rw [closeBehind?_eq_some_iff.mpr ⟨piece, hclose⟩] at hscan
    obtain ⟨close, hmatching, rfl⟩ := Option.map_eq_some_iff.mp hscan.symm
    obtain ⟨inner, rest, hrest, hinner⟩ := matching?_eq_some_iff.mp hmatching
    have hbefore := hplaced hrest (append_of_closeFrom? hclose)
    refine ⟨inner, piece.reverse ++ place.before, close.after, rest, ?_, hinner, ?_⟩
    · rw [← hbefore]
      exact hrest
    · rw [Text.byteLength_append, Text.byteLength_reverse, Nat.add_comm]
      rfl
  · rintro ⟨inner, before, after, rest, hrest, hinner, rfl⟩
    rw [matching?_eq_some_iff.mpr ⟨inner, rest, hrest, hinner⟩] at hscan
    obtain ⟨piece, hclose⟩ := closeBehind?_eq_some_iff.mp hscan
    have hbefore := hplaced hrest (append_of_closeFrom? hclose)
    obtain ⟨-, rfl⟩ := List.cons.inj hbefore
    refine ⟨piece, after, hclose, ?_⟩
    rw [Text.byteLength_append, Text.byteLength_reverse, Nat.add_comm]
    rfl

/-- A quoted parenthesis behind a character of two bytes, and a parenthesis that is never closed. -/
theorem closingOffset?_eq_some_iff_nested :
    let formula := "f('é)' + (x)) + (2"
    let readings := (Cursor.ofText formula).readings
    '"' ∉ formula.toList ∧ (Cursor.ofText formula).Finishes ∧
      ∃ inner before after rest,
        readings.drop 2 = inner ++ (.token .rightParen, ⟨')' :: before, after⟩) :: rest ∧
          Matched 0 inner ∧ Text.byteLength before = 13 := by
  intro formula readings
  have hquote : '"' ∉ formula.toList := by decide +kernel
  have hfinishes : (Cursor.ofText formula).Finishes :=
    ⟨⟨formula.toList.reverse, []⟩, by decide +kernel⟩
  have hopen : readings = readings.take 1 ++
      (.token .leftParen, ⟨['(', 'f'], formula.toList.drop 2⟩) :: readings.drop 2 := by
    decide +kernel
  exact ⟨hquote, hfinishes,
    (closingOffset?_eq_some_iff hquote hfinishes hopen 13).mp (by decide +kernel)⟩

end Formulae.Grammar
