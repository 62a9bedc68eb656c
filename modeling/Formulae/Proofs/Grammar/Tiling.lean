import Formulae.Proofs.Grammar.Words

/-!
# Tokens as tiles

What is read of a formula covers it as tiles do: each token lies behind the one before it, with
nothing but plain spaces between them, and has at least one character, so that there are no more
tokens than characters. Behind the last token the reading stops, and stays where it stopped: at the
end of the formula, or before a character that begins no token. Only an integer that is too large
and a literal that is not closed are left behind.

Main results:

* `Cursor.exists_tile`, `Cursor.halts_of_stop` — what one reading does.
* `Cursor.exists_tiled` — what reading on and on does.
* `tokens_tile_formula` — the tokens of a formula, and how the reading of it stops.
-/

namespace Formulae.Grammar

-- ---------------------------------------------------------------------------
-- Tiles
-- ---------------------------------------------------------------------------

/-- A token with the spaces in front of it and the word that it is written as. -/
structure Tile where
  spaces : Nat
  word : List Char
  token : Token

namespace Tile

def text (x : Tile) : List Char :=
  List.replicate x.spaces ' ' ++ x.word

/-- The places where the words of tiles begin and end that lie behind one another. -/
def spans (start : Nat) : List Tile → List (Nat × Nat)
  | [] => []
  | x :: xs =>
    let stop := start + x.text.length
    (start + x.spaces, stop) :: spans stop xs

theorem length_text (x : Tile) : x.text.length = x.spaces + x.word.length := by
  rw [text, List.length_append, List.length_replicate]

variable {tiles : List Tile} {start : Nat} {span : Nat × Nat}

/-- No word is empty, and none begins before the tiles do. -/
theorem span_bounds (hwords : ∀ x ∈ tiles, x.word ≠ []) (h : span ∈ spans start tiles) :
    start ≤ span.1 ∧ span.1 < span.2 := by
  induction tiles generalizing start with
  | nil => cases h
  | cons x tiles ih =>
    obtain ⟨hword, hmore⟩ := List.forall_mem_cons.mp hwords
    have hpos := List.length_pos_iff.mpr hword
    have hlength := x.length_text
    rcases List.mem_cons.mp h with rfl | h
    · exact ⟨Nat.le_add_right _ _, by simp only; omega⟩
    · obtain ⟨hstart, hspan⟩ := ih hmore h
      exact ⟨by omega, hspan⟩

/-- No word begins before the one in front of it ends. -/
theorem pairwise_spans (hwords : ∀ x ∈ tiles, x.word ≠ []) (start : Nat) :
    (spans start tiles).Pairwise fun left right => left.2 ≤ right.1 := by
  induction tiles generalizing start with
  | nil => exact .nil
  | cons x tiles ih =>
    have hmore := (List.forall_mem_cons.mp hwords).2
    exact List.pairwise_cons.mpr ⟨fun _ hright => (span_bounds hmore hright).1, ih hmore _⟩

/-- There are no more tiles than characters. -/
theorem length_le (hwords : ∀ x ∈ tiles, x.word ≠ []) :
    tiles.length ≤ (tiles.flatMap text).length := by
  induction tiles with
  | nil => exact Nat.le_refl 0
  | cons x tiles ih =>
    obtain ⟨hword, hmore⟩ := List.forall_mem_cons.mp hwords
    have hpos := List.length_pos_iff.mpr hword
    have hlength := x.length_text
    have hrest := ih hmore
    rw [List.length_cons, List.flatMap_cons, List.length_append]
    omega

end Tile

-- ---------------------------------------------------------------------------
-- One reading
-- ---------------------------------------------------------------------------

namespace Cursor

variable {c last : Cursor} {t : Token} {tiles : List Tile}

theorem skip_eq {front rest : List Char} (h : c.after = front ++ rest) :
    c.skip front.length = ⟨front.reverse ++ c.before, rest⟩ := by
  obtain ⟨before, after⟩ := c
  cases h
  exact skip_append before front rest

/-- Characters are passed over in one go or in two. -/
theorem skip_add (m n : Nat) (c : Cursor) : c.skip (m + n) = (c.skip m).skip n := by
  induction m generalizing c with
  | zero => rw [Nat.zero_add]; rfl
  | succ m ih => rw [Nat.succ_add]; exact ih c.advance

/-- Where a text begins with something behind spaces, this is read, and what is left is left. -/
theorem next_eq {spaces : Nat} {front rest : List Char} {r : Reading}
    (h : c.after = List.replicate spaces ' ' ++ (front ++ rest))
    (hbegins : BeginsWith (front ++ rest) r rest) :
    c.next = (r, c.skip (spaces + front.length)) := by
  have hscan : scan c.after = (r, rest) := scan_eq_iff.mpr ⟨spaces, _, h, hbegins⟩
  have hlength : c.after.length - rest.length = spaces + front.length := by
    rw [h, List.length_append, List.length_append, List.length_replicate]
    omega
  rw [next, hscan]
  exact congrArg (fun n => (r, c.skip n)) hlength

/-- A token that is read stands at the place as a tile, and is left behind. -/
theorem exists_tile (h : c.next.1 = .token t) : ∃ x : Tile, x.token = t ∧ IsWordOf x.word t ∧
    (∃ rest, c.after = x.text ++ rest) ∧ c.next = (.token t, c.skip x.text.length) := by
  obtain ⟨rest, hscan⟩ : ∃ rest, scan c.after = (.token t, rest) := ⟨_, Prod.ext h rfl⟩
  obtain ⟨spaces, word, hafter, hword, hends⟩ := scan_eq_token_iff.mp hscan
  refine ⟨⟨spaces, word, t⟩, rfl, hword, ⟨rest, hafter⟩, ?_⟩
  rw [Tile.length_text]
  exact next_eq (by rw [hafter, List.append_assoc]) (.word hword hends)

/-- What is read one time after the other, each reading with the place behind it. -/
def answers : Nat → Cursor → List (Reading × Cursor)
  | 0, _ => []
  | n + 1, c => c.next :: answers n c.next.2

/-- What is read without moving is read ever after. -/
theorem answers_of_fixed {r : Reading} (h : c.next = (r, c)) (n : Nat) :
    c.answers n = List.replicate n (r, c) := by
  induction n with
  | zero => rfl
  | succ n ih => rw [answers, h, ih, List.replicate_succ]

/-- How reading stops. -/
inductive Halts (c : Cursor) : Prop
  /-- There are spaces up to the end of the text. All that is read there is its end. -/
  | finished (spaces : Nat) (hafter : c.after = List.replicate spaces ' ')
      (hnext : c.next = (.finished, c.skip spaces)) (hend : (c.skip spaces).after = [])
      (hstays : ∀ n, (c.skip spaces).answers n = List.replicate n (.finished, c.skip spaces))
  /-- There is a character that begins no token. The place is before it, and stays there. -/
  | stray (spaces : Nat) (d : Char) (rest : List Char)
      (hafter : c.after = List.replicate spaces ' ' ++ d :: rest) (hd : IsSignLike d)
      (hsigns : ∀ s ∈ signs, ¬s.1 <+: d :: rest) (hnext : c.next = (.unreadable, c.skip spaces))
      (hplace : (c.skip spaces).after = d :: rest)
      (hstays : ∀ n, (c.skip spaces).answers n = List.replicate n (.unreadable, c.skip spaces))
  /-- There are digits of an integer that is too large. The place is just behind them. -/
  | tooLarge (spaces : Nat) (digits rest : List Char)
      (hafter : c.after = List.replicate spaces ' ' ++ (digits ++ rest))
      (hdigits : ∀ d ∈ digits, d.isDigit = true) (hlarge : maxInteger < Number.ofDigits digits)
      (hends : ∀ d ∈ rest.head?, d.isDigit = false)
      (hnext : c.next = (.unreadable, c.skip (spaces + digits.length)))
      (hplace : (c.skip (spaces + digits.length)).after = rest)
  /-- There is a literal that is not closed. The place is at the end, which is read there. -/
  | unclosed (spaces : Nat) (quote : Char) (rest : List Char)
      (hafter : c.after = List.replicate spaces ' ' ++ quote :: rest)
      (hquote : quote = '\'' ∨ quote = '"') (hopen : quote ∉ rest)
      (hnext : c.next = (.openLiteral, c.skip c.after.length))
      (hend : (c.skip c.after.length).after = [])
      (hstays : (c.skip c.after.length).next = (.finished, c.skip c.after.length))

/-- Behind the spaces and the word of a tile comes the rest. -/
theorem after_skip_spaces {spaces : Nat} {front rest : List Char}
    (h : c.after = List.replicate spaces ' ' ++ (front ++ rest)) :
    (c.skip (spaces + front.length)).after = rest := by
  have hlength : (List.replicate spaces ' ' ++ front).length = spaces + front.length := by simp
  rw [after_skip, h, ← List.append_assoc, ← hlength, List.drop_left]

theorem next_of_after_eq_nil (h : c.after = []) : c.next = (.finished, c) := by
  obtain ⟨before, after⟩ := c
  cases h
  rfl

/-- Where no token is read the reading stops in one of these ways. -/
theorem halts_of_stop (h : ∀ t, c.next.1 ≠ .token t) : c.Halts := by
  obtain ⟨r, rest, hscan⟩ : ∃ r rest, scan c.after = (r, rest) := ⟨_, _, rfl⟩
  obtain ⟨spaces, behind, hafter, hbegins⟩ := scan_eq_iff.mp hscan
  have hread : c.next.1 = r := congrArg Prod.fst hscan
  cases hbegins with
  | nothing =>
    have hnext : c.next = (.finished, c.skip spaces) := @next_eq c spaces [] [] _ hafter .nothing
    have hend : (c.skip spaces).after = [] := @after_skip_spaces c spaces [] [] hafter
    exact .finished spaces (hafter.trans (List.append_nil _)) hnext hend
      (answers_of_fixed (next_of_after_eq_nil hend))
  | word => exact absurd hread (h _)
  | @tooLarge digits _ hdigits hlarge hends =>
    exact .tooLarge spaces digits rest hafter hdigits hlarge hends
      (next_eq hafter (.tooLarge hdigits hlarge hends)) (after_skip_spaces hafter)
  | @stray d cs hd hsigns =>
    have hnext : c.next = (.unreadable, c.skip spaces) :=
      @next_eq c spaces [] _ _ hafter (.stray hd hsigns)
    have hplace : (c.skip spaces).after = d :: cs := @after_skip_spaces c spaces [] _ hafter
    have hstays : (c.skip spaces).next = (.unreadable, c.skip spaces) :=
      @next_eq (c.skip spaces) 0 [] _ _ hplace (.stray hd hsigns)
    exact .stray spaces d cs hafter hd hsigns hnext hplace (answers_of_fixed hstays)
  | @unclosed quote cs hquote hopen =>
    have hsplit : c.after = List.replicate spaces ' ' ++ (quote :: cs ++ []) := by
      rw [hafter, List.append_nil]
    have hlength : spaces + (quote :: cs).length = c.after.length := by
      rw [hafter, List.length_append, List.length_replicate]
    have hunclosed : BeginsWith (quote :: cs ++ []) .openLiteral [] := by
      rw [List.append_nil]
      exact .unclosed hquote hopen
    have hnext := next_eq hsplit hunclosed
    have hend := after_skip_spaces hsplit
    rw [hlength] at hnext hend
    exact .unclosed spaces quote cs hafter hquote hopen hnext hend (next_of_after_eq_nil hend)

-- ---------------------------------------------------------------------------
-- Reading on and on
-- ---------------------------------------------------------------------------

/-- From a place tile after tile is read, up to another place. -/
inductive Tiled : Cursor → List Tile → Cursor → Prop
  | here {c : Cursor} : Tiled c [] c
  | tile {c last : Cursor} {x : Tile} {tiles : List Tile} (hword : IsWordOf x.word x.token)
      (hafter : ∃ rest, c.after = x.text ++ rest)
      (hnext : c.next = (.token x.token, c.skip x.text.length))
      (hmore : Tiled (c.skip x.text.length) tiles last) : Tiled c (x :: tiles) last

/-- The readings of tiles from a place on, each with the place behind its word. -/
def readingsOf (c : Cursor) : List Tile → List (Reading × Cursor)
  | [] => []
  | x :: xs =>
    let place := c.skip x.text.length
    (.token x.token, place) :: place.readingsOf xs

/-- Tiles are read one after the other up to a place where the reading stops. -/
theorem exists_tiled (c : Cursor) : ∃ tiles last, Tiled c tiles last ∧ last.Halts := by
  induction hlen : c.after.length using Nat.strongRecOn generalizing c with
  | ind length ih =>
    by_cases hstop : ∀ t, c.next.1 ≠ .token t
    · exact ⟨[], c, .here, halts_of_stop hstop⟩
    · obtain ⟨t, hread⟩ : ∃ t, c.next.1 = .token t := by simpa using hstop
      have hlt := length_after_next_lt hread
      obtain ⟨x, rfl, hword, hafter, hnext⟩ := exists_tile hread
      rw [hnext, hlen] at hlt
      obtain ⟨tiles, last, htiled, hhalts⟩ := ih _ hlt _ rfl
      exact ⟨x :: tiles, last, .tile hword hafter hnext htiled, hhalts⟩

namespace Tiled

theorem word_ne_nil (h : Tiled c tiles last) :
    ∀ x ∈ tiles, IsWordOf x.word x.token ∧ x.word ≠ [] := by
  induction h with
  | here => exact fun x hx => absurd hx List.not_mem_nil
  | tile hword _ _ _ ih =>
    obtain ⟨d, cs, hcons, -⟩ := hword.exists_head
    exact List.forall_mem_cons.mpr ⟨⟨hword, by rw [hcons]; exact List.cons_ne_nil d cs⟩, ih⟩

/-- The tiles cover the text between the places. -/
theorem after_eq (h : Tiled c tiles last) : c.after = tiles.flatMap Tile.text ++ last.after := by
  induction h with
  | here => rfl
  | @tile c last x tiles _ hafter _ _ ih =>
    obtain ⟨rest, hafter⟩ := hafter
    rw [skip_eq hafter] at ih
    rw [hafter, List.flatMap_cons, List.append_assoc, ← ih]

/-- The last place is behind the texts of all tiles. -/
theorem last_eq (h : Tiled c tiles last) : last = c.skip (tiles.flatMap Tile.text).length := by
  induction h with
  | here => rfl
  | tile _ _ _ _ ih => rw [List.flatMap_cons, List.length_append, skip_add, ← ih]

/-- What is read are the tokens of the tiles, and what is read where they stop. -/
theorem readings_eq (h : Tiled c tiles last) :
    c.readings = c.readingsOf tiles ++ last.readings := by
  induction h with
  | here => rfl
  | tile _ _ hnext _ ih =>
    have hread := congrArg Prod.fst hnext
    rw [readings_of_token hread, hnext, ih]
    rfl

/-- Reading as often as there are tiles gives their tokens, and the next time what stops it. -/
theorem answers_eq (h : Tiled c tiles last) :
    c.answers (tiles.length + 1) = c.readingsOf tiles ++ [last.next] := by
  induction h with
  | here => rfl
  | tile _ _ hnext _ ih =>
    rw [List.length_cons, answers, hnext, ih]
    rfl

/-- The words end where the places behind the tokens are. -/
theorem charOffset_eq (h : Tiled c tiles last) :
    (Tile.spans c.charOffset tiles).map Prod.snd =
      (c.readingsOf tiles).map fun r => r.2.charOffset := by
  induction h with
  | here => rfl
  | @tile c last x tiles _ hafter _ _ ih =>
    obtain ⟨rest, hafter⟩ := hafter
    have hplace : (c.skip x.text.length).charOffset = c.charOffset + x.text.length := by
      rw [skip_eq hafter, charOffset, charOffset, List.length_append, List.length_reverse,
        Nat.add_comm]
    rw [hplace] at ih
    rw [Tile.spans, List.map_cons, ih, readingsOf, List.map_cons, hplace]

end Tiled

theorem Halts.readings_eq (h : c.Halts) : c.readings = [c.next] := by
  refine readings_of_stop fun t ht => ?_
  cases h with
  | finished _ _ hnext | stray _ _ _ _ _ _ hnext | tooLarge _ _ _ _ _ _ _ hnext
  | unclosed _ _ _ _ _ _ hnext =>
    rw [hnext] at ht
    cases ht

end Cursor

/-- The tokens of a formula, and how the reading of it stops. The readings are tiles that cover the
formula up to the place where the reading stops, no word of a token is empty, the words lie behind
one another, and besides them there are only spaces. There are no more tokens than characters. -/
theorem tokens_tile_formula (formula : String) :
    let c := Cursor.ofText formula
    ∃ (tiles : List Tile) (last : Cursor),
      formula.toList = tiles.flatMap Tile.text ++ last.after ∧
      last = c.skip (tiles.flatMap Tile.text).length ∧
      (∀ x ∈ tiles, IsWordOf x.word x.token ∧ x.word ≠ []) ∧
      (Tile.spans 0 tiles).map Prod.snd = (c.readingsOf tiles).map (fun r => r.2.charOffset) ∧
      (∀ span ∈ Tile.spans 0 tiles, span.1 < span.2) ∧
      (Tile.spans 0 tiles).Pairwise (fun left right => left.2 ≤ right.1) ∧
      c.readings = c.readingsOf tiles ++ [last.next] ∧
      c.answers (tiles.length + 1) = c.readings ∧ tiles.length + 1 ≤ formula.length + 1 ∧
      last.Halts := by
  intro c
  obtain ⟨tiles, last, htiled, hhalts⟩ := c.exists_tiled
  have hwords : ∀ x ∈ tiles, x.word ≠ [] := fun x hx => (htiled.word_ne_nil x hx).2
  have htext : formula.toList = tiles.flatMap Tile.text ++ last.after := htiled.after_eq
  have hreadings := htiled.readings_eq
  rw [hhalts.readings_eq] at hreadings
  refine ⟨tiles, last, htext, htiled.last_eq, htiled.word_ne_nil, htiled.charOffset_eq,
    fun span hspan => (Tile.span_bounds hwords hspan).2, Tile.pairwise_spans hwords 0, hreadings,
    htiled.answers_eq.trans hreadings.symm, ?_, hhalts⟩
  have hlength := congrArg List.length htext
  rw [String.length_toList, List.length_append] at hlength
  have hle := Tile.length_le hwords
  omega

end Formulae.Grammar
