import Formulae.Grammar.Arguments

/-!
# Scanning the arguments of a call

The two scans over the text of a call, for its closing parenthesis and for its commas, are in the
same state behind the same text: so many parentheses are open, and a quote is open or not.
`openBehind?` follows this state over a text in which neither scan comes to an end, and both of them
pass over such a text. White space is passed over in any state, and it is trimmed off the pieces
whether it was trimmed off the whole before or not.

Main results:

* `Arguments.closeFrom?_append`, `Arguments.piecesFrom_append` — both scans pass over a text.
* `Arguments.take?_append_iff` — what follows a call has no part in taking its arguments.
* `Arguments.split_eq` — the arguments are the trimmed pieces of the text as it stands.
-/

namespace Formulae.Grammar.Arguments

-- ---------------------------------------------------------------------------
-- Passing over a text
-- ---------------------------------------------------------------------------

/-- The parentheses that are open behind a text and whether a quote is, if no parenthesis is closed
in it that was not open and no comma stands where none is open. -/
def openBehind? (depth : Nat) (quoted : Bool) : List Char → Option (Nat × Bool)
  | [] => some (depth, quoted)
  | c :: cs =>
    if c = '\'' then openBehind? depth (!quoted) cs
    else if quoted then openBehind? depth true cs
    else if c = '(' then openBehind? (depth + 1) false cs
    else if c = ')' then if depth = 0 then none else openBehind? (depth - 1) false cs
    else if c = ',' ∧ depth = 0 then none
    else openBehind? depth false cs

/-- The scans pass over a character, and go on behind it in another state. -/
structure Passes (depth : Nat) (quoted : Bool) (c : Char) (depth' : Nat) (quoted' : Bool) :
    Prop where
  openBehind (more : List Char) :
    openBehind? depth quoted (c :: more) = openBehind? depth' quoted' more
  closeFrom (more : List Char) : closeFrom? depth quoted (c :: more) =
    (closeFrom? depth' quoted' more).map fun r => (c :: r.1, r.2)
  piecesFrom (more : List Char) :
    piecesFrom depth quoted (c :: more) = putFirst c (piecesFrom depth' quoted' more)

variable {depth depth' : Nat} {quoted quoted' : Bool} {c : Char} {cs rest : List Char}

theorem passes_quote : Passes depth quoted '\'' depth (!quoted) :=
  ⟨fun _ => rfl, fun _ => rfl, fun _ => rfl⟩

theorem passes_quoted (h : c ≠ '\'') : Passes depth true c depth true := by
  constructor <;> intro more
  · rw [openBehind?, if_neg h, if_pos rfl]
  · rw [closeFrom?, if_neg h, if_pos rfl]
  · rw [piecesFrom, if_neg h, if_pos rfl]

theorem passes_open : Passes depth false '(' (depth + 1) false :=
  ⟨fun _ => rfl, fun _ => rfl, fun _ => rfl⟩

theorem passes_close : Passes (depth + 1) false ')' depth false := by
  refine ⟨fun _ => rfl, fun _ => rfl, fun more => ?_⟩
  have hdepth : ((depth + 1 : Nat) : Int) - 1 = depth := by omega
  show putFirst ')' (piecesFrom _ false more) = _
  rw [hdepth]

theorem passes_plain (hquote : c ≠ '\'') (hopen : c ≠ '(') (hclose : c ≠ ')')
    (hcomma : ¬ (c = ',' ∧ depth = 0)) : Passes depth false c depth false := by
  have hcomma' : ¬ (c = ',' ∧ (depth : Int) = 0) := by
    rintro ⟨hc, hdepth⟩
    exact hcomma ⟨hc, by omega⟩
  constructor <;> intro more
  · rw [openBehind?, if_neg hquote, if_neg (by simp), if_neg hopen, if_neg hclose, if_neg hcomma]
  · rw [closeFrom?, if_neg hquote, if_neg (by simp), if_neg hopen, if_neg hclose]
  · rw [piecesFrom, if_neg hquote, if_neg (by simp), if_neg hopen, if_neg hclose, if_neg hcomma']

/-- If no scan comes to an end in a text, they pass over its first character, and also where more
parentheses are open. -/
theorem passes_of_openBehind? (h : openBehind? depth quoted (c :: cs) = some (depth', quoted')) :
    ∃ d q, (∀ k, Passes (depth + k) quoted c (d + k) q) ∧
      openBehind? d q cs = some (depth', quoted') := by
  suffices hpasses : ∃ d q, ∀ k, Passes (depth + k) quoted c (d + k) q by
    obtain ⟨d, q, hpasses⟩ := hpasses
    have hhere : openBehind? depth quoted (c :: cs) = openBehind? d q cs :=
      (hpasses 0).openBehind cs
    rw [hhere] at h
    exact ⟨d, q, hpasses, h⟩
  by_cases hquote : c = '\''
  · exact ⟨depth, !quoted, fun k => hquote ▸ passes_quote⟩
  cases quoted with
  | true => exact ⟨depth, true, fun k => passes_quoted hquote⟩
  | false =>
    by_cases hopen : c = '('
    · refine ⟨depth + 1, false, fun k => ?_⟩
      rw [hopen, Nat.add_right_comm]
      exact passes_open
    by_cases hclose : c = ')'
    · subst hclose
      cases depth with
      | zero => simp [openBehind?] at h
      | succ depth =>
        refine ⟨depth, false, fun k => ?_⟩
        rw [Nat.add_right_comm]
        exact passes_close
    by_cases hcomma : c = ',' ∧ depth = 0
    · obtain ⟨rfl, rfl⟩ := hcomma
      simp [openBehind?] at h
    · refine ⟨depth, false, fun k => passes_plain hquote hopen hclose ?_⟩
      rintro ⟨hc, hdepth⟩
      exact hcomma ⟨hc, by omega⟩

/-- Behind a text the scan goes on from its state there. -/
theorem openBehind?_append (h : openBehind? depth quoted cs = some (depth', quoted')) :
    openBehind? depth quoted (cs ++ rest) = openBehind? depth' quoted' rest := by
  induction cs generalizing depth quoted with
  | nil =>
    obtain ⟨rfl, rfl⟩ := Prod.mk.inj (Option.some.inj h)
    rfl
  | cons c cs ih =>
    obtain ⟨d, q, hpasses, hcs⟩ := passes_of_openBehind? h
    have hhere : Passes depth quoted c d q := hpasses 0
    rw [List.cons_append, hhere.openBehind, ih hcs]

/-- A text that is passed over is passed over up to any place in it. -/
theorem openBehind?_append_eq_some {front back : List Char} {r : Nat × Bool}
    (h : openBehind? depth quoted (front ++ back) = some r) :
    ∃ d q, openBehind? depth quoted front = some (d, q) ∧ openBehind? d q back = some r := by
  induction front generalizing depth quoted with
  | nil => exact ⟨depth, quoted, rfl, h⟩
  | cons c front ih =>
    obtain ⟨d, q, hpasses, hmore⟩ := passes_of_openBehind? h
    obtain ⟨d', q', hfront, hback⟩ := ih hmore
    have hhere : Passes depth quoted c d q := hpasses 0
    exact ⟨d', q', by rw [hhere.openBehind, hfront], hback⟩

/-- More open parentheses stay open. -/
theorem openBehind?_deeper (h : openBehind? depth quoted cs = some (depth', quoted')) (k : Nat) :
    openBehind? (depth + k) quoted cs = some (depth' + k, quoted') := by
  induction cs generalizing depth quoted with
  | nil =>
    obtain ⟨rfl, rfl⟩ := Prod.mk.inj (Option.some.inj h)
    rfl
  | cons c cs ih =>
    obtain ⟨d, q, hpasses, hcs⟩ := passes_of_openBehind? h
    rw [(hpasses k).openBehind]
    exact ih hcs

/-- The scan for the closing parenthesis passes over a text. -/
theorem closeFrom?_append (h : openBehind? depth quoted cs = some (depth', quoted')) :
    closeFrom? depth quoted (cs ++ rest) =
      (closeFrom? depth' quoted' rest).map fun r => (cs ++ r.1, r.2) := by
  induction cs generalizing depth quoted with
  | nil =>
    obtain ⟨rfl, rfl⟩ := Prod.mk.inj (Option.some.inj h)
    simp
  | cons c cs ih =>
    obtain ⟨d, q, hpasses, hcs⟩ := passes_of_openBehind? h
    have hhere : Passes depth quoted c d q := hpasses 0
    rw [List.cons_append, hhere.closeFrom, ih hcs, Option.map_map]
    rfl

/-- The scan for the commas passes over a text. -/
theorem piecesFrom_append (h : openBehind? depth quoted cs = some (depth', quoted')) :
    piecesFrom depth quoted (cs ++ rest) = cs.foldr putFirst (piecesFrom depth' quoted' rest) := by
  induction cs generalizing depth quoted with
  | nil =>
    obtain ⟨rfl, rfl⟩ := Prod.mk.inj (Option.some.inj h)
    rfl
  | cons c cs ih =>
    obtain ⟨d, q, hpasses, hcs⟩ := passes_of_openBehind? h
    have hhere : Passes depth quoted c d q := hpasses 0
    rw [List.cons_append, hhere.piecesFrom, ih hcs, List.foldr_cons]

/-- Between quotes nothing is opened or closed. -/
theorem openBehind?_literal (h : '\'' ∉ cs) :
    openBehind? 0 false ('\'' :: (cs ++ ['\''])) = some (0, false) := by
  rw [passes_quote.openBehind]
  have hinside : openBehind? 0 true cs = some (0, true) := by
    induction cs with
    | nil => rfl
    | cons c cs ih =>
      rw [List.mem_cons, not_or] at h
      rw [(passes_quoted (Ne.symm h.1)).openBehind]
      exact ih h.2
  exact (openBehind?_append hinside).trans rfl

theorem foldr_putFirst (cs piece : List Char) (pieces : List (List Char)) :
    cs.foldr putFirst (piece :: pieces) = (cs ++ piece) :: pieces := by
  induction cs with
  | nil => rfl
  | cons c cs ih => rw [List.foldr_cons, ih, putFirst, List.cons_append]

-- ---------------------------------------------------------------------------
-- Up to the closing parenthesis
-- ---------------------------------------------------------------------------

/-- What follows the parenthesis that closes a text has no part in finding it, and behind the text
before it nothing else is open. -/
theorem of_closeFrom? {depth : Nat} {quoted : Bool} {inner : List Char}
    (h : closeFrom? depth quoted cs = some (inner, rest)) :
    openBehind? (depth + 1) quoted inner = some (1, false) ∧
      ∀ rest', closeFrom? depth quoted (inner ++ ')' :: rest') = some (inner, rest') := by
  have put : ∀ {c : Char} {inner : List Char} {result : Option (List Char × List Char)},
      result.map (fun r => (c :: r.1, r.2)) = some (inner, rest) →
      ∃ i, inner = c :: i ∧ result = some (i, rest) := by
    intro c inner result h
    obtain ⟨⟨i, r⟩, hr, heq⟩ := Option.map_eq_some_iff.mp h
    obtain ⟨rfl, rfl⟩ := Prod.mk.inj heq
    exact ⟨i, rfl, hr⟩
  induction cs generalizing depth quoted inner with
  | nil => simp [closeFrom?] at h
  | cons c cs ih =>
    -- the scans go on in the same state behind a character that does not close the text
    have hpass : ∀ {d : Nat} {q : Bool},
        (∀ more, closeFrom? depth quoted (c :: more) =
          (closeFrom? d q more).map fun r => (c :: r.1, r.2)) →
        (∀ more, openBehind? (depth + 1) quoted (c :: more) = openBehind? (d + 1) q more) →
        openBehind? (depth + 1) quoted inner = some (1, false) ∧
          ∀ rest', closeFrom? depth quoted (inner ++ ')' :: rest') = some (inner, rest') := by
      intro d q hclose hopen
      rw [hclose] at h
      obtain ⟨i, rfl, hi⟩ := put h
      obtain ⟨hbehind, hrest⟩ := ih hi
      refine ⟨by rw [hopen, hbehind], fun rest' => ?_⟩
      rw [List.cons_append, hclose, hrest]
      rfl
    by_cases hquote : c = '\''
    · subst hquote
      exact hpass passes_quote.closeFrom passes_quote.openBehind
    cases quoted with
    | true => exact hpass (passes_quoted hquote).closeFrom (passes_quoted hquote).openBehind
    | false =>
      by_cases hopen : c = '('
      · subst hopen
        exact hpass passes_open.closeFrom passes_open.openBehind
      by_cases hclose : c = ')'
      · subst hclose
        cases depth with
        | zero =>
          obtain ⟨rfl, -⟩ := Prod.mk.inj (Option.some.inj h)
          exact ⟨rfl, fun rest' => rfl⟩
        | succ depth => exact hpass passes_close.closeFrom passes_close.openBehind
      · refine hpass (fun more => ?_) (passes_plain hquote hopen hclose (by simp)).openBehind
        rw [closeFrom?, if_neg hquote, if_neg (by simp), if_neg hopen, if_neg hclose]

/-- A call that is closed in a text is closed there in front of any other. -/
theorem take?_append_iff {inner after tail : List Char} {args : List String} :
    take? (inner ++ tail) = some (args, after ++ tail) ↔ take? inner = some (args, after) := by
  have hiff : ∀ {cs after : List Char}, take? cs = some (args, after) ↔
      ∃ text, closeFrom? 0 false cs = some (text, after) ∧ split text = args := by
    intro cs after
    rw [take?, close?, Option.map_eq_some_iff]
    simp
  rw [hiff, hiff]
  refine exists_congr fun text => and_congr_left fun _ => ?_
  constructor
  · intro h
    have hcs := append_of_closeFrom? h
    rw [← List.cons_append, ← List.append_assoc] at hcs
    rw [List.append_cancel_right hcs]
    exact (of_closeFrom? h).2 after
  · intro h
    rw [append_of_closeFrom? h, List.append_assoc, List.cons_append]
    exact (of_closeFrom? h).2 _

-- ---------------------------------------------------------------------------
-- White space
-- ---------------------------------------------------------------------------

/-- A text of white space only. -/
def Blank (cs : List Char) : Prop :=
  ∀ c ∈ cs, Text.isBlank c = true

theorem Blank.tail (h : Blank (c :: cs)) : Blank cs :=
  fun d hd => h d (List.mem_cons_of_mem _ hd)

/-- White space around a text makes no difference when it is trimmed. -/
theorem trim_padded {before after : List Char} (hbefore : Blank before) (hafter : Blank after)
    (cs : List Char) : Text.trim (before ++ cs ++ after) = Text.trim cs :=
  Text.trimBy_padded cs hbefore hafter

/-- Only of white space nothing is left. -/
theorem trim_eq_nil_iff : Text.trim cs = [] ↔ Blank cs := by
  constructor
  · intro h
    obtain ⟨before, after, hcs, hbefore, hafter⟩ := Text.exists_padded Text.isBlank cs
    rw [show Text.trimBy Text.isBlank cs = [] from h, List.append_nil] at hcs
    intro c hc
    rw [hcs] at hc
    exact (List.mem_append.mp hc).elim (hbefore c) (hafter c)
  · intro h
    have hpadded := trim_padded h (fun c hc => absurd hc List.not_mem_nil) []
    rwa [List.append_nil, List.append_nil] at hpadded

theorem ne_of_isBlank {d : Char} (h : Text.isBlank c = true) (hd : Text.isBlank d = false) :
    c ≠ d := by
  rintro rfl
  rw [h] at hd
  simp at hd

/-- White space opens and closes nothing. -/
theorem passes_blank (h : Text.isBlank c = true) : Passes depth quoted c depth quoted := by
  have hquote : c ≠ '\'' := ne_of_isBlank h (by decide)
  cases quoted with
  | true => exact passes_quoted hquote
  | false =>
    exact passes_plain hquote (ne_of_isBlank h (by decide)) (ne_of_isBlank h (by decide))
      (fun hcomma => ne_of_isBlank h (by decide) hcomma.1)

/-- So the scan is behind white space as it was before. -/
theorem openBehind?_blank {blank : List Char} (h : Blank blank) (depth : Nat) :
    openBehind? depth quoted blank = some (depth, quoted) := by
  induction blank with
  | nil => rfl
  | cons c blank ih =>
    rw [(passes_blank (h c (by simp))).openBehind]
    exact ih h.tail

/-- White space is cut nowhere. -/
theorem piecesFrom_cons_blank (h : Text.isBlank c = true) (depth : Int) (quoted : Bool)
    (cs : List Char) :
    piecesFrom depth quoted (c :: cs) = putFirst c (piecesFrom depth quoted cs) := by
  rw [piecesFrom, if_neg (ne_of_isBlank h (by decide)), if_neg (ne_of_isBlank h (by decide)),
    if_neg (ne_of_isBlank h (by decide)),
    if_neg (fun hcomma : c = ',' ∧ depth = 0 => ne_of_isBlank h (by decide) hcomma.1)]
  cases quoted <;> rfl

/-- White space in front of a text belongs to its first piece. -/
theorem piecesFrom_blank_append {blank : List Char} (h : Blank blank) (depth : Int)
    (quoted : Bool) (cs : List Char) :
    piecesFrom depth quoted (blank ++ cs) = blank.foldr putFirst (piecesFrom depth quoted cs) := by
  induction blank with
  | nil => rfl
  | cons c blank ih =>
    rw [List.cons_append, piecesFrom_cons_blank (h c (by simp)), ih h.tail, List.foldr_cons]

/-- White space behind a text belongs to its last piece. -/
theorem piecesFrom_append_blank {blank : List Char} (h : Blank blank) (depth : Int)
    (quoted : Bool) (cs : List Char) :
    ∃ front last, piecesFrom depth quoted cs = front ++ [last] ∧
      piecesFrom depth quoted (cs ++ blank) = front ++ [last ++ blank] := by
  induction cs generalizing depth quoted with
  | nil =>
    have hblank := piecesFrom_blank_append h depth quoted []
    rw [List.append_nil] at hblank
    refine ⟨[], [], rfl, hblank.trans ?_⟩
    exact (foldr_putFirst blank [] []).trans (by simp)
  | cons c cs ih =>
    have put : ∀ depth quoted, ∃ front last,
        putFirst c (piecesFrom depth quoted cs) = front ++ [last] ∧
          putFirst c (piecesFrom depth quoted (cs ++ blank)) = front ++ [last ++ blank] := by
      intro depth quoted
      obtain ⟨front, last, hcs, happend⟩ := ih depth quoted
      rw [hcs, happend]
      cases front with
      | nil => exact ⟨[], c :: last, rfl, rfl⟩
      | cons piece front => exact ⟨(c :: piece) :: front, last, rfl, rfl⟩
    rw [List.cons_append, piecesFrom, piecesFrom]
    split
    · exact put _ _
    · split
      · exact put _ _
      · split
        · exact put _ _
        · split
          · exact put _ _
          · split
            -- a comma ends a piece
            · obtain ⟨front, last, hcs, happend⟩ := ih depth false
              exact ⟨[] :: front, last, by rw [hcs]; rfl, by rw [happend]; rfl⟩
            · exact put _ _

/-- The pieces of a text are trimmed of the white space around it, too. -/
theorem trim_piecesFrom_trim (cs : List Char) :
    (piecesFrom 0 false (Text.trim cs)).map Text.trim = (piecesFrom 0 false cs).map Text.trim := by
  have hnone : Blank [] := by simp [Blank]
  obtain ⟨before, after, hcs, hbefore, hafter⟩ := Text.exists_padded Text.isBlank cs
  obtain ⟨front, last, htrim, happend⟩ :=
    piecesFrom_append_blank (show Blank after from hafter) 0 false (Text.trim cs)
  have hfirst : ∀ pieces : List (List Char), pieces ≠ [] →
      (before.foldr putFirst pieces).map Text.trim = pieces.map Text.trim := by
    intro pieces hpieces
    obtain ⟨piece, pieces, rfl⟩ := List.exists_cons_of_ne_nil hpieces
    have htrimmed := trim_padded hbefore hnone piece
    rw [List.append_nil] at htrimmed
    rw [foldr_putFirst, List.map_cons, htrimmed, List.map_cons]
  have hlast : Text.trim (last ++ after) = Text.trim last := trim_padded hnone hafter last
  conv => rhs; rw [hcs, List.append_assoc, piecesFrom_blank_append hbefore]
  show _ = (before.foldr putFirst (piecesFrom 0 false (Text.trim cs ++ after))).map Text.trim
  rw [happend, hfirst _ (by simp), htrim, List.map_append, List.map_append]
  simp only [List.map_cons, List.map_nil, hlast]

/-- The arguments in a text are its trimmed pieces, and a blank text holds none. -/
theorem split_eq (cs : List Char) :
    split cs = if Text.trim cs = [] then []
      else ((piecesFrom 0 false cs).map Text.trim).map String.ofList := by
  rw [← trim_piecesFrom_trim, split]
  by_cases h : Text.trim cs = [] <;> simp [h]

end Formulae.Grammar.Arguments
