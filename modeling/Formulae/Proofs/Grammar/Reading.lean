import Formulae.Proofs.Grammar.Confinement
import Formulae.Proofs.Grammar.Splitting
import Formulae.Proofs.Grammar.Words

/-!
# Reading word by word

An outline is read one word at a time, where a call that is cut out is one word. Which word comes
first depends on the beginning of the text only: in front of a closing parenthesis or a semicolon a
text is read as it is by itself. No token goes on with either of them, an opening parenthesis that
would make a call of a name is not one of them, and a call that is closed is closed before them.

The places of the items are left out. `Says` relates a text that is read to its end to its words,
and is what is composed and taken apart.

Main results:

* `scan_append` — what a text begins with in front of an end.
* `Outline.says_iff` — what a text says are the words of its outline, if that is complete.
* `Outline.Says.append` — texts that are set off by an end say one after the other what they say.
* `Outline.Reads.of_append` — what is read before a last parenthesis is read without it.
* `unplaced_ofFormula`, `says_of_isWhole` — the tree of a formula is that of the part it says.
-/

namespace Formulae.Grammar

variable {cs tail rest : List Char} {p : Char → Bool} {c : Char}

-- ---------------------------------------------------------------------------
-- In front of an end
-- ---------------------------------------------------------------------------

/-- A text that is empty or begins with a character that no token goes on with. -/
def Ends (cs : List Char) : Prop :=
  ∀ c ∈ cs.head?, c = ')' ∨ c = ';'

/-- Neither the end nor what stands before it is of a class that has no ends. -/
theorem Ends.head_append (h : Ends tail) (hp : p ')' = false ∧ p ';' = false)
    (hrest : ∀ c ∈ rest.head?, p c = false) : ∀ c ∈ (rest ++ tail).head?, p c = false := by
  intro c hc
  cases rest with
  | nil =>
    rcases h c hc with rfl | rfl
    · exact hp.1
    · exact hp.2
  | cons d rest => exact hrest c hc

/-- A word that ends in front of a text ends in front of the text with an end behind it. -/
theorem Token.EndsAt.append {t : Token} (ht : t.EndsAt rest) (h : Ends tail) :
    t.EndsAt (rest ++ tail) :=
  h.head_append t.goesOn_delimiter.2 ht

/-- With an end behind a text no other sign stands at its beginning: the second character of none is
an end. -/
theorem Ends.not_sign (h : Ends tail) (hsigns : ∀ s ∈ signs, ¬s.1 <+: c :: cs) :
    ∀ s ∈ signs, ¬s.1 <+: c :: (cs ++ tail) := by
  have hsecond : ∀ s ∈ signs, ')' ∉ s.1.tail ∧ ';' ∉ s.1.tail := by decide
  intro s hs hprefix
  rcases List.prefix_or_prefix_of_prefix hprefix (List.prefix_append (c :: cs) tail) with
    hshort | ⟨more, hlong⟩
  · exact hsigns s hs hshort
  rw [← hlong, ← List.cons_append, List.prefix_append_right_inj] at hprefix
  obtain ⟨behind, rfl⟩ := hprefix
  cases more with
  | nil =>
    rw [List.append_nil] at hlong
    exact hsigns s hs (hlong ▸ List.prefix_rfl)
  | cons d more =>
    obtain ⟨hparen, hsemicolon⟩ := hsecond s hs
    rw [← hlong] at hparen hsemicolon
    rcases h d rfl with rfl | rfl
    · exact hparen (by simp)
    · exact hsemicolon (by simp)

/-- In front of an end a text begins as it does by itself. Only a literal that is not closed may be
closed behind the end. -/
theorem scan_append (h : Ends tail) (cs : List Char) :
    match scan cs with
    | (.finished, _) => scan (cs ++ tail) = scan tail
    | (.openLiteral, _) => ∃ quote inner, (quote = '\'' ∨ quote = '"') ∧ quote ∉ inner ∧
        scan (cs ++ tail) = scanLiteral quote (inner ++ tail)
    | (reading, rest) => scan (cs ++ tail) = (reading, rest ++ tail) := by
  match hscan : scan cs with
  | (.finished, _) =>
    obtain ⟨spaces, rfl⟩ := scan_eq_finished_iff.mp (congrArg Prod.fst hscan)
    show scan (List.replicate spaces ' ' ++ tail) = scan tail
    rw [scan, scan, List.dropWhile_append_of_pos (by simp)]
  | (.token t, rest) =>
    obtain ⟨spaces, word, rfl, hword, hends⟩ := scan_eq_token_iff.mp hscan
    exact scan_eq_token_iff.mpr
      ⟨spaces, word, List.append_assoc _ _ _, hword, hends.append h⟩
  | (.openLiteral, rest) =>
    obtain ⟨spaces, behind, rfl, hbegins⟩ := scan_eq_iff.mp hscan
    cases hbegins with
    | @unclosed quote inner hquote hinner =>
      have hspace : ∀ c ∈ (quote :: (inner ++ tail)).head?, c ≠ ' ' :=
        (BeginsWith.unclosed hquote hinner).head
      refine ⟨quote, inner, hquote, hinner, ?_⟩
      rw [List.append_assoc, List.cons_append, scan_spaces hspace, scanHere, if_pos hquote]
  | (.unreadable, rest) =>
    obtain ⟨spaces, behind, rfl, hbegins⟩ := scan_eq_iff.mp hscan
    refine scan_eq_iff.mpr ⟨spaces, behind ++ tail, List.append_assoc _ _ _, ?_⟩
    cases hbegins with
    | tooLarge hdigits hlarge hends =>
      rw [List.append_assoc]
      exact .tooLarge hdigits hlarge (h.head_append (by decide) hends)
    | stray hc hsigns => exact .stray hc (h.not_sign hsigns)

/-- A token that is read before a last parenthesis is read without it, unless it is that
parenthesis. -/
theorem scan_of_append {t : Token} {left : List Char} (h : scan (cs ++ [')']) = (.token t, left)) :
    (∃ left', left = left' ++ [')'] ∧ scan cs = (.token t, left')) ∨
      left = [] ∧ (scan cs).1 = .finished := by
  have happend := @scan_append [')'] (by simp [Ends]) cs
  rw [h] at happend
  match hfirst : scan cs with
  | (.finished, rest) =>
    rw [hfirst] at happend
    obtain ⟨-, rfl⟩ := Prod.mk.inj (show (_, left) = (Reading.token .rightParen, []) from happend)
    exact .inr ⟨rfl, rfl⟩
  | (.openLiteral, rest) =>
    rw [hfirst] at happend
    obtain ⟨quote, inner, hquote, hinner, heq⟩ := happend
    have hmem : quote ∉ inner ++ [')'] := by
      rcases hquote with rfl | rfl <;> simpa using hinner
    rw [scanLiteral_open hmem] at heq
    simp at heq
  | (.unreadable, rest) =>
    rw [hfirst] at happend
    simp at happend
  | (.token t', rest) =>
    rw [hfirst] at happend
    obtain ⟨ht, rfl⟩ := Prod.mk.inj happend
    exact .inl ⟨rest, rfl, by rw [ht]⟩

-- ---------------------------------------------------------------------------
-- One word after the other
-- ---------------------------------------------------------------------------

namespace Outline

/-- An end is no opening parenthesis, and does not make one of what stands before it. -/
theorem openParen?_append (h : Ends tail) (cs : List Char) :
    openParen? (cs ++ tail) = (openParen? cs).map (· ++ tail) := by
  have hscan := scan_append h cs
  unfold openParen?
  match hcs : scan cs with
  | (.finished, rest) =>
    rw [hcs] at hscan
    rw [show scan (cs ++ tail) = scan tail from hscan]
    cases tail with
    | nil => rfl
    | cons c tail => rcases h c rfl with rfl | rfl <;> rfl
  | (.openLiteral, rest) =>
    rw [hcs] at hscan
    obtain ⟨quote, inner, -, -, heq⟩ := hscan
    rw [heq]
    by_cases hmem : quote ∈ inner ++ tail
    · obtain ⟨front, back, hsplit, hfront⟩ := List.eq_append_cons_of_mem hmem
      rw [hsplit, scanLiteral_closed hfront]
      rfl
    · rw [scanLiteral_open hmem]
      rfl
  | (.unreadable, rest) =>
    rw [hcs] at hscan
    rw [show scan (cs ++ tail) = (.unreadable, rest ++ tail) from hscan]
    rfl
  | (.token t, rest) =>
    rw [hcs] at hscan
    rw [show scan (cs ++ tail) = (.token t, rest ++ tail) from hscan]
    cases t <;> rfl

theorem openParen?_suffix (h : openParen? cs = some rest) : rest <:+ cs := by
  have hsuffix := scan_suffix cs
  rwa [openParen?_eq_some_iff.mp h] at hsuffix

theorem take?_suffix {args : List String} (h : Arguments.take? cs = some (args, rest)) :
    rest <:+ cs := by
  obtain ⟨⟨inner, r⟩, hclose, heq⟩ := Option.map_eq_some_iff.mp h
  obtain ⟨-, rfl⟩ := Prod.mk.inj heq
  exact ⟨inner ++ [')'], by rw [Arguments.append_of_closeFrom? hclose]; simp⟩

/-- The first word of a text, and the text behind it. -/
inductive Step (inPlace : String → Bool) (cs : List Char) : Symbol → List Char → Prop
  /-- A token, but no name of a call that is cut out. -/
  | token {t : Token} {rest : List Char} (hscan : scan cs = (.token t, rest))
      (hplain : ∀ name, t = .identifier name → inPlace name = true ∨ openParen? rest = none) :
      Step inPlace cs (.token t) rest
  | call {name : String} {args : List String} {behind inner after : List Char}
      (hscan : scan cs = (.token (.identifier name), behind)) (hplace : inPlace name = false)
      (hopen : openParen? behind = some inner)
      (htake : Arguments.take? inner = some (args, after)) :
      Step inPlace cs (.call name args 0) after

/-- Words of a text from its beginning on, and the text behind them. -/
inductive Reads (inPlace : String → Bool) : List Char → List Symbol → List Char → Prop
  | done (cs : List Char) : Reads inPlace cs [] cs
  | step {cs mid rest : List Char} {s : Symbol} {ss : List Symbol} (first : Step inPlace cs s mid)
      (more : Reads inPlace mid ss rest) : Reads inPlace cs (s :: ss) rest

/-- All the words of a text that is read to its end. -/
def Says (inPlace : String → Bool) (cs : List Char) (ws : List Symbol) : Prop :=
  ∃ rest, Reads inPlace cs ws rest ∧ (scan rest).1 = .finished

variable {inPlace : String → Bool} {cs' mid : List Char} {s : Symbol} {ss ss' ws ws' : List Symbol}

namespace Step

/-- The first word is what is read first. -/
theorem of_scan_eq (h : Step inPlace cs s rest) (hscan : scan cs' = scan cs) :
    Step inPlace cs' s rest := by
  cases h with
  | token hfirst hplain => exact .token (hscan.trans hfirst) hplain
  | call hfirst hplace hopen htake => exact .call (hscan.trans hfirst) hplace hopen htake

/-- A step leaves an end of the text, and takes something. -/
theorem suffix (h : Step inPlace cs s rest) : rest <:+ cs ∧ rest.length < cs.length := by
  have hshorter : ∀ {t : Token} {rest : List Char}, scan cs = (.token t, rest) →
      rest <:+ cs ∧ rest.length < cs.length := by
    intro t rest hscan
    have hlt := length_scan_lt (congrArg Prod.fst hscan)
    have hsuffix := scan_suffix cs
    rw [hscan] at hlt hsuffix
    exact ⟨hsuffix, hlt⟩
  cases h with
  | token hscan => exact hshorter hscan
  | call hscan _ hopen htake =>
    obtain ⟨hbehind, hlt⟩ := hshorter hscan
    have hrest := (take?_suffix htake).trans (openParen?_suffix hopen)
    exact ⟨hrest.trans hbehind, Nat.lt_of_le_of_lt hrest.length_le hlt⟩

/-- In front of an end the first word stays the first. -/
theorem append (h : Step inPlace cs s rest) (hends : Ends tail) :
    Step inPlace (cs ++ tail) s (rest ++ tail) := by
  have hscan : ∀ {t : Token} {rest : List Char}, scan cs = (.token t, rest) →
      scan (cs ++ tail) = (.token t, rest ++ tail) := by
    intro t rest hcs
    have happend := scan_append hends cs
    rwa [hcs] at happend
  cases h with
  | token hcs hplain =>
    refine .token (hscan hcs) fun name hname => (hplain name hname).imp id fun hnone => ?_
    rw [openParen?_append hends, hnone]
    rfl
  | call hcs hplace hopen htake =>
    refine .call (hscan hcs) hplace ?_ (Arguments.take?_append_iff.mpr htake)
    rw [openParen?_append hends, hopen]
    rfl

/-- A first word that ends before a last parenthesis does not need it. -/
theorem of_append (h : Step inPlace (cs ++ [')']) s (rest ++ [')'])) : Step inPlace cs s rest := by
  have hends : Ends [')'] := by simp [Ends]
  have hscan : ∀ {t : Token} {left : List Char}, scan (cs ++ [')']) = (.token t, left) →
      rest ++ [')'] <:+ left → ∃ left', left = left' ++ [')'] ∧ scan cs = (.token t, left') := by
    intro t left hcs hleft
    rcases scan_of_append hcs with hbefore | ⟨rfl, -⟩
    · exact hbefore
    · simpa using hleft.length_le
  generalize hrest : rest ++ [')'] = rest' at h
  cases h with
  | token hcs hplain =>
    subst hrest
    obtain ⟨left, hleft, hfirst⟩ := hscan hcs (List.suffix_refl _)
    obtain rfl := List.append_cancel_right hleft
    refine .token hfirst fun name hname => (hplain name hname).imp id fun hnone => ?_
    rwa [openParen?_append hends, Option.map_eq_none_iff] at hnone
  | call hcs hplace hopen htake =>
    subst hrest
    obtain ⟨behind, rfl, hfirst⟩ := hscan hcs ((take?_suffix htake).trans (openParen?_suffix hopen))
    rw [openParen?_append hends, Option.map_eq_some_iff] at hopen
    obtain ⟨inner, hinner, rfl⟩ := hopen
    exact .call hfirst hplace hinner (Arguments.take?_append_iff.mp htake)

end Step

-- ---------------------------------------------------------------------------
-- Outlines
-- ---------------------------------------------------------------------------

variable {offset : Nat} {t : Token} {name : String}

/-- An outline begins with the first word. -/
theorem Step.readFrom (h : Step inPlace cs s rest) (offset : Nat) :
    ∃ item, item.symbol.unplaced = s ∧ Outline.readFrom inPlace offset cs =
      (Outline.readFrom inPlace (offset + (cs.length - rest.length)) rest).push item := by
  cases h with
  | token hscan hplain => exact ⟨⟨.token _, _⟩, rfl, readFrom_token hscan hplain⟩
  | call hscan hplace hopen htake =>
    have hread := @readFrom_call _ _ offset _ _ _ hscan hplace hopen
    rw [htake] at hread
    refine ⟨_, ?_, hread⟩
    rfl

/-- An outline that begins with no word is empty, and complete only if nothing is left. -/
theorem step_or_stop (inPlace : String → Bool) (cs : List Char) (offset : Nat) :
    (∃ s rest, Step inPlace cs s rest) ∨
      (readFrom inPlace offset cs).items = [] ∧
        ((readFrom inPlace offset cs).ending.cause = .complete ↔ (scan cs).1 = .finished) := by
  by_cases htoken : ∀ t, (scan cs).1 ≠ .token t
  · obtain ⟨hitems, hcomplete, -⟩ := @readFrom_stop cs inPlace offset htoken
    exact .inr ⟨hitems, hcomplete⟩
  obtain ⟨t, hread⟩ : ∃ t, (scan cs).1 = .token t := by simpa using htoken
  have hscan : scan cs = (.token t, (scan cs).2) := by rw [← hread]
  by_cases hplain : ∀ name, t = .identifier name →
      inPlace name = true ∨ openParen? (scan cs).2 = none
  · exact .inl ⟨_, _, .token hscan hplain⟩
  obtain ⟨name, rfl, hcalled⟩ : ∃ name, t = .identifier name ∧
      ¬ (inPlace name = true ∨ openParen? (scan cs).2 = none) := by
    simpa using hplain
  rw [not_or, Bool.not_eq_true] at hcalled
  obtain ⟨inner, hopen⟩ := Option.ne_none_iff_exists'.mp hcalled.2
  match htake : Arguments.take? inner with
  | none =>
    rw [readFrom_call hscan hcalled.1 hopen, htake]
    exact .inr ⟨rfl, by simp [hread]⟩
  | some (args, after) => exact .inl ⟨_, _, .call hscan hcalled.1 hopen htake⟩

-- ---------------------------------------------------------------------------
-- Several words
-- ---------------------------------------------------------------------------

namespace Reads

/-- What is read of a text is read of it in front of another one. -/
theorem append (h : Reads inPlace cs ss rest) (hends : Ends tail) :
    Reads inPlace (cs ++ tail) ss (rest ++ tail) := by
  induction h with
  | done cs => exact .done _
  | step first _ ih => exact .step (first.append hends) ih

theorem suffix (h : Reads inPlace cs ss rest) : rest <:+ cs := by
  induction h with
  | done cs => exact List.suffix_refl _
  | step first _ ih => exact ih.trans first.suffix.1

/-- Readings one after the other stop somewhere between the two. -/
theorem split (h : Reads inPlace cs (ss ++ ss') rest) :
    ∃ mid, Reads inPlace cs ss mid ∧ Reads inPlace mid ss' rest := by
  induction ss generalizing cs with
  | nil => exact ⟨cs, .done cs, h⟩
  | cons s ss ih =>
    cases h with
    | step first more =>
      obtain ⟨mid, hss, hss'⟩ := ih more
      exact ⟨mid, .step first hss, hss'⟩

/-- Words that end before a last parenthesis do not need it. -/
theorem of_append (h : Reads inPlace (cs ++ [')']) ss (rest ++ [')'])) :
    Reads inPlace cs ss rest := by
  generalize hcs : cs ++ [')'] = cs' at h
  generalize hrest : rest ++ [')'] = rest' at h
  induction h generalizing cs with
  | done cs' =>
    subst hcs
    rw [List.append_cancel_right hrest]
    exact .done cs
  | @step cs' mid rest' s ss first more ih =>
    subst hcs hrest
    -- what is left behind the first word ends with the parenthesis, too
    obtain ⟨front, hfront⟩ := more.suffix
    rw [← List.append_assoc] at hfront
    rw [← hfront] at first more
    exact .step first.of_append (ih hfront rfl)

end Reads

/-- An outline begins with the words that are read, and goes on behind them. -/
theorem Reads.readFrom (h : Reads inPlace cs ss rest) (offset : Nat) :
    ∃ offset', words (Outline.readFrom inPlace offset cs).items =
        ss ++ words (Outline.readFrom inPlace offset' rest).items ∧
      (Outline.readFrom inPlace offset cs).ending =
        (Outline.readFrom inPlace offset' rest).ending := by
  induction h generalizing offset with
  | done cs => exact ⟨offset, rfl, rfl⟩
  | step first _ ih =>
    obtain ⟨item, hitem, hread⟩ := first.readFrom offset
    obtain ⟨offset', hwords, hending⟩ := ih _
    refine ⟨offset', ?_, ?_⟩
    · rw [hread, push, words_cons, hitem, hwords, List.cons_append]
    · rw [hread, push, hending]

/-- What a text says are the words of its outline, if that is complete. -/
theorem says_iff : Says inPlace cs ws ↔
    (readFrom inPlace offset cs).ending.cause = .complete ∧
      words (readFrom inPlace offset cs).items = ws := by
  constructor
  · rintro ⟨rest, hreads, hrest⟩
    obtain ⟨offset', hwords, hending⟩ := hreads.readFrom offset
    obtain ⟨hitems, hcomplete, -⟩ := @readFrom_stop rest inPlace offset' (by simp [hrest])
    rw [hwords, hending, hitems, words_nil, List.append_nil]
    exact ⟨hcomplete.mpr hrest, rfl⟩
  · rintro ⟨hcomplete, rfl⟩
    induction hlen : cs.length using Nat.strongRecOn generalizing cs offset with
    | ind length ih =>
      rcases step_or_stop inPlace cs offset with ⟨s, rest, first⟩ | ⟨hitems, hstop⟩
      · obtain ⟨item, rfl, hread⟩ := first.readFrom offset
        rw [hread] at hcomplete ⊢
        obtain ⟨behind, hreads, hbehind⟩ := ih _ (hlen ▸ first.suffix.2) hcomplete rfl
        exact ⟨behind, .step first hreads, hbehind⟩
      · rw [hitems]
        exact ⟨cs, .done cs, hstop.mp hcomplete⟩

namespace Says

/-- An empty text says nothing. -/
theorem nil (inPlace : String → Bool) : Says inPlace [] [] :=
  ⟨[], .done [], rfl⟩

theorem of_scan_eq (h : Says inPlace cs ws) (hscan : scan cs' = scan cs) : Says inPlace cs' ws := by
  obtain ⟨rest, hreads, hrest⟩ := h
  cases hreads with
  | done cs => exact ⟨cs', .done cs', by rw [hscan, hrest]⟩
  | step first more => exact ⟨rest, .step (first.of_scan_eq hscan) more, hrest⟩

/-- What is read is said in front of what the rest says. -/
theorem behind (h : Reads inPlace cs ss mid) (h' : Says inPlace mid ws) :
    Says inPlace cs (ss ++ ws) := by
  induction h with
  | done cs => exact h'
  | step first _ ih =>
    obtain ⟨rest, hreads, hrest⟩ := ih h'
    exact ⟨rest, .step first hreads, hrest⟩

/-- So is a single step. -/
theorem cons (first : Step inPlace cs s rest) (h : Says inPlace rest ws) :
    Says inPlace cs (s :: ws) :=
  behind (.step first (.done rest)) h

/-- A text and another one behind it, which begins as texts end, say one after the other. -/
theorem append (h : Says inPlace cs ws) (hends : Ends tail) (h' : Says inPlace tail ws') :
    Says inPlace (cs ++ tail) (ws ++ ws') := by
  obtain ⟨rest, hreads, hrest⟩ := h
  refine behind (hreads.append hends) (h'.of_scan_eq ?_)
  have happend := scan_append hends rest
  match hscan : scan rest with
  | (reading, left) =>
    rw [hscan] at hrest happend
    obtain rfl : reading = .finished := hrest
    exact happend

theorem closing (inPlace : String → Bool) : Says inPlace [')'] [.token .rightParen] :=
  .cons (.token rfl (by simp)) (.nil _)

/-- A text in parentheses, and what follows it. -/
theorem parens (h : Says inPlace cs ws) (h' : Says inPlace (')' :: tail) ws') :
    Says inPlace ('(' :: (cs ++ ')' :: tail)) (.token .leftParen :: (ws ++ ws')) := by
  have hends : Ends (')' :: tail) := by simp [Ends]
  exact .cons (.token rfl (by simp)) (h.append hends h')

end Says

end Outline

-- ---------------------------------------------------------------------------
-- Formulas
-- ---------------------------------------------------------------------------

/-- A formula has the tree of the part that it says. -/
theorem unplaced_ofFormula {formula : String} {ws : List Symbol} {tree : NumericTree}
    (h : Outline.Says keepsOperand formula.toList ws) (hpart : Part (.chain .sequence) ws tree) :
    (NumericTree.ofFormula formula).unplaced = tree := by
  obtain ⟨hcomplete, hwords⟩ := Outline.says_iff.mp h
  exact Outline.Stands.unplaced_ofOutline ⟨hcomplete, hwords ▸ hpart⟩

/-- A formula with a whole tree says a part with that tree. -/
theorem says_of_isWhole {formula : String} (h : (NumericTree.ofFormula formula).isWhole = true) :
    ∃ ws, Outline.Says keepsOperand formula.toList ws ∧
      Part (.chain .sequence) ws (NumericTree.ofFormula formula).unplaced := by
  have hstands := Outline.stands_of_isWhole h
  exact ⟨_, Outline.says_iff.mpr ⟨hstands.complete, rfl⟩, hstands.part⟩

end Formulae.Grammar
