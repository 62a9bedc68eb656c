import Formulae.Proofs.Text.LetterCase
import Formulae.Proofs.Grammar.Reading
import Formulae.Proofs.Grammar.WellFormed

/-!
# Reading in any case

Outside single quotes the grammar does not tell the two cases of a letter apart. `folded` puts all
letters of ASCII that stand there into lower case. A folded text is read like the text itself, with
the same items at the same places, but for the names in them, which are in lower case, and for the
arguments, which are folded in turn.

Double quotes must not stand in the text: a single quote between them opens no literal, but the
scans over arguments take it for one.

Main results:

* `Arguments.take?_folded` — the arguments of a folded call.
* `scan_folded` — what a folded text begins with.
* `Outline.readFrom_folded` — the outline of a folded text.
-/

namespace Formulae.Grammar

open Text

namespace Arguments

variable {c d : Char} {cs : List Char} {quoted : Bool} {p : Char → Bool}

-- ---------------------------------------------------------------------------
-- Folding
-- ---------------------------------------------------------------------------

/-- A text with the letters of ASCII outside its single quotes in lower case; `quoted` tells whether
a quote is open before it. -/
def folded (quoted : Bool) : List Char → List Char
  | [] => []
  | c :: cs =>
    if c = '\'' then c :: folded (!quoted) cs
    else if quoted then c :: folded true cs
    else asciiLower c :: folded false cs

@[simp] theorem folded_nil : folded quoted [] = [] := rfl

@[simp] theorem folded_quote (cs : List Char) :
    folded quoted ('\'' :: cs) = '\'' :: folded (!quoted) cs := rfl

theorem folded_true (h : c ≠ '\'') (cs : List Char) :
    folded true (c :: cs) = c :: folded true cs := by
  rw [folded, if_neg h, if_pos rfl]

theorem folded_false (h : c ≠ '\'') (cs : List Char) :
    folded false (c :: cs) = asciiLower c :: folded false cs := by
  rw [folded, if_neg h, if_neg (by simp)]

/-- What holds no quote is put into lower case. -/
theorem folded_unquoted {piece : List Char} (h : ∀ c ∈ piece, c ≠ '\'') (rest : List Char) :
    folded false (piece ++ rest) = piece.map asciiLower ++ folded false rest := by
  induction piece with
  | nil => rfl
  | cons c piece ih =>
    obtain ⟨hc, hpiece⟩ := List.forall_mem_cons.mp h
    rw [List.cons_append, folded_false hc, ih hpiece, List.map_cons, List.cons_append]

/-- A text without letters is in lower case. -/
theorem map_asciiLower_unlettered {piece : List Char} (h : ∀ c ∈ piece, c.isAlpha = false) :
    piece.map asciiLower = piece := by
  refine (List.map_congr_left fun c hc => ?_).trans (List.map_id piece)
  exact (asciiLower_eq_iff (h c hc)).mpr rfl

/-- What holds no letter is not folded. -/
theorem folded_unlettered {piece : List Char} (h : ∀ c ∈ piece, c.isAlpha = false ∧ c ≠ '\'')
    (rest : List Char) : folded false (piece ++ rest) = piece ++ folded false rest := by
  rw [folded_unquoted fun c hc => (h c hc).2, map_asciiLower_unlettered fun c hc => (h c hc).1]

/-- Nothing is folded up to the next quote. -/
theorem folded_literal {piece : List Char} (h : '\'' ∉ piece) (rest : List Char) :
    folded true (piece ++ '\'' :: rest) = piece ++ '\'' :: folded false rest := by
  induction piece with
  | nil => rfl
  | cons c piece ih =>
    rw [List.mem_cons, not_or] at h
    rw [List.cons_append, folded_true (Ne.symm h.1), ih h.2, List.cons_append]

/-- Folding changes the case of letters only. -/
@[simp] theorem map_asciiLower_folded (quoted : Bool) (cs : List Char) :
    (folded quoted cs).map asciiLower = cs.map asciiLower := by
  induction cs generalizing quoted with
  | nil => rfl
  | cons c cs ih =>
    by_cases hquote : c = '\''
    · subst hquote
      rw [folded_quote, List.map_cons, List.map_cons, ih]
    · cases quoted with
      | true => rw [folded_true hquote, List.map_cons, List.map_cons, ih]
      | false => rw [folded_false hquote, List.map_cons, List.map_cons, ih, asciiLower_asciiLower]

@[simp] theorem length_folded (quoted : Bool) (cs : List Char) :
    (folded quoted cs).length = cs.length := by
  simpa only [List.length_map] using congrArg List.length (map_asciiLower_folded quoted cs)

/-- A character that is no letter stands in a text if it stands in the folded one. -/
theorem mem_folded_iff (hd : d.isAlpha = false) : d ∈ folded quoted cs ↔ d ∈ cs := by
  have hmap : ∀ cs : List Char, d ∈ cs ↔ d ∈ cs.map asciiLower := by
    intro cs
    simp only [List.mem_map, asciiLower_eq_iff hd, exists_eq_right]
  rw [hmap, map_asciiLower_folded, ← hmap]

/-- Behind a text the case is folded, or not, as its quotes leave it. -/
theorem folded_append (quoted : Bool) (front back : List Char) :
    folded quoted (front ++ back) =
      folded quoted front ++ folded (quotedBehind quoted front) back := by
  induction front generalizing quoted with
  | nil => cases quoted <;> rfl
  | cons c front ih =>
    by_cases hquote : c = '\''
    · subst hquote
      rw [quotedBehind_quote, List.cons_append, folded_quote, folded_quote, ih, List.cons_append]
    · rw [quotedBehind_cons hquote, List.cons_append]
      cases quoted with
      | true => rw [folded_true hquote, folded_true hquote, ih, List.cons_append]
      | false => rw [folded_false hquote, folded_false hquote, ih, List.cons_append]

-- ---------------------------------------------------------------------------
-- Classes of characters
-- ---------------------------------------------------------------------------

/-- Characters that differ in their case only belong to the same classes, where letters belong to
them in both cases. -/
theorem class_of_map_asciiLower (hp : ∀ c, p (asciiLower c) = p c) {o o' : Option Char}
    (ho : o.map asciiLower = o'.map asciiLower) (h : ∀ c ∈ o', p c = false) :
    ∀ c ∈ o, p c = false := by
  intro c hc
  rw [Option.mem_def] at hc
  rw [hc, Option.map_some, eq_comm, Option.map_eq_some_iff] at ho
  obtain ⟨d, hd, hcase⟩ := ho
  rw [← hp, ← hcase, hp]
  exact h d hd

theorem head_folded (hp : ∀ c, p (asciiLower c) = p c) (h : ∀ c ∈ cs.head?, p c = false) :
    ∀ c ∈ (folded quoted cs).head?, p c = false := by
  refine class_of_map_asciiLower hp ?_ h
  rw [← List.head?_map, map_asciiLower_folded, List.head?_map]

/-- A text without letters stands at the beginning of a folded text where it stands at the beginning
of the text. -/
theorem prefix_of_prefix_folded {piece : List Char} (hpiece : ∀ c ∈ piece, c.isAlpha = false)
    (h : piece <+: folded quoted cs) : piece <+: cs := by
  have hmap := h.map asciiLower
  rw [map_asciiLower_folded, map_asciiLower_unlettered hpiece] at hmap
  obtain ⟨front, hfront, rfl⟩ := List.prefix_map_iff.mp hmap
  have hself : front.map asciiLower = front := by
    refine (List.map_congr_left fun c hc => ?_).trans (List.map_id _)
    exact ((asciiLower_eq_iff (hpiece _ (List.mem_map_of_mem hc))).mp rfl).symm
  rwa [hself]

/-- White space is not folded. -/
theorem folded_blank (h : Blank cs) : folded quoted cs = cs ∧ quotedBehind quoted cs = quoted := by
  induction cs with
  | nil => exact ⟨rfl, by simp [quotedBehind]⟩
  | cons c cs ih =>
    have hblank : isBlank c = true := h c (by simp)
    have hquote : c ≠ '\'' := by
      rintro rfl
      simp [isBlank] at hblank
    obtain ⟨hfolded, hbehind⟩ := ih fun d hd => h d (List.mem_cons_of_mem _ hd)
    rw [quotedBehind_cons hquote]
    refine ⟨?_, hbehind⟩
    cases quoted with
    | true => rw [folded_true hquote, hfolded]
    | false => rw [folded_false hquote, hfolded, asciiLower_eq_self (by decide) hblank]

/-- White space is trimmed off a folded text as off the text. -/
theorem trim_folded (quoted : Bool) (cs : List Char) :
    trim (folded quoted cs) = folded quoted (trim cs) := by
  obtain ⟨before, after, hcs, hbefore, hafter⟩ := exists_padded isBlank cs
  rw [show trimBy isBlank cs = trim cs from rfl] at hcs
  have hself : trimBy isBlank (folded quoted (trim cs)) = folded quoted (trim cs) := by
    refine trimBy_eq_self (head_folded isBlank_asciiLower (head_trimBy isBlank cs))
      (class_of_map_asciiLower isBlank_asciiLower ?_ (getLast_trimBy isBlank cs))
    rw [← List.getLast?_map, map_asciiLower_folded, List.getLast?_map]
    rfl
  have hfolded : folded quoted cs = before ++ folded quoted (trim cs) ++ after := by
    conv => lhs; rw [hcs]
    rw [folded_append, folded_append, (folded_blank hbefore).1, (folded_blank hbefore).2,
      (folded_blank hafter).1]
  rw [hfolded, trim, trimBy_padded _ hbefore hafter, hself]

-- ---------------------------------------------------------------------------
-- Arguments
-- ---------------------------------------------------------------------------

/-- A formula with the letters of ASCII outside its single quotes in lower case. -/
def foldCase (formula : String) : String :=
  String.ofList (folded false formula.toList)

@[simp] theorem toList_foldCase (formula : String) :
    (foldCase formula).toList = folded false formula.toList :=
  String.toList_ofList

/-- The closing parenthesis is found where it was. -/
theorem closeFrom?_folded (depth : Nat) (quoted : Bool) (cs : List Char) :
    closeFrom? depth quoted (folded quoted cs) =
      (closeFrom? depth quoted cs).map fun r => (folded quoted r.1, folded false r.2) := by
  induction cs generalizing depth quoted with
  | nil => rfl
  | cons c cs ih =>
    by_cases hquote : c = '\''
    · subst hquote
      simp [closeFrom?, ih, Function.comp_def]
    cases quoted with
    | true => simp [closeFrom?, folded_true hquote, hquote, ih, Function.comp_def]
    | false =>
      have hsign : ∀ {d : Char}, d.isAlpha = false → (asciiLower c = d ↔ c = d) := asciiLower_eq_iff
      rw [folded_false hquote, closeFrom?, closeFrom?, ih, ih, ih]
      simp only [hsign (d := '\'') rfl, hsign (d := '(') rfl, hsign (d := ')') rfl, if_neg hquote]
      by_cases hopen : c = '('
      · simp only [if_pos hopen, Bool.false_eq_true, if_false, Option.map_map, Function.comp_def,
          folded_false hquote]
      by_cases hclose : c = ')'
      · by_cases hdepth : depth = 0
        · simp only [if_neg hopen, if_pos hclose, if_pos hdepth, Bool.false_eq_true, if_false]
          rfl
        · simp only [if_neg hopen, if_pos hclose, if_neg hdepth, Bool.false_eq_true, if_false,
            Option.map_map, Function.comp_def, folded_false hquote]
      · simp only [if_neg hopen, if_neg hclose, Bool.false_eq_true, if_false, Option.map_map,
          Function.comp_def, folded_false hquote]

/-- Puts the pieces of a text into lower case, the first of which begins in a quote or not. -/
def foldPieces (quoted : Bool) : List (List Char) → List (List Char)
  | piece :: pieces => folded quoted piece :: pieces.map (folded false)
  | [] => []

theorem foldPieces_false (pieces : List (List Char)) :
    foldPieces false pieces = pieces.map (folded false) := by
  cases pieces <;> rfl

/-- A character in front of the first piece is folded with it. -/
theorem foldPieces_putFirst {quoted' : Bool}
    (h : ∀ piece, folded quoted (c :: piece) = d :: folded quoted' piece)
    (pieces : List (List Char)) :
    foldPieces quoted (putFirst c pieces) = putFirst d (foldPieces quoted' pieces) := by
  cases pieces with
  | nil => simp [putFirst, foldPieces, h]
  | cons piece pieces => simp [putFirst, foldPieces, h]

/-- The commas are found where they were, so the pieces are folded one by one. -/
theorem piecesFrom_folded (depth : Int) (quoted : Bool) (cs : List Char) :
    piecesFrom depth quoted (folded quoted cs) =
      foldPieces quoted (piecesFrom depth quoted cs) := by
  induction cs generalizing depth quoted with
  | nil => rfl
  | cons c cs ih =>
    by_cases hquote : c = '\''
    · subst hquote
      rw [folded_quote, piecesFrom, piecesFrom, if_pos rfl, if_pos rfl, ih,
        foldPieces_putFirst folded_quote]
    cases quoted with
    | true =>
      rw [folded_true hquote, piecesFrom, piecesFrom, if_neg hquote, if_neg hquote, if_pos rfl,
        if_pos rfl, ih, foldPieces_putFirst (folded_true hquote)]
    | false =>
      have hsign : ∀ {d : Char}, d.isAlpha = false → (asciiLower c = d ↔ c = d) := asciiLower_eq_iff
      have hput := @foldPieces_putFirst c (asciiLower c) false false (folded_false hquote)
      rw [folded_false hquote, piecesFrom, piecesFrom, ih, ih, ih]
      simp only [hsign (d := '\'') rfl, hsign (d := '(') rfl, hsign (d := ')') rfl,
        hsign (d := ',') rfl, if_neg hquote]
      by_cases hopen : c = '('
      · simp only [if_pos hopen, Bool.false_eq_true, if_false, hput]
      by_cases hclose : c = ')'
      · simp only [if_neg hopen, if_pos hclose, Bool.false_eq_true, if_false, hput]
      by_cases hcomma : c = ',' ∧ depth = 0
      · simp only [if_neg hopen, if_neg hclose, if_pos hcomma, Bool.false_eq_true, if_false]
        rw [foldPieces_false, foldPieces_false, List.map_cons, folded_nil]
      · simp only [if_neg hopen, if_neg hclose, if_neg hcomma, Bool.false_eq_true, if_false, hput]

/-- Arguments are folded like the text that they are split from. -/
theorem split_folded (cs : List Char) : split (folded false cs) = (split cs).map foldCase := by
  have hlength := length_folded false (trim cs)
  have hempty : (folded false (trim cs)).isEmpty = (trim cs).isEmpty := by
    rw [Bool.eq_iff_iff, List.isEmpty_iff_length_eq_zero, List.isEmpty_iff_length_eq_zero, hlength]
  rw [split, split, trim_folded, hempty]
  split
  · rfl
  · rw [piecesFrom_folded, foldPieces_false, List.map_map, List.map_map]
    refine List.map_congr_left fun piece _ => ?_
    rw [Function.comp_apply, Function.comp_apply, trim_folded, foldCase, String.toList_ofList]

/-- The arguments of a folded call are folded. -/
theorem take?_folded (cs : List Char) :
    take? (folded false cs) = (take? cs).map fun r => (r.1.map foldCase, folded false r.2) := by
  rw [take?, take?, close?, close?, closeFrom?_folded, Option.map_map, Option.map_map]
  refine Option.map_congr fun r _ => ?_
  obtain ⟨inner, rest⟩ := r
  exact congrArg (·, folded false rest) (split_folded inner)

end Arguments

open Arguments

variable {cs rest : List Char}

-- ---------------------------------------------------------------------------
-- Tokens
-- ---------------------------------------------------------------------------

/-- A token with its name in lower case, if it is one. -/
def Token.folded : Token → Token
  | identifier name => identifier (lowerName name)
  | t => t

def Reading.folded : Reading → Reading
  | token t => token t.folded
  | reading => reading

theorem isNameStart_asciiLower (c : Char) : isNameStart (asciiLower c) = isNameStart c :=
  asciiLower_congr (by decide) c

theorem isNamePart_asciiLower (c : Char) : isNamePart (asciiLower c) = isNamePart c :=
  asciiLower_congr (by decide +kernel) c

/-- The case of a letter does not matter to where a word ends. -/
theorem Token.goesOn_asciiLower (t : Token) (c : Char) : t.goesOn (asciiLower c) = t.goesOn c := by
  cases t with
  | integer n =>
    exact asciiLower_congr (f := fun c => c.isDigit || c == '.' || c == ',') (by decide) c
  | double x => exact isDigit_asciiLower c
  | identifier name => exact isNamePart_asciiLower c
  | operator op => cases op <;> exact asciiLower_congr (f := goesOn (.operator _)) (by decide) c
  | _ => rfl

theorem Token.EndsAt.folded {t : Token} (h : t.EndsAt rest) :
    t.folded.EndsAt (Arguments.folded false rest) := by
  have hgoes : t.folded.goesOn = t.goesOn := by cases t <;> rfl
  unfold EndsAt
  rw [hgoes]
  exact head_folded t.goesOn_asciiLower h

/-- A sign holds no letter and no quote, and is no name. -/
theorem folded_of_sign {word : List Char} {t : Token} (h : (word, t) ∈ signs) :
    (∀ c ∈ word, c.isAlpha = false ∧ c ≠ '\'') ∧ t.folded = t := by
  have hall : ∀ s ∈ signs,
      (s.1.all fun c => !c.isAlpha && c != '\'') = true ∧ s.2.folded = s.2 := by decide
  obtain ⟨hword, ht⟩ := hall _ h
  exact ⟨fun c hc => by simpa using List.all_eq_true.mp hword c hc, ht⟩

/-- A digit is no letter, and no quote. -/
theorem unlettered_of_isDigit {c : Char} (h : c.isDigit = true) :
    c.isAlpha = false ∧ c ≠ '\'' := by
  refine ⟨Bool.eq_false_iff.mpr fun halpha => ?_, fun hc => (ne_of_isDigit h).1 (.inl hc)⟩
  have hstart := isNameStart_digit h
  simp [isNameStart, isLetter_of_isAlpha halpha] at hstart

/-- A folded word is a word of the folded token. -/
theorem IsWordOf.folded {word : List Char} {t : Token} (h : IsWordOf word t) (hdouble : '"' ∉ word)
    (rest : List Char) : ∃ word', folded false (word ++ rest) = word' ++ folded false rest ∧
      IsWordOf word' t.folded := by
  cases h with
  | sign h =>
    obtain ⟨hword, ht⟩ := folded_of_sign h
    rw [ht]
    exact ⟨word, folded_unlettered hword rest, .sign h⟩
  | integer h =>
    exact ⟨word, folded_unlettered (fun c hc => unlettered_of_isDigit (h.areDigits c hc)) rest,
      .integer h⟩
  | @double digits fraction mark h hmark hfraction =>
    refine ⟨_, folded_unlettered (fun c hc => ?_) rest, .double h hmark hfraction⟩
    rw [List.mem_append, List.mem_cons] at hc
    rcases hc with hc | rfl | hc
    · exact unlettered_of_isDigit (h.areDigits c hc)
    · rcases hmark with rfl | rfl <;> decide
    · exact unlettered_of_isDigit (hfraction c hc)
  | @text quote s hquote h =>
    obtain rfl : quote = '\'' := hquote.resolve_right (by rintro rfl; simp at hdouble)
    refine ⟨_, ?_, .text hquote h⟩
    rw [List.cons_append, folded_quote, List.append_assoc, List.singleton_append,
      Bool.not_false, folded_literal h]
    simp
  | @identifier c cs hstart hparts =>
    have hunquoted : ∀ d ∈ c :: cs, d ≠ '\'' := by
      intro d hd
      rcases List.mem_cons.mp hd with rfl | hd
      · exact ne_of_class hstart (by decide +kernel)
      · exact ne_of_class (hparts d hd) (by decide +kernel)
    refine ⟨_, folded_unquoted hunquoted rest, ?_⟩
    rw [Token.folded, lowerName, String.toList_ofList, List.map_cons]
    refine .identifier ((isNameStart_asciiLower c).trans hstart) fun d hd => ?_
    obtain ⟨e, he, rfl⟩ := List.mem_map.mp hd
    exact (isNamePart_asciiLower e).trans (hparts e he)

/-- A folded text begins with the same, but for a name in lower case. -/
theorem BeginsWith.folded {r : Reading} (h : BeginsWith cs r rest) (hdouble : '"' ∉ cs) :
    BeginsWith (folded false cs) r.folded (folded false rest) := by
  cases h with
  | nothing => exact .nothing
  | word h hends =>
    rw [List.mem_append, not_or] at hdouble
    obtain ⟨word', hfolded, hword⟩ := h.folded hdouble.1 rest
    rw [hfolded]
    exact .word hword hends.folded
  | tooLarge hdigits hlarge hends =>
    rw [folded_unlettered fun c hc => unlettered_of_isDigit (hdigits c hc)]
    exact .tooLarge hdigits hlarge (head_folded isDigit_asciiLower hends)
  | @stray c cs hc hsigns =>
    have hquote : ¬(asciiLower c = '\'' ∨ asciiLower c = '"') := by
      rw [asciiLower_eq_iff rfl, asciiLower_eq_iff rfl]
      exact hc.noQuote
    have hspace : asciiLower c ≠ ' ' := by
      rw [Ne, asciiLower_eq_iff rfl]
      exact hc.noSpace
    rw [folded_false fun h => hc.noQuote (.inl h)]
    refine .stray ⟨hquote, ?_, ?_, hspace⟩ fun s hs hprefix => ?_
    · rw [isDigit_asciiLower, hc.noDigit]
    · rw [isNameStart_asciiLower, hc.noName]
    · rw [← folded_false fun h => hc.noQuote (.inl h)] at hprefix
      have hunlettered := fun d hd => ((folded_of_sign hs).1 d hd).1
      exact hsigns s hs (prefix_of_prefix_folded hunlettered hprefix)
  | @unclosed quote cs hquote h =>
    obtain rfl : quote = '\'' := hquote.resolve_right (by rintro rfl; simp at hdouble)
    refine .unclosed hquote ?_
    rwa [mem_folded_iff rfl]

/-- A folded text begins with the same reading, but for a name in lower case. -/
theorem scan_folded (hdouble : '"' ∉ cs) :
    scan (folded false cs) = ((scan cs).1.folded, folded false (scan cs).2) := by
  obtain ⟨spaces, behind, hcs, hbegins⟩ := scan_eq_iff.mp (Prod.mk.eta (p := scan cs)).symm
  refine scan_eq_iff.mpr ⟨spaces, folded false behind, ?_, hbegins.folded ?_⟩
  · rw [hcs]
    refine folded_unlettered (fun c hc => ?_) behind
    rw [List.eq_of_mem_replicate hc]
    decide
  · intro hmem
    rw [hcs] at hdouble
    exact hdouble (List.mem_append_right _ hmem)

-- ---------------------------------------------------------------------------
-- Outlines
-- ---------------------------------------------------------------------------

/-- A symbol with its name in lower case and its arguments folded. -/
def Symbol.folded : Symbol → Symbol
  | token t => token t.folded
  | call name args closed => call (lowerName name) (args.map foldCase) closed

def Item.folded (item : Item) : Item :=
  { item with symbol := item.symbol.folded }

def EndCause.folded : EndCause → EndCause
  | openCall name length => openCall (lowerName name) length
  | cause => cause

def Ending.folded (e : Ending) : Ending :=
  { e with cause := e.cause.folded }

namespace Outline

def folded (o : Outline) : Outline :=
  ⟨o.items.map Item.folded, o.ending.folded⟩

/-- An opening parenthesis is found where it was, if the text has no double quotes. -/
theorem openParen?_folded (hdouble : '"' ∉ cs) :
    openParen? (Arguments.folded false cs) =
      (openParen? cs).map (Arguments.folded false) := by
  unfold openParen?
  rw [scan_folded hdouble]
  match scan cs with
  | (.token t, rest) => cases t <;> rfl
  | (.finished, rest) | (.unreadable, rest) | (.openLiteral, rest) => rfl

variable {inPlace : String → Bool}

/-- A folded text has the same items at the same places, but for names in lower case and folded
arguments. -/
theorem readFrom_folded (hplace : ∀ name, inPlace (lowerName name) = inPlace name) (offset : Nat)
    (hdouble : '"' ∉ cs) :
    readFrom inPlace offset (Arguments.folded false cs) = (readFrom inPlace offset cs).folded := by
  induction hlen : cs.length using Nat.strongRecOn generalizing cs offset with
  | ind length ih =>
    subst hlen
    have hfolded := scan_folded hdouble
    match hscan : scan cs with
    | (.token t, rest) =>
      have hlt := length_scan_lt (congrArg Prod.fst hscan)
      have hsuffix := scan_suffix cs
      rw [hscan] at hlt hfolded hsuffix
      have hrest : '"' ∉ rest := fun h => hdouble (hsuffix.subset h)
      have hopen := openParen?_folded hrest
      by_cases hplain : ∀ name, t = .identifier name → inPlace name = true ∨ openParen? rest = none
      · have hplain' : ∀ name, t.folded = .identifier name →
            inPlace name = true ∨ openParen? (Arguments.folded false rest) = none := by
          intro name hname
          cases t with
          | identifier name' =>
            obtain rfl := Token.identifier.inj hname
            rw [hplace, hopen, Option.map_eq_none_iff]
            exact hplain name' rfl
          | _ => simp [Token.folded] at hname
        rw [readFrom_token hscan hplain, readFrom_token hfolded hplain', length_folded,
          length_folded, ih rest.length hlt _ hrest rfl]
        rfl
      obtain ⟨name, rfl, hcalled⟩ : ∃ name, t = .identifier name ∧
          ¬ (inPlace name = true ∨ openParen? rest = none) := by
        simpa using hplain
      rw [not_or, Bool.not_eq_true] at hcalled
      obtain ⟨inner, hinner⟩ := Option.ne_none_iff_exists'.mp hcalled.2
      rw [hinner] at hopen
      have hplace' : inPlace (lowerName name) = false := by rw [hplace, hcalled.1]
      rw [readFrom_call hscan hcalled.1 hinner, readFrom_call hfolded hplace' hopen, take?_folded]
      match htake : Arguments.take? inner with
      | none =>
        rw [length_folded, length_folded]
        rfl
      | some (args, after) =>
        have hafter := (take?_suffix htake).trans (openParen?_suffix hinner)
        have hlt' := Nat.lt_of_le_of_lt hafter.length_le hlt
        have hbehind := ih after.length hlt' (offset + (cs.length - after.length))
          (fun h => hrest (hafter.subset h)) rfl
        rw [length_folded, length_folded]
        simp only [Option.map_some, length_folded, hbehind]
        rfl
    | (.finished, rest) | (.openLiteral, rest) | (.unreadable, rest) =>
      rw [hscan] at hfolded
      rw [readFrom_stopped hscan (by simp), readFrom_stopped hfolded (by simp [Reading.folded]),
        length_folded]
      simp only [length_folded]
      rfl

end Outline

end Formulae.Grammar
