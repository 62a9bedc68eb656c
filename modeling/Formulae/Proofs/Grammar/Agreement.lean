import Formulae.Proofs.Grammar.Reading
import Formulae.Proofs.Grammar.WellFormed

/-!
# Tokens and scans agree about parentheses

A formula is read as tokens, and the text around it is scanned for the closing parenthesis and the
commas of a call, character by character. Both see the same parentheses. A token other than a
literal is written without quotes, and with a parenthesis only if it is one; a call that is cut out
is closed where the scans close it. So words in which parentheses nest are written as a text that is
neutral to the scans: behind it as many parentheses are open as before it, and no quote is.

Main results:

* `Outline.Reads.neutral` — words that are closed in themselves are neutral to the scans.
* `Outline.Says.of_close` — the parenthesis that closes words is not found before the end of a text
  that closes itself.
* `Outline.Says.not_shielded` — a semicolon between such words is not between parentheses.
-/

namespace Formulae.Grammar

variable {cs rest : List Char} {t : Token}

-- ---------------------------------------------------------------------------
-- Marks
-- ---------------------------------------------------------------------------

/-- A quote or parenthesis, to which the scans pay attention, or a semicolon. -/
def isMark (c : Char) : Bool :=
  c == '\'' || c == '(' || c == ')' || c == ';'

/-- The marks in what a token is written as, if it is no literal. -/
def Token.marks : Token → List Char
  | leftParen => ['(']
  | rightParen => [')']
  | semicolon => [';']
  | _ => []

theorem isMark_iff {c : Char} : isMark c = true ↔ c = '\'' ∨ c = '(' ∨ c = ')' ∨ c = ';' := by
  simp [isMark, or_assoc]

/-- Characters of a class that holds no marks. -/
theorem filter_isMark {p : Char → Bool}
    (hp : p '\'' = false ∧ p '(' = false ∧ p ')' = false ∧ p ';' = false) {piece : List Char}
    (h : ∀ c ∈ piece, p c = true) : piece.filter isMark = [] := by
  rw [List.filter_eq_nil_iff]
  intro c hc hmark
  have hpc := h c hc
  rcases isMark_iff.mp hmark with rfl | rfl | rfl | rfl <;> simp_all

theorem filter_spaces (spaces : Nat) : (List.replicate spaces ' ').filter isMark = [] :=
  List.filter_replicate_of_neg (by decide)

theorem filter_marks (t : Token) : t.marks.filter isMark = t.marks := by
  cases t <;> rfl

/-- The marks of a token that is no literal are the end of a word of it. -/
theorem IsWordOf.exists_front {word : List Char} (h : IsWordOf word t) (ht : ∀ s, t ≠ .text s) :
    ∃ front, word = front ++ t.marks ∧ front.filter isMark = [] := by
  have hdigits : ∀ {digits : List Char}, (∀ c ∈ digits, c.isDigit = true) →
      digits.filter isMark = [] := filter_isMark (by decide)
  cases h with
  | sign h =>
    have hall : ∀ s ∈ signs, let front := s.1.take (s.1.length - s.2.marks.length)
        s.1 = front ++ s.2.marks ∧ front.filter isMark = [] := by decide
    exact ⟨_, hall _ h⟩
  | integer h => exact ⟨_, (List.append_nil _).symm, hdigits h.areDigits⟩
  | double h hmark hfraction =>
    refine ⟨_, (List.append_nil _).symm, ?_⟩
    rw [List.filter_append, hdigits h.areDigits, List.filter_cons_of_neg, hdigits hfraction]
    · rfl
    · rcases hmark with rfl | rfl <;> decide
  | text => exact absurd rfl (ht _)
  | identifier hstart hparts =>
    exact ⟨_, (List.append_nil _).symm, filter_isMark (by decide +kernel)
      (List.forall_mem_cons.mpr ⟨isNamePart_of_isNameStart hstart, hparts⟩)⟩

/-- The marks of a token that is no literal are the end of what it is written as. -/
theorem scan_front (h : scan cs = (.token t, rest)) (ht : ∀ s, t ≠ .text s) :
    ∃ front, cs = front ++ t.marks ++ rest ∧ front.filter isMark = [] := by
  obtain ⟨spaces, word, rfl, hword, -⟩ := scan_eq_token_iff.mp h
  obtain ⟨front, rfl, hfront⟩ := hword.exists_front ht
  refine ⟨List.replicate spaces ' ' ++ front, by simp, ?_⟩
  rw [List.filter_append, filter_spaces, hfront, List.append_nil]

/-- A token that is no literal takes up a piece of the text with the marks that the token has. -/
theorem scan_marks (h : scan cs = (.token t, rest)) (ht : ∀ s, t ≠ .text s) :
    ∃ piece, cs = piece ++ rest ∧ piece.filter isMark = t.marks := by
  obtain ⟨front, hcs, hfront⟩ := scan_front h ht
  exact ⟨front ++ t.marks, hcs, by rw [List.filter_append, hfront, List.nil_append, filter_marks]⟩

-- ---------------------------------------------------------------------------
-- Neutral texts
-- ---------------------------------------------------------------------------

namespace Arguments

variable {d : Nat}

/-- Only the marks of a text open and close anything. -/
theorem openBehind?_filter {q : Bool} {r : Nat × Bool} (h : openBehind? d q cs = some r) :
    openBehind? d q (cs.filter isMark) = some r := by
  induction cs generalizing d q with
  | nil => exact h
  | cons c cs ih =>
    by_cases hc : isMark c = true
    · obtain ⟨d', q', hpasses, hmore⟩ := passes_of_openBehind? h
      have hhere : Passes d q c d' q' := hpasses 0
      rw [List.filter_cons_of_pos hc, hhere.openBehind]
      exact ih hmore
    · rw [List.filter_cons_of_neg hc]
      rw [isMark_iff, not_or, not_or, not_or] at hc
      cases q with
      | true =>
        rw [(passes_quoted hc.1).openBehind] at h
        exact ih h
      | false =>
        by_cases hcomma : c = ',' ∧ d = 0
        · obtain ⟨rfl, rfl⟩ := hcomma
          simp [openBehind?] at h
        · rw [(passes_plain hc.1 hc.2.1 hc.2.2.1 hcomma).openBehind] at h
          exact ih h

/-- A text that can be passed over is passed over without opening or closing anything. -/
def Neutral (piece : List Char) : Prop :=
  ∀ d r, openBehind? d false piece = some r → r = (d, false)

/-- Neutral texts are neutral one after the other. -/
theorem Neutral.append {front back : List Char} (hfront : Neutral front) (hback : Neutral back) :
    Neutral (front ++ back) := by
  intro d r h
  obtain ⟨d', q', hd, hr⟩ := openBehind?_append_eq_some h
  obtain ⟨rfl, rfl⟩ := Prod.mk.inj (hfront d _ hd)
  exact hback _ r hr

/-- Behind a neutral text the scans are in the state that they were in before it. -/
theorem Neutral.behind {front back : List Char} (h : Neutral front) {r : Nat × Bool}
    (hr : openBehind? d false (front ++ back) = some r) :
    openBehind? d false front = some (d, false) ∧ openBehind? d false back = some r := by
  obtain ⟨d', q', hfront, hback⟩ := openBehind?_append_eq_some hr
  obtain ⟨rfl, rfl⟩ := Prod.mk.inj (h d _ hfront)
  exact ⟨hfront, hback⟩

/-- A neutral text in parentheses is neutral, and so it is with unmarked texts beside these. -/
theorem Neutral.parens {left inner right : List Char} (hleft : left.filter isMark = ['('])
    (hinner : Neutral inner) (hright : right.filter isMark = [')']) :
    Neutral (left ++ inner ++ right) := by
  intro d r h
  rw [List.append_assoc] at h
  obtain ⟨d', q', hd, h⟩ := openBehind?_append_eq_some h
  have hopen := openBehind?_filter hd
  rw [hleft] at hopen
  obtain ⟨rfl, rfl⟩ := Prod.mk.inj (Option.some.inj hopen)
  obtain ⟨d'', q'', hd'', h⟩ := openBehind?_append_eq_some h
  obtain ⟨rfl, rfl⟩ := Prod.mk.inj (hinner _ _ hd'')
  have hclose := openBehind?_filter h
  rw [hright] at hclose
  exact (Option.some.inj hclose).symm

/-- It depends on the marks of a text whether it is neutral. -/
theorem Neutral.of_marks {piece : List Char} (h : Neutral (piece.filter isMark)) : Neutral piece :=
  fun d r hr => h d r (openBehind?_filter hr)

theorem neutral_nil : Neutral [] := fun _ _ h => (Option.some.inj h).symm

/-- So a text without marks is neutral. -/
theorem Neutral.of_unmarked {piece : List Char} (h : piece.filter isMark = []) : Neutral piece :=
  .of_marks (by rw [h]; exact neutral_nil)

/-- What is closed by a parenthesis behind it is neutral. -/
theorem neutral_of_closeFrom? {inner : List Char} (h : closeFrom? 0 false cs = some (inner, rest)) :
    Neutral inner := by
  have hone : openBehind? 1 false inner = some (1, false) := (of_closeFrom? h).1
  intro d r hr
  have hdeeper := openBehind?_deeper hr 1
  have hsame := openBehind?_deeper hone d
  rw [Nat.add_comm 1 d, hdeeper] at hsame
  obtain ⟨hdepth, hquoted⟩ := Prod.mk.inj (Option.some.inj hsame)
  exact Prod.ext (by simpa using hdepth) hquoted

end Arguments

-- ---------------------------------------------------------------------------
-- Words
-- ---------------------------------------------------------------------------

namespace Outline

open Arguments

variable {inPlace : String → Bool} {s : Symbol} {ws front back : List Symbol}

/-- A step over a token takes up a piece with its marks. -/
theorem Step.piece {t : Token} (h : Step inPlace cs (.token t) rest) (ht : ∀ s, t ≠ .text s) :
    ∃ piece, cs = piece ++ rest ∧ piece.filter isMark = t.marks := by
  cases h with
  | token hscan => exact scan_marks hscan ht

/-- A single word that is no parenthesis and no literal is neutral. -/
theorem Step.neutral (h : Step inPlace cs s rest) (hs : s.isPlain = true) :
    ∃ piece, cs = piece ++ rest ∧ Neutral piece := by
  cases h with
  | @token t _ hscan =>
    obtain ⟨piece, hcs, hmarks⟩ := scan_marks hscan (by rintro s rfl; simp [Symbol.isPlain] at hs)
    refine ⟨piece, hcs, .of_marks ?_⟩
    rw [hmarks]
    -- neither is a semicolon anything to the scans
    cases t <;> first | exact neutral_nil | simp [Symbol.isPlain] at hs
  | @call name args behind inner _ hscan _ hopen htake =>
    obtain ⟨front, rfl, hfront⟩ := scan_marks hscan (by simp)
    obtain ⟨left, rfl, hleft⟩ := scan_marks (openParen?_eq_some_iff.mp hopen) (by simp)
    obtain ⟨⟨text, _⟩, hclose, heq⟩ := Option.map_eq_some_iff.mp htake
    obtain ⟨-, rfl⟩ := Prod.mk.inj heq
    obtain rfl := append_of_closeFrom? hclose
    have hparens := @Neutral.parens _ _ [')'] hleft (neutral_of_closeFrom? hclose) rfl
    exact ⟨front ++ (left ++ text ++ [')']), by simp, .append (.of_unmarked hfront) hparens⟩

/-- Words that are closed in themselves are neutral. -/
theorem Reads.neutral (h : Reads inPlace cs ws rest) (hclosed : Closed ws) :
    ∃ piece, cs = piece ++ rest ∧ Neutral piece := by
  induction hclosed generalizing cs rest with
  | nil =>
    cases h with
    | done => exact ⟨[], rfl, neutral_nil⟩
  | single hs =>
    obtain _ | ⟨first, _ | _⟩ := h
    exact first.neutral hs
  | append _ _ ihfront ihback =>
    obtain ⟨mid, hfront, hback⟩ := h.split
    obtain ⟨front, rfl, hneutral⟩ := ihfront hfront
    obtain ⟨back, rfl, hneutral'⟩ := ihback hback
    exact ⟨front ++ back, by rw [List.append_assoc], hneutral.append hneutral'⟩
  | parens _ ih =>
    cases h with
    | step first h =>
      obtain ⟨mid, hinner, _ | ⟨last, _ | _⟩⟩ := h.split
      obtain ⟨left, rfl, hleft⟩ := first.piece (by simp)
      obtain ⟨inner, rfl, hneutral⟩ := ih hinner
      obtain ⟨right, rfl, hright⟩ := last.piece (by simp)
      exact ⟨left ++ inner ++ right, by simp, .parens hleft hneutral hright⟩

/-- A mark stands among characters that are none. -/
theorem exists_mark {piece : List Char} {mark : Char} (h : piece.filter isMark = [mark]) :
    ∃ before after, piece = before ++ mark :: after ∧ before.filter isMark = [] := by
  obtain ⟨before, after, rfl, hbefore, -⟩ := List.filter_eq_cons_iff.mp h
  exact ⟨before, after, rfl, List.filter_eq_nil_iff.mpr hbefore⟩

/-- If nothing is open behind a text, the parenthesis that closes the words before it in the text
and a parenthesis is the last one. -/
theorem Says.of_close (hopen : openBehind? 0 false cs = some (0, false)) (hclosed : Closed front)
    (h : Says inPlace (cs ++ [')']) (front ++ .token .rightParen :: back)) :
    back = [] ∧ Says inPlace cs front := by
  obtain ⟨behind, hreads, hbehind⟩ := h
  obtain ⟨mid, hfront, hback⟩ := hreads.split
  cases hback with
  | @step _ rest _ _ _ first more =>
    obtain ⟨text, hcs, htext⟩ := hfront.neutral hclosed
    obtain ⟨_, rfl, hmarks⟩ := first.piece (by simp)
    obtain ⟨before, after, rfl, hbefore⟩ := exists_mark hmarks
    have hneutral : Neutral (text ++ before) := htext.append (.of_unmarked hbefore)
    have hsplit : cs ++ [')'] = (text ++ before) ++ ')' :: (after ++ rest) := by
      rw [hcs]
      simp
    -- the parenthesis would close what is not open
    have hlast : after ++ rest = [] := by
      rcases List.eq_nil_or_concat (after ++ rest) with hnil | ⟨inner, c, hinner⟩
      · exact hnil
      · rw [hinner, List.concat_eq_append, ← List.cons_append, ← List.append_assoc] at hsplit
        rw [(List.append_inj' hsplit rfl).1] at hopen
        have hclose := (hneutral.behind hopen).2
        simp [openBehind?] at hclose
    obtain ⟨rfl, rfl⟩ := List.append_eq_nil_iff.mp hlast
    have hnone : back = [] := by
      cases more with
      | done => rfl
      | step first => exact absurd first.suffix.2 (by simp)
    refine ⟨hnone, before, ?_, ?_⟩
    · rw [List.append_nil] at hfront
      exact hfront.of_append
    · cases first with
      | token hscan =>
        rw [List.append_nil] at hscan
        rcases scan_of_append hscan with ⟨left, hleft, -⟩ | ⟨-, hfinished⟩
        · simp at hleft
        · exact hfinished

/-- If nothing is open behind a text, a semicolon behind words that are closed in themselves is not
between parentheses. -/
theorem Says.not_shielded (hopen : openBehind? 0 false cs = some (0, false))
    (hclosed : Closed front) (h : Says inPlace cs (front ++ .token .semicolon :: back)) :
    ¬ Shielded ';' cs := by
  obtain ⟨behind, hreads, -⟩ := h
  obtain ⟨mid, hfront, hback⟩ := hreads.split
  cases hback with
  | @step _ rest _ _ _ first more =>
    obtain ⟨text, rfl, htext⟩ := hfront.neutral hclosed
    obtain ⟨_, rfl, hmarks⟩ := first.piece (by simp)
    obtain ⟨before, after, rfl, hbefore⟩ := exists_mark hmarks
    have hneutral : Neutral (text ++ before) := htext.append (.of_unmarked hbefore)
    have hcs : text ++ (before ++ ';' :: after ++ rest) =
        (text ++ before) ++ ';' :: (after ++ rest) := by
      simp
    rw [hcs] at hopen ⊢
    obtain ⟨-, hdepth, hquoted⟩ := openBehind?_eq_some_iff.mp (hneutral.behind hopen).1
    intro hshielded
    refine hshielded (unquoted false (text ++ before)) (unquoted false (after ++ rest)) ?_ ?_
    · rw [unquoted_append, ← hquoted]
      rfl
    · simpa using hdepth.symm

end Outline

end Formulae.Grammar
