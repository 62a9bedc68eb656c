import Formulae.Proofs.Evaluation.Joining
import Formulae.Proofs.Evaluation.Unasked

/-!
# Quoted texts

A text without single quotes, line breaks and tabs can be written between single quotes, and texts
can be joined by a call, whose arguments may be such calls in turn. The text of every argument is
cut out of the formula around it and scanned again at each level, but whatever stands between the
quotes is passed over at all of them: no comma in it cuts an argument, no parenthesis closes a call,
and no sign is an operator. The text of the formula is what was written between the quotes.

`Phrase` is a tree of such texts with the white space that is written in it, so that each phrase is
a formula and each way to write one is a phrase.

Main results:

* `Phrase.wellFormed_formula` — a phrase can be an argument of a call.
* `Phrase.calculatesText` — its text is that of its leaves.
* `Phrase.calculateText_formula` — so it is calculated, with any engine.
-/

namespace Formulae

open Grammar Arguments

-- ---------------------------------------------------------------------------
-- Phrases
-- ---------------------------------------------------------------------------

/-- A text that can stand between single quotes: none of them is in it, and nothing of which
cleaning makes a space. -/
structure Quotable where
  text : String
  unquoted : '\'' ∉ text.toList
  unbroken : ∀ c ∈ text.toList, ¬ (c = '\r' ∨ c = '\n' ∨ c = '\t')

/-- The text between single quotes. -/
def Quotable.quoted (s : Quotable) : String :=
  "'" ++ s.text ++ "'"

/-- White space around an argument. -/
structure Gap where
  text : String
  blank : Blank text.toList

mutual

/-- A text in quotes, or a call that joins two phrases or more. -/
inductive Phrase
  | literal (s : Quotable)
  | joined (before : Gap) (first : Phrase) (after : Gap) (others : Phrases)

/-- One or more phrases with white space around each of them. -/
inductive Phrases
  | one (before : Gap) (phrase : Phrase) (after : Gap)
  | more (before : Gap) (phrase : Phrase) (after : Gap) (others : Phrases)

end

mutual

/-- The texts between quotes, from left to right. -/
def Phrase.leaves : Phrase → List String
  | .literal s => [s.text]
  | .joined _ first _ others => first.leaves ++ others.leaves

def Phrases.leaves : Phrases → List String
  | .one _ phrase _ => phrase.leaves
  | .more _ phrase _ others => phrase.leaves ++ others.leaves

end

mutual

/-- The formula that a phrase is written as. -/
def Phrase.formula : Phrase → String
  | .literal s => s.quoted
  | .joined before first after others =>
    "concatenate" ++ "(" ++
      (before.text ++ first.formula ++ after.text ++ "," ++ others.inner) ++ ")"

/-- Phrases as they are written between the parentheses of a call. -/
def Phrases.inner : Phrases → String
  | .one before phrase after => before.text ++ phrase.formula ++ after.text
  | .more before phrase after others =>
    before.text ++ phrase.formula ++ after.text ++ "," ++ others.inner

end

namespace Phrases

def formulas : Phrases → List String
  | .one _ phrase _ => [phrase.formula]
  | .more _ phrase _ others => phrase.formula :: others.formulas

/-- The text of each phrase. -/
def texts : Phrases → List String
  | .one _ phrase _ => [String.join phrase.leaves]
  | .more _ phrase _ others => String.join phrase.leaves :: others.texts

/-- The texts of phrases are what stands between their quotes. -/
theorem join_texts (ps : Phrases) : String.join ps.texts = String.join ps.leaves := by
  induction ps using texts.induct with
  | case1 => simp [texts, leaves]
  | case2 before phrase after others ih => simp [texts, leaves, ih]

/-- There is always a phrase. -/
theorem formulas_ne_nil (ps : Phrases) : ps.formulas ≠ [] := by
  cases ps <;> simp [formulas]

/-- Between the parentheses of a call phrases are arguments with white space around them. -/
theorem spaced_inner (ps : Phrases) : Spaced ps.formulas ps.inner.toList := by
  induction ps using formulas.induct with
  | case1 before phrase after =>
    have hlast := Spaced.last phrase.formula before.blank after.blank
    rwa [← String.toList_append, ← String.toList_append] at hlast
  | case2 before phrase after others ih =>
    obtain ⟨next, args, hothers⟩ := List.exists_cons_of_ne_nil others.formulas_ne_nil
    rw [hothers] at ih
    have hmore := Spaced.more phrase.formula before.blank after.blank ih
    rw [formulas, hothers]
    simpa [inner] using hmore

end Phrases

-- ---------------------------------------------------------------------------
-- Literals
-- ---------------------------------------------------------------------------

/-- A formula with one literal and nothing else is that literal. -/
theorem TextTree.ofOutline_text {s : String} {stop : Nat} {ending : Ending}
    (h : ending.cause = .complete) :
    TextTree.ofOutline ⟨[⟨.token (.text s), stop⟩], ending⟩ = .literal s := by
  simp [TextTree.ofOutline, TextTree.concatenation, TextTree.atom, TextTree.concatenationRest,
    TextTree.sequenceRest, Parsed.widen, h]

namespace Quotable

variable (s : Quotable)

/-- The characters of a text in quotes. -/
theorem toList_quoted : s.quoted.toList = '\'' :: (s.text.toList ++ ['\'']) := by
  simp [quoted]

/-- A text in quotes can be an argument. -/
theorem isArgument_quoted : IsArgument s.quoted := by
  refine ⟨?_, ?_, ?_, ?_⟩
  · refine Text.trimBy_eq_self (fun c hc => ?_) (fun c hc => ?_)
    · rw [toList_quoted, List.head?_cons] at hc
      obtain rfl := Option.some.inj hc
      decide
    · rw [toList_quoted, ← List.cons_append, List.getLast?_concat] at hc
      obtain rfl := Option.some.inj hc
      decide
  · intro c hc
    rw [toList_quoted, List.mem_cons, List.mem_append, List.mem_singleton] at hc
    rcases hc with rfl | hc | rfl
    · decide
    · exact s.unbroken c hc
    · decide
  · rw [toList_quoted]
    simp
  · rw [toList_quoted]
    exact openBehind?_literal s.unquoted

/-- A text in quotes is one word, whatever it holds. -/
theorem ofFormula_quoted : TextTree.ofFormula s.quoted = .literal s.text := by
  have hscan : scan s.quoted.toList = (.token (.text s.text), []) := by
    rw [toList_quoted]
    show scanLiteral '\'' (s.text.toList ++ ['\'']) = _
    rw [scanLiteral_closed s.unquoted, String.ofList_toList]
  have hsays : Outline.Says (fun _ => false) s.quoted.toList [.token (.text s.text)] :=
    .cons (.token hscan (by simp)) (.nil _)
  obtain ⟨hcomplete, hwords⟩ := (@Outline.says_iff _ _ _ 0).mp hsays
  obtain ⟨stop, rest, hitems, hrest⟩ := words_eq_token.mp hwords
  obtain rfl := words_eq_nil.mp hrest
  have htree := @TextTree.ofOutline_text s.text stop _ hcomplete
  rw [← hitems] at htree
  exact htree

/-- The text of a text in quotes is that text. -/
theorem calculatesText_quoted (e : Engine) : e.CalculatesText s.quoted ⟨[], .value s.text⟩ := by
  rw [Engine.calculatesText_iff_settles, textProgram, s.isArgument_quoted.clean, ofFormula_quoted]
  exact e.settles_value s.text

end Quotable

-- ---------------------------------------------------------------------------
-- Trees
-- ---------------------------------------------------------------------------

/-- A phrase that joins phrases is a call with them as arguments. -/
theorem Phrase.isCall_formula {first : Phrase} {others : Phrases} (before after : Gap)
    (hfirst : WellFormed first.formula) (hothers : ∀ a ∈ others.formulas, WellFormed a) :
    IsCall "concatenate" (first.formula :: others.formulas)
      (Phrase.joined before first after others).formula where
  wellFormed := by
    intro a ha
    rcases List.mem_cons.mp ha with rfl | ha
    · exact hfirst
    · exact hothers a ha
  written :=
    ⟨_, (Phrases.more before first after others).spaced_inner, by
      simp [Phrase.formula, Phrases.inner]⟩

mutual

/-- A phrase can be an argument of a call. -/
theorem Phrase.wellFormed_formula : ∀ p : Phrase, WellFormed p.formula
  | .literal s => s.isArgument_quoted.wellFormed
  | .joined before first after others =>
    (Phrase.isCall_formula before after first.wellFormed_formula
      others.wellFormed_formulas).isWellFormed (by decide +kernel)

/-- Each of the phrases can. -/
theorem Phrases.wellFormed_formulas : ∀ ps : Phrases, ∀ a ∈ ps.formulas, WellFormed a
  | .one _ phrase _, a, ha => by
    obtain rfl := List.mem_singleton.mp ha
    exact phrase.wellFormed_formula
  | .more _ phrase _ others, a, ha => by
    rcases List.mem_cons.mp ha with rfl | ha
    · exact phrase.wellFormed_formula
    · exact others.wellFormed_formulas a ha

end

mutual

/-- The text of a phrase is that of its leaves, and nobody is asked for it. -/
theorem Phrase.calculatesText (e : Engine) :
    ∀ p : Phrase, e.CalculatesText p.formula ⟨[], .value (String.join p.leaves)⟩
  | .literal s => by
    rw [Phrase.leaves, String.join_cons, String.join_nil, String.append_empty]
    exact s.calculatesText_quoted e
  | .joined before first after others => by
    have hcall := Phrase.isCall_formula before after first.wellFormed_formula
      others.wellFormed_formulas
    have hcount : 2 ≤ (first.formula :: others.formulas).length :=
      Nat.succ_le_succ (List.length_pos_of_ne_nil others.formulas_ne_nil)
    have htexts := Engine.CalculatesTexts.cons (first.calculatesText e) (others.calculatesTexts e)
    have hjoined := Engine.calculatesText_joining (by decide +kernel) (by decide +kernel) (.inl rfl)
      hcall hcount htexts
    rwa [String.join_cons, others.join_texts, ← String.join_append] at hjoined

/-- Phrases have their texts, each without any request. -/
theorem Phrases.calculatesTexts (e : Engine) :
    ∀ ps : Phrases, e.CalculatesTexts ps.formulas [] ps.texts
  | .one _ phrase _ => .cons (phrase.calculatesText e) .nil
  | .more _ phrase _ others => .cons (phrase.calculatesText e) (others.calculatesTexts e)

end

/-- The text of a phrase is calculated as the texts between its quotes from left to right, whatever
characters they hold and however deep they are nested, with any engine and without asking anyone. -/
theorem Phrase.calculateText_formula (e : Engine) (p : Phrase) :
    e.calculateText p.formula = ⟨[], .value (String.join p.leaves)⟩ :=
  (e.calculate_of_unasked p.formula).2 _ (p.calculatesText e)

/-- Signs and a double quote in one literal, and a parenthesis in a call one level down. -/
example :
    let space : Gap := ⟨" ", by simp [Blank]; decide⟩
    let none : Gap := ⟨"", by simp [Blank]⟩
    let signs : Quotable := ⟨"a, + \"", by simp, by simp⟩
    let parenthesis : Quotable := ⟨"é);", by simp, by simp⟩
    let pair : Phrase := .joined none (.literal parenthesis) none (.one none (.literal signs) none)
    let phrase : Phrase := .joined none (.literal signs) space (.one space pair none)
    phrase.formula = "concatenate('a, + \"' , concatenate('é);','a, + \"'))" ∧
      String.join phrase.leaves = "a, + \"é);a, + \"" := by
  decide

end Formulae
