import Formulae.Proofs.Grammar.Extent
import Formulae.Proofs.Grammar.TextDerivation
import Formulae.Proofs.Evaluation.NumericGrammar

/-!
# Text formulas have the texts of their derivations

As for numbers, the tree of a text formula has the text of a derivation of the tokens that were
taken, or fails because they cannot be read (`Parsed.Tells`). An empty atom takes no token and is
never refused, so that what does not belong to a text is found only where a concatenation, a
parenthesis or the whole formula should have ended.

A concatenation is parsed from the left and derived from the right; both have the same text.

Main results:

* `tells_parse`, `tells_segments` — the parser is sound, in all its parts.
* `tells_ofOutline` — a whole formula has the text of its derivation, or none and fails.
* `Engine.calculatesText_iff_derivation` — the same of the calculation by an engine.
-/

namespace Formulae

open Grammar

-- ---------------------------------------------------------------------------
-- Names that stand for texts
-- ---------------------------------------------------------------------------

namespace Engine

/-- A name stands for a text: for what the providers reply. -/
def ResolvesText (e : Engine) (name s : String) : Prop :=
  e.Yields (Program.request (.textValue name)) (some s)

/-- The text of a name is that of the providers, whatever error there would be otherwise. -/
theorem ResolvesText.yields {e : Engine} {name s : String} (h : e.ResolvesText name s)
    (unknown : FormulaError) : e.Yields (textValueOf name unknown) s :=
  h.bind (e.yields_value s)

/-- The tokens of a formula without calls whose names all stand for texts. -/
structure Reads (e : Engine) (word : String → String) (ts : List Token) : Prop where
  callFree : CallFree ts
  names (name : String) : .identifier name ∈ ts → e.ResolvesText name (word name)

/-- What follows among tokens that can be read can be read. -/
theorem Reads.of_append {e : Engine} {word : String → String} {front ts : List Token}
    (h : e.Reads word (front ++ ts)) : e.Reads word ts :=
  ⟨h.callFree.of_append, fun name hname => h.names name (List.mem_append_right front hname)⟩

theorem Reads.tail {e : Engine} {word : String → String} {t : Token} {ts : List Token}
    (h : e.Reads word (t :: ts)) : e.Reads word ts :=
  @Reads.of_append e word [t] ts h

end Engine

-- ---------------------------------------------------------------------------
-- Trees have the texts of derivations
-- ---------------------------------------------------------------------------

namespace Grammar

variable (e : Engine) (formula : String) (word : String → String)

/-- Tokens are an atom with a text. -/
def IsAtom (ts : List Token) (s : String) : Prop :=
  ∃ a : Atom, a.tokens = ts ∧ a.text word = s

/-- Tokens are a concatenation with a text. -/
def IsConcatenation (ts : List Token) (s : String) : Prop :=
  ∃ c : Concatenation, c.tokens = ts ∧ c.text word = s

/-- Tokens are a whole formula with a text. -/
def IsText (ts : List Token) (s : String) : Prop :=
  ∃ d : Segments, d.tokens = ts ∧ d.text word = s

/-- Tokens continue a concatenation behind a text: there are none, or a sign and more atoms. -/
def Appends (left : String) (ts : List Token) (s : String) : Prop :=
  ts = [] ∧ left = s ∨
    ∃ c : Concatenation, .operator .add :: c.tokens = ts ∧ left ++ c.text word = s

/-- Tokens continue a formula behind a segment with a text: there are none, or a semicolon and more
segments. -/
def Succeeds (first : String) (ts : List Token) (s : String) : Prop :=
  ts = [] ∧ first = s ∨ ∃ d : Segments, .semicolon :: d.tokens = ts ∧ d.text word = s

/-- What the parser makes of tokens is true to a reading of them: it has taken some of them and has
a tree with their text, or its tree fails because they cannot be read. -/
def Parsed.Tells {bound : Nat} (reading : List Token → String → Prop) (ts : List Token) :
    Parsed TextTree bound → Prop
  | .done tree rest _ =>
    ∃ front us s, ts = front ++ us ∧ Spells rest us ∧ reading front s ∧
      e.Yields (tree.evaluate e.context formula) s
  | .stuck tree => e.FailsWith (tree.evaluate e.context formula) unreadable

variable {e formula word}

/-- An atom and what is put behind it are a concatenation. -/
theorem IsAtom.concatenation {front more : List Token} {left s : String}
    (hatom : IsAtom word front left) (hmore : Appends word left more s) :
    IsConcatenation word (front ++ more) s := by
  obtain ⟨a, rfl, rfl⟩ := hatom
  rcases hmore with ⟨rfl, rfl⟩ | ⟨c, rfl, rfl⟩
  · exact ⟨.single a, (List.append_nil _).symm, rfl⟩
  · exact ⟨.join a c, rfl, rfl⟩

/-- A text is put together from the left. -/
theorem IsAtom.appends {left right s : String} {front more : List Token}
    (hatom : IsAtom word front right) (hmore : Appends word (left ++ right) more s) :
    Appends word left (.operator .add :: (front ++ more)) s := by
  obtain ⟨a, rfl, rfl⟩ := hatom
  rcases hmore with ⟨rfl, rfl⟩ | ⟨c, rfl, rfl⟩
  · exact .inr ⟨.single a, by rw [List.append_nil]; rfl, rfl⟩
  · exact .inr ⟨.join a c, rfl, String.append_assoc.symm⟩

/-- A concatenation and the segments behind it are a whole formula. -/
theorem IsConcatenation.segments {front more : List Token} {first s : String}
    (hsegment : IsConcatenation word front first) (hmore : Succeeds word first more s) :
    IsText word (front ++ more) s := by
  obtain ⟨c, rfl, rfl⟩ := hsegment
  rcases hmore with ⟨rfl, rfl⟩ | ⟨d, rfl, rfl⟩
  · exact ⟨.last c, (List.append_nil _).symm, rfl⟩
  · exact ⟨.behind c d, rfl, rfl⟩

/-- A tree that is a complaint fails with it. -/
theorem failsWith_textFailure {c : Complaint} (h : c.kind ∈ unreadable) :
    e.FailsWith ((TextTree.failure c).evaluate e.context formula) unreadable :=
  ⟨[], c.toError formula, e.settles_error _, h⟩

/-- So does a tree with a text and a complaint behind it. -/
theorem failsWith_textThenFail {tree : TextTree} {s : String} {c : Complaint}
    (htree : e.Yields (tree.evaluate e.context formula) s) (h : c.kind ∈ unreadable) :
    e.FailsWith ((tree.thenFail c).evaluate e.context formula) unreadable :=
  htree.bind_failsWith (failsWith_textFailure h)

namespace Parsed

variable {small large : Nat} {ts : List Token} {reading reading' : List Token → String → Prop}

theorem tells_widen (h : small ≤ large) (p : Parsed TextTree small) :
    (p.widen h).Tells e formula reading ts ↔ p.Tells e formula reading ts := by
  cases p <;> rfl

/-- What is read behind some tokens is read together with them. -/
theorem Tells.behind {p : Parsed TextTree large} {front : List Token}
    (h : p.Tells e formula reading ts)
    (hreading : ∀ more s, reading more s → reading' (front ++ more) s) :
    p.Tells e formula reading' (front ++ ts) := by
  cases p with
  | stuck tree => exact h
  | done tree rest fits =>
    obtain ⟨more, us, s, rfl, hrest, hs, htree⟩ := h
    exact ⟨front ++ more, us, s, (List.append_assoc ..).symm, hrest, hreading more s hs, htree⟩

/-- Behind an inner concatenation the parser reads a closing parenthesis, or there is none. -/
theorem Tells.closing {p : Parsed TextTree large} (h : p.Tells e formula reading ts)
    (ending : Ending) :
    (p.closing ending .syntaxError none TextTree.thenFail).Tells e formula
      (fun front s => ∃ inner, front = inner ++ [.rightParen] ∧ reading inner s) ts := by
  match p with
  | .stuck tree => exact h
  | .done tree [] fits =>
    obtain ⟨front, us, s, hts, hrest, hs, htree⟩ := h
    exact failsWith_textThenFail htree (kind_unexpected ending [])
  | .done tree (item :: rest) fits =>
    obtain ⟨front, us, s, rfl, hrest, hs, htree⟩ := h
    rw [Parsed.closing]
    split
    · rename_i hclosing
      obtain ⟨t, us, rfl, hmore, hsymbol⟩ := spells_of_cons hrest
      obtain rfl : t = .rightParen := by
        rw [hsymbol, Symbol.isClosing_iff] at hclosing
        exact Symbol.token.inj hclosing
      refine ⟨front ++ [.rightParen], us, s, ?_, hmore, ⟨front, rfl, hs⟩, htree⟩
      rw [List.append_assoc, List.singleton_append]
    · exact failsWith_textThenFail htree (kind_unexpected ending _)

end Parsed

open TextTree

/-- Where nothing begins an atom there is an empty one, unless a literal is not closed there. -/
theorem tells_nothing {ending : Ending}
    (hending : ∀ name length, ending.cause ≠ .openCall name length) {items : List Item}
    {ts : List Token} (hitems : Spells items ts) :
    (nothing ending items).Tells e formula (IsAtom word) ts := by
  have hempty : ∃ front us s, ts = front ++ us ∧ Spells items us ∧ IsAtom word front s ∧
      e.Yields ((TextTree.literal "").evaluate e.context formula) s :=
    ⟨[], ts, "", rfl, hitems, ⟨.empty, rfl, rfl⟩, e.yields_value ""⟩
  cases items with
  | cons item rest => exact hempty
  | nil =>
    obtain ⟨cause, stop⟩ := ending
    cases cause with
    | complete | unreadable => exact hempty
    | openLiteral => exact failsWith_textFailure (kind_noOperand hending [])
    | openCall name length => exact absurd rfl (hending name length)

/-- The parser is sound. The parts are taken together, and each relies on the others for fewer
items. -/
theorem tells_parse {ending : Ending}
    (hending : ∀ name length, ending.cause ≠ .openCall name length) :
    (∀ items, ∀ ts, Spells items ts → e.Reads word ts →
      (concatenation ending items).Tells e formula (IsConcatenation word) ts) ∧
    (∀ left items, ∀ l ts, e.Yields (left.evaluate e.context formula) l → Spells items ts →
      e.Reads word ts →
      (concatenationRest ending left items).Tells e formula (Appends word l) ts) ∧
    (∀ items, ∀ ts, Spells items ts → e.Reads word ts →
      (atom ending items).Tells e formula (IsAtom word) ts) := by
  apply concatenation.mutual_induct ending
  -- a concatenation
  · intro items left hparse ih ts hitems hreads
    have hleft := ih ts hitems hreads
    rw [hparse] at hleft
    rw [concatenation, hparse]
    exact hleft
  · intro items left rest fits hparse ihleft ihmore ts hitems hreads
    have hleft := ihleft ts hitems hreads
    rw [hparse] at hleft
    obtain ⟨front, us, l, rfl, hrest, hatom, hyields⟩ := hleft
    have hmore := ihmore l us hyields hrest hreads.of_append
    rw [concatenation, hparse]
    simp only [Parsed.tells_widen]
    exact hmore.behind fun _ _ => hatom.concatenation
  -- the rest of a concatenation
  · intro left stop rest right hparse ih l ts hleft hitems hreads
    obtain ⟨t, us, rfl, hrest, -⟩ := spells_of_cons hitems
    have hright := ih us hrest hreads.tail
    rw [hparse] at hright
    rw [concatenationRest, hparse]
    exact hleft.bind_failsWith hright.bind
  · intro left stop rest right more fits hparse ihright ihmore l ts hleft hitems hreads
    obtain ⟨t, us, rfl, hrest, hsymbol⟩ := spells_of_cons hitems
    obtain rfl := Symbol.token.inj hsymbol
    have hright := ihright us hrest hreads.tail
    rw [hparse] at hright
    obtain ⟨front, us, r, rfl, hmore, hatom, hyields⟩ := hright
    have hboth : e.Yields ((TextTree.append left right).evaluate e.context formula) (l ++ r) :=
      hleft.bind (hyields.bind (e.yields_value _))
    have htells := ihmore _ us hboth hmore hreads.tail.of_append
    rw [concatenationRest, hparse]
    simp only [Parsed.tells_widen]
    rw [← List.cons_append]
    exact htells.behind fun _ _ => hatom.appends
  · intro left items hadd l ts hleft hitems hreads
    rw [concatenationRest]
    · exact ⟨[], ts, l, rfl, hitems, .inl ⟨rfl, rfl⟩, hleft⟩
    · exact hadd
  -- an atom
  · intro s stop rest ts hitems hreads
    obtain ⟨t, us, rfl, hrest, hsymbol⟩ := spells_of_cons hitems
    obtain rfl := Symbol.token.inj hsymbol
    rw [atom]
    exact ⟨[_], us, s, rfl, hrest, ⟨.literal s, rfl, rfl⟩, e.yields_value s⟩
  · intro name args closed stop rest ts hitems hreads
    obtain ⟨_, _, _, _, hsymbol⟩ := spells_of_cons hitems
    exact absurd hsymbol (by simp)
  · intro stop rest ih ts hitems hreads
    obtain ⟨t, us, rfl, hrest, hsymbol⟩ := spells_of_cons hitems
    obtain rfl := Symbol.token.inj hsymbol
    have hinner := (ih us hrest hreads.tail).closing ending
    rw [atom]
    simp only [Parsed.tells_widen]
    rw [← List.singleton_append]
    refine hinner.behind ?_
    rintro _ _ ⟨_, rfl, ⟨c, rfl, rfl⟩⟩
    exact ⟨.parens c, rfl, rfl⟩
  · intro name stop rest ts hitems hreads
    obtain ⟨t, us, rfl, hrest, hsymbol⟩ := spells_of_cons hitems
    obtain rfl := Symbol.token.inj hsymbol
    have hname := hreads.names name (List.mem_cons_self ..)
    rw [atom, named]
    split
    · exact failsWith_textFailure (kind_noOperand hending _)
    · exact ⟨[_], us, _, rfl, hrest, ⟨.name name, rfl, rfl⟩, hname.yields _⟩
  · intro items _ _ _ _ ts hitems hreads
    rw [atom]
    · exact tells_nothing hending hitems
    all_goals assumption

/-- So are the segments behind the first one. -/
theorem tells_sequenceRest {ending : Ending}
    (hending : ∀ name length, ending.cause ≠ .openCall name length) {first : TextTree}
    {items : List Item} {s : String} {ts : List Token}
    (hfirst : e.Yields (first.evaluate e.context formula) s) (hitems : Spells items ts)
    (hreads : e.Reads word ts) :
    (sequenceRest ending first items).Tells e formula (Succeeds word s) ts := by
  fun_induction sequenceRest ending first items generalizing s ts with
  | case1 first stop rest second hparse =>
    obtain ⟨t, us, rfl, hrest, -⟩ := spells_of_cons hitems
    have hsecond := (@tells_parse e formula word ending hending).1 rest us hrest hreads.tail
    rw [hparse] at hsecond
    exact hfirst.bind_failsWith hsecond
  | case2 first stop rest second more fits hparse ih =>
    obtain ⟨t, us, rfl, hrest, hsymbol⟩ := spells_of_cons hitems
    obtain rfl := Symbol.token.inj hsymbol
    have hsecond := (@tells_parse e formula word ending hending).1 rest us hrest hreads.tail
    rw [hparse] at hsecond
    obtain ⟨front, us, s', rfl, hmore, hsegment, hyields⟩ := hsecond
    have htells := ih (hfirst.bind hyields) hmore hreads.tail.of_append
    rw [Parsed.tells_widen, ← List.cons_append]
    refine htells.behind fun _ _ hmore => ?_
    obtain ⟨d, htokens, htext⟩ := hsegment.segments hmore
    exact .inr ⟨d, by rw [htokens, List.cons_append], htext⟩
  | case3 first items hsemicolon => exact ⟨[], ts, s, rfl, hitems, .inl ⟨rfl, rfl⟩, hfirst⟩

/-- A parser of whole formulas is true to the reading as a whole formula. -/
theorem tells_segments {ending : Ending}
    (hending : ∀ name length, ending.cause ≠ .openCall name length) {items : List Item}
    {ts : List Token} (hitems : Spells items ts) (hreads : e.Reads word ts) :
    (segments ending items).Tells e formula (IsText word) ts := by
  have hfirst := (@tells_parse e formula word ending hending).1 items ts hitems hreads
  unfold segments
  match hparse : concatenation ending items with
  | .stuck first =>
    rw [hparse] at hfirst
    exact hfirst
  | .done first rest fits =>
    rw [hparse] at hfirst
    obtain ⟨front, us, s, rfl, hrest, hsegment, hyields⟩ := hfirst
    have hmore := tells_sequenceRest hending hyields hrest hreads.of_append
    simp only [Parsed.tells_widen]
    exact hmore.behind fun _ _ => hsegment.segments

-- ---------------------------------------------------------------------------
-- Whole formulas
-- ---------------------------------------------------------------------------

/-- Tokens that are read to the end of their text and have a derivation as a text. -/
def IsTextual (c : Cursor) : Prop :=
  c.Finishes ∧ ∃ d : Segments, d.tokens = c.tokens

/-- The tree of an outline has the text of the derivation of its tokens. If there is none, because
the tokens are not read to the end of the text or for want of a production, it fails. -/
theorem tells_ofOutline {o : Outline} {c : Cursor} (ho : o.Follows c)
    (hreads : e.Reads word c.tokens) :
    (∃ d : Segments, c.Finishes ∧ d.tokens = c.tokens ∧
      e.Yields ((ofOutline o).evaluate e.context formula) (d.text word)) ∨
    (¬ IsTextual c ∧ e.FailsWith ((ofOutline o).evaluate e.context formula) unreadable) := by
  -- a derivation of all the tokens would be accepted and leave nothing
  have haccepted : IsTextual c → (segments o.ending o.items).StopsAt [] := by
    rintro ⟨hfinishes, d, hd⟩
    exact d.accepted (ho.complete.mpr hfinishes) (hd ▸ ho.spells)
  have htells := @tells_segments e formula word _ ho.uncut o.items c.tokens ho.spells hreads
  rw [ofOutline_eq]
  match hparse : segments o.ending o.items with
  | .stuck tree =>
    rw [hparse] at htells haccepted
    refine .inr ⟨fun htextual => ?_, htells⟩
    obtain ⟨_, _, _, hdone, -⟩ := haccepted htextual
    simp at hdone
  | .done tree rest fits =>
    rw [hparse] at htells haccepted
    obtain ⟨front, us, s, hts, hrest, ⟨d, rfl, rfl⟩, hyields⟩ := htells
    by_cases hall : rest = [] ∧ o.ending.cause = .complete
    · obtain ⟨rfl, hcomplete⟩ := hall
      obtain rfl : us = [] := by
        cases us with
        | nil => rfl
        | cons u us => simp [Spells] at hrest
      rw [List.append_nil] at hts
      refine .inl ⟨d, ho.complete.mp hcomplete, hts.symm, ?_⟩
      simp only [hcomplete]
      exact hyields
    · have hif : (rest.isEmpty && o.ending.cause == .complete) = false := by
        rw [Bool.eq_false_iff]
        simpa [List.isEmpty_iff] using hall
      simp only [hif]
      refine .inr ⟨?_, failsWith_textThenFail hyields (kind_unexpected o.ending rest)⟩
      intro htextual
      obtain ⟨_, _, _, hdone, hspells⟩ := haccepted htextual
      obtain ⟨-, rfl⟩ := Parsed.done.inj hdone
      exact hall ⟨by simpa [Spells] using hspells, ho.complete.mpr htextual.1⟩

end Grammar

namespace Engine

/-- A formula without calls whose names stand for texts has a text just if its tokens, read to the
end of it, have a derivation, and then the text is that of the derivation, of which there is only
one. Any other such formula is an error of the syntax or a literal that is not closed. -/
theorem calculatesText_iff_derivation (e : Engine) (formula : String) (word : String → String)
    (hfree : CallFree (stream formula).tokens)
    (hnames : ∀ name, .identifier name ∈ (stream formula).tokens →
      e.ResolvesText name (word name)) :
    (∀ s, (∃ calls, e.CalculatesText formula ⟨calls, .value s⟩) ↔
      (stream formula).Finishes ∧
        ∃ d : Segments, d.tokens = (stream formula).tokens ∧ d.text word = s) ∧
    (∀ d d' : Segments, d.tokens = (stream formula).tokens →
      d'.tokens = (stream formula).tokens → d = d') ∧
    (¬ IsTextual (stream formula) → ∃ calls err, e.CalculatesText formula ⟨calls, .error err⟩ ∧
      (err.kind = .syntaxError ∨ err.kind = .invalidString)) := by
  have hfollows := Outline.follows_ofText (fun _ => false) hfree
  have htells := @tells_ofOutline e (cleanFormula formula) word _ _ hfollows ⟨hfree, hnames⟩
  have hunique : ∀ d d' : Segments, d.tokens = (stream formula).tokens →
      d'.tokens = (stream formula).tokens → d = d' := by
    intro d d' hd hd'
    exact Segments.unique (hd.trans hd'.symm)
  have hvalue : ∀ s, (∃ calls, e.CalculatesText formula ⟨calls, .value s⟩) ↔
      e.Yields (textProgram e.context formula) s := by
    intro s
    exact exists_congr fun calls => calculatesText_iff_settles
  refine ⟨fun s => ?_, hunique, fun hnone => ?_⟩
  · rw [hvalue]
    constructor
    · intro hyields
      rcases htells with ⟨d, hfinishes, hd, hyields'⟩ | ⟨-, hfails⟩
      · exact ⟨hfinishes, d, hd, hyields'.unique hyields⟩
      · exact absurd hfails hyields.not_failsWith
    · rintro ⟨hfinishes, d, hd, rfl⟩
      rcases htells with ⟨d', -, hd', hyields⟩ | ⟨hnot, -⟩
      · rw [hunique d d' hd hd']
        exact hyields
      · exact absurd ⟨hfinishes, d, hd⟩ hnot
  · rcases htells with ⟨d, hfinishes, hd, -⟩ | ⟨-, calls, err, hsettles, hkind⟩
    · exact absurd ⟨hfinishes, d, hd⟩ hnone
    · refine ⟨calls, err, calculatesText_iff_settles.mpr hsettles, ?_⟩
      simpa [unreadable] using hkind

/-- An engine of which a provider knows what `x` is in a text. -/
def lettered : Engine :=
  { providers := [ProviderTable.provider { textValues := [("x", .formula "'y'")] }] }

/-- What the names of its formulas stand for. -/
def lettered.word : String → String
  | "x" => "y"
  | _ => ""

/-- Two segments, of which the last has an empty atom and a concatenation in parentheses. -/
theorem calculatesText_iff_derivation_lettered :
    CallFree (stream "x; \"a'\" + (x + 'é') +").tokens ∧
      (∀ name, .identifier name ∈ (stream "x; \"a'\" + (x + 'é') +").tokens →
        lettered.ResolvesText name (lettered.word name)) ∧
      ∃ calls, lettered.CalculatesText "x; \"a'\" + (x + 'é') +" ⟨calls, .value "a'yé"⟩ := by
  have htokens : (stream "x; \"a'\" + (x + 'é') +").tokens =
      [.identifier "x", .semicolon, .text "a'", .operator .add, .leftParen, .identifier "x",
        .operator .add, .text "é", .rightParen, .operator .add] := by
    decide +kernel
  have hfinishes : (stream "x; \"a'\" + (x + 'é') +").Finishes := by
    refine ⟨⟨"x; \"a'\" + (x + 'é') +".toList.reverse, []⟩, ?_⟩
    decide +kernel
  have hfree : CallFree (stream "x; \"a'\" + (x + 'é') +").tokens := by
    rw [htokens]
    simp
  have hnames : ∀ name, .identifier name ∈ (stream "x; \"a'\" + (x + 'é') +").tokens →
      lettered.ResolvesText name (lettered.word name) := by
    intro name hname
    rw [htokens] at hname
    obtain rfl : name = "x" := by simpa using hname
    exact ⟨[⟨0, .textValue "x"⟩], 1, by decide +kernel, by decide +kernel⟩
  let whole : Segments :=
    .behind (.single (.name "x"))
      (.last (.join (.literal "a'")
        (.join (.parens (.join (.name "x") (.single (.literal "é")))) (.single .empty))))
  have htext :=
    (calculatesText_iff_derivation lettered "x; \"a'\" + (x + 'é') +" lettered.word hfree hnames).1
  refine ⟨hfree, hnames, (htext "a'yé").mpr ⟨hfinishes, whole, ?_, by decide +kernel⟩⟩
  rw [htokens]
  rfl

end Engine

end Formulae
