import Formulae.Proofs.Grammar.Acceptance
import Formulae.Proofs.Evaluation.Settling

/-!
# Numeric formulas have the values of their derivations

A formula is parsed into a tree, and the tree is evaluated from left to right. By the parser's own
recursion, the tree has the value of a derivation of the tokens that were taken, or fails because
they cannot be read (`Parsed.Sound`). That a derivable formula is not refused is known from
`Derivation.accepted`, and that there is no other derivation with another value from
`Derivation.unique`. Together they say what a formula without calls evaluates to.

What names stand for is left open: they may be constants, or providers may know them, after having
formulas evaluated themselves.

Main results:

* `sound_parse` — the parser is sound, in all its parts at once.
* `sound_ofOutline` — a whole formula has the value of its derivation, or none and fails.
* `Engine.calculates_iff_derivation` — the same of the calculation by an engine.
-/

namespace Formulae

open Grammar NumericTree

-- ---------------------------------------------------------------------------
-- Names that stand for numbers
-- ---------------------------------------------------------------------------

namespace Engine

/-- A name stands for a number: for that of a constant, or for what the providers reply. -/
def Resolves (e : Engine) (name : String) (x : Float) : Prop :=
  match Constant.ofName? name with
  | some constant => constantValue e.context constant = some x
  | none => e.Yields (Program.request (.value name)) (some x)

/-- A name that stands for a number has that value. -/
theorem Resolves.yields {e : Engine} {name : String} {x : Float} (h : e.Resolves name x)
    (unknown : FormulaError) : e.Yields (valueOf e.context name unknown) x := by
  unfold Resolves at h
  unfold valueOf
  cases hconstant : Constant.ofName? name with
  | some constant =>
    simp only [hconstant] at h ⊢
    rw [h]
    exact e.yields_value x
  | none =>
    simp only [hconstant] at h ⊢
    exact h.bind (e.yields_value x)

/-- The tokens of a formula without calls whose names all stand for numbers. -/
structure Knows (e : Engine) (number : String → Float) (ts : List Token) : Prop where
  callFree : CallFree ts
  names (name : String) : .identifier name ∈ ts → e.Resolves name (number name)

/-- What is known of some tokens is known of the last of them. -/
theorem Knows.of_append {e : Engine} {number : String → Float} {front ts : List Token}
    (h : e.Knows number (front ++ ts)) : e.Knows number ts :=
  ⟨h.callFree.of_append, fun name hname => h.names name (List.mem_append_right front hname)⟩

theorem Knows.tail {e : Engine} {number : String → Float} {t : Token} {ts : List Token}
    (h : e.Knows number (t :: ts)) : e.Knows number ts :=
  @Knows.of_append e number [t] ts h

end Engine

/-- The errors of what cannot be read. -/
def unreadable : List ErrorKind := [.syntaxError, .invalidString]

/-- A token that does not fit cannot be read. -/
theorem kind_unexpected (ending : Ending) (rest : List Item) :
    (ending.unexpected rest .syntaxError none).kind ∈ unreadable := by
  unfold Ending.unexpected
  split <;> simp [unreadable]

/-- Nor can anything that is no operand, unless a call is left open. -/
theorem kind_noOperand {ending : Ending} (h : ∀ name length, ending.cause ≠ .openCall name length)
    (rest : List Item) : (ending.noOperand rest).kind ∈ unreadable := by
  unfold Ending.noOperand
  split
  · rename_i name length hcause
    exact absurd hcause (h name length)
  · exact kind_unexpected ending _

-- ---------------------------------------------------------------------------
-- Trees have the values of derivations
-- ---------------------------------------------------------------------------

namespace Grammar

variable (e : Engine) (formula : String) (number : String → Float)

/-- Tokens have a derivation with a value. -/
def Derives (c : Category) (ts : List Token) (x : Float) : Prop :=
  ∃ d : Derivation c, d.tokens = ts ∧ d.value e.settings.decimalNumbers number = x

/-- Tokens continue a chain behind a value. -/
def Continues (level : Level) (left : Float) (ts : List Token) (x : Float) : Prop :=
  ∃ m : Continuation level, m.tokens = ts ∧ m.value e.settings.decimalNumbers number left = x

/-- What the parser makes of tokens is true to a reading of them: it has taken some of them and has
a tree with their value, or its tree fails because they cannot be read. -/
def Parsed.Sound {bound : Nat} (reading : List Token → Float → Prop) (ts : List Token) :
    Parsed NumericTree bound → Prop
  | .done tree rest _ =>
    ∃ front us x, ts = front ++ us ∧ Spells rest us ∧ reading front x ∧
      e.Yields (tree.evaluate e.context formula) x
  | .stuck tree => e.FailsWith (tree.evaluate e.context formula) unreadable

variable {e formula number}

/-- A failure fails with its own complaint. -/
theorem failsWith_failure {c : Complaint} (h : c.kind ∈ unreadable) :
    e.FailsWith ((failure c).evaluate e.context formula) unreadable :=
  ⟨[], c.toError formula, e.settles_error _, h⟩

/-- A tree with a value that is followed by a failure fails with it. -/
theorem failsWith_thenFail {tree : NumericTree} {x : Float} {c : Complaint}
    (htree : e.Yields (tree.evaluate e.context formula) x) (h : c.kind ∈ unreadable) :
    e.FailsWith ((tree.thenFail c).evaluate e.context formula) unreadable :=
  htree.bind_failsWith (failsWith_failure h)

/-- Two values make the value of the joint. -/
theorem Joint.yields (joint : Joint) {left right : NumericTree} {x y : Float}
    (hleft : e.Yields (left.evaluate e.context formula) x)
    (hright : e.Yields (right.evaluate e.context formula) y) :
    e.Yields ((joint.tree left right).evaluate e.context formula)
      (joint.value e.settings.decimalNumbers x y) := by
  cases joint with
  | keepLast => exact hleft.bind hright
  | apply op => exact hleft.bind (hright.bind (e.yields_value _))

/-- A joint whose right side fails fails. -/
theorem Joint.failsWith (joint : Joint) {left right : NumericTree} {x : Float}
    (hleft : e.Yields (left.evaluate e.context formula) x)
    (hright : e.FailsWith (right.evaluate e.context formula) unreadable) :
    e.FailsWith ((joint.tree left right).evaluate e.context formula) unreadable := by
  cases joint with
  | keepLast => exact hleft.bind_failsWith hright
  | apply op => exact hleft.bind_failsWith hright.bind

/-- The first item spells the first token. -/
theorem spells_of_cons {item : Item} {rest : List Item} {ts : List Token}
    (h : Spells (item :: rest) ts) :
    ∃ t us, ts = t :: us ∧ Spells rest us ∧ item.symbol = .token t := by
  cases ts with
  | nil => simp [Spells] at h
  | cons t us =>
    obtain ⟨hsymbol, hrest⟩ := List.cons.inj h
    exact ⟨t, us, rfl, hrest, hsymbol⟩

/-- A name and an opening parenthesis behind it are a call. -/
theorem not_callFree {name : String} {stop stop' : Nat} {inner : List Item} {ts : List Token}
    (h : Spells (⟨.token (.identifier name), stop⟩ :: ⟨.token .leftParen, stop'⟩ :: inner) ts) :
    ¬ CallFree ts := by
  obtain ⟨t, us, rfl, hrest, hname⟩ := spells_of_cons h
  obtain ⟨t', us, rfl, -, hparen⟩ := spells_of_cons hrest
  obtain rfl := Symbol.token.inj hname
  obtain rfl := Symbol.token.inj hparen
  intro hfree
  exact hfree [] name us rfl

namespace Parsed

variable {small large : Nat} {ts : List Token} {reading reading' : List Token → Float → Prop}

/-- The bound on the items that are left does not matter. -/
theorem sound_widen (h : small ≤ large) (p : Parsed NumericTree small) :
    (p.widen h).Sound e formula reading ts ↔ p.Sound e formula reading ts := by
  cases p <;> rfl

/-- What is read behind some tokens is read together with them. -/
theorem Sound.behind {p : Parsed NumericTree large} {front : List Token}
    (h : p.Sound e formula reading ts)
    (hreading : ∀ more x, reading more x → reading' (front ++ more) x) :
    p.Sound e formula reading' (front ++ ts) := by
  cases p with
  | stuck tree => exact h
  | done tree rest fits =>
    obtain ⟨more, us, x, rfl, hrest, hx, htree⟩ := h
    exact ⟨front ++ more, us, x, (List.append_assoc ..).symm, hrest, hreading more x hx, htree⟩

/-- A reading that is one of another kind stays true to the tokens. -/
theorem Sound.mono {p : Parsed NumericTree large} (h : p.Sound e formula reading ts)
    (hreading : ∀ front x, reading front x → reading' front x) : p.Sound e formula reading' ts :=
  @Sound.behind _ _ _ _ _ reading' p [] h hreading

/-- Another part of the tree keeps what was read, and its value becomes part of the value. -/
theorem Sound.map {p : Parsed NumericTree large} {t : NumericTree → NumericTree}
    {v : Float → Float} (h : p.Sound e formula reading ts)
    (hyields : ∀ tree x, e.Yields (tree.evaluate e.context formula) x →
      e.Yields ((t tree).evaluate e.context formula) (v x))
    (hfails : ∀ tree, e.FailsWith (tree.evaluate e.context formula) unreadable →
      e.FailsWith ((t tree).evaluate e.context formula) unreadable) :
    (p.map t).Sound e formula (fun front y => ∃ x, reading front x ∧ v x = y) ts := by
  cases p with
  | stuck tree => exact hfails tree h
  | done tree rest fits =>
    obtain ⟨front, us, x, hts, hrest, hx, htree⟩ := h
    exact ⟨front, us, v x, hts, hrest, ⟨x, hx, rfl⟩, hyields tree x htree⟩

/-- Behind an inner formula the parser reads a closing parenthesis, or there is none. -/
theorem Sound.closing {p : Parsed NumericTree large} (h : p.Sound e formula reading ts)
    (ending : Ending) :
    (p.closing ending .syntaxError none thenFail).Sound e formula
      (fun front x => ∃ inner, front = inner ++ [.rightParen] ∧ reading inner x) ts := by
  match p with
  | .stuck tree => exact h
  | .done tree [] fits =>
    obtain ⟨front, us, x, hts, hrest, hx, htree⟩ := h
    exact failsWith_thenFail htree (kind_unexpected ending [])
  | .done tree (item :: rest) fits =>
    obtain ⟨front, us, x, rfl, hrest, hx, htree⟩ := h
    rw [Parsed.closing]
    split
    · rename_i hclosing
      obtain ⟨t, us, rfl, hmore, hsymbol⟩ := spells_of_cons hrest
      obtain rfl : t = .rightParen := by
        rw [hsymbol, Symbol.isClosing_iff] at hclosing
        exact Symbol.token.inj hclosing
      refine ⟨front ++ [.rightParen], us, x, ?_, hmore, ⟨front, rfl, hx⟩, htree⟩
      rw [List.append_assoc, List.singleton_append]
    · exact failsWith_thenFail htree (kind_unexpected ending _)

end Parsed

/-- The parser is sound. The parts are taken together, and each relies on the others for fewer
items. -/
theorem sound_parse {ending : Ending}
    (hending : ∀ name length, ending.cause ≠ .openCall name length) :
    (∀ level items, ∀ ts, Spells items ts → e.Knows number ts →
      (chain ending level items).Sound e formula (Derives e number (.chain level)) ts) ∧
    (∀ level left items, ∀ l ts, e.Yields (left.evaluate e.context formula) l → Spells items ts →
      e.Knows number ts →
      (chainRest ending level left items).Sound e formula (Continues e number level l) ts) ∧
    (∀ level items, ∀ ts, Spells items ts → e.Knows number ts →
      (operand ending level items).Sound e formula (Derives e number level.operand) ts) ∧
    (∀ items, ∀ ts, Spells items ts → e.Knows number ts →
      (unary ending items).Sound e formula (Derives e number .unary) ts) ∧
    (∀ items, ∀ ts, Spells items ts → e.Knows number ts →
      (power ending items).Sound e formula (Derives e number .power) ts) ∧
    (∀ items, ∀ ts, Spells items ts → e.Knows number ts →
      (term ending items).Sound e formula (Derives e number .term) ts) := by
  apply chain.mutual_induct ending
  -- a chain
  · intro level items left hparse ih ts hitems hknows
    have hleft := ih ts hitems hknows
    rw [hparse] at hleft
    rw [chain, hparse]
    exact hleft
  · intro level items left rest fits hparse ihleft ihmore ts hitems hknows
    have hleft := ihleft ts hitems hknows
    rw [hparse] at hleft
    obtain ⟨_, us, _, rfl, hrest, ⟨first, rfl, rfl⟩, hyields⟩ := hleft
    have hmore := ihmore _ us hyields hrest hknows.of_append
    rw [chain, hparse]
    simp only [Parsed.sound_widen]
    refine hmore.behind ?_
    rintro _ _ ⟨more, rfl, rfl⟩
    exact ⟨.chain first more, rfl, rfl⟩
  -- the rest of a chain
  · intro level left l ts hleft hitems hknows
    rw [chainRest]
    exact ⟨[], ts, l, rfl, hitems, ⟨.done, rfl, rfl⟩, hleft⟩
  · intro level left item rest hjoin l ts hleft hitems hknows
    rw [chainRest]
    simp only [hjoin]
    exact ⟨[], ts, l, rfl, hitems, ⟨.done, rfl, rfl⟩, hleft⟩
  · intro level left item rest join hjoin right hparse ih l ts hleft hitems hknows
    obtain ⟨t, us, rfl, hrest, hsymbol⟩ := spells_of_cons hitems
    rw [hsymbol] at hjoin
    obtain ⟨joint, known, rfl⟩ := joiner?_eq_some_iff.mp hjoin
    have hright := ih us hrest hknows.tail
    rw [hparse] at hright
    rw [chainRest]
    simp only [hsymbol, hjoin, hparse]
    exact joint.failsWith hleft hright
  · intro level left item rest join hjoin right more fits hparse ihright ihmore l ts hleft hitems
      hknows
    obtain ⟨t, us, rfl, hrest, hsymbol⟩ := spells_of_cons hitems
    rw [hsymbol] at hjoin
    obtain ⟨joint, known, rfl⟩ := joiner?_eq_some_iff.mp hjoin
    have hright := ihright us hrest hknows.tail
    rw [hparse] at hright
    obtain ⟨_, us, _, rfl, hmore, ⟨operand, rfl, rfl⟩, hyields⟩ := hright
    have hsound := ihmore _ us (joint.yields hleft hyields) hmore hknows.tail.of_append
    rw [chainRest]
    simp only [hsymbol, hjoin, hparse, Parsed.sound_widen]
    rw [← List.cons_append]
    refine hsound.behind ?_
    rintro _ _ ⟨more, rfl, rfl⟩
    exact ⟨.join known operand more, rfl, rfl⟩
  -- an operand
  · intro level items next hnext _ ih ts hitems hknows
    rw [operand_eq_parse, Level.operand_of_tighter hnext]
    exact ih ts hitems hknows
  · intro level items hnext ih ts hitems hknows
    rw [operand_eq_parse, Level.operand_of_tightest hnext]
    exact ih ts hitems hknows
  -- operators before an operand
  · intro ih ts hitems hknows
    rw [unary]
    refine (ih ts hitems hknows).mono ?_
    rintro _ _ ⟨d, rfl, rfl⟩
    exact ⟨.unprefixed d, rfl, rfl⟩
  · intro item rest op hfront ih ts hitems hknows
    obtain ⟨t, us, rfl, hrest, hsymbol⟩ := spells_of_cons hitems
    rw [hsymbol] at hfront
    have hoperand := ih us hrest hknows.tail
    have hmap := hoperand.map (t := .prefixed op) (v := op.apply)
      (fun _ _ hx => hx.bind (e.yields_value _)) (fun _ hfails => hfails.bind)
    rw [unary]
    simp only [hsymbol, hfront, Parsed.sound_widen]
    rw [← List.singleton_append]
    refine hmap.behind ?_
    rintro _ _ ⟨_, ⟨operand, rfl, rfl⟩, rfl⟩
    exact ⟨.prefixed (prefix?_eq_some_iff.mp hfront) operand, rfl, rfl⟩
  · intro item rest hfront ih ts hitems hknows
    rw [unary]
    simp only [hfront]
    refine (ih ts hitems hknows).mono ?_
    rintro _ _ ⟨d, rfl, rfl⟩
    exact ⟨.unprefixed d, rfl, rfl⟩
  -- a power
  · intro items base hparse ih ts hitems hknows
    have hbase := ih ts hitems hknows
    rw [hparse] at hbase
    rw [power, hparse]
    exact hbase
  · intro items base fits hparse ih ts hitems hknows
    have hbase := ih ts hitems hknows
    rw [hparse] at hbase
    rw [power, hparse]
    refine hbase.mono ?_
    rintro _ _ ⟨d, rfl, rfl⟩
    exact ⟨.base d, rfl, rfl⟩
  · intro items base item rest fits hparse hpower ihbase ihexponent ts hitems hknows
    have hbase := ihbase ts hitems hknows
    rw [hparse] at hbase
    obtain ⟨_, us, _, rfl, hrest, ⟨d, rfl, rfl⟩, hyields⟩ := hbase
    obtain ⟨t, us, rfl, hmore, hsymbol⟩ := spells_of_cons hrest
    obtain rfl : t = .operator .power := by
      rw [hsymbol] at hpower
      exact isPower_iff.mp hpower
    have hexponent := ihexponent us hmore hknows.of_append.tail
    have hmap := hexponent.map (t := .binary .power base)
      (v := BinaryOperation.power.apply e.settings.decimalNumbers
        (d.value e.settings.decimalNumbers number))
      (fun _ _ hx => hyields.bind (hx.bind (e.yields_value _)))
      (fun _ hfails => hyields.bind_failsWith hfails.bind)
    rw [power, hparse]
    simp only [hpower, if_true, Parsed.sound_widen]
    rw [← List.singleton_append, ← List.append_assoc]
    refine hmap.behind ?_
    rintro _ _ ⟨_, ⟨exponent, rfl, rfl⟩, rfl⟩
    exact ⟨.power d exponent, by simp [Derivation.tokens], rfl⟩
  · intro items base item rest fits hparse hpower ih ts hitems hknows
    have hbase := ih ts hitems hknows
    rw [hparse] at hbase
    rw [power, hparse]
    simp only [if_neg hpower]
    refine hbase.mono ?_
    rintro _ _ ⟨d, rfl, rfl⟩
    exact ⟨.base d, rfl, rfl⟩
  -- a term
  · intro n stop rest ts hitems hknows
    obtain ⟨_, us, rfl, hrest, hsymbol⟩ := spells_of_cons hitems
    obtain rfl := Symbol.token.inj hsymbol
    rw [term]
    exact ⟨[_], us, _, rfl, hrest, ⟨.integer n, rfl, rfl⟩, e.yields_value _⟩
  · intro x stop rest ts hitems hknows
    obtain ⟨_, us, rfl, hrest, hsymbol⟩ := spells_of_cons hitems
    obtain rfl := Symbol.token.inj hsymbol
    rw [term]
    exact ⟨[_], us, _, rfl, hrest, ⟨.double x, rfl, rfl⟩, e.yields_value _⟩
  · intro name args closed stop rest ts hitems hknows
    obtain ⟨_, _, _, _, hsymbol⟩ := spells_of_cons hitems
    exact absurd hsymbol (by simp)
  · intro stop rest ih ts hitems hknows
    obtain ⟨_, us, rfl, hrest, hsymbol⟩ := spells_of_cons hitems
    obtain rfl := Symbol.token.inj hsymbol
    have hinner := (ih us hrest hknows.tail).closing ending
    rw [term]
    simp only [Parsed.sound_widen]
    rw [← List.singleton_append]
    refine hinner.behind ?_
    rintro _ _ ⟨_, rfl, ⟨d, rfl, rfl⟩⟩
    exact ⟨.parens d, rfl, rfl⟩
  -- calls are excluded
  · intro name stop stop' inner f hf ih ts hitems hknows
    exact absurd hknows.callFree (not_callFree hitems)
  · intro name stop stop' inner hf ts hitems hknows
    exact absurd hknows.callFree (not_callFree hitems)
  · intro name stop rest hrest' ts hitems hknows
    obtain ⟨_, us, rfl, hrest, hsymbol⟩ := spells_of_cons hitems
    obtain rfl := Symbol.token.inj hsymbol
    have hname := hknows.names name (List.mem_cons_self ..)
    rw [term]
    · rw [named]
      split
      · exact failsWith_failure (kind_noOperand hending _)
      · exact ⟨[_], us, _, rfl, hrest, ⟨.name name, rfl, rfl⟩, hname.yields _⟩
    · exact hrest'
  -- nothing begins a term
  · intro items _ _ _ _ _ _ ts hitems hknows
    rw [term]
    · exact failsWith_failure (kind_noOperand hending _)
    all_goals assumption

-- ---------------------------------------------------------------------------
-- Whole formulas
-- ---------------------------------------------------------------------------

/-- Tokens that are read to the end of their text and have a derivation. -/
def IsNumeric (c : Cursor) : Prop :=
  c.Finishes ∧ ∃ d : Derivation (.chain .sequence), d.tokens = c.tokens

/-- The tree of an outline has the value of the derivation of its tokens. If there is none, because
the tokens are not read to the end of the text or for want of a production, it fails. -/
theorem sound_ofOutline {o : Outline} {c : Cursor} (ho : o.Follows c)
    (hknows : e.Knows number c.tokens) :
    (∃ d : Derivation (.chain .sequence), c.Finishes ∧ d.tokens = c.tokens ∧
      e.Yields ((ofOutline o).evaluate e.context formula)
        (d.value e.settings.decimalNumbers number)) ∨
    (¬ IsNumeric c ∧ e.FailsWith ((ofOutline o).evaluate e.context formula) unreadable) := by
  -- a derivation of all the tokens would be accepted and leave nothing
  have haccepted : IsNumeric c →
      ∃ tree fits, chain o.ending .sequence o.items = .done tree [] fits := by
    rintro ⟨hfinishes, d, hd⟩
    have hend : o.ending.cause ≠ .openLiteral := by
      rw [ho.complete.mpr hfinishes]
      simp
    exact d.accepted hend (hd ▸ ho.spells)
  have hsound := (@sound_parse e formula number o.ending ho.uncut).1 .sequence o.items c.tokens
    ho.spells hknows
  unfold ofOutline
  match hparse : chain o.ending .sequence o.items with
  | .stuck tree =>
    rw [hparse] at hsound haccepted
    exact .inr ⟨fun hnumeric => by simpa using haccepted hnumeric, hsound⟩
  | .done tree rest fits =>
    rw [hparse] at hsound haccepted
    obtain ⟨front, us, x, hts, hrest, ⟨d, rfl, rfl⟩, hyields⟩ := hsound
    by_cases hall : rest = [] ∧ o.ending.cause = .complete
    · obtain ⟨rfl, hcomplete⟩ := hall
      have hus : us = [] := by
        cases us with
        | nil => rfl
        | cons t us => simp [Spells] at hrest
      rw [hus, List.append_nil] at hts
      refine .inl ⟨d, ho.complete.mp hcomplete, hts.symm, ?_⟩
      simp only [hcomplete]
      exact hyields
    · have hif : (rest.isEmpty && o.ending.cause == .complete) = false := by
        rw [Bool.eq_false_iff]
        simpa [List.isEmpty_iff] using hall
      simp only [hif]
      refine .inr ⟨?_, failsWith_thenFail hyields (kind_unexpected o.ending rest)⟩
      intro hnumeric
      obtain ⟨_, _, hdone⟩ := haccepted hnumeric
      obtain ⟨-, rfl⟩ := Parsed.done.inj hdone
      exact hall ⟨rfl, ho.complete.mpr hnumeric.1⟩

end Grammar

/-- The stream of the tokens of a formula. -/
def stream (formula : String) : Cursor :=
  .ofText (cleanFormula formula)

namespace Engine

/-- A formula without calls whose names stand for numbers has a value just if its tokens, read to
the end of it, have a derivation, and then the value is that of the derivation, of which there is
only one. Any other such formula is an error of the syntax or a literal that is not closed. -/
theorem calculates_iff_derivation (e : Engine) (formula : String) (number : String → Float)
    (hfree : CallFree (stream formula).tokens)
    (hnames : ∀ name, .identifier name ∈ (stream formula).tokens → e.Resolves name (number name)) :
    (∀ v, (∃ calls, e.Calculates formula ⟨calls, .value v⟩) ↔
      (stream formula).Finishes ∧ ∃ d : Derivation (.chain .sequence),
        d.tokens = (stream formula).tokens ∧ d.value e.settings.decimalNumbers number = v) ∧
    (∀ d d' : Derivation (.chain .sequence), d.tokens = (stream formula).tokens →
      d'.tokens = (stream formula).tokens → d = d') ∧
    (¬ IsNumeric (stream formula) → ∃ calls err, e.Calculates formula ⟨calls, .error err⟩ ∧
      (err.kind = .syntaxError ∨ err.kind = .invalidString)) := by
  have hfollows := Outline.follows_ofText keepsOperand hfree
  have hsound := @sound_ofOutline e (cleanFormula formula) number _ _ hfollows ⟨hfree, hnames⟩
  have hunique : ∀ d d' : Derivation (.chain .sequence), d.tokens = (stream formula).tokens →
      d'.tokens = (stream formula).tokens → d = d' := by
    intro d d' hd hd'
    exact Derivation.unique (hd.trans hd'.symm)
  have hvalue : ∀ v, (∃ calls, e.Calculates formula ⟨calls, .value v⟩) ↔
      e.Yields (numericProgram e.context formula) v := by
    intro v
    exact exists_congr fun calls => calculates_iff_settles
  refine ⟨fun v => ?_, hunique, fun hnone => ?_⟩
  · rw [hvalue]
    constructor
    · intro hyields
      rcases hsound with ⟨d, hfinishes, hd, hyields'⟩ | ⟨-, hfails⟩
      · exact ⟨hfinishes, d, hd, hyields'.unique hyields⟩
      · exact absurd hfails hyields.not_failsWith
    · rintro ⟨hfinishes, d, hd, rfl⟩
      rcases hsound with ⟨d', -, hd', hyields⟩ | ⟨hnot, -⟩
      · rw [hunique d d' hd hd']
        exact hyields
      · exact absurd ⟨hfinishes, d, hd⟩ hnot
  · rcases hsound with ⟨d, hfinishes, hd, -⟩ | ⟨-, calls, err, hsettles, hkind⟩
    · exact absurd ⟨hfinishes, d, hd⟩ hnone
    · refine ⟨calls, err, calculates_iff_settles.mpr hsettles, ?_⟩
      simpa [unreadable] using hkind

/-- An engine of which a provider knows what `x` is. -/
def knowing : Engine :=
  { providers := [ProviderTable.provider { values := [("x", .number 4.0)] }] }

/-- What the names of its formulas stand for. -/
def knowing.number : String → Float
  | "x" => 4.0
  | _ => 1.0

/-- A difference of a product and a constant, with a name that the engine knows. -/
theorem calculates_iff_derivation_knowing :
    CallFree (stream "2 * x - true").tokens ∧
      (∀ name, .identifier name ∈ (stream "2 * x - true").tokens →
        knowing.Resolves name (knowing.number name)) ∧
      ∃ calls, knowing.Calculates "2 * x - true" ⟨calls, .value 7.0⟩ := by
  have htokens : (stream "2 * x - true").tokens =
      [.integer 2, .operator .multiply, .identifier "x", .operator .subtract,
        .identifier "true"] := by
    decide +kernel
  have hfinishes : (stream "2 * x - true").Finishes := by
    refine ⟨⟨"2 * x - true".toList.reverse, []⟩, ?_⟩
    decide +kernel
  have hfree : CallFree (stream "2 * x - true").tokens := by
    rw [htokens]
    simp
  have hnames : ∀ name, .identifier name ∈ (stream "2 * x - true").tokens →
      knowing.Resolves name (knowing.number name) := by
    intro name hname
    rw [htokens] at hname
    obtain rfl | rfl : name = "x" ∨ name = "true" := by simpa using hname
    · exact ⟨[⟨0, .value "x"⟩], 0, by decide +kernel, by decide +kernel⟩
    · show constantValue knowing.context .true = some 1.0
      rfl
  have htimes : (.operator .multiply, .apply .multiply) ∈ Level.multiplicative.signs := by
    simp [Level.signs]
  have hminus : (.operator .subtract, .apply .subtract) ∈ Level.additive.signs := by
    simp [Level.signs]
  -- the product, what is subtracted from it, and the formula as a chain of each level
  let product : Derivation (.chain .multiplicative) :=
    .chain (.unprefixed (.base (.integer 2))) (.join htimes (.unprefixed (.base (.name "x"))) .done)
  let one : Derivation (.chain .multiplicative) := .chain (.unprefixed (.base (.name "true"))) .done
  let difference : Derivation (.chain .additive) := .chain product (.join hminus one .done)
  let whole : Derivation (.chain .sequence) := .chain (.chain (.chain difference .done) .done) .done
  have hvalue := (calculates_iff_derivation knowing "2 * x - true" knowing.number hfree hnames).1
  refine ⟨hfree, hnames, (hvalue 7.0).mpr ⟨hfinishes, whole, ?_, ?_⟩⟩
  · rw [htokens]
    rfl
  · show (Float.ofNat 2 * 4.0) - 1.0 = (7.0 : Float)
    decide +kernel

end Engine

end Formulae
