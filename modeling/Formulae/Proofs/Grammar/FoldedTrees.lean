import Formulae.Proofs.Grammar.CaseFolding

/-!
# Parsing in any case

The parsers look at names only to find out whether they are those of mathematical functions, which
are written in any case, and never at arguments. So folded items are parsed into the same tree, with
its names in lower case and its arguments folded, and what is complained about is the same.

Main results:

* `NumericTree.parse_folds`, `TextTree.parse_folds` — how folded items are parsed.
* `NumericTree.ofFormula_foldCase`, `TextTree.ofFormula_foldCase` — the trees of folded formulas.
-/

namespace Formulae.Grammar

open Text Arguments

-- ---------------------------------------------------------------------------
-- Complaints
-- ---------------------------------------------------------------------------

def Complaint.folded (c : Complaint) : Complaint :=
  { c with identifier := c.identifier.map lowerName }

namespace Ending

variable (e : Ending) (items : List Item)

@[simp] theorem isOpenLiteral_folded :
    e.folded.isOpenLiteral (items.map Item.folded) = e.isOpenLiteral items := by
  obtain ⟨cause, stop⟩ := e
  cases items <;> cases cause <;> rfl

@[simp] theorem lookAhead_folded :
    e.folded.lookAhead (items.map Item.folded) = e.lookAhead items := by
  cases items <;> rfl

@[simp] theorem cause_folded_beq_complete :
    (e.folded.cause == .complete) = (e.cause == .complete) := by
  obtain ⟨cause, stop⟩ := e
  cases cause <;> rfl

/-- A complaint about what is not expected tells its name in lower case. -/
theorem unexpected_folded (kind : ErrorKind) (identifier : Option String) :
    e.folded.unexpected (items.map Item.folded) kind (identifier.map lowerName) =
      (e.unexpected items kind identifier).folded := by
  rw [unexpected, unexpected, isOpenLiteral_folded, lookAhead_folded]
  split <;> rfl

theorem noOperand_folded :
    e.folded.noOperand (items.map Item.folded) = (e.noOperand items).folded := by
  cases items with
  | cons item rest => exact unexpected_folded e (item :: rest) .syntaxError none
  | nil =>
    obtain ⟨cause, stop⟩ := e
    cases cause <;> rfl

end Ending

namespace Symbol

variable (s : Symbol)

@[simp] theorem joiner?_folded (level : Level) : s.folded.joiner? level = s.joiner? level := by
  cases s with
  | token t => cases t <;> rfl
  | call => rfl

@[simp] theorem prefix?_folded : s.folded.prefix? = s.prefix? := by
  cases s with
  | token t => cases t <;> rfl
  | call => rfl

@[simp] theorem isPower_folded : s.folded.isPower = s.isPower := by
  cases s with
  | token t => cases t <;> rfl
  | call => rfl

@[simp] theorem isClosing_folded : s.folded.isClosing = s.isClosing := by
  cases s with
  | token t => cases t <;> rfl
  | call => rfl

end Symbol

/-- The first item is folded to the first of the folded items. -/
theorem map_folded_eq_cons {items rest' : List Item} {s' : Symbol} {stop : Nat}
    (h : items.map Item.folded = ⟨s', stop⟩ :: rest') :
    ∃ s rest, items = ⟨s, stop⟩ :: rest ∧ s.folded = s' := by
  obtain ⟨⟨s, stop'⟩, rest, rfl, hitem, -⟩ := List.map_eq_cons_iff.mp h
  obtain ⟨hs, rfl⟩ := Item.mk.inj hitem
  exact ⟨s, rest, rfl, hs⟩

/-- A folded item is a token that is no name only where the item is. -/
theorem map_folded_eq_token {items rest' : List Item} {t : Token} {stop : Nat}
    (ht : ∀ name, t ≠ .identifier name)
    (h : items.map Item.folded = ⟨.token t, stop⟩ :: rest') :
    ∃ rest, items = ⟨.token t, stop⟩ :: rest := by
  obtain ⟨s, rest, rfl, hs⟩ := map_folded_eq_cons h
  cases s with
  | call => simp [Symbol.folded] at hs
  | token t' =>
    have hfolded : t'.folded = t := Symbol.token.inj hs
    cases t' with
    | identifier name => exact absurd hfolded.symm (ht _)
    | _ => exact ⟨rest, by rw [← hfolded]; rfl⟩

/-- It is a name if the folded one is. -/
theorem map_folded_eq_name {items rest' : List Item} {name' : String} {stop : Nat}
    (h : items.map Item.folded = ⟨.token (.identifier name'), stop⟩ :: rest') :
    ∃ name rest, items = ⟨.token (.identifier name), stop⟩ :: rest := by
  obtain ⟨s, rest, rfl, hs⟩ := map_folded_eq_cons h
  cases s with
  | call => simp [Symbol.folded] at hs
  | token t' =>
    cases t' with
    | identifier name => exact ⟨name, rest, rfl⟩
    | _ => simp [Symbol.folded, Token.folded] at hs

/-- And it is a call if the folded one is, closed at the same place. -/
theorem map_folded_eq_call {items rest' : List Item} {name' : String} {args' : List String}
    {closed stop : Nat} (h : items.map Item.folded = ⟨.call name' args' closed, stop⟩ :: rest') :
    ∃ name args rest, items = ⟨.call name args closed, stop⟩ :: rest := by
  obtain ⟨s, rest, rfl, hs⟩ := map_folded_eq_cons h
  cases s with
  | call name args closed' =>
    obtain ⟨-, -, rfl⟩ := Symbol.call.inj hs
    exact ⟨name, args, rest, rfl⟩
  | token => simp [Symbol.folded] at hs

namespace Parsed

variable {α : Type} {small large bound small' large' bound' : Nat} {f : α → α}

/-- The second result is the first one for folded items, `f` being what folding does to a tree. -/
def Folds (f : α → α) : Parsed α bound → Parsed α bound' → Prop
  | done tree rest _, p' => ∃ fits', p' = done (f tree) (rest.map Item.folded) fits'
  | stuck tree, p' => p' = stuck (f tree)

theorem Folds.widen {p : Parsed α small} {p' : Parsed α small'} (hp : p.Folds f p')
    (h : small ≤ large) (h' : small' ≤ large') : (p.widen h).Folds f (p'.widen h') := by
  cases p with
  | done tree rest fits =>
    obtain ⟨fits', rfl⟩ := hp
    exact ⟨_, rfl⟩
  | stuck tree =>
    obtain rfl := hp
    rfl

/-- A change of trees that commutes with folding is made before it or behind it. -/
theorem Folds.map {p : Parsed α bound} {p' : Parsed α bound'} (hp : p.Folds f p')
    {g g' : α → α} (hg : ∀ tree, f (g tree) = g' (f tree)) : (p.map g).Folds f (p'.map g') := by
  cases p with
  | done tree rest fits =>
    obtain ⟨fits', rfl⟩ := hp
    exact ⟨fits', by rw [Parsed.map, hg]⟩
  | stuck tree =>
    obtain rfl := hp
    exact congrArg stuck (hg tree).symm

/-- Closing a parenthesis folds with what stands in it. -/
theorem Folds.closing {p : Parsed α bound} {p' : Parsed α bound'} (hp : p.Folds f p')
    {thenFail : α → Complaint → α}
    (hfail : ∀ tree c, f (thenFail tree c) = thenFail (f tree) c.folded) (ending : Ending)
    (kind : ErrorKind) (identifier : Option String) :
    (p.closing ending kind identifier thenFail).Folds f
      (p'.closing ending.folded kind (identifier.map lowerName) thenFail) := by
  match p with
  | .stuck tree =>
    obtain rfl := hp
    rfl
  | .done tree [] fits =>
    obtain ⟨fits', rfl⟩ := hp
    refine congrArg stuck ?_
    rw [hfail, ← Ending.unexpected_folded]
    rfl
  | .done tree (item :: rest) fits =>
    obtain ⟨fits', rfl⟩ := hp
    have hclosing : item.folded.symbol.isClosing = item.symbol.isClosing :=
      item.symbol.isClosing_folded
    simp only [Parsed.closing, List.map_cons, hclosing]
    split
    · exact ⟨_, rfl⟩
    · refine congrArg stuck ?_
      rw [hfail, ← Ending.unexpected_folded]
      rfl

end Parsed

-- ---------------------------------------------------------------------------
-- Numeric formulas
-- ---------------------------------------------------------------------------

namespace NumericTree

/-- A tree with names in lower case and folded arguments. -/
def folded : NumericTree → NumericTree
  | number x => number x
  | value name position => value (lowerName name) position
  | call name args position => call (lowerName name) (args.map foldCase) position
  | apply f operand => apply f operand.folded
  | prefixed op operand => prefixed op operand.folded
  | binary op left right => binary op left.folded right.folded
  | sequence first second => sequence first.folded second.folded
  | failure c => failure c.folded

/-- Joining trees commutes with folding. -/
theorem folded_joined {symbol : Symbol} {level : Level}
    {join : NumericTree → NumericTree → NumericTree} (h : symbol.joiner? level = some join)
    (left right : NumericTree) : (join left right).folded = join left.folded right.folded := by
  obtain ⟨-, joint, -, -, rfl⟩ := Symbol.exists_sign h
  cases joint <;> rfl

/-- A name, be it a constant or not, or that of a function that is applied. -/
theorem named_folds (ending : Ending) (name : String) (rest : List Item) {bound bound' : Nat}
    (fits : rest.length ≤ bound) (fits' : (rest.map Item.folded).length ≤ bound') :
    (named ending name rest fits).Folds folded
      (named ending.folded (lowerName name) (rest.map Item.folded) fits') := by
  rw [named, named, Ending.isOpenLiteral_folded, Ending.lookAhead_folded,
    Ending.noOperand_folded]
  split
  · rfl
  · exact ⟨_, rfl⟩

/-- Folded items are parsed into the folded tree. The kinds of parts are gone through together. -/
theorem parse_folds (ending : Ending) :
    (∀ level items, (chain ending level items).Folds folded
      (chain ending.folded level (items.map Item.folded))) ∧
    (∀ level left items, (chainRest ending level left items).Folds folded
      (chainRest ending.folded level left.folded (items.map Item.folded))) ∧
    (∀ level items, (operand ending level items).Folds folded
      (operand ending.folded level (items.map Item.folded))) ∧
    (∀ items, (unary ending items).Folds folded
      (unary ending.folded (items.map Item.folded))) ∧
    (∀ items, (power ending items).Folds folded
      (power ending.folded (items.map Item.folded))) ∧
    (∀ items, (term ending items).Folds folded
      (term ending.folded (items.map Item.folded))) := by
  apply chain.mutual_induct ending
  -- a chain
  · intro level items left hparse hleft
    rw [hparse] at hleft
    rw [chain, hparse, chain, hleft]
    rfl
  · intro level items left rest fits hparse hleft hmore
    rw [hparse] at hleft
    obtain ⟨fits', hleft⟩ := hleft
    rw [chain, hparse, chain, hleft]
    exact hmore.widen fits fits'
  -- the rest of a chain
  · intro level left
    rw [List.map_nil, chainRest, chainRest]
    exact ⟨_, rfl⟩
  · intro level left item rest hjoin
    have hjoin' : item.folded.symbol.joiner? level = none :=
      (item.symbol.joiner?_folded level).trans hjoin
    rw [List.map_cons, chainRest, chainRest]
    simp only [hjoin, hjoin']
    exact ⟨_, rfl⟩
  · intro level left item rest join hjoin right hparse hright
    have hjoin' : item.folded.symbol.joiner? level = some join :=
      (item.symbol.joiner?_folded level).trans hjoin
    rw [hparse] at hright
    rw [List.map_cons, chainRest, chainRest]
    simp only [hjoin, hjoin', hparse, show operand _ _ _ = _ from hright]
    exact congrArg Parsed.stuck (folded_joined hjoin left right).symm
  · intro level left item rest join hjoin right more fits hparse hright hmore
    have hjoin' : item.folded.symbol.joiner? level = some join :=
      (item.symbol.joiner?_folded level).trans hjoin
    rw [hparse] at hright
    obtain ⟨fits', hright⟩ := hright
    rw [folded_joined hjoin] at hmore
    rw [List.map_cons, chainRest, chainRest]
    simp only [hjoin, hjoin', hparse, hright]
    exact hmore.widen _ _
  -- an operand
  · intro level items next hnext _ ih
    rw [operand_eq_parse, operand_eq_parse, Level.operand_of_tighter hnext]
    exact ih
  · intro level items hnext ih
    rw [operand_eq_parse, operand_eq_parse, Level.operand_of_tightest hnext]
    exact ih
  -- operators before an operand
  · intro ih
    rw [List.map_nil, unary, unary]
    exact ih
  · intro item rest op hfront ih
    have hfront' : item.folded.symbol.prefix? = some op := item.symbol.prefix?_folded.trans hfront
    rw [List.map_cons, unary, unary]
    simp only [hfront, hfront']
    refine (ih.map ?_).widen _ _
    exact fun _ => rfl
  · intro item rest hfront ih
    have hfront' : item.folded.symbol.prefix? = none := item.symbol.prefix?_folded.trans hfront
    rw [List.map_cons, unary, unary]
    simp only [hfront, hfront']
    exact ih
  -- a power
  · intro items base hparse hbase
    rw [hparse] at hbase
    rw [power, hparse, power, hbase]
    rfl
  · intro items base fits hparse hbase
    rw [hparse] at hbase
    obtain ⟨fits', hbase⟩ := hbase
    rw [power, hparse, power, hbase]
    exact ⟨_, rfl⟩
  · intro items base item rest fits hparse hpower hbase hexponent
    have hpower' : item.folded.symbol.isPower = true := item.symbol.isPower_folded.trans hpower
    rw [hparse] at hbase
    obtain ⟨fits', hbase⟩ := hbase
    rw [power, hparse, power, hbase]
    simp only [List.map_cons, hpower, hpower', if_true]
    refine (hexponent.map ?_).widen _ _
    exact fun _ => rfl
  · intro items base item rest fits hparse hpower hbase
    have hpower' : ¬ item.folded.symbol.isPower = true := by
      rwa [show item.folded.symbol.isPower = _ from item.symbol.isPower_folded]
    rw [hparse] at hbase
    obtain ⟨fits', hbase⟩ := hbase
    rw [power, hparse, power, hbase]
    simp only [List.map_cons, if_neg hpower, if_neg hpower']
    exact ⟨fits', rfl⟩
  -- a term
  · intro n stop rest
    show Parsed.Folds _ _ (term _ (⟨.token (.integer n), stop⟩ :: rest.map Item.folded))
    rw [term, term]
    exact ⟨_, rfl⟩
  · intro x stop rest
    show Parsed.Folds _ _ (term _ (⟨.token (.double x), stop⟩ :: rest.map Item.folded))
    rw [term, term]
    exact ⟨_, rfl⟩
  · intro name args closed stop rest
    rw [List.map_cons, Item.folded, Symbol.folded, term, term]
    exact ⟨_, rfl⟩
  · intro stop rest hinner
    show Parsed.Folds _ _ (term _ (⟨.token .leftParen, stop⟩ :: rest.map Item.folded))
    rw [term, term]
    refine (hinner.closing ?_ ending _ none).widen _ _
    exact fun _ _ => rfl
  · intro name stop stop' inner f hf hinner
    have hf' : MathFunction.ofName? (lowerName name) = some f := by
      rwa [MathFunction.ofName?_lowerName]
    show Parsed.Folds _ _ (term _ (⟨.token (.identifier (lowerName name)), stop⟩ ::
      ⟨.token .leftParen, stop'⟩ :: inner.map Item.folded))
    rw [term, term]
    simp only [hf, hf']
    refine ((hinner.closing ?_ ending _ (some name)).map ?_).widen _ _
    · exact fun _ _ => rfl
    · exact fun _ => rfl
  · intro name stop stop' inner hf
    have hf' : MathFunction.ofName? (lowerName name) = none := by
      rwa [MathFunction.ofName?_lowerName]
    show Parsed.Folds _ _ (term _ (⟨.token (.identifier (lowerName name)), stop⟩ ::
      ⟨.token .leftParen, stop'⟩ :: inner.map Item.folded))
    rw [term, term]
    simp only [hf, hf']
    exact named_folds ending name (⟨.token .leftParen, stop'⟩ :: inner) _ _
  · intro name stop rest hparen
    show Parsed.Folds _ _ (term _ (⟨.token (.identifier (lowerName name)), stop⟩ ::
      rest.map Item.folded))
    rw [term, term]
    · exact named_folds ending name rest _ _
    · intro stop' inner heq
      obtain ⟨inner', rfl⟩ := map_folded_eq_token (by simp) heq
      exact hparen _ _ rfl
    · exact hparen
  -- nothing begins a term
  · intro items hinteger hdouble hcall hparen happly hnamed
    rw [term, term]
    · exact congrArg (Parsed.stuck ∘ failure) (Ending.noOperand_folded _ _)
    -- the folded items begin none either
    · intro n stop rest heq
      obtain ⟨rest', rfl⟩ := map_folded_eq_token (by simp) heq
      exact hinteger _ _ _ rfl
    · intro x stop rest heq
      obtain ⟨rest', rfl⟩ := map_folded_eq_token (by simp) heq
      exact hdouble _ _ _ rfl
    · intro name args closed stop rest heq
      obtain ⟨name', args', rest', rfl⟩ := map_folded_eq_call heq
      exact hcall _ _ _ _ _ rfl
    · intro stop rest heq
      obtain ⟨rest', rfl⟩ := map_folded_eq_token (by simp) heq
      exact hparen _ _ rfl
    · intro name stop stop' inner heq
      obtain ⟨name', rest', rfl⟩ := map_folded_eq_name heq
      exact hnamed _ _ _ rfl
    · intro name stop rest heq
      obtain ⟨name', rest', rfl⟩ := map_folded_eq_name heq
      exact hnamed _ _ _ rfl
    all_goals assumption

/-- The tree of a folded outline is the folded tree. -/
theorem ofOutline_folded (o : Outline) : ofOutline o.folded = (ofOutline o).folded := by
  have hfolds := (parse_folds o.ending).1 .sequence o.items
  unfold ofOutline Outline.folded
  match hparse : chain o.ending .sequence o.items with
  | .stuck tree =>
    rw [hparse] at hfolds
    rw [show chain _ _ _ = _ from hfolds]
  | .done tree rest fits =>
    rw [hparse] at hfolds
    obtain ⟨fits', hfolds⟩ := hfolds
    rw [hfolds]
    simp only [List.isEmpty_map, Ending.cause_folded_beq_complete]
    split
    · rfl
    · exact congrArg (tree.folded.thenFail ·) (Ending.unexpected_folded o.ending rest _ none)

/-- The tree of a folded formula is folded. -/
theorem ofFormula_foldCase {formula : String} (hdouble : '"' ∉ formula.toList) :
    ofFormula (foldCase formula) = (ofFormula formula).folded := by
  rw [ofFormula, Outline.ofText, toList_foldCase,
    Outline.readFrom_folded keepsOperand_lowerName 0 hdouble, ofOutline_folded]
  rfl

end NumericTree

-- ---------------------------------------------------------------------------
-- Text formulas
-- ---------------------------------------------------------------------------

namespace TextTree

/-- A tree with names in lower case and folded arguments. -/
def folded : TextTree → TextTree
  | literal s => literal s
  | value name position => value (lowerName name) position
  | call name args position => call (lowerName name) (args.map foldCase) position
  | append left right => append left.folded right.folded
  | sequence first second => sequence first.folded second.folded
  | failure c => failure c.folded

theorem named_folds (ending : Ending) (name : String) (rest : List Item) {bound bound' : Nat}
    (fits : rest.length ≤ bound) (fits' : (rest.map Item.folded).length ≤ bound') :
    (named ending name rest fits).Folds folded
      (named ending.folded (lowerName name) (rest.map Item.folded) fits') := by
  rw [named, named, Ending.isOpenLiteral_folded, Ending.lookAhead_folded,
    Ending.noOperand_folded]
  split
  · rfl
  · exact ⟨_, rfl⟩

theorem nothing_folds (ending : Ending) (items : List Item) :
    (nothing ending items).Folds folded (nothing ending.folded (items.map Item.folded)) := by
  obtain ⟨cause, stop⟩ := ending
  cases items with
  | cons item rest => exact ⟨Nat.le_refl _, rfl⟩
  | nil =>
    cases cause with
    | complete | unreadable => exact ⟨Nat.le_refl _, rfl⟩
    | openLiteral | openCall => rfl

/-- Folded items are parsed into the folded tree. -/
theorem parse_folds (ending : Ending) :
    (∀ items, (concatenation ending items).Folds folded
      (concatenation ending.folded (items.map Item.folded))) ∧
    (∀ left items, (concatenationRest ending left items).Folds folded
      (concatenationRest ending.folded left.folded (items.map Item.folded))) ∧
    (∀ items, (atom ending items).Folds folded
      (atom ending.folded (items.map Item.folded))) := by
  apply concatenation.mutual_induct ending
  -- atoms joined
  · intro items left hparse hleft
    rw [hparse] at hleft
    rw [concatenation, hparse, concatenation, hleft]
    rfl
  · intro items left rest fits hparse hleft hmore
    rw [hparse] at hleft
    obtain ⟨fits', hleft⟩ := hleft
    rw [concatenation, hparse, concatenation, hleft]
    exact hmore.widen fits fits'
  -- the rest of a concatenation
  · intro left stop rest right hparse hright
    rw [hparse] at hright
    show Parsed.Folds _ _ (concatenationRest _ _
      (⟨.token (.operator .add), stop⟩ :: rest.map Item.folded))
    rw [concatenationRest, hparse, concatenationRest, hright]
    rfl
  · intro left stop rest right more fits hparse hright hmore
    rw [hparse] at hright
    obtain ⟨fits', hright⟩ := hright
    show Parsed.Folds _ _ (concatenationRest _ _
      (⟨.token (.operator .add), stop⟩ :: rest.map Item.folded))
    rw [concatenationRest, hparse, concatenationRest, hright]
    exact hmore.widen _ _
  · intro left items hadd
    rw [concatenationRest, concatenationRest]
    · exact ⟨Nat.le_refl _, rfl⟩
    · intro stop rest heq
      obtain ⟨rest', rfl⟩ := map_folded_eq_token (by simp) heq
      exact hadd _ _ rfl
    · exact hadd
  -- an atom
  · intro s stop rest
    show Parsed.Folds _ _ (atom _ (⟨.token (.text s), stop⟩ :: rest.map Item.folded))
    rw [atom, atom]
    exact ⟨_, rfl⟩
  · intro name args closed stop rest
    rw [List.map_cons, Item.folded, Symbol.folded, atom, atom]
    exact ⟨_, rfl⟩
  · intro stop rest hinner
    show Parsed.Folds _ _ (atom _ (⟨.token .leftParen, stop⟩ :: rest.map Item.folded))
    rw [atom, atom]
    refine (hinner.closing ?_ ending _ none).widen _ _
    exact fun _ _ => rfl
  · intro name stop rest
    show Parsed.Folds _ _ (atom _ (⟨.token (.identifier (lowerName name)), stop⟩ ::
      rest.map Item.folded))
    rw [atom, atom]
    exact named_folds ending name rest _ _
  -- an atom that takes nothing
  · intro items htext hcall hparen hnamed
    rw [atom, atom]
    · exact nothing_folds ending items
    · intro s stop rest heq
      obtain ⟨rest', rfl⟩ := map_folded_eq_token (by simp) heq
      exact htext _ _ _ rfl
    · intro name args closed stop rest heq
      obtain ⟨name', args', rest', rfl⟩ := map_folded_eq_call heq
      exact hcall _ _ _ _ _ rfl
    · intro stop rest heq
      obtain ⟨rest', rfl⟩ := map_folded_eq_token (by simp) heq
      exact hparen _ _ rfl
    · intro name stop rest heq
      obtain ⟨name', rest', rfl⟩ := map_folded_eq_name heq
      exact hnamed _ _ _ rfl
    all_goals assumption

theorem sequenceRest_folds (ending : Ending) (first : TextTree) (items : List Item) :
    (sequenceRest ending first items).Folds folded
      (sequenceRest ending.folded first.folded (items.map Item.folded)) := by
  induction first, items using sequenceRest.induct ending with
  | case1 first stop rest second hparse =>
    have hsecond := (parse_folds ending).1 rest
    rw [hparse] at hsecond
    show Parsed.Folds _ _ (sequenceRest _ _ (⟨.token .semicolon, stop⟩ :: rest.map Item.folded))
    rw [sequenceRest, hparse, sequenceRest, hsecond]
    rfl
  | case2 first stop rest second more fits hparse ih =>
    have hsecond := (parse_folds ending).1 rest
    rw [hparse] at hsecond
    obtain ⟨fits', hsecond⟩ := hsecond
    show Parsed.Folds _ _ (sequenceRest _ _ (⟨.token .semicolon, stop⟩ :: rest.map Item.folded))
    rw [sequenceRest, hparse, sequenceRest, hsecond]
    exact ih.widen _ _
  | case3 first items hsemi =>
    rw [sequenceRest, sequenceRest]
    · exact ⟨Nat.le_refl _, rfl⟩
    · intro stop rest heq
      obtain ⟨rest', rfl⟩ := map_folded_eq_token (by simp) heq
      exact hsemi _ _ rfl
    · exact hsemi

theorem ofOutline_folded (o : Outline) : ofOutline o.folded = (ofOutline o).folded := by
  have hfirst := (parse_folds o.ending).1 o.items
  unfold ofOutline Outline.folded
  match hparse : concatenation o.ending o.items with
  | .stuck tree =>
    rw [hparse] at hfirst
    rw [show concatenation _ _ = _ from hfirst]
  | .done first rest fits =>
    rw [hparse] at hfirst
    obtain ⟨fits', hfirst⟩ := hfirst
    have hmore := sequenceRest_folds o.ending first rest
    rw [hfirst]
    dsimp only
    match hrest : sequenceRest o.ending first rest with
    | .stuck tree =>
      rw [hrest] at hmore
      rw [show sequenceRest _ _ _ = _ from hmore]
    | .done tree left fits =>
      rw [hrest] at hmore
      obtain ⟨fits', hmore⟩ := hmore
      rw [hmore]
      simp only [List.isEmpty_map, Ending.cause_folded_beq_complete]
      split
      · rfl
      · exact congrArg (tree.folded.thenFail ·) (Ending.unexpected_folded o.ending left _ none)

/-- The tree of a folded formula is folded. -/
theorem ofFormula_foldCase {formula : String} (hdouble : '"' ∉ formula.toList) :
    ofFormula (foldCase formula) = (ofFormula formula).folded := by
  rw [ofFormula, Outline.ofText, toList_foldCase,
    Outline.readFrom_folded (fun _ => rfl) 0 hdouble, ofOutline_folded]
  rfl

end TextTree

end Formulae.Grammar
