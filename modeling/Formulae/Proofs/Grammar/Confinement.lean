import Formulae.Proofs.Grammar.Locality

/-!
# What the parser takes is a part

By its own recursion the parser takes parts: what it has made of some items it makes of them
wherever they stand. Where it gets stuck its tree holds a failure, and a tree without one is that of
a formula which is read to the end and is one part.

Main results:

* `confined_parse` — what is taken is a part, for all kinds of parts at once.
* `Outline.stands_of_isWhole`, `Outline.Stands.unplaced_ofOutline` — a formula with a whole tree is
  a part, and a formula that is a part has its tree.
* `Part.bitwise_or_semicolon` — what makes a formula more than a chain of operators.
-/

namespace Formulae.Grammar

open NumericTree

variable {level : Level} {front front' : List Symbol} {tree tree' left : NumericTree}

-- ---------------------------------------------------------------------------
-- What is taken is a part
-- ---------------------------------------------------------------------------

namespace Parsed

variable {small large : Nat} {ws : List Symbol} {part part' : List Symbol → NumericTree → Prop}

/-- What the parser has taken of these words is a part, and where it got stuck its tree is not
whole. -/
def Confined (part : List Symbol → NumericTree → Prop) (ws : List Symbol) :
    Parsed NumericTree large → Prop
  | done tree rest _ => ∃ front, ws = front ++ words rest ∧ part front tree.unplaced
  | stuck tree => tree.isWhole = false

@[simp] theorem confined_widen (h : small ≤ large) (p : Parsed NumericTree small) :
    (p.widen h).Confined part ws ↔ p.Confined part ws := by
  cases p <;> rfl

/-- What is taken behind some words is taken together with them. -/
theorem Confined.behind {p : Parsed NumericTree large} {front : List Symbol}
    (h : p.Confined part ws) (hpart : ∀ more tree, part more tree → part' (front ++ more) tree) :
    p.Confined part' (front ++ ws) := by
  cases p with
  | stuck tree => exact h
  | done tree rest fits =>
    obtain ⟨more, rfl, htree⟩ := h
    exact ⟨front ++ more, (List.append_assoc ..).symm, hpart more _ htree⟩

/-- What is confined to one kind of parts is confined to a larger one. -/
theorem Confined.mono {p : Parsed NumericTree large} (h : p.Confined part ws)
    (hpart : ∀ front us tree, ws = front ++ us → part front tree → part' front tree) :
    p.Confined part' ws := by
  cases p with
  | stuck tree => exact h
  | done tree rest fits =>
    obtain ⟨front, hws, htree⟩ := h
    exact ⟨front, hws, hpart front _ _ hws htree⟩

/-- What is built on a tree is a part together with the words before it. -/
theorem Confined.map {p : Parsed NumericTree large} {f : NumericTree → NumericTree}
    {front : List Symbol} (h : p.Confined part ws)
    (hpart : ∀ more tree, part more tree.unplaced → part' (front ++ more) (f tree).unplaced)
    (hwhole : ∀ tree, tree.isWhole = false → (f tree).isWhole = false) :
    (p.map f).Confined part' (front ++ ws) := by
  cases p with
  | stuck tree => exact hwhole tree h
  | done tree rest fits =>
    obtain ⟨more, rfl, htree⟩ := h
    exact ⟨front ++ more, (List.append_assoc ..).symm, hpart more tree htree⟩

/-- Behind an inner formula the parser takes a closing parenthesis, or there is none. -/
theorem Confined.closing {p : Parsed NumericTree large} (h : p.Confined part ws) (ending : Ending)
    (kind : ErrorKind) (identifier : Option String) :
    (p.closing ending kind identifier thenFail).Confined
      (fun front tree => ∃ inner, front = inner ++ [.token .rightParen] ∧ part inner tree) ws := by
  have hfailure : ∀ tree c, (thenFail tree c).isWhole = false := by
    simp [thenFail, isWhole]
  match p with
  | .stuck tree => exact h
  | .done tree [] fits => exact hfailure tree _
  | .done tree (item :: rest) fits =>
    rw [Parsed.closing]
    split
    · rename_i hclosing
      obtain ⟨front, rfl, htree⟩ := h
      rw [words_cons, Symbol.isClosing_iff.mp hclosing]
      exact ⟨front ++ [.token .rightParen], by simp [Symbol.unplaced], front, rfl, htree⟩
    · exact hfailure tree _

end Parsed

/-- What is taken is a part, and is parsed alike in any other place. The kinds of parts are gone
through together, each relying on the others for fewer items. -/
theorem confined_parse (ending : Ending) :
    (∀ level items, (chain ending level items).Confined (Part (.chain level)) (words items)) ∧
    (∀ level left items,
      (chainRest ending level left items).Confined (Onward level left.unplaced) (words items)) ∧
    (∀ level items, (operand ending level items).Confined (Part level.operand) (words items)) ∧
    (∀ items, (unary ending items).Confined (Part .unary) (words items)) ∧
    (∀ items, (power ending items).Confined (Part .power) (words items)) ∧
    (∀ items, (term ending items).Confined (Part .term) (words items)) := by
  have named_confined : ∀ {name : String} {stop bound : Nat} {rest : List Item}
      (fits : rest.length ≤ bound), (named ending name rest fits).Confined (Part .term)
        (words (⟨.token (.identifier name), stop⟩ :: rest)) := by
    intro name stop bound rest fits
    rw [named]
    split
    · rfl
    · exact ⟨[_], rfl, .named name⟩
  apply chain.mutual_induct ending
  -- a chain
  · intro level items left hparse ih
    rw [hparse] at ih
    rw [chain, hparse]
    exact ih
  · intro level items left rest fits hparse ihleft ihmore
    rw [hparse] at ihleft
    obtain ⟨front, hwords, hleft⟩ := ihleft
    rw [chain, hparse, hwords]
    simp only [Parsed.confined_widen]
    exact ihmore.behind fun more tree hmore => hleft.chain hmore
  -- the rest of a chain
  · intro level left
    rw [chainRest]
    exact ⟨[], rfl, .done⟩
  · intro level left item rest hjoin
    rw [chainRest]
    simp only [hjoin]
    exact ⟨[], rfl, .done⟩
  · intro level left item rest join hjoin right hparse ih
    obtain ⟨t, joint, -, -, rfl⟩ := Symbol.exists_sign hjoin
    rw [hparse] at ih
    have hright : right.isWhole = false := ih
    rw [chainRest]
    simp only [hjoin, hparse]
    show (joint.tree left right).isWhole = false
    rw [Joint.isWhole_tree, hright, Bool.and_false]
  · intro level left item rest join hjoin right more fits hparse ihright ihmore
    obtain ⟨t, joint, hsymbol, known, rfl⟩ := Symbol.exists_sign hjoin
    rw [hparse] at ihright
    obtain ⟨front, hwords, hright⟩ := ihright
    rw [Joint.unplaced_tree] at ihmore
    rw [chainRest, words_cons, hwords]
    simp only [hjoin, hparse, Parsed.confined_widen]
    rw [hsymbol, Symbol.unplaced, ← List.cons_append]
    exact ihmore.behind fun more tree hmore => Onward.join known hright hmore
  -- an operand
  · intro level items next hnext _ ih
    rw [operand_eq_parse, Level.operand_of_tighter hnext]
    exact ih
  · intro level items hnext ih
    rw [operand_eq_parse, Level.operand_of_tightest hnext]
    exact ih
  -- operators before an operand
  · intro ih
    rw [unary]
    refine ih.mono fun front us tree hwords hpower => hpower.unprefixed ?_
    rw [(List.append_eq_nil_iff.mp hwords.symm).1]
    simp
  · intro item rest op hfront ih
    rw [unary]
    simp only [hfront, Parsed.confined_widen]
    rw [words_cons, ← List.singleton_append]
    rw [← Symbol.prefix?_unplaced] at hfront
    exact ih.map (fun more tree hoperand => hoperand.prefixed hfront) (fun tree htree => htree)
  · intro item rest hfront ih
    rw [unary]
    simp only [hfront]
    refine ih.mono fun front us tree hwords hpower => hpower.unprefixed fun s hs => ?_
    obtain ⟨ss, rfl⟩ := List.head?_eq_some_iff.mp hs
    obtain ⟨rfl, -⟩ := List.cons.inj hwords
    rw [Symbol.prefix?_unplaced, hfront]
  -- a power
  · intro items base hparse ih
    rw [hparse] at ih
    rw [power, hparse]
    exact ih
  · intro items base fits hparse ih
    rw [hparse] at ih
    rw [power, hparse]
    obtain ⟨front, hwords, hbase⟩ := ih
    exact ⟨front, hwords, hbase.base⟩
  · intro items base item rest fits hparse hpower ihbase ihexponent
    rw [hparse] at ihbase
    obtain ⟨front, hwords, hbase⟩ := ihbase
    rw [power, hparse, hwords]
    simp only [hpower, if_true, Parsed.confined_widen]
    rw [words_cons, ← List.singleton_append, ← List.append_assoc]
    rw [← Symbol.isPower_unplaced] at hpower
    refine ihexponent.map (fun more tree hexponent => ?_) (fun tree htree => ?_)
    · rw [List.append_assoc, List.singleton_append]
      exact hbase.power hpower hexponent
    · rw [isWhole, htree, Bool.and_false]
  · intro items base item rest fits hparse hpower ih
    rw [hparse] at ih
    rw [power, hparse]
    simp only [if_neg hpower]
    obtain ⟨front, hwords, hbase⟩ := ih
    exact ⟨front, hwords, hbase.base⟩
  -- a term
  · intro n stop rest
    rw [term]
    exact ⟨[_], rfl, .integer n⟩
  · intro x stop rest
    rw [term]
    exact ⟨[_], rfl, .double x⟩
  · intro name args closed stop rest
    rw [term]
    exact ⟨[_], rfl, .call name args⟩
  · intro stop rest ih
    rw [term, Parsed.confined_widen, words_cons, ← List.singleton_append]
    refine (ih.closing ending _ _).behind ?_
    rintro _ tree ⟨inner, rfl, hinner⟩
    exact hinner.parens
  · intro name stop stop' inner f hf ih
    rw [term]
    simp only [hf, Parsed.confined_widen]
    show Parsed.Confined _ ([.token (.identifier name), .token .leftParen] ++ words inner) _
    refine (ih.closing ending _ _).map ?_ (fun tree htree => htree)
    rintro _ tree ⟨inner, rfl, hinner⟩
    exact .apply hf hinner
  · intro name stop stop' inner hf
    rw [term]
    simp only [hf]
    exact named_confined _
  · intro name stop rest hrest
    rw [term]
    · exact named_confined _
    · exact hrest
  -- nothing begins a term
  · intro items _ _ _ _ _ _
    rw [term]
    · rfl
    all_goals assumption

-- ---------------------------------------------------------------------------
-- Whole formulas
-- ---------------------------------------------------------------------------

/-- A formula is read to its end, and all its words together are a part. -/
structure Outline.Stands (o : Outline) (tree : NumericTree) : Prop where
  complete : o.ending.cause = .complete
  part : Part (.chain .sequence) (words o.items) tree

/-- What stands as a formula has the tree of the part. -/
theorem Outline.Stands.unplaced_ofOutline {o : Outline} {tree : NumericTree} (h : o.Stands tree) :
    (ofOutline o).unplaced = tree := by
  have hgives : (chain o.ending .sequence o.items).Gives tree [] :=
    h.part.parsed (List.append_nil _).symm (.nil (by simp [h.complete]))
  obtain ⟨t, rest, fits, hparse, ht, hrest⟩ := hgives.exists_done
  obtain rfl := words_eq_nil.mp hrest
  rw [ofOutline, hparse]
  simp only [h.complete]
  exact ht

/-- A formula whose tree is whole stands as a formula. -/
theorem Outline.stands_of_isWhole {o : Outline} (h : (ofOutline o).isWhole = true) :
    o.Stands (ofOutline o).unplaced := by
  have hconfined := (confined_parse o.ending).1 .sequence o.items
  unfold ofOutline at h ⊢
  match hparse : chain o.ending .sequence o.items with
  | .stuck tree =>
    rw [hparse] at h hconfined
    rw [show tree.isWhole = false from hconfined] at h
    exact absurd h (by simp)
  | .done tree rest fits =>
    rw [hparse] at h hconfined
    obtain ⟨front, hwords, hpart⟩ := hconfined
    by_cases hall : rest = [] ∧ o.ending.cause = .complete
    · obtain ⟨rfl, hcomplete⟩ := hall
      rw [words_nil, List.append_nil] at hwords
      simp only [hcomplete]
      exact ⟨hcomplete, hwords ▸ hpart⟩
    · have hif : (rest.isEmpty && o.ending.cause == .complete) = false := by
        rw [Bool.eq_false_iff]
        simpa [List.isEmpty_iff] using hall
      simp [hif, thenFail, isWhole] at h

-- ---------------------------------------------------------------------------
-- Parts as parts of looser kinds
-- ---------------------------------------------------------------------------

/-- What is true of terms, and of every other kind of part when it is true of the next tighter one,
is true of all kinds. -/
theorem Category.tighter_first {motive : Category → Prop} (term : motive .term)
    (power : motive .term → motive .power) (unary : motive .power → motive .unary)
    (chain : ∀ level : Level, motive level.operand → motive (.chain level)) (c : Category) :
    motive c := by
  have hunary := unary (power term)
  have hmultiplicative := chain .multiplicative hunary
  have hadditive := chain .additive hmultiplicative
  have hcomparison := chain .comparison hadditive
  have hbitwise := chain .bitwise hcomparison
  cases c with
  | chain level =>
    cases level
    case sequence => exact chain .sequence hbitwise
    all_goals assumption
  | unary => exact hunary
  | power => exact power term
  | term => exact term

namespace Part

variable {c : Category}

/-- An operand alone is a chain. -/
theorem single (level : Level) (h : Part level.operand front tree) :
    Part (.chain level) front tree := by
  have hchain := h.chain .done
  rwa [List.append_nil] at hchain

/-- A term is a part of any kind. -/
theorem ofTerm (h : Part .term front tree) (hhead : ∀ s ∈ front.head?, s.prefix? = none)
    (c : Category) : Part c front tree := by
  induction c using Category.tighter_first with
  | term => exact h
  | power hterm => exact hterm.base
  | unary hpower => exact hpower.unprefixed hhead
  | chain level hoperand => exact single level hoperand

/-- A chain of any level is a formula. -/
theorem ofChain (level : Level) (h : Part (.chain level) front tree) :
    Part (.chain .sequence) front tree :=
  match level with
  | .sequence => h
  | .bitwise => ofChain .sequence (single .sequence h)
  | .comparison => ofChain .bitwise (single .bitwise h)
  | .additive => ofChain .comparison (single .comparison h)
  | .multiplicative => ofChain .additive (single .additive h)
termination_by level.tightness
decreasing_by all_goals decide

/-- A formula is a chain of operators, unless a semicolon stands in it outside all parentheses. -/
theorem bitwise_or_semicolon {items : List Item} (h : Part (.chain .sequence) (words items) tree) :
    Part (.chain .bitwise) (words items) tree ∨
      ∃ front back, words items = front ++ .token .semicolon :: back ∧ Closed front := by
  let ending : Ending := ⟨.complete, 0⟩
  have hgives : (NumericTree.chain ending .sequence items).Gives tree [] :=
    h.parsed (List.append_nil _).symm (.nil (by simp [ending]))
  have hconfined := (confined_parse ending).2.2.1 .sequence items
  rw [NumericTree.chain] at hgives
  cases hparse : operand ending .sequence items with
  | stuck left =>
    rw [hparse] at hgives
    exact hgives.elim
  | done left rest fits =>
    rw [hparse] at hgives hconfined
    obtain ⟨front, hwords, hpart⟩ := hconfined
    cases rest with
    | nil =>
      simp only [chainRest, Parsed.gives_widen] at hgives
      obtain ⟨rfl, -⟩ := hgives
      rw [hwords, words_nil, List.append_nil]
      exact .inl hpart
    | cons item rest =>
      simp only [chainRest, Parsed.gives_widen] at hgives
      cases hjoin : item.symbol.joiner? .sequence with
      | none =>
        rw [hjoin] at hgives
        exact absurd hgives.2 (by simp)
      | some join =>
        obtain ⟨t, joint, hsymbol, known, -⟩ := Symbol.exists_sign hjoin
        obtain ⟨rfl, -⟩ : t = .semicolon ∧ joint = .keepLast := by simpa [Level.signs] using known
        rw [words_cons, hsymbol] at hwords
        exact .inr ⟨front, words rest, hwords, hpart.closed⟩

end Part

/-- Where no term can be read, nothing can. -/
theorem stuck_of_term {ending : Ending} {items : List Item} {tree : NumericTree}
    (h : term ending items = .stuck tree) (hhead : ∀ item ∈ items.head?, item.symbol.prefix? = none)
    (c : Category) : parse ending c items = .stuck tree := by
  induction c using Category.tighter_first with
  | term => exact h
  | power hterm => rw [parse, power, h]
  | unary hpower =>
    cases items with
    | nil => rwa [parse, unary]
    | cons item rest =>
      rw [parse, unary]
      simp only [hhead item rfl]
      exact hpower
  | chain level hoperand => rw [parse, chain, operand_eq_parse, hoperand]

/-- A formula that begins with a function in place, and whose tree is whole, has an operand of the
function up to a closing parenthesis. -/
theorem operand_of_isWhole {ending : Ending} {name : String} {f : MathFunction} {inner : List Item}
    {stop stop' : Nat} (hname : MathFunction.ofName? name = some f)
    (h : (ofOutline ⟨⟨.token (.identifier name), stop⟩ :: ⟨.token .leftParen, stop'⟩ :: inner,
      ending⟩).isWhole = true) :
    ∃ front back tree, words inner = front ++ .token .rightParen :: back ∧
      Part (.chain .bitwise) front tree := by
  have hconfined := ((confined_parse ending).1 .bitwise inner).closing ending .functionError
    (some name)
  match hclosing : (chain ending .bitwise inner).closing ending .functionError (some name)
      thenFail with
  | .stuck tree =>
    -- then nothing is read at all
    have hterm : term ending (⟨.token (.identifier name), stop⟩ :: ⟨.token .leftParen, stop'⟩ ::
        inner) = .stuck (.apply f tree) := by
      rw [term]
      simp only [hname, hclosing]
      rfl
    have hstuck : chain ending .sequence _ = _ :=
      stuck_of_term hterm (by simp [Symbol.prefix?]) (.chain .sequence)
    rw [hclosing] at hconfined
    rw [ofOutline, hstuck, show isWhole (.apply f tree) = false from hconfined] at h
    exact absurd h (by simp)
  | .done tree rest fits =>
    rw [hclosing] at hconfined
    obtain ⟨_, hwords, front, rfl, hpart⟩ := hconfined
    rw [List.append_assoc] at hwords
    exact ⟨front, words rest, tree.unplaced, hwords, hpart⟩

end Formulae.Grammar
