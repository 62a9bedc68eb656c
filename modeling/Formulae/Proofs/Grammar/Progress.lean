import Mathlib.Logic.Relation
import Formulae.Proofs.Grammar.Extent

/-!
# The parsers make progress

The functions of a grammar call one another, and their loops go round. What is going on is a stage
of the grammar with the items that are left; `NumericTree.Enters` and `TextTree.Enters` say which
state comes up in which other one, call by call and round by round. A state that comes up has fewer
items, or as many and a tighter stage, which is the measure by which the parsers end. So a stage
that comes up inside itself, through a parenthesis, a sign, a function in place or one more round of
its loop, has fewer items than before, and less of the text is left to be read.

Main results:

* `NumericTree.Enters.measure_lt`, `TextTree.Enters.measure_lt` — one step makes progress.
* `NumericTree.reentry_consumes`, `TextTree.reentry_consumes` — a stage that is entered again while
  it is active has less of the formula left.
-/

namespace Formulae.Grammar

open Relation

-- ---------------------------------------------------------------------------
-- What is left to be read
-- ---------------------------------------------------------------------------

namespace Outline

variable {inPlace : String → Bool} {offset : Nat} {cs : List Char} {items : List Item}

/-- The last items of an outline are those of an end of the text, which is shorter if they are not
all. -/
theorem exists_of_suffix (h : items <:+ (readFrom inPlace offset cs).items) :
    ∃ rest offset', rest <:+ cs ∧ (readFrom inPlace offset' rest).items = items ∧
      (items.length < (readFrom inPlace offset cs).items.length → rest.length < cs.length) := by
  induction hlen : cs.length using Nat.strongRecOn generalizing cs offset with
  | ind length ih =>
    subst hlen
    by_cases hall : items = (readFrom inPlace offset cs).items
    · exact ⟨cs, offset, List.suffix_rfl, hall.symm, fun hlt => by simp [hall] at hlt⟩
    rcases step_or_stop inPlace cs offset with ⟨s, rest, first⟩ | ⟨hnone, -⟩
    · -- they are among the items behind the first one
      obtain ⟨item, -, hread⟩ := first.readFrom offset
      obtain ⟨hsuffix, hlt⟩ := first.suffix
      rw [hread, push, List.suffix_cons_iff] at h
      rw [hread] at hall
      obtain ⟨rest', offset', hrest', hitems, -⟩ := ih rest.length hlt (h.resolve_left hall) rfl
      exact ⟨rest', offset', hrest'.trans hsuffix, hitems,
        fun _ => Nat.lt_of_le_of_lt hrest'.length_le hlt⟩
    · rw [hnone, List.suffix_nil] at h
      rw [hnone] at hall
      exact absurd h hall

/-- Of the formula, this end is still to be read when these items are left. -/
structure Remains (inPlace : String → Bool) (formula : String) (items : List Item)
    (cs : List Char) : Prop where
  suffix : cs <:+ formula.toList
  items_eq : ∃ offset, (readFrom inPlace offset cs).items = items

/-- Where fewer items are left less is to be read. -/
theorem exists_remains {formula : String} {items' : List Item}
    (h : items <:+ (ofText inPlace formula).items) (h' : items' <:+ items)
    (hlt : items'.length < items.length) :
    ∃ cs cs', Remains inPlace formula items cs ∧ Remains inPlace formula items' cs' ∧
      cs' <:+ cs ∧ cs'.length < cs.length := by
  obtain ⟨cs, offset, hcs, rfl, -⟩ := exists_of_suffix h
  obtain ⟨cs', offset', hcs', hitems', hshorter⟩ := exists_of_suffix h'
  exact ⟨cs, cs', ⟨hcs, offset, rfl⟩, ⟨hcs'.trans hcs, offset', hitems'⟩, hcs', hshorter hlt⟩

end Outline

-- ---------------------------------------------------------------------------
-- Stages
-- ---------------------------------------------------------------------------

section

variable {σ : Type} {enters : σ × List Item → σ × List Item → Prop}

/-- If every step lowers the measure of items and stage, a stage that comes up again has fewer
items. -/
theorem length_lt_of_reentry {rank : σ → Nat}
    (hstep : ∀ s t, enters s t → 32 * t.2.length + rank t.1 < 32 * s.2.length + rank s.1)
    {stage : σ} {items items' : List Item}
    (h : TransGen enters (stage, items) (stage, items')) : items'.length < items.length := by
  have hmeasure : ∀ t, TransGen enters (stage, items) t →
      32 * t.2.length + rank t.1 < 32 * items.length + rank stage := by
    intro t ht
    induction ht with
    | single hst => exact hstep _ _ hst
    | tail _ hst ih => exact Nat.lt_trans (hstep _ _ hst) ih
  have hlt := hmeasure _ h
  dsimp only at hlt
  omega

/-- If every step takes items from the front, so do several. -/
theorem suffix_of_reaches {good : Item → Prop}
    (hstep : ∀ s t, enters s t → (∀ item ∈ s.2, good item) → t.2 <:+ s.2)
    {s t : σ × List Item} (h : ReflTransGen enters s t) (hs : ∀ item ∈ s.2, good item) :
    t.2 <:+ s.2 := by
  induction h with
  | refl => exact List.suffix_rfl
  | tail _ hst ih => exact (hstep _ _ hst fun item hitem => hs item (ih.subset hitem)).trans ih

end

-- ---------------------------------------------------------------------------
-- Numeric formulas
-- ---------------------------------------------------------------------------

namespace NumericTree

/-- What the parser of numeric formulas can be at. The loop of a level is behind the first operand
of a chain. -/
inductive Stage
  | chain (level : Level)
  | loop (level : Level)
  | operand (level : Level)
  | unary
  | power
  | term
deriving DecidableEq

/-- How many stages may come up in this one before an item is taken. -/
def Stage.rank : Stage → Nat
  | chain level => 3 * level.depth + 7
  | loop level => 3 * level.depth + 6
  | operand level => 3 * level.depth + 5
  | unary => 3
  | power => 2
  | term => 1

/-- In the first state the parser comes to the second one: it calls a function of the grammar, or
goes on with its loop. -/
inductive Enters (ending : Ending) : Stage × List Item → Stage × List Item → Prop
  | first (level : Level) (items : List Item) :
      Enters ending (.chain level, items) (.operand level, items)
  | begin {level : Level} {items rest : List Item} {left : NumericTree} {fits}
      (hleft : operand ending level items = .done left rest fits) :
      Enters ending (.chain level, items) (.loop level, rest)
  | next {level : Level} {item : Item} {rest : List Item}
      {join : NumericTree → NumericTree → NumericTree}
      (hjoin : item.symbol.joiner? level = some join) :
      Enters ending (.loop level, item :: rest) (.operand level, rest)
  | again {level : Level} {item : Item} {rest more : List Item}
      {join : NumericTree → NumericTree → NumericTree} {right : NumericTree} {fits}
      (hjoin : item.symbol.joiner? level = some join)
      (hright : operand ending level rest = .done right more fits) :
      Enters ending (.loop level, item :: rest) (.loop level, more)
  | tighter {level next : Level} (items : List Item) (hnext : level.tighter? = some next) :
      Enters ending (.operand level, items) (.chain next, items)
  | tightest {level : Level} (items : List Item) (hnext : level.tighter? = none) :
      Enters ending (.operand level, items) (.unary, items)
  | sign {item : Item} {op : PrefixOperation} (rest : List Item)
      (hsign : item.symbol.prefix? = some op) :
      Enters ending (.unary, item :: rest) (.unary, rest)
  | unsigned {items : List Item} (hnone : ∀ item ∈ items.head?, item.symbol.prefix? = none) :
      Enters ending (.unary, items) (.power, items)
  | base (items : List Item) : Enters ending (.power, items) (.term, items)
  | exponent {items rest : List Item} {item : Item} {base : NumericTree} {fits}
      (hbase : term ending items = .done base (item :: rest) fits)
      (hpower : item.symbol.isPower = true) : Enters ending (.power, items) (.term, rest)
  | parens (stop : Nat) (rest : List Item) :
      Enters ending (.term, ⟨.token .leftParen, stop⟩ :: rest) (.chain .sequence, rest)
  | function {name : String} {f : MathFunction} (stop stop' : Nat) (inner : List Item)
      (hf : MathFunction.ofName? name = some f) :
      Enters ending
        (.term, ⟨.token (.identifier name), stop⟩ :: ⟨.token .leftParen, stop'⟩ :: inner)
        (.chain .bitwise, inner)

variable {ending : Ending} {s t : Stage × List Item}

/-- The measure by which the parser ends. -/
theorem Enters.measure_lt (h : Enters ending s t) :
    32 * t.2.length + t.1.rank < 32 * s.2.length + s.1.rank := by
  cases h with
  | first | base | unsigned | tightest => simp only [Stage.rank]; omega
  | @begin _ _ _ _ fits | @again _ _ _ _ _ _ fits | @exponent _ _ _ _ fits =>
    simp only [Stage.rank, List.length_cons] at fits ⊢
    omega
  | next | sign => simp only [Stage.rank, List.length_cons]; omega
  | tighter items hnext =>
    have := Level.depth_tighter hnext
    simp only [Stage.rank]
    omega
  | parens | function => simp only [Stage.rank, Level.depth, List.length_cons]; omega

/-- What the parser comes to has an end of the items. -/
theorem Enters.suffix {limit : Nat} {isArg : String → Prop} (hending : ending.Within limit)
    (h : Enters ending s t) (hs : ∀ item ∈ s.2, item.Within limit isArg) : t.2 <:+ s.2 := by
  obtain ⟨-, -, hoperand, -, -, hterm⟩ := @within_parse limit isArg ending hending
  cases h with
  | first | tighter | tightest | unsigned | base => exact List.suffix_rfl
  | @begin level items rest left fits hleft =>
    have hleaves := hoperand level items hs
    rw [hleft] at hleaves
    exact hleaves.2
  | next | sign | parens => exact List.suffix_cons _ _
  | @again level item rest more join right fits hjoin hright =>
    have hleaves := hoperand level rest (List.forall_mem_cons.mp hs).2
    rw [hright] at hleaves
    exact hleaves.2.trans (List.suffix_cons _ _)
  | exponent hbase =>
    have hleaves := hterm _ hs
    rw [hbase] at hleaves
    exact (List.suffix_cons _ _).trans hleaves.2
  | function => exact (List.suffix_cons _ _).trans (List.suffix_cons _ _)

/-- When the parser comes to a stage of the formula, and while it is at it comes to the same stage
again, then less of the formula is left to be read. -/
def ReentryConsumes (formula : String) : Prop :=
  let o := Outline.ofText keepsOperand formula
  ∀ stage items items',
    ReflTransGen (Enters o.ending) (.chain .sequence, o.items) (stage, items) →
    TransGen (Enters o.ending) (stage, items) (stage, items') →
    ∃ cs cs', Outline.Remains keepsOperand formula items cs ∧
      Outline.Remains keepsOperand formula items' cs' ∧ cs' <:+ cs ∧ cs'.length < cs.length

/-- Who goes in again has taken something. -/
theorem reentry_consumes (formula : String) : ReentryConsumes formula := by
  intro stage items items' hreached hagain
  have hwithin := Outline.within_ofText keepsOperand formula
  have hsuffix := suffix_of_reaches (fun _ _ h hs => h.suffix hwithin.ending hs) hreached
    hwithin.items
  have hmore := suffix_of_reaches (fun _ _ h hs => h.suffix hwithin.ending hs)
    hagain.to_reflTransGen fun item hitem => hwithin.items item (hsuffix.subset hitem)
  exact Outline.exists_remains hsuffix hmore
    (length_lt_of_reentry (fun _ _ h => h.measure_lt) hagain)

end NumericTree

-- ---------------------------------------------------------------------------
-- Text formulas
-- ---------------------------------------------------------------------------

namespace TextTree

/-- What the parser of text formulas can be at: the whole formula, the loop behind its first
concatenation, a concatenation, the loop behind its first atom, or an atom. -/
inductive Stage
  | formula
  | sequence
  | concatenation
  | loop
  | atom
deriving DecidableEq

/-- How many stages may come up in this one before an item is taken. -/
def Stage.rank : Stage → Nat
  | formula => 5
  | sequence => 4
  | concatenation => 3
  | loop => 2
  | atom => 1

/-- In the first state the parser comes to the second one: it calls a function of the grammar, or
goes on with its loop. -/
inductive Enters (ending : Ending) : Stage × List Item → Stage × List Item → Prop
  | whole (items : List Item) : Enters ending (.formula, items) (.concatenation, items)
  | sequence {items rest : List Item} {first : TextTree} {fits}
      (hfirst : concatenation ending items = .done first rest fits) :
      Enters ending (.formula, items) (.sequence, rest)
  | second (stop : Nat) (rest : List Item) :
      Enters ending (.sequence, ⟨.token .semicolon, stop⟩ :: rest) (.concatenation, rest)
  | further {stop : Nat} {rest more : List Item} {second : TextTree} {fits}
      (hsecond : concatenation ending rest = .done second more fits) :
      Enters ending (.sequence, ⟨.token .semicolon, stop⟩ :: rest) (.sequence, more)
  | first (items : List Item) : Enters ending (.concatenation, items) (.atom, items)
  | begin {items rest : List Item} {left : TextTree} {fits}
      (hleft : atom ending items = .done left rest fits) :
      Enters ending (.concatenation, items) (.loop, rest)
  | next (stop : Nat) (rest : List Item) :
      Enters ending (.loop, ⟨.token (.operator .add), stop⟩ :: rest) (.atom, rest)
  | again {stop : Nat} {rest more : List Item} {right : TextTree} {fits}
      (hright : atom ending rest = .done right more fits) :
      Enters ending (.loop, ⟨.token (.operator .add), stop⟩ :: rest) (.loop, more)
  | parens (stop : Nat) (rest : List Item) :
      Enters ending (.atom, ⟨.token .leftParen, stop⟩ :: rest) (.concatenation, rest)

variable {ending : Ending} {s t : Stage × List Item}

/-- The measure by which the parser ends. -/
theorem Enters.measure_lt (h : Enters ending s t) :
    32 * t.2.length + t.1.rank < 32 * s.2.length + s.1.rank := by
  cases h with
  | whole | first => simp only [Stage.rank]; omega
  | @sequence _ _ _ fits | @further _ _ _ _ fits | @begin _ _ _ fits | @again _ _ _ _ fits =>
    simp only [Stage.rank, List.length_cons] at fits ⊢
    omega
  | second | next | parens => simp only [Stage.rank, List.length_cons]; omega

/-- What the parser comes to has an end of the items. -/
theorem Enters.suffix {limit : Nat} {isArg : String → Prop} (hending : ending.Within limit)
    (h : Enters ending s t) (hs : ∀ item ∈ s.2, item.Within limit isArg) : t.2 <:+ s.2 := by
  obtain ⟨hconcatenation, -, hatom⟩ := @within_parse limit isArg ending hending
  cases h with
  | whole | first => exact List.suffix_rfl
  | second | next | parens => exact List.suffix_cons _ _
  | sequence hfirst =>
    have hleaves := hconcatenation _ hs
    rw [hfirst] at hleaves
    exact hleaves.2
  | further hsecond =>
    have hleaves := hconcatenation _ (List.forall_mem_cons.mp hs).2
    rw [hsecond] at hleaves
    exact hleaves.2.trans (List.suffix_cons _ _)
  | begin hleft =>
    have hleaves := hatom _ hs
    rw [hleft] at hleaves
    exact hleaves.2
  | again hright =>
    have hleaves := hatom _ (List.forall_mem_cons.mp hs).2
    rw [hright] at hleaves
    exact hleaves.2.trans (List.suffix_cons _ _)

/-- When the parser comes to a stage of the formula, and while it is at it comes to the same stage
again, then less of the formula is left to be read. -/
def ReentryConsumes (formula : String) : Prop :=
  let o := Outline.ofText (fun _ => false) formula
  ∀ stage items items',
    ReflTransGen (Enters o.ending) (.formula, o.items) (stage, items) →
    TransGen (Enters o.ending) (stage, items) (stage, items') →
    ∃ cs cs', Outline.Remains (fun _ => false) formula items cs ∧
      Outline.Remains (fun _ => false) formula items' cs' ∧ cs' <:+ cs ∧ cs'.length < cs.length

theorem reentry_consumes (formula : String) : ReentryConsumes formula := by
  intro stage items items' hreached hagain
  have hwithin := Outline.within_ofText (fun _ => false) formula
  have hsuffix := suffix_of_reaches (fun _ _ h hs => h.suffix hwithin.ending hs) hreached
    hwithin.items
  have hmore := suffix_of_reaches (fun _ _ h hs => h.suffix hwithin.ending hs)
    hagain.to_reflTransGen fun item hitem => hwithin.items item (hsuffix.subset hitem)
  exact Outline.exists_remains hsuffix hmore
    (length_lt_of_reentry (fun _ _ h => h.measure_lt) hagain)

end TextTree

end Formulae.Grammar
