import Formulae.Proofs.Grammar.Likeness

/-!
# One formula after another

Numeric formulas and text formulas have their loosest level in common: segments with semicolons
between them, which are read in turn. A semicolon ends a segment just as the end of the text does.
So where a formula without failures is followed by a semicolon and another formula, whatever that
is, the parser comes to the semicolon with the tree of the first formula, and goes on from there as
it begins with the second.

Main results:

* `Sequencing.tail_reaches` — the parser comes to the semicolon with the tree of the first formula.
* `Sequencing.tail_behind` — behind another tree it goes on as it does alone.
* `NumericTree.ofFormula_behind`, `TextTree.ofFormula_behind` — the tree of a formula after another.
-/

namespace Formulae.Grammar

/-- A grammar of segments one after the other: a parser of segments, and a loop behind the first
one. A segment that is taken up to a semicolon, or the end, is taken in front of a semicolon. -/
structure Sequencing (τ : Type) extends Trees τ where
  segment (ending : Ending) (items : List Item) : Parsed τ items.length
  loop (ending : Ending) (first : τ) (items : List Item) : Parsed τ items.length
  loop_stuck {ending : Ending} {first second : τ} {stop : Nat} {rest : List Item}
    (hparse : segment ending rest = .stuck second) :
    loop ending first (⟨.token .semicolon, stop⟩ :: rest) = .stuck (join first second)
  loop_done {ending : Ending} {first second : τ} {stop : Nat} {rest more : List Item}
    {fits : more.length ≤ rest.length} (hparse : segment ending rest = .done second more fits) :
    loop ending first (⟨.token .semicolon, stop⟩ :: rest) =
      (loop ending (join first second) more).widen (Nat.le_trans fits (Nat.le_succ _))
  loop_other {ending : Ending} {first : τ} {items : List Item}
    (hother : ∀ stop rest, items ≠ ⟨.token .semicolon, stop⟩ :: rest) :
    loop ending first items = .done first items (Nat.le_refl _)
  segment_alike {ending ending' : Ending} (halike : ending.Alike ending') {items items' : List Item}
    (hwords : words items' = words items) :
    (segment ending items).Extends toTrees [] (segment ending' items')
  segment_passes {ending : Ending} (ending' : Ending) {items items' rest : List Item} {tree : τ}
    {fits : rest.length ≤ items.length} {vs : List Symbol}
    (hparse : segment ending items = .done tree rest fits)
    (hrest : ∀ s ∈ (words rest).head?, s = .token .semicolon)
    (hwords : words items' = words items ++ .token .semicolon :: vs) :
    ∃ tree' rest' fits', segment ending' items' = .done tree' rest' fits' ∧
      unplaced tree' = unplaced tree ∧ words rest' = words rest ++ .token .semicolon :: vs

namespace Sequencing

variable {τ : Type} (S : Sequencing τ)

/-- The tree of the items behind the first segments. -/
def tail (ending : Ending) (first : τ) (items : List Item) : τ :=
  match S.loop ending first items with
  | .stuck tree => tree
  | .done tree rest _ =>
    if rest.isEmpty && ending.cause == .complete then tree
    else S.thenFail tree (ending.unexpected rest .syntaxError none)

def ofOutline (o : Outline) : τ :=
  match S.segment o.ending o.items with
  | .stuck tree => tree
  | .done first rest _ => S.tail o.ending first rest

/-- Induction over the segments: one behind a semicolon fails, or it is taken and others follow, or
no semicolon comes. -/
@[elab_as_elim]
theorem tail_induction (ending : Ending) {motive : τ → List Item → Prop}
    (stuck : ∀ first stop rest second, S.segment ending rest = .stuck second →
      motive first (⟨.token .semicolon, stop⟩ :: rest))
    (done : ∀ first stop rest second more fits, S.segment ending rest = .done second more fits →
      motive (S.join first second) more → motive first (⟨.token .semicolon, stop⟩ :: rest))
    (other : ∀ first items, (∀ stop rest, items ≠ ⟨.token .semicolon, stop⟩ :: rest) →
      motive first items)
    (first : τ) (items : List Item) : motive first items := by
  induction hlen : items.length using Nat.strongRecOn generalizing first items with
  | ind length ih =>
    subst hlen
    by_cases hsemicolon : ∃ stop rest, items = ⟨.token .semicolon, stop⟩ :: rest
    · obtain ⟨stop, rest, rfl⟩ := hsemicolon
      cases hparse : S.segment ending rest with
      | stuck second => exact stuck first stop rest second hparse
      | done second more fits =>
        exact done first stop rest second more fits hparse
          (ih more.length (Nat.lt_succ_of_le fits) _ more rfl)
    · exact other first items fun stop rest heq => hsemicolon ⟨stop, rest, heq⟩

variable {S} {ending ending' : Ending} {first first' prior second tree : τ} {stop : Nat}
  {items items' rest : List Item}

/-- Where a segment gets stuck the formula ends with what it has. -/
theorem tail_stuck (hparse : S.segment ending rest = .stuck second) :
    S.tail ending first (⟨.token .semicolon, stop⟩ :: rest) = S.join first second := by
  rw [tail, S.loop_stuck hparse]

/-- Where it does not the formula goes on behind it. -/
theorem tail_done {more : List Item} {fits}
    (hparse : S.segment ending rest = .done second more fits) :
    S.tail ending first (⟨.token .semicolon, stop⟩ :: rest) =
      S.tail ending (S.join first second) more := by
  rw [tail, tail, S.loop_done hparse]
  cases S.loop ending (S.join first second) more <;> rfl

/-- Where no semicolon comes nothing may be left. -/
theorem tail_other (hother : ∀ stop rest, items ≠ ⟨.token .semicolon, stop⟩ :: rest) :
    S.tail ending first items =
      if items.isEmpty && ending.cause == .complete then first
      else S.thenFail first (ending.unexpected items .syntaxError none) := by
  rw [tail, S.loop_other hother]

theorem ofOutline_of_stuck {o : Outline} (h : S.segment o.ending o.items = .stuck tree) :
    S.ofOutline o = tree := by
  rw [ofOutline, h]

theorem ofOutline_of_done {o : Outline} {rest : List Item} {fits}
    (h : S.segment o.ending o.items = .done first rest fits) :
    S.ofOutline o = S.tail o.ending first rest := by
  rw [ofOutline, h]

/-- A segment where the parser got stuck is not whole. -/
theorem isWhole_of_stuck (h : S.segment ending items = .stuck tree) : S.isWhole tree = false := by
  have halike : (S.segment ending items).Extends S.toTrees [] (S.segment ending items) :=
    S.segment_alike rfl rfl
  rw [h] at halike
  exact halike.1

/-- Where the same is left the parser gets stuck alike. -/
theorem alike_of_stuck (halike : ending.Alike ending') (hwords : words items' = words items)
    (hparse : S.segment ending items = .stuck tree) :
    ∃ tree', S.segment ending' items' = .stuck tree' ∧ S.unplaced tree' = S.unplaced tree := by
  have hsegment := S.segment_alike halike hwords
  rw [hparse] at hsegment
  exact hsegment.2 rfl

/-- Where it has a tree it has one alike, and the same is left again. -/
theorem alike_of_done {fits} (halike : ending.Alike ending') (hwords : words items' = words items)
    (hparse : S.segment ending items = .done tree rest fits) :
    ∃ tree' rest' fits', S.segment ending' items' = .done tree' rest' fits' ∧
      S.unplaced tree' = S.unplaced tree ∧ words rest' = words rest := by
  have hsegment := S.segment_alike halike hwords
  rw [hparse] at hsegment
  obtain ⟨tree', rest', fits', hparse', htree, hrest⟩ := hsegment
  exact ⟨tree', rest', fits', hparse', htree, by rwa [List.append_nil] at hrest⟩

theorem not_isWhole_tail_stuck (hparse : S.segment ending rest = .stuck second) :
    S.isWhole (S.tail ending first (⟨.token .semicolon, stop⟩ :: rest)) = false := by
  rw [tail_stuck hparse, S.isWhole_join, isWhole_of_stuck hparse, Bool.and_false]

/-- If the tree is whole, no item is left but semicolons, and the text is read to its end. -/
theorem of_isWhole_tail (h : S.isWhole (S.tail ending first items) = true) :
    ending.cause = .complete ∧ ∀ s ∈ (words items).head?, s = .token .semicolon := by
  induction first, items using S.tail_induction ending with
  | stuck first stop rest second hparse => exact absurd h (by simp [not_isWhole_tail_stuck hparse])
  | done first stop rest second more fits hparse ih =>
    rw [tail_done hparse] at h
    exact ⟨(ih h).1, by simp [Symbol.unplaced]⟩
  | other first items hother =>
    rw [tail_other hother] at h
    split at h
    · rename_i hall
      simp only [Bool.and_eq_true, List.isEmpty_iff, beq_iff_eq] at hall
      obtain ⟨rfl, hcomplete⟩ := hall
      exact ⟨hcomplete, by simp⟩
    · rw [S.isWhole_thenFail] at h
      exact absurd h (by simp)

/-- If the tree is whole, the parser comes to a semicolon behind the items with the same tree. -/
theorem tail_reaches (ending' : Ending) {vs : List Symbol}
    (h : S.isWhole (S.tail ending first items) = true)
    (hfirst : S.unplaced first' = S.unplaced first)
    (hwords : words items' = words items ++ .token .semicolon :: vs) :
    ∃ tree' rest', S.unplaced tree' = S.unplaced (S.tail ending first items) ∧
      words rest' = .token .semicolon :: vs ∧
      S.tail ending' first' items' = S.tail ending' tree' rest' := by
  induction first, items using S.tail_induction ending generalizing first' items' with
  | stuck first stop rest second hparse => exact absurd h (by simp [not_isWhole_tail_stuck hparse])
  | done first stop rest second more fits hparse ih =>
    obtain ⟨stop', rest', rfl, hrest⟩ := words_eq_token.mp hwords
    rw [tail_done hparse] at h ⊢
    obtain ⟨second', more', fits', hparse', hsecond, hmore⟩ :=
      S.segment_passes ending' hparse (of_isWhole_tail h).2 hrest
    rw [tail_done hparse']
    refine ih h ?_ hmore
    rw [S.unplaced_join, S.unplaced_join, hfirst, hsecond]
  | other first items hother =>
    rw [tail_other hother] at h ⊢
    split at h
    · rename_i hall
      rw [if_pos hall]
      simp only [Bool.and_eq_true, List.isEmpty_iff] at hall
      obtain ⟨rfl, -⟩ := hall
      exact ⟨first', items', hfirst, hwords, rfl⟩
    · rw [S.isWhole_thenFail] at h
      exact absurd h (by simp)

/-- The second tree is the first one behind another tree, which comes before all its segments. -/
inductive Behind (S : Sequencing τ) (prior : τ) : τ → τ → Prop
  | first {tree tree' : τ} (halike : S.unplaced tree' = S.unplaced tree) :
      Behind S prior tree (S.join prior tree')
  | join {first first' second second' : τ} (hfirst : Behind S prior first first')
      (halike : S.unplaced second' = S.unplaced second) :
      Behind S prior (S.join first second) (S.join first' second')

/-- Behind another tree the parser goes on as it does alone. -/
theorem tail_behind (halike : ending.Alike ending') (hfirst : S.Behind prior first first')
    (hwords : words items' = words items) :
    S.Behind prior (S.tail ending first items) (S.tail ending' first' items') := by
  induction first, items using S.tail_induction ending generalizing first' items' with
  | stuck first stop rest second hparse =>
    obtain ⟨stop', rest', rfl, hrest⟩ := words_eq_token.mp hwords
    obtain ⟨second', hparse', hsecond⟩ := alike_of_stuck halike hrest hparse
    rw [tail_stuck hparse, tail_stuck hparse']
    exact .join hfirst hsecond
  | done first stop rest second more fits hparse ih =>
    obtain ⟨stop', rest', rfl, hrest⟩ := words_eq_token.mp hwords
    obtain ⟨second', more', fits', hparse', hsecond, hmore⟩ := alike_of_done halike hrest hparse
    rw [tail_done hparse, tail_done hparse']
    exact ih (.join hfirst hsecond) hmore
  | other first items hother =>
    have hother' : ∀ stop rest, items' ≠ ⟨.token .semicolon, stop⟩ :: rest := by
      rintro stop rest rfl
      obtain ⟨_, _, rfl, -⟩ := words_eq_token.mp hwords.symm
      exact hother _ _ rfl
    have hcomplete : ending.cause = .complete ↔ ending'.cause = .complete :=
      halike.cause_eq_iff (by simp)
    have hempty : items' = [] ↔ items = [] := by
      rw [← words_eq_nil, hwords, words_eq_nil]
    have hall : (items'.isEmpty && ending'.cause == .complete) =
        (items.isEmpty && ending.cause == .complete) := by
      rw [Bool.eq_iff_iff]
      simp only [Bool.and_eq_true, List.isEmpty_iff, beq_iff_eq, hempty, hcomplete]
    rw [tail_other hother, tail_other hother', hall]
    split
    · exact hfirst
    · refine .join hfirst ?_
      rw [S.unplaced_failure, S.unplaced_failure, halike.unexpected hwords]

/-- The tree of an outline whose words are those of another one, a semicolon, and those of a third
one: if the tree of the first part is whole, that of the second part is behind it. -/
theorem ofOutline_behind {o o' both : Outline} (hwhole : S.isWhole (S.ofOutline o) = true)
    (hwords : words both.items = words o.items ++ .token .semicolon :: words o'.items)
    (halike : o'.ending.Alike both.ending) :
    ∃ prior, S.unplaced prior = S.unplaced (S.ofOutline o) ∧
      S.Behind prior (S.ofOutline o') (S.ofOutline both) := by
  cases hparse : S.segment o.ending o.items with
  | stuck tree =>
    rw [ofOutline_of_stuck hparse, isWhole_of_stuck hparse] at hwhole
    exact absurd hwhole (by simp)
  | done first rest fits =>
    rw [ofOutline_of_done hparse] at hwhole ⊢
    obtain ⟨first', rest', fits', hparse', hfirst, hrest⟩ :=
      S.segment_passes both.ending hparse (of_isWhole_tail hwhole).2 hwords
    obtain ⟨prior, more, hprior, hmore, htail⟩ := tail_reaches both.ending hwhole hfirst hrest
    refine ⟨prior, hprior, ?_⟩
    -- from the semicolon on the second part is parsed
    obtain ⟨stop, behind, rfl, hbehind⟩ := words_eq_token.mp hmore
    rw [ofOutline_of_done hparse', htail]
    cases hsecond : S.segment o'.ending o'.items with
    | stuck second =>
      obtain ⟨second', hsecond', htree⟩ := alike_of_stuck halike hbehind hsecond
      rw [ofOutline_of_stuck hsecond, tail_stuck hsecond']
      exact .first htree
    | done second left fits =>
      obtain ⟨second', left', fits', hsecond', htree, hleft⟩ :=
        alike_of_done halike hbehind hsecond
      rw [ofOutline_of_done hsecond, tail_done hsecond']
      exact tail_behind halike (.first htree) hleft

end Sequencing

-- ---------------------------------------------------------------------------
-- The words of a formula after another
-- ---------------------------------------------------------------------------

/-- A text that is read to its end, a semicolon, and another text have the words of both. -/
theorem Outline.ofText_sequence {inPlace : String → Bool} {f : String} (g : String)
    (h : (ofText inPlace f).ending.cause = .complete) :
    words (ofText inPlace (f ++ ";" ++ g)).items =
        words (ofText inPlace f).items ++ .token .semicolon :: words (ofText inPlace g).items ∧
      (ofText inPlace g).ending.Alike (ofText inPlace (f ++ ";" ++ g)).ending := by
  obtain ⟨rest, hreads, hrest⟩ := says_iff.mpr ⟨h, rfl⟩
  have hends : Ends (';' :: g.toList) := by simp [Ends]
  have hscan : scan (rest ++ ';' :: g.toList) = (.token .semicolon, g.toList) := by
    have happend := scan_append hends rest
    rw [show scan rest = (.finished, (scan rest).2) by rw [← hrest]] at happend
    exact happend
  obtain ⟨offset, hwords, hending⟩ := (hreads.append hends).readFrom 0
  rw [readFrom_token hscan (by simp)] at hwords hending
  have hlist : (f ++ ";" ++ g).toList = f.toList ++ ';' :: g.toList := by simp
  have halike := readFrom_alike inPlace g.toList 0 (offset + ((rest ++ ';' :: g.toList).length -
    g.toList.length))
  rw [ofText, hlist, hwords, hending]
  refine ⟨?_, halike.ending⟩
  rw [push, words_cons, halike.words_eq]
  rfl

namespace Sequencing

variable {τ : Type} {S : Sequencing τ}

/-- A whole formula is read to its end. -/
theorem complete_of_isWhole {o : Outline} (h : S.isWhole (S.ofOutline o) = true) :
    o.ending.cause = .complete := by
  cases hparse : S.segment o.ending o.items with
  | stuck tree =>
    rw [ofOutline_of_stuck hparse, isWhole_of_stuck hparse] at h
    exact absurd h (by simp)
  | done first rest fits =>
    rw [ofOutline_of_done hparse] at h
    exact (of_isWhole_tail h).1

/-- The tree of a text that comes, behind a semicolon, after a text with a whole tree. -/
theorem ofText_behind {inPlace : String → Bool} {f : String} (g : String)
    (h : S.isWhole (S.ofOutline (.ofText inPlace f)) = true) :
    ∃ prior, S.unplaced prior = S.unplaced (S.ofOutline (.ofText inPlace f)) ∧
      S.Behind prior (S.ofOutline (.ofText inPlace g))
        (S.ofOutline (.ofText inPlace (f ++ ";" ++ g))) := by
  obtain ⟨hwords, halike⟩ := Outline.ofText_sequence g (complete_of_isWhole h)
  exact ofOutline_behind h hwords halike

end Sequencing

-- ---------------------------------------------------------------------------
-- Numeric formulas
-- ---------------------------------------------------------------------------

namespace NumericTree

theorem symbol_of_joiner {s : Symbol} {join : NumericTree → NumericTree → NumericTree}
    (h : s.joiner? .sequence = some join) : s = .token .semicolon := by
  obtain ⟨t, joint, rfl, known, -⟩ := Symbol.exists_sign h
  obtain ⟨rfl, -⟩ : t = .semicolon ∧ joint = .keepLast := by simpa [Level.signs] using known
  rfl

theorem chainRest_stuck {ending : Ending} {first second : NumericTree} {stop : Nat}
    {rest : List Item} (hparse : operand ending .sequence rest = .stuck second) :
    chainRest ending .sequence first (⟨.token .semicolon, stop⟩ :: rest) =
      .stuck (.sequence first second) := by
  have hjoin : (Symbol.token .semicolon).joiner? .sequence = some .sequence := rfl
  rw [chainRest]
  simp only [hjoin, hparse]

theorem chainRest_done {ending : Ending} {first second : NumericTree} {stop : Nat}
    {rest more : List Item} {fits : more.length ≤ rest.length}
    (hparse : operand ending .sequence rest = .done second more fits) :
    chainRest ending .sequence first (⟨.token .semicolon, stop⟩ :: rest) =
      (chainRest ending .sequence (.sequence first second) more).widen
        (Nat.le_trans fits (Nat.le_succ _)) := by
  have hjoin : (Symbol.token .semicolon).joiner? .sequence = some .sequence := rfl
  rw [chainRest]
  simp only [hjoin, hparse]

theorem chainRest_other {ending : Ending} {first : NumericTree} {items : List Item}
    (hother : ∀ stop rest, items ≠ ⟨.token .semicolon, stop⟩ :: rest) :
    chainRest ending .sequence first items = .done first items (Nat.le_refl _) := by
  cases items with
  | nil => rw [chainRest]
  | cons item rest =>
    cases hjoin : item.symbol.joiner? .sequence with
    | none =>
      rw [chainRest]
      simp only [hjoin]
    | some join =>
      obtain ⟨symbol, stop⟩ := item
      obtain rfl : symbol = .token .semicolon := symbol_of_joiner hjoin
      exact absurd rfl (hother stop rest)

/-- The segments of a numeric formula are parsed alike where the same is left. -/
theorem operand_alike {ending ending' : Ending} (halike : ending.Alike ending')
    {items items' : List Item} (hwords : words items' = words items) :
    (operand ending .sequence items).Extends trees [] (operand ending' .sequence items') :=
  (parse_extends halike).2.2.1 .sequence _ _ hwords

/-- A segment that is taken up to a semicolon, or the end, is taken in front of a semicolon. -/
theorem operand_passes {ending : Ending} (ending' : Ending) {items items' rest : List Item}
    {tree : NumericTree} {fits : rest.length ≤ items.length} {vs : List Symbol}
    (hparse : operand ending .sequence items = .done tree rest fits)
    (hrest : ∀ s ∈ (words rest).head?, s = .token .semicolon)
    (hwords : words items' = words items ++ .token .semicolon :: vs) :
    ∃ tree' rest' fits', operand ending' .sequence items' = .done tree' rest' fits' ∧
      tree'.unplaced = tree.unplaced ∧
      words rest' = words rest ++ .token .semicolon :: vs := by
  have hconfined := (confined_parse ending).2.2.1 .sequence items
  rw [hparse] at hconfined
  obtain ⟨front, hfront, hpart⟩ := hconfined
  rw [hfront, List.append_assoc] at hwords
  have hhead : (words rest ++ .token .semicolon :: vs).head? = some (.token .semicolon) := by
    cases hcase : words rest with
    | nil => rfl
    | cons s ss =>
      rw [hcase] at hrest
      rw [hrest s rfl]
      rfl
  have hseparate : Separate Level.sequence.operand ending'
      (words rest ++ .token .semicolon :: vs) := by
    refine ⟨fun s hs n hn => ?_, by simp [hhead], by simp⟩
    rw [hhead] at hs
    obtain rfl := Option.some.inj hs
    obtain rfl : 0 = n := by simpa [Symbol.tightness?, Token.tightness?] using hn
    decide
  have hgives := hpart.parsed hwords hseparate
  rw [← operand_eq_parse] at hgives
  exact hgives.exists_done

/-- Numeric formulas are chains of operators with semicolons between them. -/
def sequencing : Sequencing NumericTree where
  toTrees := trees
  segment ending := operand ending .sequence
  loop ending := chainRest ending .sequence
  loop_stuck := chainRest_stuck
  loop_done := chainRest_done
  loop_other := chainRest_other
  segment_alike := operand_alike
  segment_passes := operand_passes

theorem ofOutline_sequencing (o : Outline) : sequencing.ofOutline o = ofOutline o := by
  rw [ofOutline, chain]
  cases hparse : operand o.ending .sequence o.items with
  | stuck tree => exact Sequencing.ofOutline_of_stuck hparse
  | done first rest fits =>
    have hloop : sequencing.loop o.ending first rest =
        chainRest o.ending .sequence first rest := rfl
    rw [Sequencing.ofOutline_of_done hparse, Sequencing.tail, hloop]
    dsimp only
    cases chainRest o.ending .sequence first rest <;> rfl

/-- The tree of a formula that comes after a formula with a whole tree. -/
theorem ofFormula_behind {f : String} (g : String) (h : (ofFormula f).isWhole = true) :
    ∃ prior : NumericTree, prior.unplaced = (ofFormula f).unplaced ∧
      sequencing.Behind prior (ofFormula g) (ofFormula (f ++ ";" ++ g)) := by
  simp only [ofFormula, ← ofOutline_sequencing] at h ⊢
  exact Sequencing.ofText_behind (S := sequencing) g h

end NumericTree

-- ---------------------------------------------------------------------------
-- Text formulas
-- ---------------------------------------------------------------------------

namespace TextTree

theorem sequenceRest_stuck {ending : Ending} {first second : TextTree} {stop : Nat}
    {rest : List Item} (hparse : concatenation ending rest = .stuck second) :
    sequenceRest ending first (⟨.token .semicolon, stop⟩ :: rest) =
      .stuck (.sequence first second) := by
  rw [sequenceRest]
  simp only [hparse]

theorem sequenceRest_done {ending : Ending} {first second : TextTree} {stop : Nat}
    {rest more : List Item} {fits : more.length ≤ rest.length}
    (hparse : concatenation ending rest = .done second more fits) :
    sequenceRest ending first (⟨.token .semicolon, stop⟩ :: rest) =
      (sequenceRest ending (.sequence first second) more).widen
        (Nat.le_trans fits (Nat.le_succ _)) := by
  rw [sequenceRest]
  simp only [hparse]

theorem sequenceRest_other {ending : Ending} {first : TextTree} {items : List Item}
    (hother : ∀ stop rest, items ≠ ⟨.token .semicolon, stop⟩ :: rest) :
    sequenceRest ending first items = .done first items (Nat.le_refl _) := by
  rw [sequenceRest]
  exact hother

/-- So are those of a text formula. -/
theorem concatenation_alike {ending ending' : Ending} (halike : ending.Alike ending')
    {items items' : List Item} (hwords : words items' = words items) :
    (concatenation ending items).Extends trees [] (concatenation ending' items') :=
  (parse_extends (.inl ⟨rfl, halike⟩)).1 _ _ (hwords.trans (List.append_nil _).symm)

/-- A segment that is taken up to a semicolon, or the end, is taken in front of a semicolon. -/
theorem concatenation_passes {ending : Ending} (ending' : Ending) {items items' rest : List Item}
    {tree : TextTree} {fits : rest.length ≤ items.length} {vs : List Symbol}
    (hparse : concatenation ending items = .done tree rest fits)
    (hwords : words items' = words items ++ .token .semicolon :: vs) :
    ∃ tree' rest' fits', concatenation ending' items' = .done tree' rest' fits' ∧
      tree'.unplaced = tree.unplaced ∧
      words rest' = words rest ++ .token .semicolon :: vs := by
  have hbeyond : ending.Beyond ending' (.token .semicolon :: vs) := .inr ⟨_, vs, .inl rfl, rfl⟩
  have hextends := (parse_extends hbeyond).1 items items' hwords
  rw [hparse] at hextends
  exact hextends

/-- Text formulas are concatenations with semicolons between them. -/
def sequencing : Sequencing TextTree where
  toTrees := trees
  segment := concatenation
  loop := sequenceRest
  loop_stuck := sequenceRest_stuck
  loop_done := sequenceRest_done
  loop_other := sequenceRest_other
  segment_alike := concatenation_alike
  segment_passes ending' _ _ _ _ _ _ hparse _ := concatenation_passes ending' hparse

theorem ofOutline_sequencing (o : Outline) : sequencing.ofOutline o = ofOutline o := by
  rw [ofOutline]
  cases hparse : concatenation o.ending o.items with
  | stuck tree => exact Sequencing.ofOutline_of_stuck hparse
  | done first rest fits =>
    have hloop : sequencing.loop o.ending first rest = sequenceRest o.ending first rest := rfl
    have hdone : sequencing.ofOutline o = _ := Sequencing.ofOutline_of_done hparse
    rw [hdone, Sequencing.tail, hloop]
    dsimp only
    cases sequenceRest o.ending first rest <;> rfl

/-- The tree of a formula that comes after a formula with a whole tree. -/
theorem ofFormula_behind {f : String} (g : String) (h : (ofFormula f).isWhole = true) :
    ∃ prior : TextTree, prior.unplaced = (ofFormula f).unplaced ∧
      sequencing.Behind prior (ofFormula g) (ofFormula (f ++ ";" ++ g)) := by
  simp only [ofFormula, ← ofOutline_sequencing] at h ⊢
  exact Sequencing.ofText_behind (S := sequencing) g h

end TextTree

end Formulae.Grammar
