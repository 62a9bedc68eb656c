import Formulae.Proofs.Grammar.Reading

/-!
# How far a formula reaches

Everything that the grammar knows of a formula lies inside its text. A place that is blamed is at
most the number of characters, since a place is where a reading has stopped, and an argument is a
piece of the text between two parentheses, without the white space around it, so that it is shorter
than the text and stands in it.

The parser puts into a tree what it finds in the items and takes items from the front only, so the
same holds of trees. Both grammars are gone through by their own recursion once, for all properties
of trees that pass from the items to what is built of them.

Main results:

* `Outline.readFrom_within` — the places and arguments of an outline lie inside the text.
* `NumericTree.parse_leaves`, `TextTree.parse_leaves` — what is built of such items is good, if all
  ways of building keep it good, and what a parser leaves is an end of what it was given.
* `NumericTree.within_ofFormula`, `TextTree.within_ofFormula` — the places of the trees lie inside
  the text, and their arguments are those of the outline.
-/

namespace Formulae.Grammar

-- ---------------------------------------------------------------------------
-- Arguments
-- ---------------------------------------------------------------------------

namespace Arguments

/-- The text is a piece of the other one, shorter than that, without white space at its ends. -/
structure CutFrom (cs : List Char) (arg : String) : Prop where
  piece : arg.toList <:+: cs
  shorter : arg.length < cs.length
  trimmed : Text.trim arg.toList = arg.toList

variable {cs ds inner rest : List Char} {arg : String} {args : List String}

theorem CutFrom.mono (h : CutFrom cs arg) (hcs : cs <:+ ds) : CutFrom ds arg :=
  ⟨h.piece.trans hcs.isInfix, Nat.lt_of_lt_of_le h.shorter hcs.length_le, h.trimmed⟩

theorem trim_isInfix (cs : List Char) : Text.trim cs <:+: cs := by
  obtain ⟨before, after, hcs, -, -⟩ := Text.exists_padded Text.isBlank cs
  exact ⟨before, after, hcs.symm⟩

/-- The pieces between commas stand in the text, and the first one begins it. -/
theorem isInfix_of_mem_piecesFrom (depth : Int) (quoted : Bool) (cs : List Char) :
    ∃ first more, piecesFrom depth quoted cs = first :: more ∧ first <+: cs ∧
      ∀ piece ∈ more, piece <:+: cs := by
  have put : ∀ {c : Char} {cs : List Char} {pieces : List (List Char)},
      (∃ first more, pieces = first :: more ∧ first <+: cs ∧ ∀ piece ∈ more, piece <:+: cs) →
      ∃ first more, putFirst c pieces = first :: more ∧ first <+: c :: cs ∧
        ∀ piece ∈ more, piece <:+: c :: cs := by
    -- a character is put in front of the first piece
    rintro c cs _ ⟨first, more, rfl, hfirst, hmore⟩
    refine ⟨c :: first, more, rfl, List.cons_prefix_cons.mpr ⟨rfl, hfirst⟩, fun piece hpiece => ?_⟩
    exact (hmore piece hpiece).trans (List.suffix_cons c cs).isInfix
  induction cs generalizing depth quoted with
  | nil => exact ⟨[], [], rfl, List.prefix_rfl, by simp⟩
  | cons c cs ih =>
    rw [piecesFrom]
    split
    · exact put (ih _ _)
    · split
      · exact put (ih _ _)
      · split
        · exact put (ih _ _)
        · split
          · exact put (ih _ _)
          · split
            -- a comma ends an empty first piece
            · obtain ⟨first, more, heq, hfirst, hmore⟩ := ih depth false
              refine ⟨[], first :: more, by rw [heq], List.nil_prefix, fun piece hpiece => ?_⟩
              have hpiece : piece <:+: cs := by
                rcases List.mem_cons.mp hpiece with rfl | hpiece
                · exact hfirst.isInfix
                · exact hmore piece hpiece
              exact hpiece.trans (List.suffix_cons c cs).isInfix
            · exact put (ih _ _)

/-- The arguments in a text stand in it, trimmed. -/
theorem isInfix_of_mem_split (h : arg ∈ split cs) :
    arg.toList <:+: cs ∧ Text.trim arg.toList = arg.toList := by
  unfold split at h
  dsimp only at h
  split at h
  · simp at h
  · obtain ⟨piece, hpiece, rfl⟩ := List.mem_map.mp h
    obtain ⟨first, more, heq, hfirst, hmore⟩ := isInfix_of_mem_piecesFrom 0 false (Text.trim cs)
    rw [heq] at hpiece
    have hpiece : piece <:+: Text.trim cs := by
      rcases List.mem_cons.mp hpiece with rfl | hpiece
      · exact hfirst.isInfix
      · exact hmore piece hpiece
    rw [String.toList_ofList]
    exact ⟨((trim_isInfix piece).trans hpiece).trans (trim_isInfix cs), Text.trimBy_trimBy _ _⟩

/-- The arguments of a call are cut out of the text behind its opening parenthesis. -/
theorem cutFrom_of_take? (h : take? cs = some (args, rest)) (harg : arg ∈ args) :
    CutFrom cs arg := by
  obtain ⟨⟨inner, r⟩, hclose, heq⟩ := Option.map_eq_some_iff.mp h
  obtain ⟨rfl, rfl⟩ := Prod.mk.inj heq
  have hcs := append_of_closeFrom? hclose
  obtain ⟨hpiece, htrimmed⟩ := isInfix_of_mem_split harg
  refine ⟨hpiece.trans ⟨[], ')' :: r, hcs.symm⟩, ?_, htrimmed⟩
  have hlength := hpiece.length_le
  rw [String.length_toList] at hlength
  rw [hcs, List.length_append, List.length_cons]
  omega

end Arguments

-- ---------------------------------------------------------------------------
-- Outlines
-- ---------------------------------------------------------------------------

variable {limit : Nat} {isArg : String → Prop}

/-- A call ends within `limit` characters, and its arguments are such. -/
def Symbol.Within (limit : Nat) (isArg : String → Prop) : Symbol → Prop
  | token _ => True
  | call _ args closed => closed ≤ limit ∧ ∀ arg ∈ args, isArg arg

structure Item.Within (limit : Nat) (isArg : String → Prop) (item : Item) : Prop where
  symbol : item.symbol.Within limit isArg
  stop : item.stop ≤ limit

structure Ending.Within (limit : Nat) (e : Ending) : Prop where
  stop : e.stop ≤ limit
  openCall : ∀ name length, e.cause = .openCall name length → length ≤ limit

/-- All places of an outline are within `limit` characters, and all its arguments are such. -/
structure Outline.Within (limit : Nat) (isArg : String → Prop) (o : Outline) : Prop where
  items : ∀ item ∈ o.items, item.Within limit isArg
  ending : o.ending.Within limit

/-- The texts of the arguments of a call. -/
def Symbol.arguments : Symbol → List String
  | token _ => []
  | call _ args _ => args

namespace Outline

open Arguments

/-- The arguments of all calls in an outline. -/
def arguments (o : Outline) : List String :=
  o.items.flatMap fun item => item.symbol.arguments

/-- An outline with an item in front of it is within the same bounds. -/
theorem Within.push {o : Outline} (h : o.Within limit isArg) {item : Item}
    (hitem : item.Within limit isArg) : (o.push item).Within limit isArg :=
  ⟨List.forall_mem_cons.mpr ⟨hitem, h.items⟩, h.ending⟩

/-- What holds of the arguments in an outline may be asked of them. -/
theorem Within.mono {o : Outline} (h : o.Within limit isArg) {isArg' : String → Prop}
    (hargs : ∀ arg ∈ o.arguments, isArg arg → isArg' arg) : o.Within limit isArg' := by
  refine ⟨fun item hitem => ⟨?_, (h.items item hitem).stop⟩, h.ending⟩
  have hsymbol := (h.items item hitem).symbol
  cases hs : item.symbol with
  | token t => trivial
  | call name args closed =>
    rw [hs] at hsymbol
    refine ⟨hsymbol.1, fun arg harg => hargs arg ?_ (hsymbol.2 arg harg)⟩
    exact List.mem_flatMap.mpr ⟨item, hitem, by rwa [hs]⟩

/-- The arguments in an outline are such as its bounds say. -/
theorem Within.of_mem_arguments {o : Outline} (h : o.Within limit isArg) {arg : String}
    (harg : arg ∈ o.arguments) : isArg arg := by
  obtain ⟨item, hitem, harg⟩ := List.mem_flatMap.mp harg
  have hsymbol := (h.items item hitem).symbol
  cases hs : item.symbol with
  | token t => simp [hs, Symbol.arguments] at harg
  | call name args closed =>
    rw [hs] at hsymbol harg
    exact hsymbol.2 arg harg

/-- The places and arguments of an outline lie inside the text. -/
theorem readFrom_within (inPlace : String → Bool) (offset : Nat) (cs : List Char) :
    (readFrom inPlace offset cs).Within (offset + cs.length) (CutFrom cs) := by
  induction hlen : cs.length using Nat.strongRecOn generalizing cs offset with
  | ind length ih =>
    subst hlen
    -- what stands behind an item is read in the same way
    have hrest : ∀ {rest : List Char}, rest <:+ cs → rest.length < cs.length →
        (readFrom inPlace (offset + (cs.length - rest.length)) rest).Within (offset + cs.length)
          (CutFrom cs) := by
      intro rest hsuffix hlt
      have hwithin := ih rest.length hlt (offset + (cs.length - rest.length)) rest rfl
      rw [show offset + (cs.length - rest.length) + rest.length = offset + cs.length by omega]
        at hwithin
      exact hwithin.mono fun arg _ harg => harg.mono hsuffix
    have hstop : ∀ rest : List Char, offset + (cs.length - rest.length) ≤ offset + cs.length := by
      intro rest
      omega
    match hscan : scan cs with
    | (.token t, rest) =>
      have hsuffix := scan_suffix cs
      have hlt := length_scan_lt (congrArg Prod.fst hscan)
      rw [hscan] at hsuffix hlt
      by_cases hplain : ∀ name, t = .identifier name → inPlace name = true ∨ openParen? rest = none
      · rw [readFrom_token hscan hplain]
        exact (hrest hsuffix hlt).push ⟨trivial, hstop rest⟩
      obtain ⟨name, rfl, hcalled⟩ : ∃ name, t = .identifier name ∧
          ¬ (inPlace name = true ∨ openParen? rest = none) := by
        simpa using hplain
      rw [not_or, Bool.not_eq_true] at hcalled
      obtain ⟨inner, hopen⟩ := Option.ne_none_iff_exists'.mp hcalled.2
      rw [readFrom_call hscan hcalled.1 hopen]
      match htake : take? inner with
      | none =>
        refine ⟨by simp, hstop rest, fun name' length' hcause => ?_⟩
        obtain ⟨-, rfl⟩ := EndCause.openCall.inj hcause
        exact Nat.le_refl _
      | some (args, after) =>
        have hinner := (openParen?_suffix hopen).trans hsuffix
        have hafter := (take?_suffix htake).trans hinner
        have hshort := Nat.lt_of_lt_of_le (length_take?_lt htake) hinner.length_le
        refine (hrest hafter hshort).push ⟨⟨hstop after, fun arg harg => ?_⟩, hstop rest⟩
        exact (cutFrom_of_take? htake harg).mono hinner
    | (.finished, rest) | (.openLiteral, rest) | (.unreadable, rest) =>
      obtain ⟨hitems, -, hcause⟩ := @readFrom_stop cs inPlace offset (by simp [hscan])
      refine ⟨by simp [hitems], ?_, fun name length h => absurd h (hcause name length)⟩
      rw [readFrom]
      split
      case h_4 t' rest' heq => simp [hscan] at heq
      all_goals
        dsimp only
        omega

/-- All places of a formula are within its length. -/
theorem within_ofText (inPlace : String → Bool) (formula : String) :
    (ofText inPlace formula).Within formula.length (· ∈ (ofText inPlace formula).arguments) := by
  have hwithin := readFrom_within inPlace 0 formula.toList
  rw [Nat.zero_add, String.length_toList] at hwithin
  exact hwithin.mono fun arg harg _ => harg

/-- The arguments in a formula are cut out of it. -/
theorem cutFrom_of_mem_arguments {inPlace : String → Bool} {formula arg : String}
    (h : arg ∈ (ofText inPlace formula).arguments) : CutFrom formula.toList arg :=
  (readFrom_within inPlace 0 formula.toList).of_mem_arguments h

end Outline

/-- A complaint is at such a place, and not about a function that is unknown: the parser knows
nothing of functions. -/
structure Complaint.Within (limit : Nat) (c : Complaint) : Prop where
  position : c.position ≤ limit
  known : c.kind ≠ .functionUnknown

namespace Ending

variable {e : Ending} {items : List Item}

/-- The place where the parser looks is within the formula. -/
theorem Within.lookAhead (h : e.Within limit) (hitems : ∀ item ∈ items, item.Within limit isArg) :
    e.lookAhead items ≤ limit := by
  cases items with
  | nil => exact h.stop
  | cons item rest => exact (hitems item (by simp)).stop

/-- So is the place of what it did not expect there. -/
theorem Within.unexpected (h : e.Within limit) (hitems : ∀ item ∈ items, item.Within limit isArg)
    {kind : ErrorKind} (hkind : kind ≠ .functionUnknown) (identifier : Option String) :
    (e.unexpected items kind identifier).Within limit := by
  unfold Ending.unexpected
  split
  · exact ⟨h.stop, by simp⟩
  · exact ⟨h.lookAhead hitems, hkind⟩

/-- And that of an operand that is missing. -/
theorem Within.noOperand (h : e.Within limit) (hitems : ∀ item ∈ items, item.Within limit isArg) :
    (e.noOperand items).Within limit := by
  unfold Ending.noOperand
  split
  · rename_i name length hcause
    exact ⟨h.openCall name length hcause, by simp⟩
  · exact h.unexpected hitems (by simp) _

end Ending

-- ---------------------------------------------------------------------------
-- What a parser gives
-- ---------------------------------------------------------------------------

namespace Parsed

variable {α β : Type} {small large : Nat} {good : α → Prop} {items items' : List Item}

/-- The tree is a good one, and what is left is an end of these items. -/
def Leaves (good : α → Prop) (items : List Item) : Parsed α large → Prop
  | done tree rest _ => good tree ∧ rest <:+ items
  | stuck tree => good tree

@[simp] theorem leaves_widen (h : small ≤ large) (p : Parsed α small) :
    (p.widen h).Leaves good items ↔ p.Leaves good items := by
  cases p <;> rfl

/-- What is left of some items is left of more with these at their end. -/
theorem Leaves.mono {p : Parsed α large} (h : p.Leaves good items) (hitems : items <:+ items') :
    p.Leaves good items' := by
  cases p with
  | done tree rest fits => exact ⟨h.1, h.2.trans hitems⟩
  | stuck tree => exact h

/-- A good tree that is made another good tree leaves the same. -/
theorem Leaves.map {p : Parsed α large} (h : p.Leaves good items) {f : α → β} {good' : β → Prop}
    (hf : ∀ tree, good tree → good' (f tree)) : (p.map f).Leaves good' items := by
  cases p with
  | done tree rest fits => exact ⟨hf tree h.1, h.2⟩
  | stuck tree => exact hf tree h

/-- So does one in parentheses, which may fail for want of the closing one. -/
theorem Leaves.closing {p : Parsed α large} (h : p.Leaves good items) {word : Item → Prop}
    (hitems : ∀ item ∈ items, word item) {ending : Ending} {kind : ErrorKind}
    {identifier : Option String} {thenFail : α → Complaint → α}
    (hfail : ∀ tree rest, good tree → (∀ item ∈ rest, word item) →
      good (thenFail tree (ending.unexpected rest kind identifier))) :
    (p.closing ending kind identifier thenFail).Leaves good items := by
  match p with
  | .stuck tree => exact h
  | .done tree [] fits => exact hfail tree [] h.1 (by simp)
  | .done tree (item :: rest) fits =>
    rw [Parsed.closing]
    split
    · exact ⟨h.1, (List.suffix_cons item rest).trans h.2⟩
    · exact hfail tree _ h.1 fun item' hitem' => hitems item' (h.2.subset hitem')

end Parsed

-- ---------------------------------------------------------------------------
-- Numeric trees
-- ---------------------------------------------------------------------------

/-- All places in a tree are within `limit` characters, and all arguments are such. -/
def NumericTree.Within (limit : Nat) (isArg : String → Prop) : NumericTree → Prop
  | number _ => True
  | value _ position => position ≤ limit
  | call _ args position => position ≤ limit ∧ ∀ arg ∈ args, isArg arg
  | apply _ operand => operand.Within limit isArg
  | prefixed _ operand => operand.Within limit isArg
  | binary _ left right => left.Within limit isArg ∧ right.Within limit isArg
  | sequence first second => first.Within limit isArg ∧ second.Within limit isArg
  | failure complaint => complaint.Within limit

namespace NumericTree

variable {word : Item → Prop} {good : NumericTree → Prop}

/-- Trees that are built of good trees and of such items are good, and so are those that the parser
ends in a failure. -/
structure Builds (ending : Ending) (word : Item → Prop) (good : NumericTree → Prop) : Prop where
  number (x : Float) : good (.number x)
  value (name : String) {rest : List Item} (hrest : ∀ item ∈ rest, word item) :
    good (.value name (ending.lookAhead rest))
  call {name : String} {args : List String} {closed stop : Nat}
    (hitem : word ⟨.call name args closed, stop⟩) : good (.call name args closed)
  apply (f : MathFunction) {operand : NumericTree} (h : good operand) : good (.apply f operand)
  prefixed (op : PrefixOperation) {operand : NumericTree} (h : good operand) :
    good (.prefixed op operand)
  join {item : Item} {level : Level} {join : NumericTree → NumericTree → NumericTree}
    (hjoin : item.symbol.joiner? level = some join) (hitem : word item)
    {left right : NumericTree} (hleft : good left) (hright : good right) : good (join left right)
  power {base exponent : NumericTree} (hbase : good base) (hexponent : good exponent) :
    good (.binary .power base exponent)
  noOperand {rest : List Item} (hrest : ∀ item ∈ rest, word item) :
    good (.failure (ending.noOperand rest))
  unexpected {tree : NumericTree} (h : good tree) {rest : List Item}
    (hrest : ∀ item ∈ rest, word item) {kind : ErrorKind} (hkind : kind ≠ .functionUnknown)
    (identifier : Option String) : good (tree.thenFail (ending.unexpected rest kind identifier))

/-- What the parser makes of such items is good, and what is left is an end of them. The kinds of
parts are gone through together. -/
theorem parse_leaves {ending : Ending} (h : Builds ending word good) :
    (∀ level items, (∀ item ∈ items, word item) →
      (chain ending level items).Leaves good items) ∧
    (∀ level left items, good left → (∀ item ∈ items, word item) →
      (chainRest ending level left items).Leaves good items) ∧
    (∀ level items, (∀ item ∈ items, word item) →
      (operand ending level items).Leaves good items) ∧
    (∀ items, (∀ item ∈ items, word item) → (unary ending items).Leaves good items) ∧
    (∀ items, (∀ item ∈ items, word item) → (power ending items).Leaves good items) ∧
    (∀ items, (∀ item ∈ items, word item) → (term ending items).Leaves good items) := by
  have named_leaves : ∀ {name : String} {first : Item} {bound : Nat} {rest : List Item}
      (fits : rest.length ≤ bound), (∀ item ∈ first :: rest, word item) →
      (named ending name rest fits).Leaves good (first :: rest) := by
    intro name first bound rest fits hitems
    have hrest := (List.forall_mem_cons.mp hitems).2
    rw [named]
    split
    · exact h.noOperand hrest
    · exact ⟨h.value name hrest, List.suffix_cons first rest⟩
  have closed : ∀ {bound : Nat} {p : Parsed NumericTree bound} {items : List Item},
      p.Leaves good items → (∀ item ∈ items, word item) → ∀ kind identifier,
      kind ≠ .functionUnknown →
      (p.closing ending kind identifier thenFail).Leaves good items :=
    fun hp hitems kind identifier hkind =>
      hp.closing hitems fun _ _ htree hrest => h.unexpected htree hrest hkind identifier
  apply chain.mutual_induct ending
  -- a chain
  · intro level items left hparse ih hitems
    have hleft := ih hitems
    rw [hparse] at hleft
    rw [chain, hparse]
    exact hleft
  · intro level items left rest fits hparse ihleft ihmore hitems
    have hleft := ihleft hitems
    rw [hparse] at hleft
    obtain ⟨hleft, hrest⟩ := hleft
    rw [chain, hparse]
    simp only [Parsed.leaves_widen]
    exact (ihmore hleft fun item hitem => hitems item (hrest.subset hitem)).mono hrest
  -- the rest of a chain
  · intro level left hleft hitems
    rw [chainRest]
    exact ⟨hleft, List.suffix_rfl⟩
  · intro level left item rest hjoin hleft hitems
    rw [chainRest]
    simp only [hjoin]
    exact ⟨hleft, List.suffix_rfl⟩
  · intro level left item rest join hjoin right hparse ih hleft hitems
    have hright := ih (List.forall_mem_cons.mp hitems).2
    rw [hparse] at hright
    rw [chainRest]
    simp only [hjoin, hparse]
    exact h.join hjoin (List.forall_mem_cons.mp hitems).1 hleft hright
  · intro level left item rest join hjoin right more fits hparse ihright ihmore hleft hitems
    have hright := ihright (List.forall_mem_cons.mp hitems).2
    rw [hparse] at hright
    obtain ⟨hright, hmore⟩ := hright
    have hsuffix := hmore.trans (List.suffix_cons item rest)
    rw [chainRest]
    simp only [hjoin, hparse, Parsed.leaves_widen]
    exact (ihmore (h.join hjoin (List.forall_mem_cons.mp hitems).1 hleft hright)
      fun item' hitem' => hitems item' (hsuffix.subset hitem')).mono hsuffix
  -- an operand
  · intro level items next hnext _ ih hitems
    rw [operand_eq_parse, Level.operand_of_tighter hnext]
    exact ih hitems
  · intro level items hnext ih hitems
    rw [operand_eq_parse, Level.operand_of_tightest hnext]
    exact ih hitems
  -- operators before an operand
  · intro ih hitems
    rw [unary]
    exact ih hitems
  · intro item rest op hfront ih hitems
    rw [unary]
    simp only [hfront, Parsed.leaves_widen]
    have hoperand := ih (List.forall_mem_cons.mp hitems).2
    exact (hoperand.map (f := NumericTree.prefixed op) fun tree htree => h.prefixed op htree).mono
      (List.suffix_cons item rest)
  · intro item rest hfront ih hitems
    rw [unary]
    simp only [hfront]
    exact ih hitems
  -- a power
  · intro items base hparse ih hitems
    have hbase := ih hitems
    rw [hparse] at hbase
    rw [power, hparse]
    exact hbase
  · intro items base fits hparse ih hitems
    have hbase := ih hitems
    rw [hparse] at hbase
    rw [power, hparse]
    exact hbase
  · intro items base item rest fits hparse hpower ihbase ihexponent hitems
    have hbase := ihbase hitems
    rw [hparse] at hbase
    obtain ⟨hbase, hrest⟩ := hbase
    have hsuffix := (List.suffix_cons item rest).trans hrest
    rw [power, hparse]
    simp only [hpower, if_true, Parsed.leaves_widen]
    exact ((ihexponent fun item' hitem' => hitems item' (hsuffix.subset hitem')).map
      fun tree htree => h.power hbase htree).mono hsuffix
  · intro items base item rest fits hparse hpower ih hitems
    have hbase := ih hitems
    rw [hparse] at hbase
    rw [power, hparse]
    simp only [if_neg hpower]
    exact hbase
  -- a term
  · intro n stop rest hitems
    rw [term]
    exact ⟨h.number _, List.suffix_cons _ rest⟩
  · intro x stop rest hitems
    rw [term]
    exact ⟨h.number _, List.suffix_cons _ rest⟩
  · intro name args closed stop rest hitems
    rw [term]
    exact ⟨h.call (List.forall_mem_cons.mp hitems).1, List.suffix_cons _ rest⟩
  · intro stop rest ih hitems
    have hrest := (List.forall_mem_cons.mp hitems).2
    rw [term, Parsed.leaves_widen]
    exact (closed (ih hrest) hrest _ _ (by simp)).mono (List.suffix_cons _ rest)
  · intro name stop stop' inner f hf ih hitems
    have hinner := (List.forall_mem_cons.mp (List.forall_mem_cons.mp hitems).2).2
    rw [term]
    simp only [hf, Parsed.leaves_widen]
    have hoperand := closed (ih hinner) hinner .functionError (some name) (by simp)
    exact (hoperand.map (f := NumericTree.apply f) fun tree htree => h.apply f htree).mono
      ((List.suffix_cons _ inner).trans (List.suffix_cons _ _))
  · intro name stop stop' inner hf hitems
    rw [term]
    simp only [hf]
    exact named_leaves _ hitems
  · intro name stop rest hparen hitems
    rw [term]
    · exact named_leaves _ hitems
    · exact hparen
  -- nothing begins a term
  · intro items _ _ _ _ _ _ hitems
    rw [term]
    · exact h.noOperand hitems
    all_goals assumption

/-- The tree of an outline is good if what it is built of is. -/
theorem good_ofOutline {o : Outline} (h : Builds o.ending word good)
    (hitems : ∀ item ∈ o.items, word item) : good (ofOutline o) := by
  have hparse := (parse_leaves h).1 .sequence o.items hitems
  unfold ofOutline
  match hchain : chain o.ending .sequence o.items with
  | .stuck tree =>
    rw [hchain] at hparse
    exact hparse
  | .done tree rest fits =>
    rw [hchain] at hparse
    obtain ⟨htree, hrest⟩ := hparse
    dsimp only
    split
    · exact htree
    · exact h.unexpected htree (fun item hitem => hitems item (hrest.subset hitem)) (by simp) _

/-- Places and arguments of the items are those of a tree built of them. -/
theorem builds_within {ending : Ending} (hending : ending.Within limit) :
    Builds ending (Item.Within limit isArg) (NumericTree.Within limit isArg) where
  number _ := trivial
  value _ _ hrest := hending.lookAhead hrest
  call hitem := hitem.symbol
  apply _ _ h := h
  prefixed _ _ h := h
  join hjoin _ _ _ hleft hright := by
    obtain ⟨-, joint, -, -, rfl⟩ := Symbol.exists_sign hjoin
    cases joint <;> exact ⟨hleft, hright⟩
  power hbase hexponent := ⟨hbase, hexponent⟩
  noOperand hrest := hending.noOperand hrest
  unexpected h _ hrest _ hkind identifier := ⟨h, hending.unexpected hrest hkind identifier⟩

/-- A tree has the places and arguments of the items, and what is left is an end of them. -/
theorem within_parse {ending : Ending} (hending : ending.Within limit) :
    (∀ level items, (∀ item ∈ items, item.Within limit isArg) →
      (chain ending level items).Leaves (NumericTree.Within limit isArg) items) ∧
    (∀ level left items, left.Within limit isArg → (∀ item ∈ items, item.Within limit isArg) →
      (chainRest ending level left items).Leaves (NumericTree.Within limit isArg) items) ∧
    (∀ level items, (∀ item ∈ items, item.Within limit isArg) →
      (operand ending level items).Leaves (NumericTree.Within limit isArg) items) ∧
    (∀ items, (∀ item ∈ items, item.Within limit isArg) →
      (unary ending items).Leaves (NumericTree.Within limit isArg) items) ∧
    (∀ items, (∀ item ∈ items, item.Within limit isArg) →
      (power ending items).Leaves (NumericTree.Within limit isArg) items) ∧
    (∀ items, (∀ item ∈ items, item.Within limit isArg) →
      (term ending items).Leaves (NumericTree.Within limit isArg) items) :=
  parse_leaves (builds_within hending)

/-- The complaints and arguments in the tree of an outline are within the outline's bounds. -/
theorem within_ofOutline {o : Outline} (h : o.Within limit isArg) :
    (ofOutline o).Within limit isArg :=
  good_ofOutline (builds_within h.ending) h.items

/-- The tree of a formula has places within its length and the arguments of its outline. -/
theorem within_ofFormula (formula : String) :
    (ofFormula formula).Within formula.length
      (· ∈ (Outline.ofText keepsOperand formula).arguments) :=
  within_ofOutline (Outline.within_ofText keepsOperand formula)

end NumericTree

-- ---------------------------------------------------------------------------
-- Text trees
-- ---------------------------------------------------------------------------

/-- All places in a tree are within `limit` characters, and all arguments are such. -/
def TextTree.Within (limit : Nat) (isArg : String → Prop) : TextTree → Prop
  | literal _ => True
  | value _ position => position ≤ limit
  | call _ args position => position ≤ limit ∧ ∀ arg ∈ args, isArg arg
  | append left right => left.Within limit isArg ∧ right.Within limit isArg
  | sequence first second => first.Within limit isArg ∧ second.Within limit isArg
  | failure complaint => complaint.Within limit

namespace TextTree

variable {word : Item → Prop} {good : TextTree → Prop}

/-- Trees that are built of good trees and of such items are good, and so are those that the parser
ends in a failure. -/
structure Builds (ending : Ending) (word : Item → Prop) (good : TextTree → Prop) : Prop where
  literal (s : String) : good (.literal s)
  value (name : String) {rest : List Item} (hrest : ∀ item ∈ rest, word item) :
    good (.value name (ending.lookAhead rest))
  call {name : String} {args : List String} {closed stop : Nat}
    (hitem : word ⟨.call name args closed, stop⟩) : good (.call name args closed)
  append {left right : TextTree} (hleft : good left) (hright : good right) :
    good (.append left right)
  sequence {first second : TextTree} (hfirst : good first) (hsecond : good second) :
    good (.sequence first second)
  noOperand {rest : List Item} (hrest : ∀ item ∈ rest, word item) :
    good (.failure (ending.noOperand rest))
  unexpected {tree : TextTree} (h : good tree) {rest : List Item}
    (hrest : ∀ item ∈ rest, word item) {kind : ErrorKind} (hkind : kind ≠ .functionUnknown)
    (identifier : Option String) : good (tree.thenFail (ending.unexpected rest kind identifier))

/-- Where an atom is missing nothing is taken. -/
theorem nothing_leaves {ending : Ending} (h : Builds ending word good) (items : List Item) :
    (nothing ending items).Leaves good items := by
  cases items with
  | cons item rest => exact ⟨h.literal "", List.suffix_rfl⟩
  | nil =>
    have hnone : good (.failure (ending.noOperand [])) := h.noOperand (by simp)
    obtain ⟨cause, stop⟩ := ending
    cases cause with
    | complete | unreadable => exact ⟨h.literal "", List.suffix_rfl⟩
    | openLiteral | openCall => exact hnone

/-- What the parser makes of such items is good, and what is left is an end of them. -/
theorem parse_leaves {ending : Ending} (h : Builds ending word good) :
    (∀ items, (∀ item ∈ items, word item) → (concatenation ending items).Leaves good items) ∧
    (∀ left items, good left → (∀ item ∈ items, word item) →
      (concatenationRest ending left items).Leaves good items) ∧
    (∀ items, (∀ item ∈ items, word item) → (atom ending items).Leaves good items) := by
  apply concatenation.mutual_induct ending
  -- atoms joined
  · intro items left hparse ih hitems
    have hleft := ih hitems
    rw [hparse] at hleft
    rw [concatenation, hparse]
    exact hleft
  · intro items left rest fits hparse ihleft ihmore hitems
    have hleft := ihleft hitems
    rw [hparse] at hleft
    obtain ⟨hleft, hrest⟩ := hleft
    rw [concatenation, hparse]
    simp only [Parsed.leaves_widen]
    exact (ihmore hleft fun item hitem => hitems item (hrest.subset hitem)).mono hrest
  -- the rest of a concatenation
  · intro left stop rest right hparse ih hleft hitems
    have hright := ih (List.forall_mem_cons.mp hitems).2
    rw [hparse] at hright
    rw [concatenationRest, hparse]
    exact h.append hleft hright
  · intro left stop rest right more fits hparse ihright ihmore hleft hitems
    have hright := ihright (List.forall_mem_cons.mp hitems).2
    rw [hparse] at hright
    obtain ⟨hright, hmore⟩ := hright
    have hsuffix : more <:+ ⟨.token (.operator .add), stop⟩ :: rest :=
      hmore.trans (List.suffix_cons _ rest)
    rw [concatenationRest, hparse]
    simp only [Parsed.leaves_widen]
    exact (ihmore (h.append hleft hright)
      fun item hitem => hitems item (hsuffix.subset hitem)).mono hsuffix
  · intro left items hadd hleft hitems
    rw [concatenationRest]
    · exact ⟨hleft, List.suffix_rfl⟩
    · exact hadd
  -- an atom
  · intro s stop rest hitems
    rw [atom]
    exact ⟨h.literal s, List.suffix_cons _ rest⟩
  · intro name args closed stop rest hitems
    rw [atom]
    exact ⟨h.call (List.forall_mem_cons.mp hitems).1, List.suffix_cons _ rest⟩
  · intro stop rest ih hitems
    have hrest := (List.forall_mem_cons.mp hitems).2
    rw [atom, Parsed.leaves_widen]
    have hinner : ((concatenation ending rest).closing ending .syntaxError none thenFail).Leaves
        good rest :=
      (ih hrest).closing hrest fun _ _ htree hleft => h.unexpected htree hleft (by simp) none
    exact hinner.mono (List.suffix_cons _ rest)
  · intro name stop rest hitems
    have hrest := (List.forall_mem_cons.mp hitems).2
    rw [atom, named]
    split
    · exact h.noOperand hrest
    · exact ⟨h.value name hrest, List.suffix_cons _ rest⟩
  -- an atom that takes nothing
  · intro items _ _ _ _ hitems
    rw [atom]
    · exact nothing_leaves h items
    all_goals assumption

/-- Behind a good segment come good segments. -/
theorem sequenceRest_leaves {ending : Ending} (h : Builds ending word good) {first : TextTree}
    {items : List Item} (hfirst : good first) (hitems : ∀ item ∈ items, word item) :
    (sequenceRest ending first items).Leaves good items := by
  fun_induction sequenceRest ending first items with
  | case1 first stop rest second hparse =>
    have hsecond := (parse_leaves h).1 rest (List.forall_mem_cons.mp hitems).2
    rw [hparse] at hsecond
    exact h.sequence hfirst hsecond
  | case2 first stop rest second more fits hparse ih =>
    have hsecond := (parse_leaves h).1 rest (List.forall_mem_cons.mp hitems).2
    rw [hparse] at hsecond
    obtain ⟨hsecond, hmore⟩ := hsecond
    have hsuffix : more <:+ ⟨.token .semicolon, stop⟩ :: rest :=
      hmore.trans (List.suffix_cons _ rest)
    rw [Parsed.leaves_widen]
    exact (ih (h.sequence hfirst hsecond)
      fun item hitem => hitems item (hsuffix.subset hitem)).mono hsuffix
  | case3 first items hsemicolon => exact ⟨hfirst, List.suffix_rfl⟩

theorem good_ofOutline {o : Outline} (h : Builds o.ending word good)
    (hitems : ∀ item ∈ o.items, word item) : good (ofOutline o) := by
  have hparse := (parse_leaves h).1 o.items hitems
  unfold ofOutline
  match hfirst : concatenation o.ending o.items with
  | .stuck tree =>
    rw [hfirst] at hparse
    exact hparse
  | .done first rest fits =>
    rw [hfirst] at hparse
    obtain ⟨hgood, hrest⟩ := hparse
    have hmore := sequenceRest_leaves h hgood fun item hitem => hitems item (hrest.subset hitem)
    dsimp only
    match hsequence : sequenceRest o.ending first rest with
    | .stuck tree =>
      rw [hsequence] at hmore
      exact hmore
    | .done tree rest' fits' =>
      rw [hsequence] at hmore
      obtain ⟨htree, hrest'⟩ := hmore
      dsimp only
      split
      · exact htree
      · exact h.unexpected htree
          (fun item hitem => hitems item ((hrest'.trans hrest).subset hitem)) (by simp) _

/-- Places and arguments of the items are those of a tree built of them. -/
theorem builds_within {ending : Ending} (hending : ending.Within limit) :
    Builds ending (Item.Within limit isArg) (TextTree.Within limit isArg) where
  literal _ := trivial
  value _ _ hrest := hending.lookAhead hrest
  call hitem := hitem.symbol
  append hleft hright := ⟨hleft, hright⟩
  sequence hfirst hsecond := ⟨hfirst, hsecond⟩
  noOperand hrest := hending.noOperand hrest
  unexpected h _ hrest _ hkind identifier := ⟨h, hending.unexpected hrest hkind identifier⟩

/-- A tree has the places and arguments of the items, and what is left is an end of them. -/
theorem within_parse {ending : Ending} (hending : ending.Within limit) :
    (∀ items, (∀ item ∈ items, item.Within limit isArg) →
      (concatenation ending items).Leaves (TextTree.Within limit isArg) items) ∧
    (∀ left items, left.Within limit isArg → (∀ item ∈ items, item.Within limit isArg) →
      (concatenationRest ending left items).Leaves (TextTree.Within limit isArg) items) ∧
    (∀ items, (∀ item ∈ items, item.Within limit isArg) →
      (atom ending items).Leaves (TextTree.Within limit isArg) items) :=
  parse_leaves (builds_within hending)

theorem within_ofOutline {o : Outline} (h : o.Within limit isArg) :
    (ofOutline o).Within limit isArg :=
  good_ofOutline (builds_within h.ending) h.items

/-- The tree of a formula has places within its length and the arguments of its outline. -/
theorem within_ofFormula (formula : String) :
    (ofFormula formula).Within formula.length
      (· ∈ (Outline.ofText (fun _ => false) formula).arguments) :=
  within_ofOutline (Outline.within_ofText _ formula)

end TextTree

end Formulae.Grammar
