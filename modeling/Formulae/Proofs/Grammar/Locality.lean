import Formulae.Proofs.Grammar.Derivation

/-!
# The parser looks one item ahead

What the parser makes of a part of a formula depends on the items that it takes, and of what follows
them on one thing only: that it does not belong to the part. So a part is parsed in the same way
wherever it stands, in front of a closing parenthesis as at the end of a formula. Only the places
differ at which names and calls would be blamed; trees and items are compared without them.

`Part` says this of the words of a part together with what they are parsed into. Parts are put
together as the grammar says, so that for one that is made of known parts nothing has to be parsed.

Main results:

* `Part.chain` with `Onward.join`, `Part.prefixed`, `Part.power` — the parts made with operators.
* `Part.parens`, `Part.apply` — the parts made with parentheses.
-/

namespace Formulae.Grammar

open NumericTree

-- ---------------------------------------------------------------------------
-- The parser's tables are those of the grammar
-- ---------------------------------------------------------------------------

/-- The tree that a sign joins two trees to. -/
def Joint.tree : Joint → NumericTree → NumericTree → NumericTree
  | keepLast => .sequence
  | apply op => .binary op

/-- What the parser chains at a level are the signs of the level. -/
theorem joiner?_eq_some_iff {level : Level} {t : Token}
    {join : NumericTree → NumericTree → NumericTree} :
    (Symbol.token t).joiner? level = some join ↔
      ∃ joint, (t, joint) ∈ level.signs ∧ join = joint.tree := by
  constructor
  · intro h
    cases t with
    | semicolon =>
      cases level <;> simp [Symbol.joiner?] at h
      exact ⟨.keepLast, by simp [Level.signs], h.symm⟩
    | operator op =>
      cases level <;> cases op <;>
        simp only [Symbol.joiner?, Operator.chained?, Option.map_some, Option.map_none,
          Option.some.injEq, reduceCtorEq] at h <;>
        exact ⟨.apply _, by simp [Level.signs], h.symm⟩
    | _ => simp [Symbol.joiner?] at h
  · rintro ⟨joint, h, rfl⟩
    cases level <;>
      simp only [Level.signs, List.mem_cons, List.not_mem_nil, or_false, Prod.mk.injEq] at h
    case sequence =>
      obtain ⟨rfl, rfl⟩ := h
      rfl
    case bitwise => rcases h with ⟨rfl, rfl⟩ | ⟨rfl, rfl⟩ | ⟨rfl, rfl⟩ <;> rfl
    case comparison =>
      rcases h with ⟨rfl, rfl⟩ | ⟨rfl, rfl⟩ | ⟨rfl, rfl⟩ | ⟨rfl, rfl⟩ | ⟨rfl, rfl⟩ | ⟨rfl, rfl⟩ <;>
        rfl
    case additive => rcases h with ⟨rfl, rfl⟩ | ⟨rfl, rfl⟩ <;> rfl
    case multiplicative =>
      rcases h with ⟨rfl, rfl⟩ | ⟨rfl, rfl⟩ | ⟨rfl, rfl⟩ | ⟨rfl, rfl⟩ <;> rfl

/-- What the parser takes for an operator before an operand is one. -/
theorem prefix?_eq_some_iff {t : Token} {op : PrefixOperation} :
    (Symbol.token t).prefix? = some op ↔ (t, op) ∈ prefixSigns := by
  simp only [prefixSigns, List.mem_cons, List.not_mem_nil, or_false, Prod.mk.injEq]
  constructor
  · intro h
    cases t with
    | operator operator =>
      cases operator <;> simp_all [Symbol.prefix?, Operator.prefix?]
    | _ => simp [Symbol.prefix?] at h
  · rintro (⟨rfl, rfl⟩ | ⟨rfl, rfl⟩ | ⟨rfl, rfl⟩ | ⟨rfl, rfl⟩) <;> rfl

theorem isPower_iff {t : Token} : (Symbol.token t).isPower = true ↔ t = .operator .power := by
  cases t with
  | operator op => cases op <;> simp [Symbol.isPower]
  | _ => simp [Symbol.isPower]

-- ---------------------------------------------------------------------------
-- The parser of a part
-- ---------------------------------------------------------------------------

/-- The parser of a part. -/
def parse (ending : Ending) : Category → (items : List Item) → Parsed NumericTree items.length
  | .chain level => chain ending level
  | .unary => unary ending
  | .power => power ending
  | .term => term ending

theorem Level.operand_of_tighter {level next : Level} (h : level.tighter? = some next) :
    level.operand = .chain next := by
  cases level <;> simp_all [Level.tighter?, Level.operand]

theorem Level.operand_of_tightest {level : Level} (h : level.tighter? = none) :
    level.operand = .unary := by
  cases level <;> simp_all [Level.tighter?, Level.operand]

/-- The operands of a chain are parsed as parts of their own category. -/
theorem operand_eq_parse (ending : Ending) (level : Level) (items : List Item) :
    operand ending level items = parse ending level.operand items := by
  rw [operand]
  cases level <;> rfl

-- ---------------------------------------------------------------------------
-- Without places
-- ---------------------------------------------------------------------------

/-- A symbol without its place. -/
def Symbol.unplaced : Symbol → Symbol
  | token t => token t
  | call name args _ => call name args 0

/-- What items say, wherever they were read. -/
def words (items : List Item) : List Symbol :=
  items.map fun item => item.symbol.unplaced

@[simp] theorem words_nil : words [] = [] := rfl

@[simp] theorem words_cons (item : Item) (items : List Item) :
    words (item :: items) = item.symbol.unplaced :: words items := rfl

theorem words_eq_nil {items : List Item} : words items = [] ↔ items = [] :=
  List.map_eq_nil_iff

theorem words_eq_cons {items : List Item} {s : Symbol} {ss : List Symbol} :
    words items = s :: ss ↔
      ∃ item rest, items = item :: rest ∧ item.symbol.unplaced = s ∧ words rest = ss :=
  List.map_eq_cons_iff

namespace Symbol

@[simp] theorem joiner?_unplaced (s : Symbol) (level : Level) :
    s.unplaced.joiner? level = s.joiner? level := by
  cases s <;> rfl

@[simp] theorem prefix?_unplaced (s : Symbol) : s.unplaced.prefix? = s.prefix? := by
  cases s <;> rfl

@[simp] theorem isPower_unplaced (s : Symbol) : s.unplaced.isPower = s.isPower := by
  cases s <;> rfl

theorem unplaced_eq_token {s : Symbol} {t : Token} : s.unplaced = .token t ↔ s = .token t := by
  cases s <;> simp [unplaced]

theorem isClosing_iff {s : Symbol} : s.isClosing = true ↔ s = .token .rightParen := by
  cases s with
  | token t => cases t <;> simp [isClosing]
  | call => simp [isClosing]

end Symbol

/-- Words begin with a token where the items do. -/
theorem words_eq_token {items : List Item} {t : Token} {ss : List Symbol} :
    words items = .token t :: ss ↔
      ∃ stop rest, items = ⟨.token t, stop⟩ :: rest ∧ words rest = ss := by
  rw [words_eq_cons]
  constructor
  · rintro ⟨⟨symbol, stop⟩, rest, rfl, hsymbol, hrest⟩
    obtain rfl := Symbol.unplaced_eq_token.mp hsymbol
    exact ⟨stop, rest, rfl, hrest⟩
  · rintro ⟨stop, rest, rfl, hrest⟩
    exact ⟨_, rest, rfl, rfl, hrest⟩

/-- And with a call where the items begin with it, wherever it is closed. -/
theorem words_eq_call {items : List Item} {name : String} {args : List String} {ss : List Symbol} :
    words items = .call name args 0 :: ss ↔
      ∃ closed stop rest, items = ⟨.call name args closed, stop⟩ :: rest ∧ words rest = ss := by
  rw [words_eq_cons]
  constructor
  · rintro ⟨⟨symbol, stop⟩, rest, rfl, hsymbol, hrest⟩
    cases symbol with
    | token t => simp [Symbol.unplaced] at hsymbol
    | call name' args' closed =>
      obtain ⟨rfl, rfl, -⟩ := Symbol.call.inj hsymbol
      exact ⟨closed, stop, rest, rfl, hrest⟩
  · rintro ⟨closed, stop, rest, rfl, hrest⟩
    exact ⟨_, rest, rfl, rfl, hrest⟩

/-- A tree without the places of its names and calls. -/
def NumericTree.unplaced : NumericTree → NumericTree
  | number x => number x
  | value name _ => value name 0
  | call name args _ => call name args 0
  | apply f operand => apply f operand.unplaced
  | prefixed op operand => prefixed op operand.unplaced
  | binary op left right => binary op left.unplaced right.unplaced
  | sequence first second => sequence first.unplaced second.unplaced
  | failure c => failure { c with position := 0 }

theorem NumericTree.unplaced_eq_number {tree : NumericTree} {x : Float} :
    tree.unplaced = number x ↔ tree = number x := by
  cases tree <;> simp [unplaced]

/-- No failure stands in a tree. -/
def NumericTree.isWhole : NumericTree → Bool
  | number _ | value _ _ | call _ _ _ => true
  | apply _ operand => operand.isWhole
  | prefixed _ operand => operand.isWhole
  | binary _ left right => left.isWhole && right.isWhole
  | sequence first second => first.isWhole && second.isWhole
  | failure _ => false

namespace Joint

@[simp] theorem unplaced_tree (joint : Joint) (left right : NumericTree) :
    (joint.tree left right).unplaced = joint.tree left.unplaced right.unplaced := by
  cases joint <;> rfl

@[simp] theorem isWhole_tree (joint : Joint) (left right : NumericTree) :
    (joint.tree left right).isWhole = (left.isWhole && right.isWhole) := by
  cases joint <;> rfl

end Joint

/-- A joining symbol is a sign of the level. -/
theorem Symbol.exists_sign {level : Level} {s : Symbol}
    {join : NumericTree → NumericTree → NumericTree} (h : s.joiner? level = some join) :
    ∃ t joint, s = .token t ∧ (t, joint) ∈ level.signs ∧ join = joint.tree := by
  cases s with
  | token t =>
    obtain ⟨joint, known, hjoin⟩ := joiner?_eq_some_iff.mp h
    exact ⟨t, joint, rfl, known, hjoin⟩
  | call => simp [joiner?] at h

-- ---------------------------------------------------------------------------
-- What does not belong to a part
-- ---------------------------------------------------------------------------

def Symbol.tightness? : Symbol → Option Nat
  | token t => t.tightness?
  | call _ _ _ => none

/-- What follows does not belong to a part of a formula before it: no sign that binds tightly
enough, no parenthesis that makes a call of a name, and no literal without an end. -/
structure Separate (c : Category) (ending : Ending) (us : List Symbol) : Prop where
  loose : ∀ s ∈ us.head?, ∀ n ∈ s.tightness?, n < c.tightness
  uncalled : us.head? ≠ some (.token .leftParen)
  closed : us = [] → ending.cause ≠ .openLiteral

namespace Separate

variable {c c' : Category} {level : Level} {ending : Ending} {us : List Symbol} {s : Symbol}

theorem nil (h : ending.cause ≠ .openLiteral) : Separate c ending [] :=
  ⟨by simp, by simp, fun _ => h⟩

theorem rightParen : Separate c ending (.token .rightParen :: us) :=
  ⟨by simp [Symbol.tightness?, Token.tightness?], by simp, by simp⟩

theorem operator {op : Operator} (h : ∀ n ∈ op.tightness?, n < c.tightness) :
    Separate c ending (.token (.operator op) :: us) :=
  ⟨by simpa [Symbol.tightness?, Token.tightness?] using h, by simp, by simp⟩

/-- What does not belong to a part does not belong to one that binds more tightly. -/
theorem mono (h : Separate c ending us) (hc : c.tightness ≤ c'.tightness) :
    Separate c' ending us :=
  ⟨fun s hs n hn => Nat.lt_of_lt_of_le (h.loose s hs n hn) hc, h.uncalled, h.closed⟩

/-- A chain goes on with a sign of its level, which does not belong to the operand before it. -/
theorem joiner {join : NumericTree → NumericTree → NumericTree} (h : s.joiner? level = some join) :
    Separate level.operand ending (s :: us) := by
  obtain ⟨t, joint, rfl, known, -⟩ := Symbol.exists_sign h
  refine ⟨fun s hs n hn => ?_, ?_, by simp⟩
  · obtain rfl := Option.some.inj hs
    rw [Symbol.tightness?, Level.tightness_sign known] at hn
    obtain rfl := Option.some.inj hn
    rw [Level.tightness_operand]
    exact Nat.lt_succ_self _
  · intro hparen
    have ht : t = .leftParen := Symbol.token.inj (Option.some.inj hparen)
    have htight := Level.tightness_sign known
    rw [ht] at htight
    exact absurd htight (by simp [Token.tightness?])

/-- Behind a chain stands no sign of its level. -/
theorem joiner?_eq_none (h : Separate (.chain level) ending (s :: us)) :
    s.joiner? level = none := by
  cases hjoin : s.joiner? level with
  | none => rfl
  | some join =>
    obtain ⟨t, joint, rfl, known, -⟩ := Symbol.exists_sign hjoin
    have hlt := h.loose _ rfl level.tightness (Level.tightness_sign known)
    exact absurd hlt (Nat.lt_irrefl _)

theorem isPower_eq_false (h : Separate .power ending (s :: us)) : s.isPower = false := by
  cases hpower : s.isPower with
  | false => rfl
  | true =>
    cases s with
    | token t =>
      obtain rfl := isPower_iff.mp hpower
      exact absurd (h.loose _ rfl 5 rfl) (Nat.lt_irrefl 5)
    | call => simp [Symbol.isPower] at hpower

/-- A power sign does not belong to the base before it. -/
theorem power (h : s.isPower = true) : Separate .term ending (s :: us) := by
  cases s with
  | token t =>
    obtain rfl := isPower_iff.mp h
    exact operator (by simp [Operator.tightness?]; decide)
  | call => simp [Symbol.isPower] at h

end Separate

-- ---------------------------------------------------------------------------
-- Parts that are closed in themselves
-- ---------------------------------------------------------------------------

/-- A word that is neither a parenthesis nor a literal. -/
def Symbol.isPlain : Symbol → Bool
  | token .leftParen | token .rightParen | token (.text _) => false
  | _ => true

/-- Words without literals in which parentheses nest. -/
inductive Closed : List Symbol → Prop
  | nil : Closed []
  | single {s : Symbol} (h : s.isPlain = true) : Closed [s]
  | append {front back : List Symbol} (hfront : Closed front) (hback : Closed back) :
      Closed (front ++ back)
  | parens {inner : List Symbol} (hinner : Closed inner) :
      Closed (.token .leftParen :: (inner ++ [.token .rightParen]))

/-- A plain symbol in front of what is closed in itself leaves it so. -/
theorem Closed.cons {s : Symbol} {ss : List Symbol} (h : s.isPlain = true) (hss : Closed ss) :
    Closed (s :: ss) :=
  (Closed.single h).append hss

theorem Symbol.isPlain_joiner {level : Level} {s : Symbol}
    {join : NumericTree → NumericTree → NumericTree} (h : s.joiner? level = some join) :
    s.isPlain = true := by
  obtain ⟨t, joint, rfl, known, -⟩ := exists_sign h
  have htight := Level.tightness_sign known
  cases t <;> first | rfl | simp [Token.tightness?] at htight

theorem Symbol.isPlain_prefix {s : Symbol} {op : PrefixOperation} (h : s.prefix? = some op) :
    s.isPlain = true := by
  cases s with
  | token t => cases t <;> first | rfl | simp [prefix?] at h
  | call => rfl

theorem Symbol.isPlain_power {s : Symbol} (h : s.isPower = true) : s.isPlain = true := by
  cases s with
  | token t =>
    obtain rfl := isPower_iff.mp h
    rfl
  | call => rfl

-- ---------------------------------------------------------------------------
-- What a parser gives
-- ---------------------------------------------------------------------------

namespace Parsed

variable {small large : Nat} {tree : NumericTree} {us : List Symbol}

/-- The parser has made this tree, and has left items that say this. -/
def Gives (tree : NumericTree) (us : List Symbol) : Parsed NumericTree large → Prop
  | done t rest _ => t.unplaced = tree ∧ words rest = us
  | stuck _ => False

@[simp] theorem gives_widen (h : small ≤ large) (p : Parsed NumericTree small) :
    (p.widen h).Gives tree us ↔ p.Gives tree us := by
  cases p <;> rfl

theorem Gives.exists_done {p : Parsed NumericTree large} (h : p.Gives tree us) :
    ∃ t rest fits, p = .done t rest fits ∧ t.unplaced = tree ∧ words rest = us := by
  cases p with
  | done t rest fits => exact ⟨t, rest, fits, rfl, h⟩
  | stuck t => exact h.elim

/-- A tree may be changed, with the same left behind it. -/
theorem Gives.map {p : Parsed NumericTree large} (h : p.Gives tree us)
    {f : NumericTree → NumericTree} {tree' : NumericTree}
    (hf : ∀ t, t.unplaced = tree → (f t).unplaced = tree') : (p.map f).Gives tree' us := by
  obtain ⟨t, rest, fits, rfl, ht, hrest⟩ := h.exists_done
  exact ⟨hf t ht, hrest⟩

/-- A tree with its parenthesis behind it is given in front of the rest. -/
theorem Gives.closing {p : Parsed NumericTree large} (h : p.Gives tree (.token .rightParen :: us))
    (ending : Ending) (kind : ErrorKind) (identifier : Option String) :
    (p.closing ending kind identifier thenFail).Gives tree us := by
  obtain ⟨t, rest, fits, rfl, ht, hrest⟩ := h.exists_done
  obtain ⟨item, more, rfl, hitem, hmore⟩ := words_eq_cons.mp hrest
  have hclosing : item.symbol.isClosing = true :=
    Symbol.isClosing_iff.mpr (Symbol.unplaced_eq_token.mp hitem)
  rw [Parsed.closing, if_pos hclosing]
  exact ⟨ht, hmore⟩

end Parsed

-- ---------------------------------------------------------------------------
-- Parts
-- ---------------------------------------------------------------------------

/-- Words that are closed in themselves and are parsed into this tree wherever they stand, in front
of anything that does not belong to them. -/
structure Part (c : Category) (front : List Symbol) (tree : NumericTree) : Prop where
  closed : Closed front
  parsed {ending : Ending} {items : List Item} {us : List Symbol}
    (hitems : words items = front ++ us) (hus : Separate c ending us) :
    (parse ending c items).Gives tree us

/-- Words with which a chain goes on behind a tree. -/
structure Onward (level : Level) (left : NumericTree) (front : List Symbol) (tree : NumericTree) :
    Prop where
  closed : Closed front
  separate {ending : Ending} {us : List Symbol} (hus : Separate (.chain level) ending us) :
    Separate level.operand ending (front ++ us)
  parsed {ending : Ending} {left' : NumericTree} {items : List Item} {us : List Symbol}
    (hleft : left'.unplaced = left) (hitems : words items = front ++ us)
    (hus : Separate (.chain level) ending us) : (chainRest ending level left' items).Gives tree us

variable {level : Level} {front front' : List Symbol} {tree tree' left : NumericTree}

/-- A chain may go on with nothing. -/
theorem Onward.done : Onward level left [] left where
  closed := .nil
  separate hus := by
    rw [List.nil_append]
    exact hus.mono (by rw [Level.tightness_operand]; exact Nat.le_succ _)
  parsed {ending left' items us} hleft hitems hus := by
    rw [List.nil_append] at hitems
    subst hitems
    cases items with
    | nil =>
      rw [chainRest]
      exact ⟨hleft, rfl⟩
    | cons item rest =>
      have hnone := hus.joiner?_eq_none
      rw [Symbol.joiner?_unplaced] at hnone
      rw [chainRest]
      simp only [hnone]
      exact ⟨hleft, rfl⟩

/-- Or with a sign, an operand, and whatever follows those. -/
theorem Onward.join {t : Token} {joint : Joint} (known : (t, joint) ∈ level.signs)
    (hoperand : Part level.operand front tree)
    (hmore : Onward level (joint.tree left tree) front' tree') :
    Onward level left (.token t :: (front ++ front')) tree' where
  closed := .cons (Symbol.isPlain_joiner (joiner?_eq_some_iff.mpr ⟨joint, known, rfl⟩))
    (hoperand.closed.append hmore.closed)
  separate _ := Separate.joiner (joiner?_eq_some_iff.mpr ⟨joint, known, rfl⟩)
  parsed hleft hitems hus := by
    rw [List.cons_append, List.append_assoc] at hitems
    obtain ⟨stop, rest, rfl, hrest⟩ := words_eq_token.mp hitems
    obtain ⟨right, more, fits, hparse, hright, hwords⟩ :=
      (hoperand.parsed hrest (hmore.separate hus)).exists_done
    rw [chainRest]
    simp only [joiner?_eq_some_iff.mpr ⟨joint, known, rfl⟩, operand_eq_parse, hparse,
      Parsed.gives_widen]
    refine hmore.parsed ?_ hwords hus
    rw [Joint.unplaced_tree, hleft, hright]

namespace Part

/-- A chain is an operand and what it goes on with. -/
theorem chain (hfirst : Part level.operand front left) (hmore : Onward level left front' tree) :
    Part (.chain level) (front ++ front') tree where
  closed := hfirst.closed.append hmore.closed
  parsed hitems hus := by
    rw [List.append_assoc] at hitems
    obtain ⟨first, rest, fits, hparse, hleft, hrest⟩ :=
      (hfirst.parsed hitems (hmore.separate hus)).exists_done
    rw [parse, NumericTree.chain, operand_eq_parse, hparse]
    simp only [Parsed.gives_widen]
    exact hmore.parsed hleft hrest hus

/-- A sign in front of an operand. -/
theorem prefixed {s : Symbol} {op : PrefixOperation} (hs : s.prefix? = some op)
    (hoperand : Part .unary front tree) : Part .unary (s :: front) (.prefixed op tree) where
  closed := .cons (Symbol.isPlain_prefix hs) hoperand.closed
  parsed hitems hus := by
    obtain ⟨⟨symbol, stop⟩, rest, rfl, rfl, hrest⟩ := words_eq_cons.mp hitems
    rw [Symbol.prefix?_unplaced] at hs
    rw [parse, unary]
    simp only [hs, Parsed.gives_widen]
    refine (hoperand.parsed hrest hus).map fun t ht => ?_
    rw [unplaced, ht]

/-- A power does not begin with nothing. -/
theorem ne_nil (h : Part .power front tree) : front ≠ [] := by
  rintro rfl
  have hnone := @h.parsed ⟨.complete, 0⟩ [] [] rfl (.nil (by simp))
  rw [parse, power, term] at hnone
  · exact hnone
  all_goals simp

/-- An operand without a sign in front of it. -/
theorem unprefixed (hpower : Part .power front tree) (hhead : ∀ s ∈ front.head?, s.prefix? = none) :
    Part .unary front tree where
  closed := hpower.closed
  parsed hitems hus := by
    obtain ⟨s, ss, rfl⟩ := List.exists_cons_of_ne_nil hpower.ne_nil
    have hgives := hpower.parsed hitems (hus.mono (Nat.le_refl _))
    obtain ⟨⟨symbol, stop⟩, rest, rfl, rfl, hrest⟩ := words_eq_cons.mp hitems
    have hsymbol := hhead _ rfl
    rw [Symbol.prefix?_unplaced] at hsymbol
    rw [parse, unary]
    simp only [hsymbol]
    exact hgives

/-- A power may be its base alone. -/
theorem base (hterm : Part .term front tree) : Part .power front tree where
  closed := hterm.closed
  parsed {ending items us} hitems hus := by
    obtain ⟨base, rest, fits, hparse, hbase, hrest⟩ :=
      (hterm.parsed hitems (hus.mono (by decide))).exists_done
    rw [parse, NumericTree.power, show NumericTree.term ending items = _ from hparse]
    cases rest with
    | nil => exact ⟨hbase, hrest⟩
    | cons item rest =>
      -- no power goes on behind it
      obtain rfl := hrest
      have hitem := hus.isPower_eq_false
      rw [Symbol.isPower_unplaced] at hitem
      simp only [hitem, Bool.false_eq_true, if_false]
      exact ⟨hbase, rfl⟩

/-- Or a base and an exponent. -/
theorem power {s : Symbol} (hs : s.isPower = true) (hbase : Part .term front tree)
    (hexponent : Part .term front' tree') :
    Part .power (front ++ s :: front') (.binary .power tree tree') where
  closed := hbase.closed.append (.cons (Symbol.isPlain_power hs) hexponent.closed)
  parsed {ending items us} hitems hus := by
    rw [List.append_assoc, List.cons_append] at hitems
    obtain ⟨base, rest, fits, hparse, hbase, hrest⟩ :=
      (hbase.parsed hitems (.power hs)).exists_done
    obtain ⟨⟨symbol, stop⟩, more, rfl, rfl, hmore⟩ := words_eq_cons.mp hrest
    rw [Symbol.isPower_unplaced] at hs
    rw [parse, NumericTree.power, show NumericTree.term ending items = _ from hparse]
    simp only [hs, if_true, Parsed.gives_widen]
    refine (hexponent.parsed hmore (hus.mono (by decide))).map fun t ht => ?_
    rw [unplaced, hbase, ht]

/-! ## Terms -/

theorem integer (n : Nat) : Part .term [.token (.integer n)] (.number (Float.ofNat n)) where
  closed := .single rfl
  parsed hitems hus := by
    obtain ⟨stop, rest, rfl, hrest⟩ := words_eq_token.mp hitems
    rw [parse, term]
    exact ⟨rfl, hrest⟩

theorem double (x : Float) : Part .term [.token (.double x)] (.number x) where
  closed := .single rfl
  parsed hitems hus := by
    obtain ⟨stop, rest, rfl, hrest⟩ := words_eq_token.mp hitems
    rw [parse, term]
    exact ⟨rfl, hrest⟩

/-- A call is one symbol. -/
theorem call (name : String) (args : List String) :
    Part .term [.call name args 0] (.call name args 0) where
  closed := .single rfl
  parsed hitems hus := by
    obtain ⟨closed, stop, rest, rfl, hrest⟩ := words_eq_call.mp hitems
    rw [parse, term]
    exact ⟨rfl, hrest⟩

/-- A name that is not followed by a parenthesis. -/
theorem named (name : String) : Part .term [.token (.identifier name)] (.value name 0) where
  closed := .single rfl
  parsed {ending items us} hitems hus := by
    obtain ⟨stop, rest, rfl, hrest⟩ := words_eq_token.mp hitems
    obtain rfl : words rest = us := hrest
    -- the parser looks whether there is a call
    have hparen : ∀ stop inner, rest = ⟨.token .leftParen, stop⟩ :: inner → False := by
      rintro stop inner rfl
      exact hus.uncalled rfl
    have hopen : ending.isOpenLiteral rest = false := by
      cases rest with
      | nil => simpa [Ending.isOpenLiteral] using hus.closed rfl
      | cons => rfl
    rw [parse, term]
    · rw [NumericTree.named, if_neg (by simp [hopen])]
      exact ⟨rfl, rfl⟩
    · exact hparen

/-- A formula in parentheses. -/
theorem parens (hinner : Part (.chain .sequence) front tree) :
    Part .term (.token .leftParen :: (front ++ [.token .rightParen])) tree where
  closed := hinner.closed.parens
  parsed hitems hus := by
    rw [List.cons_append, List.append_assoc] at hitems
    obtain ⟨stop, rest, rfl, hrest⟩ := words_eq_token.mp hitems
    rw [parse, term, Parsed.gives_widen]
    exact (hinner.parsed hrest .rightParen).closing _ _ _

/-- A function that takes the operand in the parentheses behind it. -/
theorem apply {name : String} {f : MathFunction} (hname : MathFunction.ofName? name = some f)
    (hinner : Part (.chain .bitwise) front tree) :
    Part .term (.token (.identifier name) :: .token .leftParen :: (front ++ [.token .rightParen]))
      (.apply f tree) where
  closed := .cons rfl hinner.closed.parens
  parsed hitems hus := by
    rw [List.cons_append, List.cons_append, List.append_assoc] at hitems
    obtain ⟨stop, rest, rfl, hrest⟩ := words_eq_token.mp hitems
    obtain ⟨stop', inner, rfl, hinner'⟩ := words_eq_token.mp hrest
    rw [parse, term]
    simp only [hname, Parsed.gives_widen]
    refine ((hinner.parsed hinner' .rightParen).closing _ _ _).map fun t ht => ?_
    rw [unplaced, ht]

end Part

end Formulae.Grammar
