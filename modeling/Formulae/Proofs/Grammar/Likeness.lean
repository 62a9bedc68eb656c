import Formulae.Proofs.Grammar.Reading

/-!
# Formulas that are alike

What a parser makes of a text depends on where the text stands only in the places that it notes.
Here that is said of everything that can be read: of texts that end too early, of items that do not
fit, and of trees that hold failures. Two outlines are alike if their words are the same, and they
end for the same reason; then so are the trees made of them.

A parser may also be given more, a semicolon or a closing parenthesis and what follows it. What it
has taken of the items before it then takes from them, too, and only where it got stuck it may go
on. `Parsed.Extends` says both.

Main results:

* `Outline.readFrom_alike` — a text is read alike wherever it stands.
* `NumericTree.parse_extends` — numeric formulas are parsed alike if their words are the same.
* `TextTree.parse_extends` — text formulas are parsed alike, also in front of a semicolon or a
  closing parenthesis.
-/

namespace Formulae.Grammar

-- ---------------------------------------------------------------------------
-- Endings
-- ---------------------------------------------------------------------------

/-- The reason for an ending without the place. -/
def EndCause.unplaced : EndCause → EndCause
  | openCall name _ => openCall name 0
  | cause => cause

/-- Endings for the same reason. -/
def Ending.Alike (e e' : Ending) : Prop :=
  e.cause.unplaced = e'.cause.unplaced

def Complaint.unplaced (c : Complaint) : Complaint :=
  { c with position := 0 }

namespace Ending.Alike

variable {e e' : Ending} {items items' : List Item}

/-- Alike outlines end for the same reason, unless a call is open. -/
theorem cause_eq_iff (h : e.Alike e') {cause : EndCause}
    (hcause : ∀ name length, cause ≠ .openCall name length) :
    e.cause = cause ↔ e'.cause = cause := by
  have hunplaced : ∀ c : EndCause, c = cause ↔ c.unplaced = cause := by
    intro c
    cases c with
    | openCall name length =>
      exact iff_of_false (fun hc => hcause _ _ hc.symm) fun hc => hcause _ _ hc.symm
    | complete | unreadable | openLiteral => rfl
  rw [hunplaced, hunplaced e'.cause, show e.cause.unplaced = _ from h]

theorem isOpenLiteral (h : e.Alike e') (hwords : words items' = words items) :
    e'.isOpenLiteral items' = e.isOpenLiteral items := by
  have hempty : items'.isEmpty = items.isEmpty := by
    rw [Bool.eq_iff_iff, List.isEmpty_iff, List.isEmpty_iff, ← words_eq_nil, hwords, words_eq_nil]
  have hcause : e.cause = .openLiteral ↔ e'.cause = .openLiteral := h.cause_eq_iff (by simp)
  rw [Ending.isOpenLiteral, Ending.isOpenLiteral, hempty, Bool.eq_iff_iff]
  simp [hcause]

/-- Alike complaints follow where the same words are left. -/
theorem unexpected (h : e.Alike e') (hwords : words items' = words items) (kind : ErrorKind)
    (identifier : Option String) :
    (e'.unexpected items' kind identifier).unplaced =
      (e.unexpected items kind identifier).unplaced := by
  rw [Ending.unexpected, Ending.unexpected, h.isOpenLiteral hwords]
  split <;> rfl

/-- So do those about an operand that is missing. -/
theorem noOperand (h : e.Alike e') (hwords : words items' = words items) :
    (e'.noOperand items').unplaced = (e.noOperand items).unplaced := by
  cases items with
  | cons item rest =>
    obtain ⟨item', rest', rfl, -⟩ := words_eq_cons.mp hwords
    exact h.unexpected hwords .syntaxError none
  | nil =>
    obtain rfl := words_eq_nil.mp hwords
    have hunexpected := h.unexpected hwords .syntaxError none
    obtain ⟨cause, stop⟩ := e
    obtain ⟨cause', stop'⟩ := e'
    cases cause <;> cases cause' <;> simp only [Ending.Alike, EndCause.unplaced, reduceCtorEq] at h
    case openCall.openCall =>
      obtain ⟨rfl, -⟩ := EndCause.openCall.inj h
      rfl
    all_goals exact hunexpected

end Ending.Alike

namespace Symbol

variable {s s' : Symbol}

theorem joiner?_congr (h : s'.unplaced = s.unplaced) (level : Level) :
    s'.joiner? level = s.joiner? level := by
  rw [← joiner?_unplaced, h, joiner?_unplaced]

theorem prefix?_congr (h : s'.unplaced = s.unplaced) : s'.prefix? = s.prefix? := by
  rw [← prefix?_unplaced, h, prefix?_unplaced]

theorem isPower_congr (h : s'.unplaced = s.unplaced) : s'.isPower = s.isPower := by
  rw [← isPower_unplaced, h, isPower_unplaced]

theorem isClosing_congr (h : s'.unplaced = s.unplaced) : s'.isClosing = s.isClosing := by
  rw [Bool.eq_iff_iff, isClosing_iff, isClosing_iff, ← unplaced_eq_token, h, unplaced_eq_token]

end Symbol

-- ---------------------------------------------------------------------------
-- Outlines
-- ---------------------------------------------------------------------------

namespace Outline

/-- Outlines with the same words that end for the same reason. -/
structure Alike (o o' : Outline) : Prop where
  words_eq : words o'.items = words o.items
  ending : o.ending.Alike o'.ending

/-- Alike items are put in front of alike outlines. -/
theorem Alike.push {o o' : Outline} (h : o.Alike o') {item item' : Item}
    (hitem : item'.symbol.unplaced = item.symbol.unplaced) : (o.push item).Alike (o'.push item') :=
  ⟨by rw [Outline.push, Outline.push, words_cons, words_cons, hitem, h.words_eq], h.ending⟩

/-- A text is read alike wherever it stands. -/
theorem readFrom_alike (inPlace : String → Bool) (cs : List Char) (offset offset' : Nat) :
    (readFrom inPlace offset cs).Alike (readFrom inPlace offset' cs) := by
  induction hlen : cs.length using Nat.strongRecOn generalizing cs offset offset' with
  | ind length ih =>
    subst hlen
    match hscan : scan cs with
    | (.token t, rest) =>
      have hlt := length_scan_lt (congrArg Prod.fst hscan)
      rw [hscan] at hlt
      by_cases hplain : ∀ name, t = .identifier name → inPlace name = true ∨ openParen? rest = none
      · rw [readFrom_token hscan hplain, readFrom_token hscan hplain]
        exact (ih rest.length hlt rest _ _ rfl).push rfl
      obtain ⟨name, rfl, hcalled⟩ : ∃ name, t = .identifier name ∧
          ¬ (inPlace name = true ∨ openParen? rest = none) := by
        simpa using hplain
      rw [not_or, Bool.not_eq_true] at hcalled
      obtain ⟨inner, hopen⟩ := Option.ne_none_iff_exists'.mp hcalled.2
      rw [readFrom_call hscan hcalled.1 hopen, readFrom_call hscan hcalled.1 hopen]
      match htake : Arguments.take? inner with
      | none => exact ⟨rfl, rfl⟩
      | some (args, after) =>
        have hinner := (openParen?_suffix hopen).length_le
        have hafter := Nat.lt_of_lt_of_le (Arguments.length_take?_lt htake) hinner
        exact (ih after.length (Nat.lt_trans hafter hlt) after _ _ rfl).push rfl
    | (.finished, rest) | (.openLiteral, rest) | (.unreadable, rest) =>
      rw [readFrom_stopped hscan (by simp), readFrom_stopped hscan (by simp)]
      exact ⟨rfl, rfl⟩

end Outline

-- ---------------------------------------------------------------------------
-- Trees
-- ---------------------------------------------------------------------------

/-- The trees of a grammar, which may stand one after the other, and hold failures. -/
structure Trees (τ : Type) where
  join : τ → τ → τ
  failure : Complaint → τ
  unplaced : τ → τ
  isWhole : τ → Bool
  unplaced_join (first second : τ) :
    unplaced (join first second) = join (unplaced first) (unplaced second)
  unplaced_failure (c : Complaint) : unplaced (failure c) = failure c.unplaced
  isWhole_join (first second : τ) :
    isWhole (join first second) = (isWhole first && isWhole second)
  isWhole_failure (c : Complaint) : isWhole (failure c) = false

variable {τ : Type}

namespace Trees

/-- A tree and a failure after it. -/
def thenFail (T : Trees τ) (tree : τ) (c : Complaint) : τ :=
  T.join tree (T.failure c)

variable (T : Trees τ)

theorem isWhole_thenFail (tree : τ) (c : Complaint) : T.isWhole (T.thenFail tree c) = false := by
  rw [thenFail, isWhole_join, isWhole_failure, Bool.and_false]

theorem unplaced_thenFail {tree tree' : τ} {c c' : Complaint}
    (htree : T.unplaced tree' = T.unplaced tree) (hc : c'.unplaced = c.unplaced) :
    T.unplaced (T.thenFail tree' c') = T.unplaced (T.thenFail tree c) := by
  simp only [thenFail, unplaced_join, unplaced_failure, htree, hc]

end Trees

/-- What may follow where a text goes on: nothing, if both end for the same reason, or a semicolon or
a closing parenthesis. -/
def Ending.Beyond (e e' : Ending) (us : List Symbol) : Prop :=
  us = [] ∧ e.Alike e' ∨ ∃ t vs, (t = .semicolon ∨ t = .rightParen) ∧ us = .token t :: vs

namespace Parsed

variable {T : Trees τ} {us : List Symbol} {small large small' large' : Nat}

/-- With more words behind the items the parser has taken the same, and has left those words, too.
Where it got stuck it also gets stuck if there are no more words. -/
def Extends (T : Trees τ) (us : List Symbol) :
    Parsed τ large → Parsed τ large' → Prop
  | done tree rest _, p' => ∃ tree' rest' fits', p' = .done tree' rest' fits' ∧
      T.unplaced tree' = T.unplaced tree ∧ words rest' = words rest ++ us
  | stuck tree, p' => T.isWhole tree = false ∧
      (us = [] → ∃ tree', p' = .stuck tree' ∧ T.unplaced tree' = T.unplaced tree)

theorem Extends.widen {p : Parsed τ small} {p' : Parsed τ small'} (hp : p.Extends T us p')
    (h : small ≤ large) (h' : small' ≤ large') : (p.widen h).Extends T us (p'.widen h') := by
  cases p with
  | done tree rest fits =>
    obtain ⟨tree', rest', fits', rfl, htree, hrest⟩ := hp
    exact ⟨tree', rest', _, rfl, htree, hrest⟩
  | stuck tree =>
    refine ⟨hp.1, fun hus => ?_⟩
    obtain ⟨tree', rfl, htree⟩ := hp.2 hus
    exact ⟨tree', rfl, htree⟩

/-- Trees that are made others alike leave the same words. -/
theorem Extends.map {p : Parsed τ large} {p' : Parsed τ large'} (hp : p.Extends T us p')
    {f f' : τ → τ}
    (hf : ∀ tree tree', T.unplaced tree' = T.unplaced tree →
      T.unplaced (f' tree') = T.unplaced (f tree))
    (hwhole : ∀ tree, T.isWhole tree = false → T.isWhole (f tree) = false) :
    (p.map f).Extends T us (p'.map f') := by
  cases p with
  | done tree rest fits =>
    obtain ⟨tree', rest', fits', rfl, htree, hrest⟩ := hp
    exact ⟨f' tree', rest', fits', rfl, hf _ _ htree, hrest⟩
  | stuck tree =>
    refine ⟨hwhole _ hp.1, fun hus => ?_⟩
    obtain ⟨tree', rfl, htree⟩ := hp.2 hus
    exact ⟨f' tree', rfl, hf _ _ htree⟩

/-- Behind an inner formula the closing parenthesis is the same, or is missing. -/
theorem Extends.closing {p : Parsed τ large} {p' : Parsed τ large'} (hp : p.Extends T us p')
    {ending ending' : Ending} (hbeyond : ending.Beyond ending' us) (kind : ErrorKind)
    (identifier : Option String) :
    (p.closing ending kind identifier T.thenFail).Extends T us
      (p'.closing ending' kind identifier T.thenFail) := by
  match p with
  | .stuck tree =>
    refine ⟨hp.1, fun hus => ?_⟩
    obtain ⟨tree', rfl, htree⟩ := hp.2 hus
    exact ⟨tree', rfl, htree⟩
  | .done tree [] fits =>
    obtain ⟨tree', rest', fits', rfl, htree, hrest⟩ := hp
    refine ⟨T.isWhole_thenFail _ _, ?_⟩
    rintro rfl
    obtain rfl := words_eq_nil.mp hrest
    obtain ⟨-, halike⟩ | ⟨_, _, -, hnone⟩ := hbeyond
    · exact ⟨_, rfl, T.unplaced_thenFail htree (halike.unexpected hrest kind identifier)⟩
    · simp at hnone
  | .done tree (item :: rest) fits =>
    obtain ⟨tree', rest', fits', rfl, htree, hrest⟩ := hp
    obtain ⟨item', more, rfl, hitem, hmore⟩ := words_eq_cons.mp hrest
    rw [Parsed.closing, Parsed.closing, Symbol.isClosing_congr hitem]
    split
    · exact ⟨tree', more, _, rfl, htree, hmore⟩
    · refine ⟨T.isWhole_thenFail _ _, ?_⟩
      rintro rfl
      obtain ⟨-, halike⟩ | ⟨_, _, -, hnone⟩ := hbeyond
      · rw [List.append_nil] at hrest
        exact ⟨_, rfl, T.unplaced_thenFail htree (halike.unexpected hrest kind identifier)⟩
      · simp at hnone

end Parsed

-- ---------------------------------------------------------------------------
-- Numeric formulas
-- ---------------------------------------------------------------------------

namespace NumericTree

def trees : Trees NumericTree where
  join := .sequence
  failure := .failure
  unplaced := unplaced
  isWhole := isWhole
  unplaced_join _ _ := rfl
  unplaced_failure _ := rfl
  isWhole_join _ _ := rfl
  isWhole_failure _ := rfl

variable {level : Level} {symbol : Symbol} {join : NumericTree → NumericTree → NumericTree}
  {left left' right right' : NumericTree}

/-- Joining does not look at places. -/
theorem unplaced_joined (h : symbol.joiner? level = some join)
    (hleft : left'.unplaced = left.unplaced) (hright : right'.unplaced = right.unplaced) :
    (join left' right').unplaced = (join left right).unplaced := by
  obtain ⟨-, joint, -, -, rfl⟩ := Symbol.exists_sign h
  rw [Joint.unplaced_tree, Joint.unplaced_tree, hleft, hright]

/-- What is joined with a failure on its right is not whole. -/
theorem isWhole_joined (h : symbol.joiner? level = some join) (hright : right.isWhole = false) :
    (join left right).isWhole = false := by
  obtain ⟨-, joint, -, -, rfl⟩ := Symbol.exists_sign h
  rw [Joint.isWhole_tree, hright, Bool.and_false]

/-- A name is blamed at the look-ahead, which is the same but for its place. -/
theorem named_extends {ending ending' : Ending} (halike : ending.Alike ending') (name : String)
    {rest rest' : List Item} {bound bound' : Nat} (fits : rest.length ≤ bound)
    (fits' : rest'.length ≤ bound') (hwords : words rest' = words rest) :
    (named ending name rest fits).Extends trees [] (named ending' name rest' fits') := by
  rw [named, named, halike.isOpenLiteral hwords]
  split
  · exact ⟨rfl, fun _ => ⟨_, rfl, congrArg failure (halike.noOperand hwords)⟩⟩
  · exact ⟨_, rest', fits', rfl, rfl, by rw [hwords, List.append_nil]⟩

/-- Numeric formulas with the same words, which end for the same reason, are parsed alike. The
kinds of parts are gone through together. -/
theorem parse_extends {ending ending' : Ending} (halike : ending.Alike ending') :
    (∀ level items, ∀ items', words items' = words items →
      (chain ending level items).Extends trees [] (chain ending' level items')) ∧
    (∀ level left items, ∀ left' items', left'.unplaced = left.unplaced →
      words items' = words items →
      (chainRest ending level left items).Extends trees []
        (chainRest ending' level left' items')) ∧
    (∀ level items, ∀ items', words items' = words items →
      (operand ending level items).Extends trees [] (operand ending' level items')) ∧
    (∀ items, ∀ items', words items' = words items →
      (unary ending items).Extends trees [] (unary ending' items')) ∧
    (∀ items, ∀ items', words items' = words items →
      (power ending items).Extends trees [] (power ending' items')) ∧
    (∀ items, ∀ items', words items' = words items →
      (term ending items).Extends trees [] (term ending' items')) := by
  have hnothing : ending.Beyond ending' [] := .inl ⟨rfl, halike⟩
  apply chain.mutual_induct ending
  -- a chain
  · intro level items left hparse ih items' hwords
    have hleft := ih items' hwords
    rw [hparse] at hleft
    obtain ⟨left', hparse', hleft'⟩ := hleft.2 rfl
    rw [chain, hparse, chain, hparse']
    exact ⟨hleft.1, fun _ => ⟨left', rfl, hleft'⟩⟩
  · intro level items left rest fits hparse ihleft ihmore items' hwords
    have hleft := ihleft items' hwords
    rw [hparse] at hleft
    obtain ⟨left', rest', fits', hparse', hleft', hrest⟩ := hleft
    rw [List.append_nil] at hrest
    rw [chain, hparse, chain, hparse']
    exact (ihmore left' rest' hleft' hrest).widen fits fits'
  -- the rest of a chain
  · intro level left left' items' hleft hwords
    obtain rfl := words_eq_nil.mp hwords
    rw [chainRest, chainRest]
    exact ⟨left', [], _, rfl, hleft, rfl⟩
  · intro level left item rest hjoin left' items' hleft hwords
    obtain ⟨item', rest', rfl, hitem, hrest⟩ := words_eq_cons.mp hwords
    rw [chainRest, chainRest]
    simp only [Symbol.joiner?_congr hitem, hjoin]
    exact ⟨left', item' :: rest', _, rfl, hleft, by rw [hwords, List.append_nil]⟩
  · intro level left item rest join hjoin right hparse ih left' items' hleft hwords
    obtain ⟨item', rest', rfl, hitem, hrest⟩ := words_eq_cons.mp hwords
    have hright := ih rest' hrest
    rw [hparse] at hright
    obtain ⟨right', hparse', hright'⟩ := hright.2 rfl
    rw [chainRest, chainRest]
    simp only [Symbol.joiner?_congr hitem, hjoin, hparse, hparse']
    exact ⟨isWhole_joined hjoin hright.1, fun _ => ⟨_, rfl, unplaced_joined hjoin hleft hright'⟩⟩
  · intro level left item rest join hjoin right more fits hparse ihright ihmore left' items' hleft
      hwords
    obtain ⟨item', rest', rfl, hitem, hrest⟩ := words_eq_cons.mp hwords
    have hright := ihright rest' hrest
    rw [hparse] at hright
    obtain ⟨right', more', fits', hparse', hright', hmore⟩ := hright
    rw [List.append_nil] at hmore
    rw [chainRest, chainRest]
    simp only [Symbol.joiner?_congr hitem, hjoin, hparse, hparse']
    exact (ihmore _ more' (unplaced_joined hjoin hleft hright') hmore).widen _ _
  -- an operand
  · intro level items next hnext _ ih items' hwords
    rw [operand_eq_parse, operand_eq_parse, Level.operand_of_tighter hnext]
    exact ih items' hwords
  · intro level items hnext ih items' hwords
    rw [operand_eq_parse, operand_eq_parse, Level.operand_of_tightest hnext]
    exact ih items' hwords
  -- operators before an operand
  · intro ih items' hwords
    obtain rfl := words_eq_nil.mp hwords
    rw [unary, unary]
    exact ih [] rfl
  · intro item rest op hfront ih items' hwords
    obtain ⟨item', rest', rfl, hitem, hrest⟩ := words_eq_cons.mp hwords
    rw [unary, unary]
    simp only [Symbol.prefix?_congr hitem, hfront]
    refine ((ih rest' hrest).map (fun tree tree' h => ?_) fun tree h => ?_).widen _ _
    · exact congrArg (prefixed op) h
    · exact h
  · intro item rest hfront ih items' hwords
    obtain ⟨item', rest', rfl, hitem, hrest⟩ := words_eq_cons.mp hwords
    rw [unary, unary]
    simp only [Symbol.prefix?_congr hitem, hfront]
    exact ih _ hwords
  -- a power
  · intro items base hparse ih items' hwords
    have hbase := ih items' hwords
    rw [hparse] at hbase
    obtain ⟨base', hparse', hbase'⟩ := hbase.2 rfl
    rw [power, hparse, power, hparse']
    exact ⟨hbase.1, fun _ => ⟨base', rfl, hbase'⟩⟩
  · intro items base fits hparse ih items' hwords
    have hbase := ih items' hwords
    rw [hparse] at hbase
    obtain ⟨base', rest', fits', hparse', hbase', hrest⟩ := hbase
    obtain rfl := words_eq_nil.mp hrest
    rw [power, hparse, power, hparse']
    exact ⟨base', [], fits', rfl, hbase', rfl⟩
  · intro items base item rest fits hparse hpower ihbase ihexponent items' hwords
    have hbase := ihbase items' hwords
    rw [hparse] at hbase
    obtain ⟨base', rest', fits', hparse', hbase', hrest⟩ := hbase
    rw [List.append_nil] at hrest
    obtain ⟨item', more', rfl, hitem, hmore⟩ := words_eq_cons.mp hrest
    rw [power, hparse, power, hparse']
    simp only [Symbol.isPower_congr hitem, hpower, if_true]
    refine ((ihexponent more' hmore).map (fun tree tree' h => ?_) fun tree h => ?_).widen _ _
    · show binary .power base'.unplaced tree'.unplaced = binary .power base.unplaced tree.unplaced
      rw [show base'.unplaced = base.unplaced from hbase',
        show tree'.unplaced = tree.unplaced from h]
    · show (base.isWhole && tree.isWhole) = false
      rw [show tree.isWhole = false from h, Bool.and_false]
  · intro items base item rest fits hparse hpower ih items' hwords
    have hbase := ih items' hwords
    rw [hparse] at hbase
    obtain ⟨base', rest', fits', hparse', hbase', hrest⟩ := hbase
    obtain ⟨item', more', rfl, hitem, hmore⟩ := words_eq_cons.mp hrest
    rw [power, hparse, power, hparse']
    simp only [Symbol.isPower_congr hitem, if_neg hpower]
    exact ⟨base', item' :: more', fits', rfl, hbase', hrest⟩
  -- a term
  · intro n stop rest items' hwords
    obtain ⟨stop', rest', rfl, hrest⟩ := words_eq_token.mp hwords
    rw [term, term]
    exact ⟨_, rest', _, rfl, rfl, hrest.trans (List.append_nil _).symm⟩
  · intro x stop rest items' hwords
    obtain ⟨stop', rest', rfl, hrest⟩ := words_eq_token.mp hwords
    rw [term, term]
    exact ⟨_, rest', _, rfl, rfl, hrest.trans (List.append_nil _).symm⟩
  · intro name args closed stop rest items' hwords
    obtain ⟨closed', stop', rest', rfl, hrest⟩ := words_eq_call.mp hwords
    rw [term, term]
    exact ⟨_, rest', _, rfl, rfl, hrest.trans (List.append_nil _).symm⟩
  · intro stop rest ih items' hwords
    obtain ⟨stop', rest', rfl, hrest⟩ := words_eq_token.mp hwords
    rw [term, term]
    exact ((ih rest' hrest).closing hnothing _ _).widen _ _
  · intro name stop stop' inner f hf ih items' hwords
    obtain ⟨_, rest', rfl, hrest⟩ := words_eq_token.mp hwords
    obtain ⟨_, inner', rfl, hinner⟩ := words_eq_token.mp hrest
    rw [term, term]
    simp only [hf]
    have hclosed := (ih inner' hinner).closing hnothing .functionError (some name)
    refine (hclosed.map (fun tree tree' h => ?_) fun tree h => ?_).widen _ _
    · exact congrArg (apply f) h
    · exact h
  · intro name stop stop' inner hf items' hwords
    obtain ⟨_, rest', rfl, hrest⟩ := words_eq_token.mp hwords
    obtain ⟨_, inner', rfl, hinner⟩ := words_eq_token.mp hrest
    rw [term, term]
    simp only [hf]
    exact named_extends halike name _ _ hrest
  · intro name stop rest hparen items' hwords
    obtain ⟨stop', rest', rfl, hrest⟩ := words_eq_token.mp hwords
    rw [term, term]
    · exact named_extends halike name _ _ hrest
    · rintro stop inner rfl
      obtain ⟨_, _, rfl, -⟩ := words_eq_token.mp hrest.symm
      exact hparen _ _ rfl
    · exact hparen
  -- nothing begins a term
  · intro items hinteger hdouble hcall hparen happly hnamed items' hwords
    rw [term, term]
    · exact ⟨rfl, fun _ => ⟨_, rfl, congrArg failure (halike.noOperand hwords)⟩⟩
    -- the other items begin none either
    · rintro n stop rest rfl
      obtain ⟨_, _, rfl, -⟩ := words_eq_token.mp hwords.symm
      exact hinteger _ _ _ rfl
    · rintro x stop rest rfl
      obtain ⟨_, _, rfl, -⟩ := words_eq_token.mp hwords.symm
      exact hdouble _ _ _ rfl
    · rintro name args closed stop rest rfl
      obtain ⟨_, _, _, rfl, -⟩ := words_eq_call.mp hwords.symm
      exact hcall _ _ _ _ _ rfl
    · rintro stop rest rfl
      obtain ⟨_, _, rfl, -⟩ := words_eq_token.mp hwords.symm
      exact hparen _ _ rfl
    · rintro name stop stop' inner rfl
      obtain ⟨_, _, rfl, -⟩ := words_eq_token.mp hwords.symm
      exact hnamed _ _ _ rfl
    · rintro name stop rest rfl
      obtain ⟨_, _, rfl, -⟩ := words_eq_token.mp hwords.symm
      exact hnamed _ _ _ rfl
    all_goals assumption

end NumericTree

-- ---------------------------------------------------------------------------
-- Text formulas
-- ---------------------------------------------------------------------------

/-- A tree without the places of its names and calls. -/
def TextTree.unplaced : TextTree → TextTree
  | literal s => literal s
  | value name _ => value name 0
  | call name args _ => call name args 0
  | append left right => append left.unplaced right.unplaced
  | sequence first second => sequence first.unplaced second.unplaced
  | failure c => failure c.unplaced

/-- No failure stands in a tree. -/
def TextTree.isWhole : TextTree → Bool
  | literal _ | value _ _ | call _ _ _ => true
  | append left right => left.isWhole && right.isWhole
  | sequence first second => first.isWhole && second.isWhole
  | failure _ => false

namespace TextTree

def trees : Trees TextTree where
  join := .sequence
  failure := .failure
  unplaced := unplaced
  isWhole := isWhole
  unplaced_join _ _ := rfl
  unplaced_failure _ := rfl
  isWhole_join _ _ := rfl
  isWhole_failure _ := rfl

variable {ending ending' : Ending} {us : List Symbol}

/-- Behind a name nothing is missing where a formula ends. -/
theorem named_extends (hbeyond : ending.Beyond ending' us) (name : String)
    {rest rest' : List Item} {bound bound' : Nat} (fits : rest.length ≤ bound)
    (fits' : rest'.length ≤ bound') (hwords : words rest' = words rest ++ us) :
    (named ending name rest fits).Extends trees us (named ending' name rest' fits') := by
  rcases hbeyond with ⟨rfl, halike⟩ | ⟨t, vs, -, rfl⟩
  · rw [List.append_nil] at hwords
    rw [named, named, halike.isOpenLiteral hwords]
    split
    · exact ⟨rfl, fun _ => ⟨_, rfl, congrArg failure (halike.noOperand hwords)⟩⟩
    · exact ⟨_, rest', fits', rfl, rfl, hwords.trans (List.append_nil _).symm⟩
  · have hopen : ending'.isOpenLiteral rest' = false := by
      cases rest' with
      | nil => simp at hwords
      | cons item rest => rfl
    rw [named, named, hopen]
    split
    · exact ⟨rfl, by simp⟩
    · exact ⟨_, rest', fits', rfl, rfl, hwords⟩

/-- An atom that takes nothing takes nothing where a formula ends. -/
theorem nothing_extends (hbeyond : ending.Beyond ending' us) {items items' : List Item}
    (hwords : words items' = words items ++ us) :
    (nothing ending items).Extends trees us (nothing ending' items') := by
  cases items with
  | cons item rest =>
    obtain ⟨item', rest', rfl, -⟩ := words_eq_cons.mp hwords
    exact ⟨_, item' :: rest', Nat.le_refl _, rfl, rfl, hwords⟩
  | nil =>
    obtain ⟨cause, stop⟩ := ending
    rcases hbeyond with ⟨rfl, halike⟩ | ⟨t, vs, -, rfl⟩
    · obtain rfl := words_eq_nil.mp hwords
      have hnone : words [] = words [] := rfl
      have hfailure := congrArg failure (halike.noOperand hnone)
      obtain ⟨cause', stop'⟩ := ending'
      cases cause <;> cases cause' <;>
        simp only [Ending.Alike, EndCause.unplaced, reduceCtorEq] at halike
      case complete | unreadable => exact ⟨_, [], Nat.le_refl _, rfl, rfl, rfl⟩
      case openLiteral | openCall => exact ⟨rfl, fun _ => ⟨_, rfl, hfailure⟩⟩
    · obtain ⟨item', rest', rfl, -⟩ := words_eq_cons.mp hwords
      cases cause with
      | complete | unreadable => exact ⟨_, item' :: rest', Nat.le_refl _, rfl, rfl, hwords⟩
      | openLiteral | openCall => exact ⟨rfl, by simp⟩

/-- A first word before which no formula ends is one of the items. -/
theorem words_eq_of_beyond (hbeyond : ending.Beyond ending' us) {items rest : List Item}
    {item : Item}
    (hitem : item.symbol ≠ .token .semicolon ∧ item.symbol ≠ .token .rightParen)
    (hwords : words (item :: rest) = words items ++ us) :
    ∃ ss, words items = item.symbol.unplaced :: ss := by
  cases items with
  | cons first more =>
    rw [words_cons, words_cons, List.cons_append] at hwords
    exact ⟨words more, by rw [words_cons, (List.cons.inj hwords).1]⟩
  | nil =>
    rcases hbeyond with ⟨rfl, -⟩ | ⟨t, vs, hend, rfl⟩
    · simp at hwords
    · have hfirst := Symbol.unplaced_eq_token.mp (List.cons.inj hwords).1
      rcases hend with rfl | rfl
      · exact absurd hfirst hitem.1
      · exact absurd hfirst hitem.2

/-- Text formulas with the same words, which end for the same reason or are followed by a semicolon
or a closing parenthesis, are parsed alike. -/
theorem parse_extends (hbeyond : ending.Beyond ending' us) :
    (∀ items, ∀ items', words items' = words items ++ us →
      (concatenation ending items).Extends trees us (concatenation ending' items')) ∧
    (∀ left items, ∀ left' items', left'.unplaced = left.unplaced →
      words items' = words items ++ us →
      (concatenationRest ending left items).Extends trees us
        (concatenationRest ending' left' items')) ∧
    (∀ items, ∀ items', words items' = words items ++ us →
      (atom ending items).Extends trees us (atom ending' items')) := by
  have appended : ∀ {left left' right right' : TextTree}, left'.unplaced = left.unplaced →
      right'.unplaced = right.unplaced →
      (append left' right').unplaced = (append left right).unplaced := by
    intro left left' right right' hleft hright
    rw [unplaced, unplaced, hleft, hright]
  apply concatenation.mutual_induct ending
  -- atoms joined
  · intro items left hparse ih items' hwords
    have hleft := ih items' hwords
    rw [hparse] at hleft
    rw [concatenation, hparse]
    refine ⟨hleft.1, fun hus => ?_⟩
    obtain ⟨left', hparse', hleft'⟩ := hleft.2 hus
    rw [concatenation, hparse']
    exact ⟨left', rfl, hleft'⟩
  · intro items left rest fits hparse ihleft ihmore items' hwords
    have hleft := ihleft items' hwords
    rw [hparse] at hleft
    obtain ⟨left', rest', fits', hparse', hleft', hrest⟩ := hleft
    rw [concatenation, hparse, concatenation, hparse']
    exact (ihmore left' rest' hleft' hrest).widen fits fits'
  -- the rest of a concatenation
  · intro left stop rest right hparse ih left' items' hleft hwords
    obtain ⟨stop', rest', rfl, hrest⟩ := words_eq_token.mp hwords
    have hright := ih rest' hrest
    rw [hparse] at hright
    rw [concatenationRest, hparse]
    refine ⟨?_, fun hus => ?_⟩
    · show (left.isWhole && right.isWhole) = false
      rw [show right.isWhole = false from hright.1, Bool.and_false]
    · obtain ⟨right', hparse', hright'⟩ := hright.2 hus
      rw [concatenationRest, hparse']
      exact ⟨_, rfl, appended hleft hright'⟩
  · intro left stop rest right more fits hparse ihright ihmore left' items' hleft hwords
    obtain ⟨stop', rest', rfl, hrest⟩ := words_eq_token.mp hwords
    have hright := ihright rest' hrest
    rw [hparse] at hright
    obtain ⟨right', more', fits', hparse', hright', hmore⟩ := hright
    rw [concatenationRest, hparse, concatenationRest, hparse']
    exact (ihmore _ more' (appended hleft hright') hmore).widen _ _
  · intro left items hadd left' items' hleft hwords
    rw [concatenationRest, concatenationRest]
    · exact ⟨left', items', Nat.le_refl _, rfl, hleft, hwords⟩
    · rintro stop rest rfl
      obtain ⟨ss, hitems⟩ := words_eq_of_beyond hbeyond (by simp) hwords
      obtain ⟨_, _, rfl, -⟩ := words_eq_token.mp hitems
      exact hadd _ _ rfl
    · exact hadd
  -- an atom
  · intro s stop rest items' hwords
    obtain ⟨stop', rest', rfl, hrest⟩ := words_eq_token.mp hwords
    rw [atom, atom]
    exact ⟨_, rest', _, rfl, rfl, hrest⟩
  · intro name args closed stop rest items' hwords
    obtain ⟨closed', stop', rest', rfl, hrest⟩ := words_eq_call.mp hwords
    rw [atom, atom]
    exact ⟨_, rest', _, rfl, rfl, hrest⟩
  · intro stop rest ih items' hwords
    obtain ⟨stop', rest', rfl, hrest⟩ := words_eq_token.mp hwords
    rw [atom, atom]
    exact ((ih rest' hrest).closing hbeyond _ _).widen _ _
  · intro name stop rest items' hwords
    obtain ⟨stop', rest', rfl, hrest⟩ := words_eq_token.mp hwords
    rw [atom, atom]
    exact named_extends hbeyond name _ _ hrest
  -- an atom that takes nothing
  · intro items htext hcall hparen hnamed items' hwords
    rw [atom, atom]
    · exact nothing_extends hbeyond hwords
    · rintro s stop rest rfl
      obtain ⟨ss, hitems⟩ := words_eq_of_beyond hbeyond (by simp) hwords
      obtain ⟨_, _, rfl, -⟩ := words_eq_token.mp hitems
      exact htext _ _ _ rfl
    · rintro name args closed stop rest rfl
      obtain ⟨ss, hitems⟩ := words_eq_of_beyond hbeyond (by simp) hwords
      obtain ⟨_, _, _, rfl, -⟩ := words_eq_call.mp hitems
      exact hcall _ _ _ _ _ rfl
    · rintro stop rest rfl
      obtain ⟨ss, hitems⟩ := words_eq_of_beyond hbeyond (by simp) hwords
      obtain ⟨_, _, rfl, -⟩ := words_eq_token.mp hitems
      exact hparen _ _ rfl
    · rintro name stop rest rfl
      obtain ⟨ss, hitems⟩ := words_eq_of_beyond hbeyond (by simp) hwords
      obtain ⟨_, _, rfl, -⟩ := words_eq_token.mp hitems
      exact hnamed _ _ _ rfl
    all_goals assumption

end TextTree

end Formulae.Grammar
