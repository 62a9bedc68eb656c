import Formulae.Proofs.Grammar.Splitting

/-!
# Well-formed arguments

What a text must look like to be an argument of a call is said here without the scans: no white
space stands at its ends, its single quotes are paired, and among the characters outside of them
parentheses nest and commas stand only between parentheses. Such texts are what the scans pass over
and end behind with nothing open.

A list of well-formed arguments can be written between the parentheses of a call with any white
space around the arguments. The call is then cut into just these arguments, whatever follows it.
There is one exception: a blank between the parentheses is no argument, and not an empty one.

Main results:

* `Arguments.wellFormed_iff` — well-formed is what the scans pass over.
* `Arguments.takeFrom?_spaced` — the arguments of a call are found again, and the place behind it.
-/

namespace Formulae.Grammar.Arguments

-- ---------------------------------------------------------------------------
-- Outside quotes
-- ---------------------------------------------------------------------------

/-- The characters of a text that stand outside its single quotes; `quoted` tells whether a quote is
open before it. -/
def unquoted (quoted : Bool) : List Char → List Char
  | [] => []
  | c :: cs =>
    if c = '\'' then unquoted (!quoted) cs
    else if quoted then unquoted true cs
    else c :: unquoted false cs

/-- How many parentheses a character opens. -/
def weight : Char → Int
  | '(' => 1
  | ')' => -1
  | _ => 0

theorem weight_eq_zero {c : Char} (hopen : c ≠ '(') (hclose : c ≠ ')') : weight c = 0 := by
  unfold weight
  split <;> simp_all

/-- How many more parentheses are opened in a text than closed. -/
def depth : List Char → Int
  | [] => 0
  | c :: cs => weight c + depth cs

@[simp] theorem depth_nil : depth [] = 0 := rfl

@[simp] theorem depth_cons (c : Char) (cs : List Char) :
    depth (c :: cs) = weight c + depth cs := rfl

theorem depth_append (front back : List Char) :
    depth (front ++ back) = depth front + depth back := by
  induction front with
  | nil => simp
  | cons c front ih => rw [List.cons_append, depth_cons, depth_cons, ih, Int.add_assoc]

/-- Outside quotes a character stands only between parentheses. -/
def Shielded (c : Char) (cs : List Char) : Prop :=
  ∀ front back, unquoted false cs = front ++ c :: back → depth front ≠ 0

/-- It is enough to look at the places where the character stands. -/
theorem shielded_iff {c : Char} {cs : List Char} :
    Shielded c cs ↔ ∀ i < (unquoted false cs).length,
      (unquoted false cs)[i]? = some c → depth ((unquoted false cs).take i) ≠ 0 := by
  constructor
  · intro h i hi hc
    refine h _ ((unquoted false cs).drop (i + 1)) ?_
    obtain ⟨_, rfl⟩ := List.getElem?_eq_some_iff.mp hc
    rw [← List.drop_eq_getElem_cons, List.take_append_drop]
  · intro h front back hsplit
    have hfront := h front.length
    rw [hsplit, List.take_left] at hfront
    exact hfront (by simp) (by simp)

instance (c : Char) (cs : List Char) : Decidable (Shielded c cs) :=
  decidable_of_iff _ shielded_iff.symm

/-- A text that can be an argument of a call. -/
structure WellFormed (arg : String) : Prop where
  /-- No white space stands at its ends. -/
  trimmed : Text.trim arg.toList = arg.toList
  /-- The number of its single quotes is even. -/
  paired : arg.toList.count '\'' % 2 = 0
  /-- Outside quotes no parenthesis is closed that is not open. -/
  nested : ∀ front back, unquoted false arg.toList = front ++ back → 0 ≤ depth front
  /-- Outside quotes every parenthesis is closed. -/
  closed : depth (unquoted false arg.toList) = 0
  commas : Shielded ',' arg.toList

-- ---------------------------------------------------------------------------
-- What the scans pass over
-- ---------------------------------------------------------------------------

/-- Whether a quote is open behind a text. -/
def quotedBehind (quoted : Bool) (cs : List Char) : Bool :=
  quoted ^^ (cs.count '\'' % 2 == 1)

theorem quotedBehind_quote {quoted : Bool} {cs : List Char} :
    quotedBehind quoted ('\'' :: cs) = quotedBehind (!quoted) cs := by
  rw [quotedBehind, quotedBehind, List.count_cons_self]
  cases quoted <;> grind

theorem quotedBehind_cons {quoted : Bool} {c : Char} {cs : List Char} (h : c ≠ '\'') :
    quotedBehind quoted (c :: cs) = quotedBehind quoted cs := by
  rw [quotedBehind, quotedBehind, List.count_cons_of_ne h]

/-- A quote is open behind two texts as the second one leaves it. -/
theorem quotedBehind_append (quoted : Bool) (front back : List Char) :
    quotedBehind quoted (front ++ back) = quotedBehind (quotedBehind quoted front) back := by
  induction front generalizing quoted with
  | nil => cases quoted <;> rfl
  | cons c front ih =>
    by_cases hquote : c = '\''
    · subst hquote
      rw [List.cons_append, quotedBehind_quote, quotedBehind_quote, ih]
    · rw [List.cons_append, quotedBehind_cons hquote, quotedBehind_cons hquote, ih]

/-- What stands outside quotes in a text depends on what stands before it only by its quotes. -/
theorem unquoted_append (quoted : Bool) (front back : List Char) :
    unquoted quoted (front ++ back) =
      unquoted quoted front ++ unquoted (quotedBehind quoted front) back := by
  induction front generalizing quoted with
  | nil => cases quoted <;> rfl
  | cons c front ih =>
    by_cases hquote : c = '\''
    · subst hquote
      rw [quotedBehind_quote]
      exact ih (!quoted)
    · rw [quotedBehind_cons hquote, List.cons_append, unquoted, unquoted, if_neg hquote,
        if_neg hquote]
      cases quoted with
      | true => exact ih true
      | false => exact congrArg (c :: ·) (ih false)

/-- With so many parentheses open before them, characters outside quotes close none that is not
open, and no comma among them stands where none is. -/
structure Keeps (start : Int) (us : List Char) : Prop where
  nested : ∀ front back, us = front ++ back → 0 ≤ start + depth front
  commas : ∀ front back, us = front ++ ',' :: back → start + depth front ≠ 0

theorem Keeps.nonneg {start : Int} {us : List Char} (h : Keeps start us) : 0 ≤ start := by
  simpa using h.nested [] us rfl

theorem keeps_nil {start : Int} : Keeps start [] ↔ 0 ≤ start := by
  refine ⟨Keeps.nonneg, fun h => ⟨fun front back hus => ?_, fun front back hus => ?_⟩⟩
  · rw [(List.append_eq_nil_iff.mp hus.symm).1]
    simpa using h
  · simp at hus

/-- A text keeps so if what follows its first character does, and that is no comma with nothing
open. -/
theorem keeps_cons {start : Int} {c : Char} {us : List Char} :
    Keeps start (c :: us) ↔ 0 ≤ start ∧ ¬ (c = ',' ∧ start = 0) ∧ Keeps (start + weight c) us := by
  constructor
  · intro h
    refine ⟨h.nonneg, ?_, ?_, ?_⟩
    · rintro ⟨rfl, rfl⟩
      exact h.commas [] us rfl (by simp)
    · rintro front back rfl
      have hfront := h.nested (c :: front) back rfl
      rwa [depth_cons, ← Int.add_assoc] at hfront
    · rintro front back rfl
      have hfront := h.commas (c :: front) back rfl
      rwa [depth_cons, ← Int.add_assoc] at hfront
  · rintro ⟨hstart, hcomma, hus⟩
    refine ⟨fun front back h => ?_, fun front back h => ?_⟩
    · cases front with
      | nil => simpa using hstart
      | cons d front =>
        obtain ⟨rfl, rfl⟩ := List.cons.inj h
        rw [depth_cons, ← Int.add_assoc]
        exact hus.nested front back rfl
    · cases front with
      | nil =>
        obtain ⟨rfl, -⟩ := List.cons.inj h
        simpa using hcomma
      | cons d front =>
        obtain ⟨rfl, rfl⟩ := List.cons.inj h
        rw [depth_cons, ← Int.add_assoc]
        exact hus.commas front back rfl

/-- What is open behind a text depends on what stands outside its quotes, and on their number. -/
theorem openBehind?_eq_some_iff {start final : Nat} {quoted quoted' : Bool} {cs : List Char} :
    openBehind? start quoted cs = some (final, quoted') ↔
      Keeps start (unquoted quoted cs) ∧ (final : Int) = start + depth (unquoted quoted cs) ∧
        quoted' = quotedBehind quoted cs := by
  induction cs generalizing start quoted with
  | nil =>
    simp only [openBehind?, Option.some.injEq, Prod.mk.injEq, unquoted, keeps_nil, depth_nil,
      quotedBehind, List.count_nil]
    cases quoted <;> cases quoted' <;> simp <;> omega
  | cons c cs ih =>
    by_cases hquote : c = '\''
    · subst hquote
      rw [passes_quote.openBehind, ih, quotedBehind_quote]
      rfl
    rw [quotedBehind_cons hquote]
    cases quoted with
    | true => rw [(passes_quoted hquote).openBehind, ih, unquoted, if_neg hquote, if_pos rfl]
    | false =>
      rw [unquoted, if_neg hquote, if_neg (by simp), keeps_cons, depth_cons]
      by_cases hopen : c = '('
      · subst hopen
        rw [passes_open.openBehind, ih, weight]
        grind
      by_cases hclose : c = ')'
      · subst hclose
        cases start with
        | zero =>
          -- there is nothing to close
          have hnone : openBehind? 0 false (')' :: cs) = none := rfl
          have hbelow : ¬ Keeps (((0 : Nat) : Int) + weight ')') (unquoted false cs) := by
            intro h
            exact absurd h.nonneg (by decide)
          rw [hnone]
          simp only [reduceCtorEq, false_iff]
          rintro ⟨⟨-, -, h⟩, -⟩
          exact hbelow h
        | succ start =>
          have hdepth : ((start + 1 : Nat) : Int) + -1 = start := by omega
          rw [passes_close.openBehind, ih, weight, hdepth]
          grind
      by_cases hcomma : c = ',' ∧ start = 0
      · obtain ⟨rfl, rfl⟩ := hcomma
        simp [openBehind?]
      · rw [(passes_plain hquote hopen hclose hcomma).openBehind, ih, weight_eq_zero hopen hclose]
        grind

/-- A text is well-formed if it is trimmed and the scan passes over it, with nothing left open. -/
theorem wellFormed_iff {arg : String} :
    WellFormed arg ↔ Text.trim arg.toList = arg.toList ∧
      openBehind? 0 false arg.toList = some (0, false) := by
  have hquotes : false = quotedBehind false arg.toList ↔ arg.toList.count '\'' % 2 = 0 := by
    rw [quotedBehind]
    simp
  have hopen := @openBehind?_eq_some_iff 0 0 false false arg.toList
  rw [Int.natCast_zero, Int.zero_add, hquotes] at hopen
  rw [hopen]
  constructor
  · intro h
    refine ⟨h.trimmed, ⟨fun front back hus => ?_, fun front back hus => ?_⟩, h.closed.symm,
      h.paired⟩
    · rw [Int.zero_add]
      exact h.nested front back hus
    · rw [Int.zero_add]
      exact h.commas front back hus
  · rintro ⟨htrimmed, hkeeps, hclosed, hpaired⟩
    refine ⟨htrimmed, hpaired, fun front back hus => ?_, hclosed.symm, fun front back hus => ?_⟩
    · simpa using hkeeps.nested front back hus
    · simpa using hkeeps.commas front back hus

instance (arg : String) : Decidable (WellFormed arg) :=
  decidable_of_iff _ wellFormed_iff.symm

theorem WellFormed.openBehind {arg : String} (h : WellFormed arg) :
    openBehind? 0 false arg.toList = some (0, false) :=
  (wellFormed_iff.mp h).2

-- ---------------------------------------------------------------------------
-- Between parentheses
-- ---------------------------------------------------------------------------

/-- Arguments as they can stand between the parentheses of a call, with commas between them and
white space around each of them. -/
inductive Spaced : List String → List Char → Prop
  | none {blank : List Char} (h : Blank blank) : Spaced [] blank
  | last {before after : List Char} (arg : String) (hbefore : Blank before) (hafter : Blank after) :
      Spaced [arg] (before ++ arg.toList ++ after)
  | more {before after inner : List Char} {next : String} {args : List String} (arg : String)
      (hbefore : Blank before) (hafter : Blank after) (rest : Spaced (next :: args) inner) :
      Spaced (arg :: next :: args) (before ++ arg.toList ++ after ++ ',' :: inner)

variable {args : List String} {inner rest : List Char}

/-- So the scan passes over one with white space around it. -/
theorem openBehind?_padded {before after : List Char} {arg : String} (h : WellFormed arg)
    (hbefore : Blank before) (hafter : Blank after) :
    openBehind? 0 false (before ++ arg.toList ++ after) = some (0, false) := by
  rw [List.append_assoc, openBehind?_append (openBehind?_blank hbefore 0),
    openBehind?_append h.openBehind, openBehind?_blank hafter]

/-- The closing parenthesis of a call is the one behind its arguments. -/
theorem closeFrom?_spaced (h : ∀ a ∈ args, WellFormed a) (hspaced : Spaced args inner) :
    closeFrom? 0 false (inner ++ ')' :: rest) = some (inner, rest) := by
  have hclose : ∀ cs : List Char, closeFrom? 0 false (')' :: cs) = some ([], cs) := fun _ => rfl
  induction hspaced with
  | none hblank =>
    rw [closeFrom?_append (openBehind?_blank hblank 0), hclose]
    simp
  | last arg hbefore hafter =>
    rw [closeFrom?_append (openBehind?_padded (h arg (by simp)) hbefore hafter), hclose]
    simp
  | @more before after inner next args arg hbefore hafter _ ih =>
    have hargs : ∀ a ∈ next :: args, WellFormed a := fun a ha => h a (List.mem_cons_of_mem _ ha)
    have hcomma :
        closeFrom? 0 false (',' :: (inner ++ ')' :: rest)) = some (',' :: inner, rest) := by
      show (closeFrom? 0 false (inner ++ ')' :: rest)).map _ = _
      rw [ih hargs]
      rfl
    rw [List.append_assoc, closeFrom?_append (openBehind?_padded (h arg (by simp)) hbefore hafter),
      List.cons_append, hcomma]
    rfl

/-- Arguments are cut at the commas between them. -/
theorem piecesFrom_spaced (h : ∀ a ∈ args, WellFormed a) (hspaced : Spaced args inner)
    (hargs : args ≠ []) :
    ((piecesFrom 0 false inner).map Text.trim).map String.ofList = args := by
  have hpiece : ∀ {arg : String} {before after : List Char}, WellFormed arg → Blank before →
      Blank after → String.ofList (Text.trim (before ++ arg.toList ++ after)) = arg := by
    intro arg before after harg hbefore hafter
    rw [trim_padded hbefore hafter, harg.trimmed, String.ofList_toList]
  have hpass : ∀ {arg : String} {before after : List Char} (rest : List Char), WellFormed arg →
      Blank before → Blank after → piecesFrom 0 false (before ++ arg.toList ++ after ++ rest) =
        (before ++ arg.toList ++ after).foldr putFirst (piecesFrom 0 false rest) := by
    intro arg before after rest harg hbefore hafter
    exact piecesFrom_append (openBehind?_padded harg hbefore hafter)
  induction hspaced with
  | none => exact absurd rfl hargs
  | last arg hbefore hafter =>
    have hpieces := hpass [] (h arg (by simp)) hbefore hafter
    rw [List.append_nil] at hpieces
    rw [hpieces, piecesFrom, foldr_putFirst, List.append_nil, List.map_singleton,
      List.map_singleton, hpiece (h arg (by simp)) hbefore hafter]
  | @more before after inner next args arg hbefore hafter _ ih =>
    have hrest : ∀ a ∈ next :: args, WellFormed a := fun a ha => h a (List.mem_cons_of_mem _ ha)
    have hcomma : piecesFrom 0 false (',' :: inner) = [] :: piecesFrom 0 false inner := rfl
    rw [hpass _ (h arg (by simp)) hbefore hafter, hcomma, foldr_putFirst, List.append_nil,
      List.map_cons, List.map_cons, hpiece (h arg (by simp)) hbefore hafter, ih hrest (by simp)]

/-- Only a blank or an only argument that is empty is blank between the parentheses. -/
theorem trim_spaced_ne_nil (h : ∀ a ∈ args, WellFormed a) (hspaced : Spaced args inner)
    (hnone : args ≠ []) (hempty : args ≠ [""]) : Text.trim inner ≠ [] := by
  intro htrim
  cases hspaced with
  | none => exact hnone rfl
  | last arg hbefore hafter =>
    rw [trim_padded hbefore hafter, (h arg (by simp)).trimmed] at htrim
    exact hempty (by rw [String.toList_eq_nil_iff.mp htrim])
  | @more before after inner next args arg hbefore hafter _ =>
    -- a comma is not trimmed off
    have hblank := trim_eq_nil_iff.mp htrim
    exact absurd (hblank ',' (by simp)) (by decide)

/-- Well-formed arguments are found again, whatever white space is around them. -/
theorem split_spaced (h : ∀ a ∈ args, WellFormed a) (hspaced : Spaced args inner)
    (hempty : args ≠ [""]) : split inner = args := by
  rw [split_eq]
  by_cases hnone : args = []
  · subst hnone
    cases hspaced with
    | none hblank => rw [if_pos (trim_eq_nil_iff.mpr hblank)]
  · rw [if_neg (trim_spaced_ne_nil h hspaced hnone hempty), piecesFrom_spaced h hspaced hnone]

/-- A call is cut into the arguments that stand between its parentheses. -/
theorem take?_spaced (h : ∀ a ∈ args, WellFormed a) (hspaced : Spaced args inner)
    (hempty : args ≠ [""]) : take? (inner ++ ')' :: rest) = some (args, rest) := by
  rw [take?, close?, closeFrom?_spaced h hspaced]
  show some (split inner, rest) = _
  rw [split_spaced h hspaced hempty]

/-- Well-formed arguments, other than an only one that is empty, are found again in a call, whatever
stands before and behind it and however they are spaced, and so is the place behind the call. -/
theorem takeFrom?_spaced (front tail : List Char) (h : ∀ a ∈ args, WellFormed a)
    (hspaced : Spaced args inner) (hempty : args ≠ [""]) :
    takeFrom? (String.ofList (front ++ ['('] ++ inner ++ [')'] ++ tail))
        (Text.byteLength (front ++ ['('])) =
      some (args, Text.byteLength (front ++ ['('] ++ inner ++ [')'])) := by
  have hdrop : Text.dropBytes? (Text.byteLength (front ++ ['(']))
      (front ++ ['('] ++ inner ++ [')'] ++ tail) = some (inner ++ ')' :: tail) :=
    Text.dropBytes?_eq_some_iff.mpr ⟨front ++ ['('], by simp, rfl⟩
  rw [takeFrom?, String.toList_ofList, hdrop]
  show (close? (inner ++ ')' :: tail)).bind _ = _
  rw [close?, closeFrom?_spaced h hspaced]
  show some (split inner, Text.byteLength (front ++ ['(']) + Text.byteLength inner + 1) = _
  rw [split_spaced h hspaced hempty, Text.byteLength_append _ [')'], Text.byteLength_append _ inner]
  rfl

/-- Nested calls, quoted commas and parentheses, an empty argument, and a character of two bytes
before the call. -/
theorem takeFrom?_spaced_mixed :
    (∀ a ∈ ["g(1, (2))", "'a,)b'", "", "\"x\""], WellFormed a) ∧
      takeFrom? "é + f( g(1, (2)) ,'a,)b',\t, \"x\" ) + 1" 7 =
        some (["g(1, (2))", "'a,)b'", "", "\"x\""], 34) := by
  have h : ∀ a ∈ ["g(1, (2))", "'a,)b'", "", "\"x\""], WellFormed a := by decide +kernel
  have hspace : Blank [' '] := by simp [Blank]; decide
  have htab : Blank ['\t'] := by simp [Blank]; decide
  have hnone : Blank [] := by simp [Blank]
  have hspaced := Spaced.more "g(1, (2))" hspace hspace (.more "'a,)b'" hnone hnone
    (.more "" htab hnone (.last "\"x\"" hspace hspace)))
  have htake := takeFrom?_spaced "é + f".toList " + 1".toList h hspaced (by simp)
  refine ⟨h, ?_⟩
  have htext : "é + f( g(1, (2)) ,'a,)b',\t, \"x\" ) + 1" =
      String.ofList ("é + f".toList ++ ['('] ++
        ([' '] ++ "g(1, (2))".toList ++ [' '] ++ ',' :: ([] ++ "'a,)b'".toList ++ [] ++
          ',' :: (['\t'] ++ "".toList ++ [] ++ ',' :: ([' '] ++ "\"x\"".toList ++ [' '])))) ++
        [')'] ++ " + 1".toList) := by
    decide +kernel
  rw [htext]
  exact htake

end Formulae.Grammar.Arguments
