import Formulae.Proofs.Grammar.Matching
import Formulae.Proofs.Grammar.Sequencing

/-!
# Text formulas between parentheses

A text formula that is put between parentheses, and joined to others by `+`, is read as one atom with
the tree that it has alone. For that it must be a single concatenation: a semicolon that stands by
itself ends a formula, but may not stand between parentheses. Without double quotes the scan of the
arguments and the stream of tokens count the same parentheses, so that it can be seen from the text
whether a semicolon stands by itself.

Main results:

* `Outline.Reads.counts` — the parentheses in a text are those among its words.
* `TextTree.concatenation_of_isWhole` — a formula without such a semicolon is one concatenation.
* `TextTree.atom_parens` — between parentheses it has the same tree.
* `Outline.says_writtenSum` — the words of a sum.
-/

namespace Formulae.Grammar

open Arguments

variable {cs rest : List Char}

-- ---------------------------------------------------------------------------
-- Counting in texts
-- ---------------------------------------------------------------------------

namespace Arguments

/-- Behind a text no quote is open, and outside its quotes it opens so many more parentheses than it
closes. -/
structure Counts (cs : List Char) (count : Int) : Prop where
  paired : quotedBehind false cs = false
  depth : depth (unquoted false cs) = count

namespace Counts

variable {front back : List Char} {n m : Int}

/-- A text and another one behind it open what both do. -/
theorem append (hfront : Counts front n) (hback : Counts back m) :
    Counts (front ++ back) (n + m) where
  paired := by rw [quotedBehind_append, hfront.paired, hback.paired]
  depth := by rw [unquoted_append, hfront.paired, depth_append, hfront.depth, hback.depth]

/-- The scans count alike where they pass over a text. -/
theorem of_openBehind? {before behind : Nat}
    (h : openBehind? before false cs = some (behind, false)) :
    Counts cs ((behind : Int) - before) := by
  obtain ⟨-, hdepth, hquoted⟩ := openBehind?_eq_some_iff.mp h
  exact ⟨hquoted.symm, by omega⟩

/-- A text without marks counts nothing. Between parentheses commas hold up no scan. -/
theorem of_unmarked (h : cs.filter isMark = []) : Counts cs 0 := by
  suffices hpasses : openBehind? 1 false cs = some (1, false) from of_openBehind? hpasses
  induction cs with
  | nil => rfl
  | cons c cs ih =>
    rw [List.filter_eq_nil_iff] at h
    have hc := h c (by simp)
    rw [isMark_iff, not_or, not_or, not_or] at hc
    rw [(passes_plain hc.1 hc.2.1 hc.2.2.1 (by simp)).openBehind]
    exact ih (List.filter_eq_nil_iff.mpr fun d hd => h d (List.mem_cons_of_mem _ hd))

end Counts

end Arguments

-- ---------------------------------------------------------------------------
-- Counting among words
-- ---------------------------------------------------------------------------

/-- How many parentheses a word opens. Those of a call that is cut out are closed in it. -/
def Symbol.weight : Symbol → Int
  | .token .leftParen => 1
  | .token .rightParen => -1
  | _ => 0

/-- How many more parentheses are opened among words than closed. -/
def opened : List Symbol → Int
  | [] => 0
  | s :: ss => s.weight + opened ss

@[simp] theorem opened_nil : opened [] = 0 := rfl

@[simp] theorem opened_cons (s : Symbol) (ss : List Symbol) :
    opened (s :: ss) = s.weight + opened ss := rfl

@[simp] theorem opened_append (front back : List Symbol) :
    opened (front ++ back) = opened front + opened back := by
  induction front with
  | nil => simp
  | cons s front ih => rw [List.cons_append, opened_cons, opened_cons, ih, Int.add_assoc]

namespace Outline

variable {inPlace : String → Bool} {s : Symbol} {ws front back : List Symbol}

/-- What a word is written as counts its parentheses, if no double quotes stand in it. -/
theorem Step.counts (h : Step inPlace cs s rest) (hquote : '"' ∉ cs) :
    ∃ piece, cs = piece ++ rest ∧ Counts piece s.weight := by
  cases h with
  | @token t _ hscan =>
    by_cases htext : ∃ s, t = .text s
    · obtain ⟨s, rfl⟩ := htext
      obtain ⟨spaces, quote, rfl, hspaces, rfl | rfl, hs⟩ := scan_text hscan
      · have hliteral := Counts.of_openBehind? (openBehind?_literal hs)
        refine ⟨spaces ++ '\'' :: (s.toList ++ ['\'']), by simp, ?_⟩
        exact (Counts.of_unmarked hspaces).append hliteral
      · simp at hquote
    obtain ⟨before, rfl, hbefore⟩ := scan_front hscan (by simpa using htext)
    refine ⟨before ++ t.marks, rfl, ?_⟩
    have hmarks : Counts t.marks (Symbol.token t).weight := by
      cases t <;> exact ⟨rfl, rfl⟩
    rw [← Int.zero_add (Symbol.token t).weight]
    exact (Counts.of_unmarked hbefore).append hmarks
  | @call name args behind inner _ hscan _ hopen htake =>
    obtain ⟨piece, rfl, hpiece⟩ := scan_marks hscan (by simp)
    obtain ⟨left, rfl, hleft⟩ := scan_front (openParen?_eq_some_iff.mp hopen) (by simp)
    obtain ⟨⟨text, _⟩, hclose, heq⟩ := Option.map_eq_some_iff.mp htake
    obtain ⟨-, rfl⟩ := Prod.mk.inj heq
    obtain rfl := append_of_closeFrom? hclose
    have hopening : Counts ['('] 1 := ⟨rfl, rfl⟩
    have hclosing : Counts [')'] (-1) := ⟨rfl, rfl⟩
    have htext := Counts.of_openBehind? (of_closeFrom? hclose).1
    refine ⟨piece ++ (left ++ (['('] ++ (text ++ [')']))), by simp [Token.marks], ?_⟩
    exact (Counts.of_unmarked hpiece).append
      ((Counts.of_unmarked hleft).append (hopening.append (htext.append hclosing)))

/-- A text without double quotes counts the parentheses among its words. -/
theorem Reads.counts (h : Reads inPlace cs ws rest) (hquote : '"' ∉ cs) :
    ∃ piece, cs = piece ++ rest ∧ Counts piece (opened ws) := by
  induction h with
  | done cs => exact ⟨[], rfl, rfl, rfl⟩
  | step first _ ih =>
    obtain ⟨piece, rfl, hpiece⟩ := first.counts hquote
    rw [List.mem_append, not_or] at hquote
    obtain ⟨more, rfl, hmore⟩ := ih hquote.2
    refine ⟨piece ++ more, by simp, ?_⟩
    rw [opened_cons]
    exact hpiece.append hmore

/-- A semicolon behind words that close what they open is not between parentheses. -/
theorem Says.not_shielded_of_opened (hquote : '"' ∉ cs) (hopened : opened front = 0)
    (h : Says inPlace cs (front ++ .token .semicolon :: back)) : ¬ Shielded ';' cs := by
  obtain ⟨behind, hreads, -⟩ := h
  obtain ⟨mid, hfront, hback⟩ := hreads.split
  obtain ⟨text, rfl, htext⟩ := hfront.counts hquote
  cases hback with
  | @step _ rest _ _ _ first more =>
    cases first with
    | token hscan =>
      obtain ⟨spaces, rfl, hspaces⟩ := scan_front hscan (by simp)
      have hcounts := htext.append (.of_unmarked hspaces)
      rw [hopened] at hcounts
      have hsplit : text ++ (spaces ++ Token.semicolon.marks ++ rest) =
          (text ++ spaces) ++ ';' :: rest := by
        simp [Token.marks]
      rw [hsplit]
      intro hshielded
      refine hshielded (unquoted false (text ++ spaces)) (unquoted false rest) ?_ hcounts.depth
      rw [unquoted_append, hcounts.paired]
      rfl

end Outline

-- ---------------------------------------------------------------------------
-- What a concatenation takes
-- ---------------------------------------------------------------------------

namespace Parsed

variable {items : List Item} {small large : Nat}

/-- The parser has taken words that close what they open, or got stuck. -/
def TakesClosed (items : List Item) : Parsed TextTree large → Prop
  | done _ rest _ => ∃ front, words items = front ++ words rest ∧ opened front = 0
  | stuck _ => True

theorem TakesClosed.widen {p : Parsed TextTree small} (h : p.TakesClosed items)
    (hle : small ≤ large) : (p.widen hle).TakesClosed items := by
  cases p <;> exact h

/-- Closed words in front of what is taken are taken with it. -/
theorem TakesClosed.behind {items' : List Item} {p : Parsed TextTree large}
    (h : p.TakesClosed items') {front : List Symbol} (hfront : opened front = 0)
    (hwords : words items = front ++ words items') : p.TakesClosed items := by
  cases p with
  | stuck => trivial
  | done tree rest fits =>
    obtain ⟨more, hmore, hopened⟩ := h
    refine ⟨front ++ more, ?_, ?_⟩
    · rw [hwords, hmore, List.append_assoc]
    · rw [opened_append, hfront, hopened]
      rfl

/-- A closing parenthesis is taken with what its opening one stands before. -/
theorem TakesClosed.closing {rest : List Item} {stop : Nat} {p : Parsed TextTree large}
    (h : p.TakesClosed rest) (ending : Ending) :
    (p.closing ending .syntaxError none TextTree.thenFail).TakesClosed
      (⟨.token .leftParen, stop⟩ :: rest) := by
  match p with
  | .stuck tree => trivial
  | .done tree [] fits => trivial
  | .done tree (item :: more) fits =>
    rw [Parsed.closing]
    split
    · rename_i hclosing
      obtain ⟨front, hrest, hfront⟩ := h
      have hitem : item.symbol.unplaced = .token .rightParen :=
        Symbol.unplaced_eq_token.mpr (Symbol.isClosing_iff.mp hclosing)
      refine ⟨.token .leftParen :: (front ++ [.token .rightParen]), ?_, ?_⟩
      · rw [words_cons, hrest, words_cons, hitem]
        simp [Symbol.unplaced]
      · simp [Symbol.weight, hfront]
    · trivial

end Parsed

namespace TextTree

open Outline

theorem takesClosed_nothing (ending : Ending) (items : List Item) :
    (nothing ending items).TakesClosed items := by
  obtain ⟨cause, stop⟩ := ending
  cases items <;> cases cause <;> first | exact trivial | exact ⟨[], rfl, rfl⟩

/-- A concatenation takes words that close what they open. -/
theorem takesClosed_parse (ending : Ending) :
    (∀ items, (concatenation ending items).TakesClosed items) ∧
    (∀ left items, (concatenationRest ending left items).TakesClosed items) ∧
    (∀ items, (atom ending items).TakesClosed items) := by
  apply concatenation.mutual_induct ending
  -- atoms joined
  · intro items left hparse _
    rw [concatenation, hparse]
    trivial
  · intro items left rest fits hparse hfirst hmore
    rw [concatenation, hparse]
    rw [hparse] at hfirst
    obtain ⟨front, hwords, hfront⟩ := hfirst
    exact (hmore.behind hfront hwords).widen fits
  -- the rest of a concatenation
  · intro left stop rest right hparse _
    rw [concatenationRest, hparse]
    trivial
  · intro left stop rest right more fits hparse hfirst hmore
    rw [concatenationRest, hparse]
    rw [hparse] at hfirst
    obtain ⟨front, hwords, hfront⟩ := hfirst
    have hopened : opened (.token (.operator .add) :: front) = 0 := by
      simp [Symbol.weight, hfront]
    refine (hmore.behind hopened ?_).widen _
    rw [words_cons, hwords]
    rfl
  · intro left items hadd
    rw [concatenationRest]
    · exact ⟨[], rfl, rfl⟩
    · exact hadd
  -- an atom
  · intro s stop rest
    rw [atom]
    exact ⟨[.token (.text s)], rfl, rfl⟩
  · intro name args closed stop rest
    rw [atom]
    exact ⟨[.call name args 0], rfl, rfl⟩
  · intro stop rest hinner
    rw [atom]
    exact (hinner.closing ending).widen _
  · intro name stop rest
    rw [atom, named]
    split
    · trivial
    · exact ⟨[.token (.identifier name)], rfl, rfl⟩
  -- an atom that takes nothing
  · intro items htext hcall hparen hnamed
    rw [atom]
    · exact takesClosed_nothing ending items
    all_goals assumption

/-- The outline of a text formula. -/
def outline (formula : String) : Outline :=
  .ofText (fun _ => false) formula

/-- A formula without failures, in which no semicolon stands by itself, is one concatenation. -/
theorem concatenation_of_isWhole {f : String} (hwhole : (ofFormula f).isWhole = true)
    (hquote : '"' ∉ f.toList) (hsemi : Shielded ';' f.toList) :
    (outline f).ending.cause = .complete ∧
      ∃ fits, concatenation (outline f).ending (outline f).items = .done (ofFormula f) [] fits := by
  have htree : sequencing.ofOutline (outline f) = ofFormula f := ofOutline_sequencing (outline f)
  have hwhole' : sequencing.isWhole (sequencing.ofOutline (outline f)) = true := by
    rw [htree]
    exact hwhole
  cases hparse : concatenation (outline f).ending (outline f).items with
  | stuck tree =>
    rw [Sequencing.ofOutline_of_stuck hparse, Sequencing.isWhole_of_stuck hparse] at hwhole'
    exact absurd hwhole' (by simp)
  | done first rest fits =>
    rw [Sequencing.ofOutline_of_done hparse] at hwhole' htree
    obtain ⟨hcomplete, hhead⟩ := Sequencing.of_isWhole_tail hwhole'
    have htakes := (takesClosed_parse (outline f).ending).1 (outline f).items
    rw [hparse] at htakes
    obtain ⟨front, hwords, hfront⟩ := htakes
    cases hrest : words rest with
    | nil =>
      obtain rfl := words_eq_nil.mp hrest
      rw [Sequencing.tail_other (by simp), hcomplete] at htree
      exact ⟨hcomplete, fits, by rw [← htree]; rfl⟩
    | cons s back =>
      rw [hrest] at hhead hwords
      obtain rfl : s = .token .semicolon := hhead s rfl
      have hread : Says (fun _ => false) f.toList (front ++ .token .semicolon :: back) :=
        says_iff.mpr ⟨hcomplete, hwords⟩
      exact absurd hsemi (hread.not_shielded_of_opened hquote hfront)

/-- A text that is one concatenation has its tree. -/
theorem ofOutline_concatenation {o : Outline} {tree : TextTree} {fits}
    (hcomplete : o.ending.cause = .complete)
    (hparse : concatenation o.ending o.items = .done tree [] fits) : ofOutline o = tree := by
  simp [ofOutline, hparse, sequenceRest, hcomplete]

/-- Between parentheses a concatenation is an atom with the tree that it has alone. -/
theorem atom_parens {ending ending' : Ending} {items items' : List Item} {tree : TextTree} {fits}
    {vs : List Symbol} (hparse : concatenation ending items = .done tree [] fits)
    (hwords : words items' =
      .token .leftParen :: (words items ++ .token .rightParen :: vs)) :
    ∃ tree' rest fits', atom ending' items' = .done tree' rest fits' ∧
      tree'.unplaced = tree.unplaced ∧ words rest = vs := by
  obtain ⟨stop, inner, rfl, hinner⟩ := words_eq_token.mp hwords
  have hbeyond : ending.Beyond ending' (.token .rightParen :: vs) := .inr ⟨_, vs, .inr rfl, rfl⟩
  have hextends := (parse_extends hbeyond).1 items inner hinner
  rw [hparse] at hextends
  obtain ⟨tree', rest, fits', hparse', htree, hrest⟩ := hextends
  obtain ⟨stop', behind, rfl, hbehind⟩ := words_eq_token.mp hrest
  rw [atom, hparse']
  exact ⟨tree', behind, _, rfl, htree, hbehind⟩

end TextTree

-- ---------------------------------------------------------------------------
-- Sums
-- ---------------------------------------------------------------------------

/-- Formulas between parentheses, with plus signs between them. -/
def writtenSum (formulas : List String) : String :=
  "+".intercalate (formulas.map fun f => "(" ++ f ++ ")")

/-- The characters of further summands. -/
def summands : List String → List Char
  | [] => []
  | f :: fs => '+' :: '(' :: (f.toList ++ ')' :: summands fs)

/-- The words of further summands. -/
def summandWords : List String → List Symbol
  | [] => []
  | f :: fs => .token (.operator .add) :: .token .leftParen ::
      (words (TextTree.outline f).items ++ .token .rightParen :: summandWords fs)

theorem toList_writtenSum (f : String) (fs : List String) :
    (writtenSum (f :: fs)).toList = '(' :: (f.toList ++ ')' :: summands fs) := by
  induction fs generalizing f with
  | nil => simp [writtenSum, summands]
  | cons g fs ih =>
    have hmore := ih g
    rw [writtenSum, List.map_cons] at hmore
    rw [writtenSum, List.map_cons, List.map_cons, String.intercalate_cons_cons,
      String.toList_append, hmore]
    simp [summands]

namespace Outline

variable {f : String} {fs : List String}

/-- The words behind a summand. -/
theorem says_summands (h : ∀ f ∈ fs, (TextTree.outline f).ending.cause = .complete) :
    Says (fun _ => false) (')' :: summands fs) (.token .rightParen :: summandWords fs) := by
  induction fs with
  | nil => exact .closing _
  | cons f fs ih =>
    have hf : Says (fun _ => false) f.toList (words (TextTree.outline f).items) :=
      says_iff.mpr ⟨h f (by simp), rfl⟩
    have hmore := ih fun g hg => h g (List.mem_cons_of_mem _ hg)
    exact .cons (.token rfl (by simp)) (.cons (.token rfl (by simp)) (hf.parens hmore))

/-- A sum of formulas that can be read has their words, between parentheses. -/
theorem says_writtenSum (h : ∀ g ∈ f :: fs, (TextTree.outline g).ending.cause = .complete) :
    Says (fun _ => false) (writtenSum (f :: fs)).toList
      (.token .leftParen ::
        (words (TextTree.outline f).items ++ .token .rightParen :: summandWords fs)) := by
  have hf : Says (fun _ => false) f.toList (words (TextTree.outline f).items) :=
    says_iff.mpr ⟨h f (by simp), rfl⟩
  rw [toList_writtenSum]
  exact hf.parens (says_summands fun g hg => h g (List.mem_cons_of_mem _ hg))

end Outline

end Formulae.Grammar
