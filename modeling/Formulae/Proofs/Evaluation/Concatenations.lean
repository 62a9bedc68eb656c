import Formulae.Proofs.Grammar.Summands
import Formulae.Proofs.Evaluation.Joining
import Formulae.Proofs.Evaluation.Placement
import Formulae.Proofs.Evaluation.Registration

/-!
# Three ways to concatenate

Texts are concatenated by `+` between formulas in parentheses, and by two built-in functions that
have the same formulas as arguments. The operands of `+` are parsed where they stand; the arguments
of the functions are cut out as texts, cleaned, and parsed by themselves. The tree of an operand is
the one that the formula has alone, and so all three have the same text with the same requests.

Main results:

* `Engine.calculatesText_writtenSum` — the text of formulas with `+` between them.
* `Engine.calculatesText_three_ways` — it is that of both calls, and both stop at the same argument.
-/

namespace Formulae

open Grammar Arguments

namespace Engine

variable {e : Engine} {f : String} {fs texts : List String} {calls cs : List ProviderCall}
  {s : String}

-- ---------------------------------------------------------------------------
-- Trees
-- ---------------------------------------------------------------------------

/-- The tree has this text, with these requests, wherever it stands. -/
def HasText (e : Engine) (tree : TextTree) (calls : List ProviderCall) (s : String) : Prop :=
  e.Settles (tree.unplaced.evaluate e.context "") ⟨calls, .value s⟩

/-- Places do not matter for the text of a tree. -/
theorem HasText.congr {tree tree' : TextTree} (h : e.HasText tree calls s)
    (hsame : tree'.unplaced = tree.unplaced) : e.HasText tree' calls s := by
  rw [HasText, hsame]
  exact h

/-- The texts of two trees are joined, and their requests follow one another. -/
theorem HasText.append {left right : TextTree} {t : String} (hleft : e.HasText left calls s)
    (hright : e.HasText right cs t) :
    e.HasText (.append left right) (calls ++ cs) (s ++ t) := by
  have hbehind : e.Settles ((right.unplaced.evaluate e.context "").bind fun r => .value (s ++ r))
      ⟨cs, .value (s ++ t)⟩ :=
    settles_map_iff.mpr ⟨t, hright, rfl⟩
  exact Settles.bind (f := fun l => (right.unplaced.evaluate e.context "").bind fun r =>
    .value (l ++ r)) hleft hbehind

/-- A clean formula has the text of its tree. -/
theorem calculatesText_iff_hasText (hclean : cleanFormula f = f) :
    e.CalculatesText f ⟨calls, .value s⟩ ↔ e.HasText (TextTree.ofFormula f) calls s := by
  rw [calculatesText_iff_settles, textProgram, hclean, ← settles_unplaced_iff,
    TextTree.unplaced_evaluate, HasText]

-- ---------------------------------------------------------------------------
-- Summands
-- ---------------------------------------------------------------------------

/-- A clean argument of a call that can be put between parentheses: it has no double quotes, and no
semicolon stands by itself in it. -/
structure IsSummand (f : String) : Prop where
  wellFormed : WellFormed f
  clean : cleanFormula f = f
  unquoted : '"' ∉ f.toList
  apart : Shielded ';' f.toList

instance (f : String) : Decidable (IsSummand f) :=
  decidable_of_iff (WellFormed f ∧ cleanFormula f = f ∧ '"' ∉ f.toList ∧ Shielded ';' f.toList)
    ⟨fun ⟨wellFormed, clean, unquoted, apart⟩ => ⟨wellFormed, clean, unquoted, apart⟩,
      fun h => ⟨h.wellFormed, h.clean, h.unquoted, h.apart⟩⟩

/-- A summand with a text is read to its end as one concatenation. -/
theorem IsSummand.concatenation (hf : IsSummand f) (h : e.CalculatesText f ⟨cs, .value s⟩) :
    (TextTree.outline f).ending.cause = .complete ∧
      ∃ fits, TextTree.concatenation (TextTree.outline f).ending (TextTree.outline f).items =
        .done (TextTree.ofFormula f) [] fits := by
  have hsettles := calculatesText_iff_settles.mp h
  rw [textProgram, hf.clean] at hsettles
  exact TextTree.concatenation_of_isWhole (isWhole_of_settlesText hsettles) hf.unquoted hf.apart

/-- Summands with texts are read to their ends. -/
theorem CalculatesTexts.complete (h : e.CalculatesTexts fs calls texts)
    (hfs : ∀ f ∈ fs, IsSummand f) :
    ∀ f ∈ fs, (TextTree.outline f).ending.cause = .complete := by
  induction h with
  | nil => simp
  | cons first _ ih =>
    rw [List.forall_mem_cons] at hfs ⊢
    exact ⟨(hfs.1.concatenation first).1, ih hfs.2⟩

/-- Between parentheses a summand is an atom with its text. -/
theorem IsSummand.atom (hf : IsSummand f) (h : e.CalculatesText f ⟨cs, .value s⟩) {ending : Ending}
    {items : List Item} {vs : List Symbol}
    (hwords : words items = .token .leftParen ::
      (words (TextTree.outline f).items ++ .token .rightParen :: vs)) :
    ∃ tree rest fits, TextTree.atom ending items = .done tree rest fits ∧
      e.HasText tree cs s ∧ words rest = vs := by
  obtain ⟨-, fits, hparse⟩ := hf.concatenation h
  obtain ⟨tree, rest, fits', hatom, htree, hrest⟩ := TextTree.atom_parens hparse hwords
  exact ⟨tree, rest, fits', hatom, ((calculatesText_iff_hasText hf.clean).mp h).congr htree, hrest⟩

/-- Further summands are appended to what stands before them. -/
theorem concatenationRest_summands (hfs : ∀ f ∈ fs, IsSummand f)
    (h : e.CalculatesTexts fs calls texts) (ending : Ending) {left : TextTree} {items : List Item}
    (hleft : e.HasText left cs s) (hwords : words items = summandWords fs) :
    ∃ tree fits, TextTree.concatenationRest ending left items = .done tree [] fits ∧
      e.HasText tree (cs ++ calls) (s ++ String.join texts) := by
  induction h generalizing left items cs s with
  | nil =>
    obtain rfl := words_eq_nil.mp hwords
    refine ⟨left, Nat.le_refl _, ?_, ?_⟩
    · rw [TextTree.concatenationRest]
      simp
    · simpa using hleft
  | @cons f t cs' calls fs texts first _ ih =>
    obtain ⟨stop, behind, rfl, hbehind⟩ := words_eq_token.mp hwords
    obtain ⟨right, rest, fits, hatom, hright, hrest⟩ := (hfs f (by simp)).atom first hbehind
    obtain ⟨tree, fits', hmore, htree⟩ :=
      ih (fun g hg => hfs g (List.mem_cons_of_mem _ hg)) (hleft.append hright) hrest
    refine ⟨tree, Nat.zero_le _, ?_, ?_⟩
    · rw [TextTree.concatenationRest, hatom]
      simp only [hmore, Parsed.widen]
    · rwa [String.join_cons, ← List.append_assoc, ← String.append_assoc]

-- ---------------------------------------------------------------------------
-- Sums
-- ---------------------------------------------------------------------------

/-- A sum of clean summands is clean. -/
theorem cleanFormula_writtenSum (hfs : ∀ f ∈ fs, cleanFormula f = f) (hne : fs ≠ []) :
    cleanFormula (writtenSum fs) = writtenSum fs := by
  induction fs with
  | nil => exact absurd rfl hne
  | cons f fs ih =>
    have hf : cleanFormula ("(" ++ f ++ ")") = "(" ++ f ++ ")" :=
      cleanFormula_closed rfl (hfs f (by simp))
    cases fs with
    | nil => simpa [writtenSum] using hf
    | cons g fs =>
      have hmore := ih (fun k hk => hfs k (List.mem_cons_of_mem _ hk)) (by simp)
      rw [writtenSum, List.map_cons] at hmore ⊢
      rw [List.map_cons, String.intercalate_cons_cons]
      exact cleanFormula_append (cleanFormula_append hf rfl) hmore

/-- The text of summands with `+` between them is theirs in turn. -/
theorem calculatesText_writtenSum (hfs : ∀ f ∈ fs, IsSummand f) (hne : fs ≠ [])
    (h : e.CalculatesTexts fs calls texts) :
    e.CalculatesText (writtenSum fs) ⟨calls, .value (String.join texts)⟩ := by
  rw [calculatesText_iff_hasText (cleanFormula_writtenSum (fun f hf => (hfs f hf).clean) hne)]
  have hcomplete := h.complete hfs
  cases h with
  | nil => exact absurd rfl hne
  | @cons f s cs calls fs texts first more =>
    have hrest : ∀ g ∈ fs, IsSummand g := fun g hg => hfs g (List.mem_cons_of_mem _ hg)
    let o := TextTree.outline (writtenSum (f :: fs))
    obtain ⟨hread, hwords⟩ : o.ending.cause = .complete ∧ words o.items = _ :=
      Outline.says_iff.mp (Outline.says_writtenSum hcomplete)
    obtain ⟨left, rest, fits, hatom, hleft, hbehind⟩ := (hfs f (by simp)).atom first hwords
    obtain ⟨tree, fits', hmore, htree⟩ :=
      concatenationRest_summands hrest more o.ending hleft hbehind
    have hparse : TextTree.concatenation o.ending o.items = .done tree [] (Nat.zero_le _) := by
      rw [TextTree.concatenation, hatom]
      simp only [hmore, Parsed.widen]
    have hformula : TextTree.ofFormula (writtenSum (f :: fs)) = tree :=
      TextTree.ofOutline_concatenation hread hparse
    rw [hformula, String.join_cons]
    exact htree

-- ---------------------------------------------------------------------------
-- Three ways
-- ---------------------------------------------------------------------------

/-- Formulas joined by `+` between parentheses, by a call that concatenates, and by a call that sums
up: if all of them have texts, the text of all three is theirs in turn, with their requests. If one
has none, both calls end as the first such one does, after the requests of those before it. -/
theorem calculatesText_three_ways (e : Engine) {args : List String}
    (hargs : ∀ arg ∈ args, IsSummand arg) (hcount : 2 ≤ args.length) {joined summed : String}
    (hjoined : IsCall "concatenate" args joined) (hsummed : IsCall "sum" args summed) :
    (∀ calls texts, e.CalculatesTexts args calls texts →
      e.CalculatesText (writtenSum args) ⟨calls, .value (String.join texts)⟩ ∧
        e.CalculatesText joined ⟨calls, .value (String.join texts)⟩ ∧
        e.CalculatesText summed ⟨calls, .value (String.join texts)⟩) ∧
    ∀ front arg back calls texts r, args = front ++ arg :: back →
      e.CalculatesTexts front calls texts → e.CalculatesText arg r →
      (∀ s, r.outcome ≠ .value s) →
      e.CalculatesText joined ⟨calls ++ r.calls, r.outcome⟩ ∧
        e.CalculatesText summed ⟨calls ++ r.calls, r.outcome⟩ := by
  have hconcatenate : isName "concatenate" = true ∧
      Builtin.ofName? "concatenate" = some .concatenate := by decide +kernel
  have hsum : isName "sum" = true ∧ Builtin.ofName? "sum" = some .sum := by decide +kernel
  have hne : args ≠ [] := by
    rintro rfl
    simp at hcount
  refine ⟨fun calls texts h => ⟨calculatesText_writtenSum hargs hne h, ?_, ?_⟩, ?_⟩
  · exact calculatesText_joining hconcatenate.1 hconcatenate.2 (.inl rfl) hjoined hcount h
  · exact calculatesText_joining hsum.1 hsum.2 (.inr rfl) hsummed hcount h
  · rintro front arg back calls texts r rfl h hstops hr
    exact ⟨calculatesText_joining_stops hconcatenate.1 hconcatenate.2 (.inl rfl) hjoined hcount h
        hstops hr,
      calculatesText_joining_stops hsum.1 hsum.2 (.inr rfl) hsummed hcount h hstops hr⟩

/-- A name, nothing, and a formula with quoted signs; and a function that is declined before an
argument that is not read. -/
theorem calculatesText_three_ways_acquainted :
    let asked : List ProviderCall := [⟨0, .textValue "s"⟩, ⟨1, .textValue "s"⟩]
    (acquainted.CalculatesText "(s)+()+(left('a;(b', 2) + (s))" ⟨asked ++ asked, .value "aa;a"⟩ ∧
      acquainted.CalculatesText "concatenate(s, , left('a;(b', 2) + (s))"
        ⟨asked ++ asked, .value "aa;a"⟩ ∧
      acquainted.CalculatesText "sum(s, , left('a;(b', 2) + (s))"
        ⟨asked ++ asked, .value "aa;a"⟩) ∧
    ∃ calls err, err.kind = .externalFunctionError ∧
      acquainted.CalculatesText "concatenate(s, nobody('b', t), x)"
        ⟨asked ++ calls, .error err⟩ ∧
      acquainted.CalculatesText "sum(s, nobody('b', t), x)" ⟨asked ++ calls, .error err⟩ := by
  intro asked
  have hname : acquainted.CalculatesText "s" ⟨asked, .value "a"⟩ :=
    ⟨3, by decide +kernel, by simp⟩
  constructor
  · have hargs : ∀ arg ∈ ["s", "", "left('a;(b', 2) + (s)"], IsSummand arg := by decide +kernel
    have hcalls : ∀ name, IsCall name ["s", "", "left('a;(b', 2) + (s)"]
        (writtenCall name ["s", "", "left('a;(b', 2) + (s)"]) :=
      fun _ => isCall_of_wellFormed fun arg harg => (hargs arg harg).wellFormed
    have hnothing : acquainted.CalculatesText "" ⟨[], .value ""⟩ := ⟨3, by decide +kernel, by simp⟩
    have hsigns : acquainted.CalculatesText "left('a;(b', 2) + (s)" ⟨asked, .value "a;a"⟩ :=
      ⟨3, by decide +kernel, by simp⟩
    exact (calculatesText_three_ways acquainted hargs (by decide) (hcalls _) (hcalls _)).1 _ _
      (.cons hname (.cons hnothing (.cons hsigns .nil)))
  · have hargs : ∀ arg ∈ ["s", "nobody('b', t)", "x"], IsSummand arg := by decide +kernel
    have hcalls : ∀ name, IsCall name ["s", "nobody('b', t)", "x"]
        (writtenCall name ["s", "nobody('b', t)", "x"]) :=
      fun _ => isCall_of_wellFormed fun arg harg => (hargs arg harg).wellFormed
    have hdeclined : acquainted.CalculatesText "nobody('b', t)"
        ⟨[⟨0, .textFunction "nobody" ["'b'", "t"]⟩, ⟨1, .textFunction "nobody" ["'b'", "t"]⟩],
          .error ⟨.externalFunctionError, some "nobody", "nobody('b', t)", 14⟩⟩ :=
      ⟨3, by decide +kernel, by simp⟩
    exact ⟨_, _, rfl, (calculatesText_three_ways acquainted hargs (by decide) (hcalls _)
      (hcalls _)).2 ["s"] _ ["x"] _ _ _ rfl (.cons hname .nil) hdeclined (by simp)⟩

end Engine

end Formulae
