import Formulae.Proofs.Grammar.Reading

/-!
# What a formula is written with

An outline holds nothing that is not written in the formula: every item is a word that is read
somewhere in the text. So the name of a call stands in the text, and where two numbers are compared
one of the three signs that comparisons are written with does.

Main results:

* `scan_identifier`, `scan_comparison` — what names and comparisons are written with.
* `Outline.exists_step` — every item is read somewhere in the text.
-/

namespace Formulae.Grammar

variable {cs rest : List Char}

-- ---------------------------------------------------------------------------
-- Tokens
-- ---------------------------------------------------------------------------

/-- A name stands in the text that it is read from. -/
theorem scan_identifier {name : String} (h : scan cs = (.token (.identifier name), rest)) :
    name.toList <:+: cs := by
  obtain ⟨spaces, word, rfl, hword, -⟩ := scan_eq_token_iff.mp h
  cases hword with
  | sign h => simp [signs] at h
  | identifier =>
    rw [String.toList_ofList]
    exact ⟨_, _, rfl⟩

/-- An operator that compares is written with `<`, `>` or `=`. -/
theorem scan_comparison {op : Operator} (h : scan cs = (.token (.operator op), rest))
    (hop : (op.chained? .comparison).isSome = true) : '<' ∈ cs ∨ '>' ∈ cs ∨ '=' ∈ cs := by
  have hall : ∀ s ∈ signs, (∃ op, s.2 = .operator op ∧ (op.chained? .comparison).isSome = true) →
      '<' ∈ s.1 ∨ '>' ∈ s.1 ∨ '=' ∈ s.1 := by
    simp [signs, Operator.chained?]
  obtain ⟨spaces, word, rfl, hword, -⟩ := scan_eq_token_iff.mp h
  cases hword with
  | sign h => rcases hall _ h ⟨op, rfl, hop⟩ with hmem | hmem | hmem <;> simp [hmem]

-- ---------------------------------------------------------------------------
-- Items
-- ---------------------------------------------------------------------------

namespace Outline

/-- Every item of an outline is the first word of an end of the text. -/
theorem exists_step {inPlace : String → Bool} {offset : Nat} {item : Item}
    (h : item ∈ (readFrom inPlace offset cs).items) :
    ∃ s cs' rest, item.symbol.unplaced = s ∧ cs' <:+ cs ∧ Step inPlace cs' s rest := by
  induction hlen : cs.length using Nat.strongRecOn generalizing cs offset with
  | ind length ih =>
    subst hlen
    rcases step_or_stop inPlace cs offset with ⟨s, rest, hstep⟩ | ⟨hnone, -⟩
    · obtain ⟨first, hfirst, hread⟩ := hstep.readFrom offset
      rw [hread] at h
      rcases List.mem_cons.mp h with rfl | hlater
      · exact ⟨s, cs, rest, hfirst, List.suffix_rfl, hstep⟩
      · obtain ⟨hsuffix, hshorter⟩ := hstep.suffix
        obtain ⟨s', cs', rest', hs', hcs', hstep'⟩ := ih rest.length hshorter hlater rfl
        exact ⟨s', cs', rest', hs', hcs'.trans hsuffix, hstep'⟩
    · rw [hnone] at h
      simp at h

end Outline

end Formulae.Grammar
