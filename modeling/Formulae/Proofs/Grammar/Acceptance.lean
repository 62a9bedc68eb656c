import Formulae.Proofs.Grammar.Locality

/-!
# What is derivable is parsed

A derivation is made as the grammar says, and so are parts: the tokens of a derivation are a part of
its kind. When they are all there is, the parser therefore takes them all. Nothing is said here of
the tree, which has to be that of the only derivation there is.

Main results: `Derivation.part`, by induction on the derivation, and `Derivation.accepted`.
-/

namespace Formulae.Grammar

mutual

/-- The tokens of a derivation are a part. -/
theorem Derivation.part {c : Category} (d : Derivation c) :
    ∃ tree, Part c (d.tokens.map .token) tree := by
  match d with
  | .chain first more =>
    obtain ⟨left, hfirst⟩ := first.part
    obtain ⟨tree, hmore⟩ := more.onward left
    rw [Derivation.tokens, List.map_append]
    exact ⟨tree, hfirst.chain hmore⟩
  | .prefixed known operand =>
    obtain ⟨tree, hoperand⟩ := operand.part
    exact ⟨_, hoperand.prefixed (prefix?_eq_some_iff.mpr known)⟩
  | .unprefixed operand =>
    obtain ⟨tree, hoperand⟩ := operand.part
    refine ⟨tree, hoperand.unprefixed ?_⟩
    -- no operator stands in front
    obtain ⟨t, ts, hts, ht⟩ := operand.tokens_power
    rw [hts]
    intro s hs
    obtain rfl := Option.some.inj hs
    rw [Option.eq_none_iff_forall_ne_some]
    exact fun op hop => ht op (prefix?_eq_some_iff.mp hop)
  | .base base =>
    obtain ⟨tree, hbase⟩ := base.part
    exact ⟨tree, hbase.base⟩
  | .power base exponent =>
    obtain ⟨left, hbase⟩ := base.part
    obtain ⟨right, hexponent⟩ := exponent.part
    rw [Derivation.tokens, List.map_append, List.map_cons]
    exact ⟨_, hbase.power rfl hexponent⟩
  | .integer n => exact ⟨_, .integer n⟩
  | .double x => exact ⟨_, .double x⟩
  | .name name => exact ⟨_, .named name⟩
  | .parens inner =>
    obtain ⟨tree, hinner⟩ := inner.part
    rw [Derivation.tokens, List.map_cons, List.map_append]
    exact ⟨tree, hinner.parens⟩

/-- Whatever a chain goes on with is parsed behind any tree. -/
theorem Continuation.onward {level : Level} (m : Continuation level) (left : NumericTree) :
    ∃ tree, Onward level left (m.tokens.map .token) tree := by
  match m with
  | .done => exact ⟨left, .done⟩
  | .join known operand more =>
    obtain ⟨right, hoperand⟩ := operand.part
    obtain ⟨tree, hmore⟩ := more.onward _
    rw [Continuation.tokens, List.map_cons, List.map_append]
    exact ⟨tree, .join known hoperand hmore⟩

end

theorem Spells.words {items : List Item} {ts : List Token} (h : Spells items ts) :
    words items = ts.map .token := by
  have hunplaced := congrArg (List.map Symbol.unplaced) h
  rwa [List.map_map, List.map_map] at hunplaced

/-- On the tokens of a derivation the parser does not get stuck, and leaves nothing. -/
theorem Derivation.accepted {ending : Ending} (hend : ending.cause ≠ .openLiteral)
    (d : Derivation (.chain .sequence)) {items : List Item} (hitems : Spells items d.tokens) :
    ∃ tree fits, NumericTree.chain ending .sequence items = .done tree [] fits := by
  obtain ⟨tree, hpart⟩ := d.part
  have hwords : words items = d.tokens.map .token ++ [] := by
    rw [hitems.words, List.append_nil]
  obtain ⟨t, rest, fits, hparse, -, hrest⟩ := (hpart.parsed hwords (.nil hend)).exists_done
  obtain rfl := words_eq_nil.mp hrest
  exact ⟨t, fits, hparse⟩

end Formulae.Grammar
