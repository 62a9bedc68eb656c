import Formulae.Proofs.Grammar.Agreement
import Formulae.Proofs.Evaluation.WrittenCalls
import Formulae.Proofs.Evaluation.Placement

/-!
# Operands in place and arguments

The operand of a mathematical function is parsed where it stands, up to a closing parenthesis. The
argument of a built-in function is cut out by the scans and is a formula of its own. For a text that
the scans keep together both come to the same, so long as no semicolon stands in it by itself: that
makes a formula of two, but does not belong to an operand.

Main results:

* `Engine.calculates_inPlace_iff` — a function in place is applied to the value of its operand as a
  formula.
* `Engine.calculates_int_iff_floor` — `int` and `floor` agree.
-/

namespace Formulae

open Grammar Outline Arguments

variable {name f : String} {g : MathFunction} {ws : List Symbol} {cs : List Char}

-- ---------------------------------------------------------------------------
-- Reading a function in place
-- ---------------------------------------------------------------------------

namespace Grammar

/-- The name of a function in place is a word by itself. -/
theorem scan_inPlace (hname : isName name = true) (hkeeps : keepsOperand name = true) :
    scan (name.toList ++ '(' :: cs) = (.token (.identifier name), '(' :: cs) ∧
      ∀ other, Token.identifier name = .identifier other →
        keepsOperand other = true ∨ openParen? ('(' :: cs) = none := by
  constructor
  · refine scan_name hname fun c hc => ?_
    obtain rfl := Option.some.inj hc
    decide +kernel
  · intro other hother
    obtain rfl := Token.identifier.inj hother
    exact .inl hkeeps

/-- If such a formula has a whole tree, its operand stands before a closing parenthesis. -/
theorem exists_operand (hname : isName name = true) (hkeeps : keepsOperand name = true)
    (hg : MathFunction.ofName? name = some g) (hlist : f.toList = name.toList ++ '(' :: cs)
    (hwhole : (NumericTree.ofFormula f).isWhole = true) :
    ∃ front back tree, Says keepsOperand cs (front ++ .token .rightParen :: back) ∧
      Part (.chain .bitwise) front tree := by
  have hcomplete := (stands_of_isWhole hwhole).complete
  obtain ⟨hscan, hplain⟩ := @scan_inPlace name cs hname hkeeps
  have hparen : scan ('(' :: cs) = (.token .leftParen, cs) := rfl
  rw [NumericTree.ofFormula, Outline.ofText, hlist, readFrom_token hscan hplain,
    readFrom_token hparen (by simp)] at hwhole
  rw [Outline.ofText, hlist, readFrom_token hscan hplain, readFrom_token hparen (by simp)]
    at hcomplete
  obtain ⟨front, back, tree, hwords, hpart⟩ := operand_of_isWhole hg hwhole
  exact ⟨front, back, tree, says_iff.mpr ⟨hcomplete, hwords⟩, hpart⟩

end Grammar

-- ---------------------------------------------------------------------------
-- Values
-- ---------------------------------------------------------------------------

namespace Engine

variable {e : Engine} {calls : List ProviderCall} {v : Float}

/-- A formula that has a value, and in which no semicolon stands by itself, is a chain of operators
with that value. -/
theorem Calculates.exists_bitwise (h : e.Calculates f ⟨calls, .value v⟩) (hf : IsArgument f)
    (hsemi : Shielded ';' f.toList) :
    ∃ ws tree, Says keepsOperand f.toList ws ∧ Part (.chain .bitwise) ws tree := by
  obtain ⟨ws, tree, hsaid, hpart, -⟩ := h.exists_part hf.clean
  obtain ⟨-, rfl⟩ := (@says_iff _ _ _ 0).mp hsaid
  rcases hpart.bitwise_or_semicolon with hbitwise | ⟨front, back, hwords, hclosed⟩
  · exact ⟨_, tree, hsaid, hbitwise⟩
  · rw [hwords] at hsaid
    exact absurd hsemi (hsaid.not_shielded hf.closed hclosed)

/-- A function in place is applied to the value that its operand has as a formula. -/
theorem calculates_inPlace_iff (hname : isName name = true) (hkeeps : keepsOperand name = true)
    (hg : MathFunction.ofName? name = some g) (hf : IsArgument f) (hsemi : Shielded ';' f.toList) :
    e.Calculates (name ++ "(" ++ f ++ ")") ⟨calls, .value v⟩ ↔
      ∃ x, e.Calculates f ⟨calls, .value x⟩ ∧ g.apply x = v := by
  have hclean : cleanFormula (name ++ "(" ++ f ++ ")") = name ++ "(" ++ f ++ ")" :=
    cleanFormula_closed (cleanFormula_append (isArgument_name hname).clean rfl) hf.clean
  have hlist : (name ++ "(" ++ f ++ ")").toList = name.toList ++ '(' :: (f.toList ++ [')']) := by
    simp
  -- once the operand is known, the formula has its value changed
  have hoperand : ∀ {ws tree}, Says keepsOperand f.toList ws → Part (.chain .bitwise) ws tree →
      (e.Calculates (name ++ "(" ++ f ++ ")") ⟨calls, .value v⟩ ↔
        ∃ x, e.Calculates f ⟨calls, .value x⟩ ∧ g.apply x = v) := by
    intro ws tree hsaid hpart
    have hterm := (Part.apply hg hpart).ofTerm (by simp [Symbol.prefix?]) (.chain .sequence)
    obtain ⟨hscan, hplain⟩ := @scan_inPlace name (f.toList ++ [')']) hname hkeeps
    have hclosed : Says keepsOperand (f.toList ++ [')']) (ws ++ [.token .rightParen]) :=
      hsaid.append (by simp [Ends]) (.closing keepsOperand)
    have hwhole : Says keepsOperand (name ++ "(" ++ f ++ ")").toList
        (.token (.identifier name) :: .token .leftParen :: (ws ++ [.token .rightParen])) := by
      rw [hlist]
      exact .cons (.token hscan hplain) (.cons (.token rfl (by simp)) hclosed)
    rw [calculates_iff_part hclean hwhole hterm]
    simp only [calculates_iff_part hf.clean hsaid (.ofChain .bitwise hpart)]
    exact settles_map_iff
  constructor
  · intro h
    have hsettles := calculates_iff_settles.mp h
    rw [numericProgram, hclean] at hsettles
    obtain ⟨front, back, tree, hsaid, hpart⟩ :=
      exists_operand hname hkeeps hg hlist (isWhole_of_settles hsettles)
    obtain ⟨rfl, hinner⟩ := hsaid.of_close hf.closed hpart.closed
    exact (hoperand hinner hpart).mp h
  · rintro ⟨x, hx, hvalue⟩
    obtain ⟨ws, tree, hsaid, hpart⟩ := hx.exists_bitwise hf hsemi
    exact (hoperand hsaid hpart).mpr ⟨x, hx, hvalue⟩

/-- A call of `floor` goes down from the value that its argument has as a formula. -/
theorem calculates_floor_iff (hf : IsArgument f) :
    e.Calculates ("floor(" ++ f ++ ")") ⟨calls, .value v⟩ ↔
      ∃ x, e.Calculates f ⟨calls, .value x⟩ ∧ Number.floor x = v := by
  have hwritten : "floor(" ++ f ++ ")" = writtenCall Builtin.floor.name [f] := by
    rw [writtenCall, String.intercalate_singleton]
    rfl
  obtain ⟨position, hprogram⟩ :=
    @numericProgram_builtin e.context .floor [f] (by simpa using hf)
  rw [calculates_iff_settles, hwritten, hprogram]
  simp only [← settles_evaluate_iff]
  exact settles_map_iff

/-- The value of `int` of a formula, parsed in place, and that of `floor`, which cuts it out, are
the same, and are found with the same requests. -/
theorem calculates_int_iff_floor (hclean : cleanFormula f = f) (hne : f ≠ "") (hf : WellFormed f)
    (hsemi : Shielded ';' f.toList) (calls : List ProviderCall) (v : Float) :
    e.Calculates ("int(" ++ f ++ ")") ⟨calls, .value v⟩ ↔
      e.Calculates ("floor(" ++ f ++ ")") ⟨calls, .value v⟩ := by
  have harg := isArgument_iff.mpr ⟨hf, hclean, hne⟩
  have hint := @calculates_inPlace_iff "int" f .int e calls v (by decide +kernel)
    (by decide +kernel) (by decide +kernel) harg hsemi
  rw [calculates_floor_iff harg]
  exact hint

/-- An engine whose provider knows a number. -/
def chopping : Engine :=
  { providers := [ProviderTable.provider { values := [("x", .number 4.0)] }] }

/-- A semicolon in a literal, one between parentheses, and a call with a parenthesis in quotes. -/
theorem calculates_int_iff_floor_chopping :
    Shielded ';' "x - len('a;)b') / (2; 3)".toList ∧
      chopping.Calculates "int(x - len('a;)b') / (2; 3))" ⟨[⟨0, .value "x"⟩], .value 2.0⟩ ∧
      chopping.Calculates "floor(x - len('a;)b') / (2; 3))" ⟨[⟨0, .value "x"⟩], .value 2.0⟩ := by
  have hsemi : Shielded ';' "x - len('a;)b') / (2; 3)".toList := by decide +kernel
  have hint : chopping.Calculates "int(x - len('a;)b') / (2; 3))" ⟨[⟨0, .value "x"⟩], .value 2.0⟩ :=
    ⟨2, by decide +kernel, by simp⟩
  exact ⟨hsemi, hint, (calculates_int_iff_floor (by decide +kernel) (by decide)
    (by decide +kernel) hsemi _ _).mp hint⟩

end Engine

end Formulae
