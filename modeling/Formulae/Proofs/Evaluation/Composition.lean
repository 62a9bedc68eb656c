import Formulae.Proofs.Evaluation.Cleaning
import Formulae.Proofs.Evaluation.Placement

/-!
# Formulas made of formulas

A formula that has a value is a part, and has the same value in parentheses inside another formula,
with whatever calls, names, literals and semicolons it holds. So what is made of two formulas with
an operation between them has the value of the operation for theirs, and the requests of both in
turn.

Main results:

* `Grammar.Part.binary` — two terms with an operator between them are a formula.
* `Engine.calculates_composed` — the value of an operation between formulas, or before one.
-/

namespace Formulae

open Grammar Outline

-- ---------------------------------------------------------------------------
-- Signs
-- ---------------------------------------------------------------------------

namespace Grammar

/-- The operator that is read for an operation between two numbers. -/
def BinaryOperation.operator : BinaryOperation → Operator
  | or => .or
  | xor => .xor
  | and => .and
  | less => .less
  | atMost => .atMost
  | equal => .equal
  | different => .different
  | atLeast => .atLeast
  | greater => .greater
  | add => .add
  | subtract => .subtract
  | multiply => .multiply
  | divide => .divide
  | modulo => .modulo
  | percent => .percent
  | power => .power

/-- How an operation between two numbers is written. -/
def BinaryOperation.sign : BinaryOperation → String
  | or => "|"
  | xor => "^"
  | and => "&"
  | less => "<"
  | atMost => "<="
  | equal => "=="
  | different => "<>"
  | atLeast => ">="
  | greater => ">"
  | add => "+"
  | subtract => "-"
  | multiply => "*"
  | divide => "/"
  | modulo => "%"
  | percent => "%%"
  | power => "**"

/-- The operator that is read for an operation before a number. -/
def PrefixOperation.operator : PrefixOperation → Operator
  | not => .not
  | invert => .invert
  | plus => .add
  | minus => .subtract

/-- How an operation before a number is written. -/
def PrefixOperation.sign : PrefixOperation → String
  | not => "!"
  | invert => "~"
  | plus => "+"
  | minus => "-"

variable {wf wg : List Symbol} {f g : NumericTree}

/-- Every operation but the power is a sign of a level. -/
theorem BinaryOperation.exists_level (op : BinaryOperation) : op = .power ∨
    ∃ level : Level, (.operator op.operator, .apply op) ∈ level.signs := by
  cases op
  case or | xor | and => exact .inr ⟨.bitwise, by simp [operator, Level.signs]⟩
  case less | atMost | equal | different | atLeast | greater =>
    exact .inr ⟨.comparison, by simp [operator, Level.signs]⟩
  case add | subtract => exact .inr ⟨.additive, by simp [operator, Level.signs]⟩
  case multiply | divide | modulo | percent =>
    exact .inr ⟨.multiplicative, by simp [operator, Level.signs]⟩
  case power => exact .inl rfl

/-- Two terms with an operator between them are a formula. -/
theorem Part.binary (op : BinaryOperation) (hf : Part .term wf f) (hg : Part .term wg g)
    (hheadf : ∀ s ∈ wf.head?, s.prefix? = none) (hheadg : ∀ s ∈ wg.head?, s.prefix? = none) :
    Part (.chain .sequence) (wf ++ .token (.operator op.operator) :: wg) (.binary op f g) := by
  rcases op.exists_level with rfl | ⟨level, known⟩
  · have hpower := hf.power (s := .token (.operator .power)) rfl hg
    have hhead : ∀ s ∈ (wf ++ .token (.operator .power) :: wg).head?, s.prefix? = none := by
      obtain ⟨s, ss, rfl⟩ := List.exists_cons_of_ne_nil hf.base.ne_nil
      exact hheadf
    exact .ofChain .multiplicative (.single _ (hpower.unprefixed hhead))
  · have hmore : Onward level f (.token (.operator op.operator) :: (wg ++ [])) (.binary op f g) :=
      .join known (hg.ofTerm hheadg level.operand) .done
    rw [List.append_nil] at hmore
    exact .ofChain level ((hf.ofTerm hheadf level.operand).chain hmore)

/-- In front of a parenthesis the sign of an operation is read as its token. -/
theorem BinaryOperation.scan_sign (op : BinaryOperation) (cs : List Char) :
    scan (op.sign.toList ++ '(' :: cs) = (.token (.operator op.operator), '(' :: cs) := by
  cases op <;> rfl

/-- So is the sign of a prefix operation. -/
theorem PrefixOperation.scan_sign (op : PrefixOperation) (cs : List Char) :
    scan (op.sign.toList ++ '(' :: cs) = (.token (.operator op.operator), '(' :: cs) := by
  cases op <;> rfl

/-- The token of a prefix operation stands for that operation. -/
theorem PrefixOperation.prefix?_operator (op : PrefixOperation) :
    (Symbol.token (.operator op.operator)).prefix? = some op := by
  cases op <;> rfl

theorem BinaryOperation.clean_sign (op : BinaryOperation) : cleanFormula op.sign = op.sign := by
  cases op <;> rfl

theorem PrefixOperation.clean_sign (op : PrefixOperation) : cleanFormula op.sign = op.sign := by
  cases op <;> rfl

end Grammar

-- ---------------------------------------------------------------------------
-- Composed formulas
-- ---------------------------------------------------------------------------

namespace Engine

variable {e : Engine} {f g : String} {cs ds : List ProviderCall} {a b : Float}

/-- An operation settles on its value for those of its operands, from left to right. -/
theorem settles_binary (op : BinaryOperation) {left right : NumericTree}
    (hleft : e.Settles (left.evaluate e.context "") ⟨cs, .value a⟩)
    (hright : e.Settles (right.evaluate e.context "") ⟨ds, .value b⟩) :
    e.Settles ((NumericTree.binary op left right).evaluate e.context "")
      ⟨cs ++ ds, .value (op.apply e.settings.decimalNumbers a b)⟩ := by
  let result : Float → Float → Program Float := fun l r =>
    .value (op.apply e.settings.decimalNumbers l r)
  have hsecond : e.Settles ((right.evaluate e.context "").bind (result a)) _ :=
    hright.bind (e.settles_value _)
  have hboth := hleft.bind (f := fun l => (right.evaluate e.context "").bind (result l)) hsecond
  rwa [List.append_nil] at hboth

/-- A prefix operation is applied to the value of its operand. -/
theorem settles_prefixed (op : PrefixOperation) {operand : NumericTree}
    (h : e.Settles (operand.evaluate e.context "") ⟨cs, .value a⟩) :
    e.Settles ((NumericTree.prefixed op operand).evaluate e.context "")
      ⟨cs, .value (op.apply a)⟩ := by
  have hresult := h.bind (f := fun x => .value (op.apply x)) (e.settles_value _)
  rwa [List.append_nil] at hresult

/-- A formula in parentheses, an operation and another formula in parentheses. -/
theorem Calculates.binary (hcleanf : cleanFormula f = f) (hcleang : cleanFormula g = g)
    (hf : e.Calculates f ⟨cs, .value a⟩) (hg : e.Calculates g ⟨ds, .value b⟩)
    (op : BinaryOperation) :
    e.Calculates ("(" ++ f ++ ")" ++ op.sign ++ "(" ++ g ++ ")")
      ⟨cs ++ ds, .value (op.apply e.settings.decimalNumbers a b)⟩ := by
  obtain ⟨wf, tf, hsaidf, hpartf, hsettlesf⟩ := hf.exists_part hcleanf
  obtain ⟨wg, tg, hsaidg, hpartg, hsettlesg⟩ := hg.exists_part hcleang
  have hopening : cleanFormula "(" = "(" := rfl
  have hclean : cleanFormula ("(" ++ f ++ ")" ++ op.sign ++ "(" ++ g ++ ")") =
      "(" ++ f ++ ")" ++ op.sign ++ "(" ++ g ++ ")" := by
    have hfirst := cleanFormula_append (cleanFormula_closed hopening hcleanf) op.clean_sign
    exact cleanFormula_closed (cleanFormula_append hfirst hopening) hcleang
  have hlist : ("(" ++ f ++ ")" ++ op.sign ++ "(" ++ g ++ ")").toList =
      '(' :: (f.toList ++ ')' :: (op.sign.toList ++ '(' :: (g.toList ++ [')']))) := by
    simp
  have hsaid : Says keepsOperand ("(" ++ f ++ ")" ++ op.sign ++ "(" ++ g ++ ")").toList
      ((.token .leftParen :: (wf ++ [.token .rightParen])) ++ .token (.operator op.operator) ::
        .token .leftParen :: (wg ++ [.token .rightParen])) := by
    rw [hlist, List.cons_append, List.append_assoc]
    have hsecond := hsaidg.parens (.closing keepsOperand)
    exact hsaidf.parens (.cons (.token rfl (by simp))
      (.cons (.token (op.scan_sign _) (by simp)) hsecond))
  have hpart := Part.binary op hpartf.parens hpartg.parens (by simp [Symbol.prefix?])
    (by simp [Symbol.prefix?])
  exact (calculates_iff_part hclean hsaid hpart).mpr (settles_binary op hsettlesf hsettlesg)

/-- An operation and a formula in parentheses. -/
theorem Calculates.prefixed (hclean : cleanFormula f = f) (h : e.Calculates f ⟨cs, .value a⟩)
    (op : PrefixOperation) :
    e.Calculates (op.sign ++ "(" ++ f ++ ")") ⟨cs, .value (op.apply a)⟩ := by
  obtain ⟨ws, tree, hsaid, hpart, hsettles⟩ := h.exists_part hclean
  have hcleaned : cleanFormula (op.sign ++ "(" ++ f ++ ")") = op.sign ++ "(" ++ f ++ ")" := by
    exact cleanFormula_closed (cleanFormula_append op.clean_sign rfl) hclean
  have hlist : (op.sign ++ "(" ++ f ++ ")").toList =
      op.sign.toList ++ '(' :: (f.toList ++ [')']) := by
    simp
  have hprefixed : Says keepsOperand (op.sign ++ "(" ++ f ++ ")").toList
      (.token (.operator op.operator) :: .token .leftParen :: (ws ++ [.token .rightParen])) := by
    rw [hlist]
    exact .cons (.token (op.scan_sign _) (by simp)) (hsaid.parens (.closing keepsOperand))
  have hoperand := (hpart.parens.ofTerm (by simp [Symbol.prefix?]) .unary).prefixed
    op.prefix?_operator
  have hformula := Part.ofChain .multiplicative (.single _ hoperand)
  exact (calculates_iff_part hcleaned hprefixed hformula).mpr (settles_prefixed op hsettles)

/-- Formulas in parentheses have the values that they have by themselves: an operation between two
of them, or before one, is applied to those. -/
theorem calculates_composed (hcleanf : cleanFormula f = f) (hcleang : cleanFormula g = g)
    (hf : e.Calculates f ⟨cs, .value a⟩) (hg : e.Calculates g ⟨ds, .value b⟩) :
    (∀ op : BinaryOperation,
      e.Calculates ("(" ++ f ++ ")" ++ op.sign ++ "(" ++ g ++ ")")
        ⟨cs ++ ds, .value (op.apply e.settings.decimalNumbers a b)⟩) ∧
    ∀ op : PrefixOperation,
      e.Calculates (op.sign ++ "(" ++ f ++ ")") ⟨cs, .value (op.apply a)⟩ :=
  ⟨hf.binary hcleanf hcleang hg, hf.prefixed hcleanf⟩

/-- An engine whose provider knows a number, and another one by a formula. -/
def composing : Engine :=
  { providers := [ProviderTable.provider
      { values := [("x", .number 2.0), ("y", .formula "x * 3")] }] }

/-- A sequence, literals with parentheses, calls and names inside both formulas. -/
theorem calculates_composed_composing :
    composing.Calculates "(y; len('a;)b') - x)*(if(x > 1, (y; x) + 1, 1 / 0))"
        ⟨[⟨0, .value "y"⟩, ⟨0, .value "x"⟩, ⟨0, .value "x"⟩, ⟨0, .value "x"⟩, ⟨0, .value "y"⟩,
          ⟨0, .value "x"⟩, ⟨0, .value "x"⟩], .value 6.0⟩ ∧
      composing.Calculates "-(y; len('a;)b') - x)"
        ⟨[⟨0, .value "y"⟩, ⟨0, .value "x"⟩, ⟨0, .value "x"⟩], .value (-2.0)⟩ := by
  have hf : composing.Calculates "y; len('a;)b') - x"
      ⟨[⟨0, .value "y"⟩, ⟨0, .value "x"⟩, ⟨0, .value "x"⟩], .value 2.0⟩ :=
    ⟨3, by decide +kernel, by simp⟩
  have hg : composing.Calculates "if(x > 1, (y; x) + 1, 1 / 0)"
      ⟨[⟨0, .value "x"⟩, ⟨0, .value "y"⟩, ⟨0, .value "x"⟩, ⟨0, .value "x"⟩], .value 3.0⟩ :=
    ⟨3, by decide +kernel, by simp⟩
  have hboth := calculates_composed (by decide +kernel) (by decide +kernel) hf hg
  exact ⟨hboth.1 .multiply, hboth.2 .minus⟩

end Engine

end Formulae
