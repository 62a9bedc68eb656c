import Formulae.Proofs.Text.LetterCase
import Formulae.Proofs.Grammar.Occurrence
import Formulae.Proofs.Evaluation.Alone

/-!
# The precision of comparisons

How many decimal places are respected is a setting that every part of an evaluation gets to see, at
every depth of nesting. Only comparisons use it: the six operators, `between`, and the choice of
`if` between two texts. A formula without their signs and names has none of them in its arguments
either, which are pieces of it, and comes to the same with any number of places. The two names have
to be missing in any ASCII case; no letters outside of ASCII make either of them.

Main results:

* `numericProgram_withPlaces`, `textProgram_withPlaces` — what is to be done for a formula without
  comparisons does not depend on the precision.
* `Engine.calculate_withPlaces` — nor does what it comes to.
-/

namespace Formulae

open Grammar

-- ---------------------------------------------------------------------------
-- Texts without comparisons
-- ---------------------------------------------------------------------------

/-- A text without the signs of comparisons and, in any ASCII case, without the names of the two
functions that compare. -/
structure FreeOfComparisons (cs : List Char) : Prop where
  less : '<' ∉ cs
  greater : '>' ∉ cs
  equal : '=' ∉ cs
  between : ¬ "between".toList <:+: cs.map Text.asciiLower
  conditional : ¬ "if".toList <:+: cs.map Text.asciiLower

namespace FreeOfComparisons

variable {cs ds : List Char}

/-- A piece of a text without comparisons has none. -/
theorem mono (h : FreeOfComparisons cs) (hds : ds <:+: cs) : FreeOfComparisons ds where
  less hmem := h.less (hds.subset hmem)
  greater hmem := h.greater (hds.subset hmem)
  equal hmem := h.equal (hds.subset hmem)
  between hpiece := h.between (hpiece.trans (hds.map _))
  conditional hpiece := h.conditional (hpiece.trans (hds.map _))

/-- A word without spaces that stands in a text where line breaks and tabs are spaces stands in the
text itself. -/
theorem infix_of_map_smooth {word : List Char} (hword : ' ' ∉ word)
    (h : word <:+: (cs.map smooth).map Text.asciiLower) : word <:+: cs.map Text.asciiLower := by
  rw [List.map_map] at h
  obtain ⟨piece, hpiece, rfl⟩ := List.infix_map_iff.mp h
  have hsame : piece.map (Text.asciiLower ∘ smooth) = piece.map Text.asciiLower := by
    refine List.map_congr_left fun c hc => ?_
    rcases smooth_eq_self_or_blank c with hself | ⟨-, hspace⟩
    · rw [Function.comp_apply, hself]
    · refine absurd (List.mem_map.mpr ⟨c, hc, ?_⟩) hword
      rw [Function.comp_apply, hspace]
      rfl
  rw [hsame]
  exact hpiece.map _

/-- Cleaning puts no comparison into a formula. -/
theorem clean {formula : String} (h : FreeOfComparisons formula.toList) :
    FreeOfComparisons (cleanFormula formula).toList := by
  have hsign : ∀ {c : Char} {cs : List Char}, smooth c = c ∧ c ≠ ' ' → c ∉ cs →
      c ∉ cs.map smooth := by
    rintro c cs ⟨hsmooth, hspace⟩ hmem hmap
    obtain ⟨d, hd, rfl⟩ := List.mem_map.mp hmap
    rcases smooth_eq_self_or_blank d with hself | ⟨-, hblank⟩
    · rw [hself] at hmem
      exact hmem hd
    · exact hspace hblank
  have htrim := h.mono (Arguments.trim_isInfix formula.toList)
  rw [toList_cleanFormula]
  exact ⟨hsign (by decide) htrim.less, hsign (by decide) htrim.greater,
    hsign (by decide) htrim.equal,
    fun hpiece => htrim.between (infix_of_map_smooth (by decide) hpiece),
    fun hpiece => htrim.conditional (infix_of_map_smooth (by decide) hpiece)⟩

/-- An argument of a formula without comparisons has none. -/
theorem argument {formula arg : String} (h : FreeOfComparisons formula.toList)
    (harg : HasArgument formula arg) : FreeOfComparisons arg.toList :=
  h.clean.mono harg.piece

end FreeOfComparisons

-- ---------------------------------------------------------------------------
-- Symbols without comparisons
-- ---------------------------------------------------------------------------

namespace Grammar

/-- A symbol that does not compare: neither an operator of that level nor a call of a function that
does. -/
def Symbol.ComparesNothing : Symbol → Prop
  | token (.operator op) => op.chained? .comparison = none
  | token _ => True
  | call name _ _ =>
    Builtin.ofName? name ≠ some .between ∧ Builtin.ofName? name ≠ some .conditional

/-- What does not stand in a text does not stand in its outline. -/
theorem Outline.comparesNothing {cs : List Char} (h : FreeOfComparisons cs)
    {inPlace : String → Bool} {offset : Nat} :
    ∀ item ∈ (readFrom inPlace offset cs).items, item.symbol.ComparesNothing := by
  intro item hitem
  obtain ⟨s, cs', rest, hs, hsuffix, hstep⟩ := exists_step hitem
  have hfree := h.mono hsuffix.isInfix
  cases hstep with
  | @token t _ hscan _ =>
    rw [Symbol.unplaced_eq_token.mp hs]
    cases t with
    | operator op =>
      -- the sign would stand in the text
      refine Option.not_isSome_iff_eq_none.mp fun hop => ?_
      rcases scan_comparison hscan hop with hmem | hmem | hmem
      · exact hfree.less hmem
      · exact hfree.greater hmem
      · exact hfree.equal hmem
    | _ => trivial
  | @call name args _ _ _ hscan hplace hopen htake =>
    have hname := (scan_identifier hscan).map Text.asciiLower
    have hnot : ∀ f : Builtin, 'k' ∉ f.name.toList →
        ¬ f.name.toList <:+: cs'.map Text.asciiLower → Builtin.ofName? name ≠ some f := by
      intro f hk hmissing hfound
      rw [← Builtin.lowerName_of_ofName? hfound hk, toList_lowerName] at hmissing
      exact hmissing hname
    cases hsymbol : item.symbol with
    | token t => simp [hsymbol, Symbol.unplaced] at hs
    | call name' args' closed =>
      rw [hsymbol] at hs
      obtain ⟨rfl, rfl, -⟩ := Symbol.call.inj hs
      exact ⟨hnot .between (by decide) hfree.between,
        hnot .conditional (by decide) hfree.conditional⟩

end Grammar

-- ---------------------------------------------------------------------------
-- Contexts
-- ---------------------------------------------------------------------------

/-- The same with another number of places that comparisons respect. -/
def Context.withPlaces (x : Context) (places : UInt32) : Context :=
  { x with settings := { x.settings with decimalNumbers := places } }

def Call.withPlaces (c : Call) (places : UInt32) : Call :=
  { c with context := c.context.withPlaces places }

namespace Evaluation

/-- The numbers that an aggregate is taken of do not depend on the precision. -/
@[simp] theorem numbers_withPlaces (c : Call) (places : UInt32) :
    numbers (c.withPlaces places) = numbers c := by
  have hvalue : numberOfValue (c.withPlaces places) = numberOfValue c := by
    funext value
    cases value <;> rfl
  have hvalues : numbersOf (c.withPlaces places) = numbersOf c := by
    funext values
    induction values with
    | nil => rfl
    | cons value values ih => rw [numbersOf, numbersOf, hvalue, ih]
  rw [numbers, numbers, hvalues]
  rfl

end Evaluation

namespace Builtin

open Evaluation

/-- In the numeric channel the precision matters to `between` alone. -/
theorem number_withPlaces {f : Builtin} (h : f ≠ .between) (c : Call) (places : UInt32) :
    f.number (c.withPlaces places) = f.number c := by
  cases f
  case between => exact absurd rfl h
  case sum | maximum | minimum | average =>
    simp only [number, checked, numeric?, Evaluation.sum, Evaluation.maximum, Evaluation.minimum,
      Evaluation.average, numbers_withPlaces]
    rfl
  all_goals rfl

/-- In the text channel the precision matters to `if` alone. -/
theorem text_withPlaces {f : Builtin} (h : f ≠ .conditional) (c : Call) (places : UInt32) :
    f.text (c.withPlaces places) = f.text c := by
  cases f
  case conditional => exact absurd rfl h
  all_goals rfl

end Builtin

namespace Grammar

/-- A call by any name but that of `between` does in the numeric channel what it does with another
precision. -/
theorem callNumber_withPlaces {c : Call} (h : Builtin.ofName? c.name ≠ some .between)
    (places : UInt32) : callNumber (c.withPlaces places) = callNumber c := by
  have hsame : (c.withPlaces places).name = c.name := rfl
  unfold callNumber
  rw [hsame]
  cases hname : Builtin.ofName? c.name with
  | none => rfl
  | some f => exact Builtin.number_withPlaces (fun hf => h (by rw [hname, hf])) c places

/-- A call by any name but that of `if` does in the text channel what it does with another
precision. -/
theorem callText_withPlaces {c : Call} (h : Builtin.ofName? c.name ≠ some .conditional)
    (places : UInt32) : callText (c.withPlaces places) = callText c := by
  have hsame : (c.withPlaces places).name = c.name := rfl
  unfold callText
  rw [hsame]
  cases hname : Builtin.ofName? c.name with
  | none => rfl
  | some f => exact Builtin.text_withPlaces (fun hf => h (by rw [hname, hf])) c places

/-- No value of a name depends on the precision. -/
theorem valueOf_withPlaces (x : Context) (places : UInt32) (name : String)
    (unknown : FormulaError) :
    valueOf (x.withPlaces places) name unknown = valueOf x name unknown := by
  unfold valueOf
  cases Constant.ofName? name with
  | none => rfl
  | some constant => cases constant <;> rfl

/-- What is done at a sign that does not compare does not depend on the places. -/
theorem Joint.evaluate_tree {level : Level} {t : Token} {joint : Joint}
    (h : (t, joint) ∈ level.signs) (ht : (Symbol.token t).ComparesNothing)
    {x : Context} {places : UInt32} {formula : String} {left right : NumericTree}
    (hleft : left.evaluate (x.withPlaces places) formula = left.evaluate x formula)
    (hright : right.evaluate (x.withPlaces places) formula = right.evaluate x formula) :
    (joint.tree left right).evaluate (x.withPlaces places) formula =
      (joint.tree left right).evaluate x formula := by
  cases level <;>
    simp only [Level.signs, List.mem_cons, List.not_mem_nil, or_false, Prod.mk.injEq] at h
  case comparison =>
    rcases h with ⟨rfl, -⟩ | ⟨rfl, -⟩ | ⟨rfl, -⟩ | ⟨rfl, -⟩ | ⟨rfl, -⟩ | ⟨rfl, -⟩ <;>
      simp [Symbol.ComparesNothing, Operator.chained?] at ht
  case sequence =>
    obtain ⟨-, rfl⟩ := h
    simp only [Joint.tree, NumericTree.evaluate, hleft, hright]
  case additive =>
    rcases h with ⟨-, rfl⟩ | ⟨-, rfl⟩ <;>
      simp only [Joint.tree, NumericTree.evaluate, hleft, hright, BinaryOperation.apply]
  case bitwise =>
    rcases h with ⟨-, rfl⟩ | ⟨-, rfl⟩ | ⟨-, rfl⟩ <;>
      simp only [Joint.tree, NumericTree.evaluate, hleft, hright, BinaryOperation.apply]
  case multiplicative =>
    rcases h with ⟨-, rfl⟩ | ⟨-, rfl⟩ | ⟨-, rfl⟩ | ⟨-, rfl⟩ <;>
      simp only [Joint.tree, NumericTree.evaluate, hleft, hright, BinaryOperation.apply]

/-- A tree that is built of items without comparisons is evaluated alike with any places. -/
theorem NumericTree.builds_withPlaces (ending : Ending) :
    Builds ending (fun item => item.symbol.ComparesNothing) fun tree =>
      ∀ x places formula,
        tree.evaluate (x.withPlaces places) formula = tree.evaluate x formula where
  number _ _ _ _ := rfl
  value _ _ _ x places _ := valueOf_withPlaces x places _ _
  call hitem x places formula := callNumber_withPlaces (c := ⟨x, _, _, formula, _⟩) hitem.1 places
  apply _ _ h x places formula := by simp only [evaluate, h x places formula]
  prefixed _ _ h x places formula := by simp only [evaluate, h x places formula]
  join hjoin hitem _ _ hleft hright x places formula := by
    obtain ⟨t, joint, hsymbol, known, rfl⟩ := Symbol.exists_sign hjoin
    rw [hsymbol] at hitem
    exact Joint.evaluate_tree known hitem (hleft x places formula) (hright x places formula)
  power hbase hexponent x places formula := by
    simp only [evaluate, hbase x places formula, hexponent x places formula, BinaryOperation.apply]
  noOperand _ _ _ _ := rfl
  unexpected h _ _ _ _ _ x places formula := by
    simp only [thenFail, evaluate, h x places formula]

/-- A tree that is built of items without comparisons is evaluated alike with any places. -/
theorem TextTree.builds_withPlaces (ending : Ending) :
    Builds ending (fun item => item.symbol.ComparesNothing) fun tree =>
      ∀ x places formula,
        tree.evaluate (x.withPlaces places) formula = tree.evaluate x formula where
  literal _ _ _ _ := rfl
  value _ _ _ _ _ _ := rfl
  call hitem x places formula := callText_withPlaces (c := ⟨x, _, _, formula, _⟩) hitem.2 places
  append hleft hright x places formula := by
    simp only [evaluate, hleft x places formula, hright x places formula]
  sequence hfirst hsecond x places formula := by
    simp only [evaluate, hfirst x places formula, hsecond x places formula]
  noOperand _ _ _ _ := rfl
  unexpected h _ _ _ _ _ x places formula := by
    simp only [thenFail, evaluate, h x places formula]

end Grammar

-- ---------------------------------------------------------------------------
-- Formulas
-- ---------------------------------------------------------------------------

/-- What is to be done for a formula without comparisons does not depend on the places. -/
theorem numericProgram_withPlaces {formula : String} (h : FreeOfComparisons formula.toList)
    (x : Context) (places : UInt32) :
    numericProgram (x.withPlaces places) formula = numericProgram x formula :=
  NumericTree.good_ofOutline (NumericTree.builds_withPlaces _) (Outline.comparesNothing h.clean)
    x places _

/-- Nor does what is to be done for it in the text channel. -/
theorem textProgram_withPlaces {formula : String} (h : FreeOfComparisons formula.toList)
    (x : Context) (places : UInt32) :
    textProgram (x.withPlaces places) formula = textProgram x formula :=
  TextTree.good_ofOutline (TextTree.builds_withPlaces _) (Outline.comparesNothing h.clean)
    x places _

/-- A program runs alike with two ways to evaluate the formulas that it has evaluated, if these come
to the same in both. -/
theorem Program.KeepsTo.run_congr {α : Type} {faults : FormulaError → Prop}
    {formulas : String → Prop} {p : Program α} (hp : p.KeepsTo faults formulas) {n m : Nested}
    (h : ∀ formula, formulas formula → n.number formula = m.number formula ∧
      n.text formula = m.text formula) : p.run [] n = p.run [] m := by
  induction hp with
  | value | error | overflow => rfl
  | number handed _ ih => simp only [run, (h _ handed).1, ih]
  | text handed _ ih => simp only [run, (h _ handed).2, ih]
  | attempt handed _ ih => simp only [run, (h _ handed).2, ih]
  | ask _ ih =>
    simp only [run, ask_nil]
    exact ih none

namespace Engine

/-- The engine with another number of places that comparisons respect. -/
def withPlaces (e : Engine) (places : UInt32) : Engine :=
  { e with settings := { e.settings with decimalNumbers := places } }

/-- At every depth a formula without comparisons comes to the same. The induction is on the depth,
and the arguments of the formula have no comparisons either. -/
theorem nested_withPlaces {e : Engine} (hproviders : e.providers = []) (places : UInt32)
    (depth : Nat) {formula : String} (h : FreeOfComparisons formula.toList) :
    ((e.withPlaces places).nested depth).number formula = (e.nested depth).number formula ∧
      ((e.withPlaces places).nested depth).text formula = (e.nested depth).text formula := by
  induction depth generalizing formula with
  | zero => exact ⟨rfl, rfl⟩
  | succ depth ih =>
    have hargs : ∀ arg, HasArgument formula arg →
        ((e.withPlaces places).nested depth).number arg = (e.nested depth).number arg ∧
          ((e.withPlaces places).nested depth).text arg = (e.nested depth).text arg :=
      fun arg harg => ih (h.argument harg)
    constructor
    · show (numericProgram (e.context.withPlaces places) formula).run e.providers _ =
        (numericProgram e.context formula).run e.providers _
      rw [numericProgram_withPlaces h, hproviders]
      exact (keepsTo_numericProgram e.context formula).run_congr hargs
    · show (textProgram (e.context.withPlaces places) formula).run e.providers _ =
        (textProgram e.context formula).run e.providers _
      rw [textProgram_withPlaces h, hproviders]
      exact (keepsTo_textProgram e.context formula).run_congr hargs

/-- Engines without providers that differ in the places of comparisons only evaluate every formula
without comparisons alike in both channels, and both come to an end. -/
theorem calculate_withPlaces (e : Engine) (hproviders : e.providers = []) (places : UInt32)
    (formula : String) (h : FreeOfComparisons formula.toList) :
    (e.withPlaces places).calculate formula = e.calculate formula ∧
      (e.withPlaces places).calculateText formula = e.calculateText formula ∧
      (e.calculate formula).outcome ≠ .unfinished ∧
      (e.calculateText formula).outcome ≠ .unfinished := by
  obtain ⟨hnumber, htext⟩ := calculation_ends hproviders formula
  have hsame := nested_withPlaces hproviders places (e.depthFor formula + 1) h
  exact ⟨hsame.1, hsame.2, hnumber.finished, htext.finished⟩

/-- Truth values and rounding have a precision of their own, which is not that of the settings. -/
theorem calculate_withPlaces_truth :
    let formula := "and(0.9, not(0.4)) + max(round(0.125, 2), 0.1)"
    FreeOfComparisons formula.toList ∧
      ({} : Engine).calculate formula = ⟨[], .value 1.12⟩ ∧
      (({} : Engine).withPlaces 0).calculate formula = ⟨[], .value 1.12⟩ := by
  intro formula
  have hfree : FreeOfComparisons formula.toList := by
    constructor <;> decide +kernel
  have hvalue : ({} : Engine).calculate formula = ⟨[], .value 1.12⟩ := by decide +kernel
  obtain ⟨hsame, -⟩ := calculate_withPlaces {} rfl 0 formula hfree
  exact ⟨hfree, hvalue, hsame.trans hvalue⟩

end Engine

end Formulae
