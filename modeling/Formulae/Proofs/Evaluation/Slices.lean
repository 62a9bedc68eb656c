import Formulae.Proofs.Evaluation.Settling
import Formulae.Evaluation.Dispatch

/-!
# Slices of texts

`left`, `right` and `substr` cut a piece out of a text, at places that are counted in characters. A
number that asks for more characters than there are asks for all of them, and one that is negative,
or no number, for none; so every number is good for a piece. Pieces that meet make up the text.

Main results:

* `isSlice_leftOf`, `isSlice_rightOf`, `isSlice_substringOf` — which pieces are cut out.
* `IsSlice.append` — two pieces that meet make up the text.
* `slices` — these, and the functions in both channels.
-/

namespace Formulae.Evaluation

open Number

-- ---------------------------------------------------------------------------
-- Pieces
-- ---------------------------------------------------------------------------

/-- The piece is what stands in a text from a place on, so many characters. -/
def IsSlice (text piece : String) (start count : Int) : Prop :=
  ∃ front back, text.toList = front ++ (piece.toList ++ back) ∧ (front.length : Int) = start ∧
    (piece.length : Int) = count

/-- How many characters a number asks for. -/
def wanted (x : Float) : Int :=
  max 0 (roundHalfUp x)

variable {text piece rest : String} {start count : Int}

/-- A piece at the beginning of a text and all that stands behind it make up the text. -/
theorem IsSlice.append (h : IsSlice text piece 0 start) (h' : IsSlice text rest start count)
    (hall : start + count = text.length) : piece ++ rest = text := by
  obtain ⟨none, back, htext, hnone, hpiece⟩ := h
  obtain ⟨front, behind, htext', hfront, hrest⟩ := h'
  obtain rfl : none = [] := List.length_eq_zero_iff.mp (by omega)
  rw [List.nil_append] at htext
  have hsame : piece.toList = front := by
    refine (List.append_inj (htext.symm.trans htext') ?_).1
    rw [String.length_toList]
    omega
  have hlength := congrArg List.length htext'
  rw [List.length_append, List.length_append, String.length_toList, String.length_toList] at hlength
  obtain rfl : behind = [] := List.length_eq_zero_iff.mp (by omega)
  rw [← String.toList_inj, String.toList_append, hsame, htext', List.append_nil]

/-- The characters that are wanted are counted without a sign. -/
theorem wanted_eq (x : Float) : wanted x = countOf x := by
  unfold wanted countOf
  omega

/-- The first characters of a text. -/
theorem isSlice_leftOf (text : String) (x : Float) :
    IsSlice text (leftOf text x) 0 (min (wanted x) text.length) := by
  refine ⟨[], text.toList.drop (countOf x), ?_, rfl, ?_⟩
  · rw [leftOf, String.toList_ofList, List.take_append_drop, List.nil_append]
  · rw [leftOf, String.length_ofList, List.length_take, String.length_toList, wanted_eq]
    omega

/-- The last characters of a text. -/
theorem isSlice_rightOf (text : String) (x : Float) :
    IsSlice text (rightOf text x) (text.length - min (wanted x) text.length)
      (min (wanted x) text.length) := by
  refine ⟨text.toList.take (text.length - countOf x), [], ?_, ?_, ?_⟩
  · rw [rightOf, String.toList_ofList, List.append_nil, List.take_append_drop]
  · rw [List.length_take, String.length_toList, wanted_eq]
    omega
  · rw [rightOf, String.length_ofList, List.length_drop, String.length_toList, wanted_eq]
    omega

/-- The characters of a text behind some others. -/
theorem isSlice_substringOf (text : String) (x y : Float) :
    IsSlice text (substringOf text x y) (min (wanted x) text.length)
      (min (wanted y) (text.length - min (wanted x) text.length)) := by
  refine ⟨text.toList.take (countOf x), (text.toList.drop (countOf x)).drop (countOf y), ?_, ?_, ?_⟩
  · rw [substringOf, String.toList_ofList, List.take_append_drop, List.take_append_drop]
  · rw [List.length_take, String.length_toList, wanted_eq]
    omega
  · rw [substringOf, String.length_ofList, List.length_take, List.length_drop,
      String.length_toList, wanted_eq, wanted_eq]
    omega

/-- What the first characters leave is behind them, if all of it is asked for. -/
theorem leftOf_append_substringOf {y : Float} (x : Float) (h : text.length ≤ wanted y) :
    leftOf text x ++ substringOf text x y = text := by
  have hsome : 0 ≤ wanted x := Int.le_max_left _ _
  exact (isSlice_leftOf text x).append (isSlice_substringOf text x y) (by omega)

/-- The first characters and the last ones meet, if they are as many as there are. -/
theorem leftOf_append_rightOf {x y : Float}
    (h : min (wanted x) text.length + min (wanted y) text.length = text.length) :
    leftOf text x ++ rightOf text y = text := by
  have hright := isSlice_rightOf text y
  rw [show (text.length : Int) - min (wanted y) text.length = min (wanted x) text.length by omega]
    at hright
  exact (isSlice_leftOf text x).append hright h

-- ---------------------------------------------------------------------------
-- Functions
-- ---------------------------------------------------------------------------

variable {e : Engine} {c : Call} {calls : List ProviderCall} {f : Builtin}

/-- The functions that cut off one end of a text, and what they leave. -/
def ends : List (Builtin × (String → Float → String)) :=
  [(.left, leftOf), (.right, rightOf)]

/-- The functions that cut a piece out of a text. -/
def slicers : List Builtin :=
  [.left, .right, .substring]

/-- A function that cuts off one end has the piece of the text and the number that its arguments
have in turn. -/
theorem settles_end_iff {cut : String → Float → String} (known : (f, cut) ∈ ends) :
    e.Settles (f.text c) ⟨calls, .value piece⟩ ↔ c.args.length = 2 ∧
      ∃ before text after x, e.Settles (c.text 0) ⟨before, .value text⟩ ∧
        e.Settles (c.number 1) ⟨after, .value x⟩ ∧ calls = before ++ after ∧
        piece = cut text x := by
  have hcall : f.arity = .exactly 2 ∧ f.text c = f.checked (some fun c =>
      (c.text 0).bind fun text => (c.number 1).bind fun x => .value (cut text x)) c := by
    simp only [ends, List.mem_cons, Prod.mk.injEq, List.not_mem_nil, or_false] at known
    rcases known with ⟨rfl, rfl⟩ | ⟨rfl, rfl⟩ <;> exact ⟨rfl, rfl⟩
  rw [hcall.2, Engine.settles_checked_iff, hcall.1, Arity.admits_exactly, Engine.settles_both_iff]

/-- So has the function that cuts out a middle, with two numbers. -/
theorem settles_substring_iff :
    e.Settles (Builtin.substring.text c) ⟨calls, .value piece⟩ ↔ c.args.length = 3 ∧
      ∃ before text between x after y, e.Settles (c.text 0) ⟨before, .value text⟩ ∧
        e.Settles (c.number 1) ⟨between, .value x⟩ ∧ e.Settles (c.number 2) ⟨after, .value y⟩ ∧
        calls = before ++ (between ++ after) ∧ piece = substringOf text x y := by
  have htext : Builtin.substring.text c = Builtin.substring.checked (some fun c =>
      (c.text 0).bind fun text => (c.number 1).bind fun x => (c.number 2).bind fun y =>
        .value (substringOf text x y)) c := rfl
  rw [htext, Engine.settles_checked_iff, show Builtin.substring.arity = .exactly 3 from rfl,
    Arity.admits_exactly]
  refine and_congr_right fun _ => ⟨fun h => ?_, ?_⟩
  · obtain ⟨before, text, _, htext, hmore, rfl⟩ := h.of_bind
    obtain ⟨between, x, after, y, hx, hy, rfl, rfl⟩ := Engine.settles_both_iff.mp hmore
    exact ⟨before, text, between, x, after, y, htext, hx, hy, rfl, rfl⟩
  · rintro ⟨before, text, between, x, after, y, htext, hx, hy, rfl, rfl⟩
    have hmore := Engine.settles_both_iff (g := substringOf text).mpr
      ⟨between, x, after, y, hx, hy, rfl, rfl⟩
    exact htext.bind (f := fun text => (c.number 1).bind fun x => (c.number 2).bind fun y =>
      .value (substringOf text x y)) hmore

/-- The number of a piece is the one that it denotes. -/
theorem number_slice (known : f ∈ slicers) (c : Call) :
    f.number c =
      (f.text c).bind fun piece => .ofOption (read? piece) (c.errorNaming .parseError piece) := by
  simp only [slicers, List.mem_cons, List.not_mem_nil, or_false] at known
  unfold Builtin.number Builtin.text Builtin.checked
  rcases known with rfl | rfl | rfl <;>
    · simp only [Builtin.numeric?, Builtin.textual?]
      split <;> rfl

/-- What is cut out of a text at places that any numbers say, with what there is of it where they
say more, and how such pieces make up the text; the functions of formulas cut these pieces, or in
the numeric channel have the numbers that these pieces denote. -/
theorem slices :
    (∀ (text : String) (x y : Float),
      let start := min (wanted x) text.length
      IsSlice text (leftOf text x) 0 start ∧
      IsSlice text (rightOf text x) (text.length - start) start ∧
      0 ≤ text.length - start ∧
      IsSlice text (substringOf text x y) start (min (wanted y) (text.length - start)) ∧
      (text.length ≤ wanted y → leftOf text x ++ substringOf text x y = text) ∧
      (start + min (wanted y) text.length = text.length →
        leftOf text x ++ rightOf text y = text)) ∧
    (∀ (e : Engine) (c : Call) (calls : List ProviderCall) (piece : String),
      (∀ f cut, (f, cut) ∈ ends → (e.Settles (f.text c) ⟨calls, .value piece⟩ ↔
        c.args.length = 2 ∧ ∃ before text after x, e.Settles (c.text 0) ⟨before, .value text⟩ ∧
          e.Settles (c.number 1) ⟨after, .value x⟩ ∧ calls = before ++ after ∧
          piece = cut text x)) ∧
      (e.Settles (Builtin.substring.text c) ⟨calls, .value piece⟩ ↔ c.args.length = 3 ∧
        ∃ before text between x after y, e.Settles (c.text 0) ⟨before, .value text⟩ ∧
          e.Settles (c.number 1) ⟨between, .value x⟩ ∧ e.Settles (c.number 2) ⟨after, .value y⟩ ∧
          calls = before ++ (between ++ after) ∧ piece = substringOf text x y)) ∧
    ∀ f ∈ slicers, ∀ (e : Engine) (c : Call) (r : Run Float), e.Settles (f.number c) r ↔
      ∃ s, e.Settles (f.text c) s ∧
        r = ⟨s.calls, s.outcome.thenOr read? (c.errorNaming .parseError)⟩ := by
  refine ⟨fun text x y => ⟨isSlice_leftOf text x, isSlice_rightOf text x, by omega,
    isSlice_substringOf text x y, leftOf_append_substringOf x, leftOf_append_rightOf⟩,
    fun e c calls piece => ⟨fun f cut known => settles_end_iff known, settles_substring_iff⟩,
    fun f known e c r => ?_⟩
  rw [number_slice known]
  exact Engine.settles_bind_ofOption_iff

/-- A text whose characters have several bytes is made up of what is cut out of it, as no number and
as infinitely many say, too; and a piece may be no number. -/
theorem slices_multibyte :
    let c : Call := ⟨({} : Engine).context, "left", ["'5€ 😀'", "2"], "left('5€ 😀', 2)", 15⟩
    leftOf "5€ 😀" (0.0 / 0.0) ++ substringOf "5€ 😀" (0.0 / 0.0) (1.0 / 0.0) = "5€ 😀" ∧
      leftOf "5€ 😀" 1.5 ++ rightOf "5€ 😀" 2.0 = "5€ 😀" ∧
      ({} : Engine).Settles (Builtin.left.number c)
        ⟨[], .error (c.errorNaming .parseError "5€")⟩ := by
  intro c
  obtain ⟨hpieces, hfunctions, hnumbers⟩ := slices
  obtain ⟨-, -, -, -, hbehind, -⟩ := hpieces "5€ 😀" (0.0 / 0.0) (1.0 / 0.0)
  obtain ⟨-, -, -, -, -, hmeet⟩ := hpieces "5€ 😀" 1.5 2.0
  have htext : ({} : Engine).Settles (Builtin.left.text c) ⟨[], .value "5€"⟩ :=
    ((hfunctions {} c [] "5€").1 .left leftOf (by simp [ends])).mpr
      ⟨rfl, [], "5€ 😀", [], 2.0, ⟨1, by decide +kernel, by simp⟩, ⟨1, by decide +kernel, by simp⟩,
        rfl, by decide +kernel⟩
  have hnone : read? "5€" = none := by decide +kernel
  refine ⟨hbehind (by decide +kernel), hmeet (by decide +kernel),
    (hnumbers .left (by simp [slicers]) {} c _).mpr ⟨_, htext, ?_⟩⟩
  simp only [Outcome.thenOr, hnone]

end Formulae.Evaluation
