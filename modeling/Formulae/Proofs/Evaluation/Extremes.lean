import Formulae.Proofs.Number.Order
import Formulae.Proofs.Evaluation.Comparisons

/-!
# The greatest and the smallest number

`max` and `min` go through the numbers and keep the one that is further to the end that is looked
for. What is found is one of the numbers, and none is further. Where all are numbers indeed, it is
the same in every order, up to the sign of a zero. What is no number is not further than anything,
and nothing is further than it: in front of the others it is what is found, behind them it is passed
over. So the order does not matter exactly where all are numbers or none is.

Main results:

* `Extreme.find_mem`, `Extreme.not_beyond_find` — what is found is one of the numbers, and none is
  further.
* `Extreme.alike_find_iff` — when the same is found in two orders.
* `Extreme.find_of_numbers` — all of this, and the functions that go by it.
-/

namespace Formulae.Evaluation

open Number

-- ---------------------------------------------------------------------------
-- Ends
-- ---------------------------------------------------------------------------

/-- The ends of a list of numbers that a function looks for. -/
inductive Extreme
  | greatest
  | smallest

namespace Extreme

def function : Extreme → Builtin
  | greatest => .maximum
  | smallest => .minimum

def find : Extreme → List Float → Float
  | greatest => maximumOf
  | smallest => minimumOf

/-- Whether a number is further to the end than another one. -/
def beyond : Extreme → Float → Float → Bool
  | greatest, x, y => x > y
  | smallest, x, y => x < y

/-- Of two numbers, the second one is at least as far. -/
def upTo : Extreme → Float → Float → Prop
  | greatest, x, y => rank x ≤ rank y
  | smallest, x, y => rank y ≤ rank x

variable {d : Extreme} {x y z : Float} {xs ys : List Float}

theorem upTo_refl (d : Extreme) (x : Float) : d.upTo x x := by
  cases d <;> exact le_refl _

/-- Being at least as far goes on from one number to the next. -/
theorem upTo_trans (hxy : d.upTo x y) (hyz : d.upTo y z) : d.upTo x z := by
  cases d with
  | greatest => exact le_trans hxy hyz
  | smallest => exact le_trans hyz hxy

/-- Two numbers that are each at least as far as the other have one rank. -/
theorem upTo_antisymm (hxy : d.upTo x y) (hyx : d.upTo y x) : rank x = rank y := by
  cases d with
  | greatest => exact le_antisymm hxy hyx
  | smallest => exact le_antisymm hyx hxy

/-- Of two numbers either one is further, or the other one is at least as far. -/
theorem beyond_eq_false_iff (hx : x.isNaN = false) (hy : y.isNaN = false) :
    d.beyond x y = false ↔ d.upTo x y := by
  cases d with
  | greatest => rw [beyond, decide_eq_false_iff_not, gt_iff_lt, lt_iff hy hx, not_lt]; rfl
  | smallest => rw [beyond, decide_eq_false_iff_not, lt_iff hx hy, not_lt]; rfl

/-- A number that is further is at least as far. -/
theorem upTo_of_beyond (hx : x.isNaN = false) (hy : y.isNaN = false) (h : d.beyond x y = true) :
    d.upTo y x := by
  cases d with
  | greatest => exact le_of_lt ((lt_iff hy hx).mp (of_decide_eq_true h))
  | smallest => exact le_of_lt ((lt_iff hx hy).mp (of_decide_eq_true h))

/-- What is no number is not further than anything, and nothing is further than it. -/
theorem beyond_of_isNaN (h : x.isNaN = true ∨ y.isNaN = true) : d.beyond x y = false := by
  cases d with
  | greatest => exact decide_eq_false (not_lt_of_isNaN h.symm)
  | smallest => exact decide_eq_false (not_lt_of_isNaN h)

-- ---------------------------------------------------------------------------
-- Finding an end
-- ---------------------------------------------------------------------------

/-- The end of a list is found by keeping the number that is furthest so far. -/
theorem find_cons (d : Extreme) (x : Float) (xs : List Float) :
    d.find (x :: xs) = xs.foldl (fun best y => if d.beyond y best then y else best) x := by
  cases d with
  | greatest => simp only [find, maximumOf, beyond, decide_eq_true_eq]
  | smallest => simp only [find, minimumOf, beyond, decide_eq_true_eq]

/-- The end of nothing is zero. -/
theorem find_nil (d : Extreme) : d.find [] = 0.0 := by
  cases d <;> rfl

/-- What is no number is kept where it is the first one. -/
theorem find_cons_of_isNaN (d : Extreme) (hx : x.isNaN = true) (xs : List Float) :
    d.find (x :: xs) = x := by
  rw [find_cons]
  induction xs with
  | nil => rfl
  | cons y ys ih => rw [List.foldl_cons, beyond_of_isNaN (.inr hx), if_neg Bool.false_ne_true, ih]

/-- Behind a first number the furthest one is found. -/
theorem find_cons_spec (d : Extreme) (hx : x.isNaN = false) (xs : List Float) :
    d.find (x :: xs) ∈ x :: xs ∧ (d.find (x :: xs)).isNaN = false ∧
      ∀ y ∈ x :: xs, y.isNaN = false → d.upTo y (d.find (x :: xs)) := by
  rw [find_cons]
  refine @foldl_better _ (·.isNaN = false) d.upTo d.upTo_refl (fun _ _ _ => upTo_trans)
    (fun best y => d.beyond y best) (fun best y hbest => ?_) x hx xs
  split
  · rename_i hbeyond
    have hy : y.isNaN = false := by
      rw [← Bool.not_eq_true]
      intro hnan
      rw [beyond_of_isNaN (.inl hnan)] at hbeyond
      cases hbeyond
    exact ⟨hy, upTo_of_beyond hy hbest hbeyond⟩
  · rename_i hbeyond
    exact fun hy => (beyond_eq_false_iff hy hbest).mp (Bool.not_eq_true _ ▸ hbeyond)

/-- The end of a list is one of its numbers. -/
theorem find_mem (d : Extreme) (h : xs ≠ []) : d.find xs ∈ xs := by
  obtain ⟨x, xs, rfl⟩ := List.exists_cons_of_ne_nil h
  cases hx : x.isNaN with
  | true => rw [find_cons_of_isNaN d hx]; exact List.mem_cons_self
  | false => exact (find_cons_spec d hx xs).1

/-- Nothing in a list is further than what is found. -/
theorem not_beyond_find (d : Extreme) (hy : y ∈ xs) : d.beyond y (d.find xs) = false := by
  obtain ⟨x, xs, rfl⟩ := List.exists_cons_of_ne_nil (List.ne_nil_of_mem hy)
  cases hx : x.isNaN with
  | true => rw [find_cons_of_isNaN d hx]; exact beyond_of_isNaN (.inr hx)
  | false =>
    obtain ⟨-, hfound, hfurthest⟩ := find_cons_spec d hx xs
    cases hnan : y.isNaN with
    | true => exact beyond_of_isNaN (.inl hnan)
    | false => exact (beyond_eq_false_iff hnan hfound).mpr (hfurthest y hy hnan)

/-- No number is found if and only if none is in front. -/
theorem isNaN_find (d : Extreme) (xs : List Float) :
    (d.find xs).isNaN = xs.head?.any Float.isNaN := by
  cases xs with
  | nil => rw [find_nil]; decide
  | cons x xs =>
    rw [List.head?_cons, Option.any_some]
    cases hx : x.isNaN with
    | true => rw [find_cons_of_isNaN d hx, hx]
    | false => exact (find_cons_spec d hx xs).2.1

-- ---------------------------------------------------------------------------
-- Other orders
-- ---------------------------------------------------------------------------

/-- Equal numbers, or both no numbers. -/
def Alike (x y : Float) : Prop :=
  (x == y) = true ∨ (x.isNaN = true ∧ y.isNaN = true)

/-- Of two alike either both are numbers or none is. -/
theorem Alike.isNaN_eq (h : Alike x y) : x.isNaN = y.isNaN := by
  rcases h with heq | ⟨hx, hy⟩
  · have hnone : ¬(x.isNaN = true ∨ y.isNaN = true) := fun hnan => by
      rw [beq_eq_false_of_isNaN hnan] at heq
      cases heq
    rw [not_or, Bool.not_eq_true, Bool.not_eq_true] at hnone
    rw [hnone.1, hnone.2]
  · rw [hx, hy]

/-- The same is found in two orders exactly if a number is in front of both, or of neither. -/
theorem alike_find_iff (d : Extreme) (h : xs.Perm ys) : Alike (d.find xs) (d.find ys) ↔
    xs.head?.any Float.isNaN = ys.head?.any Float.isNaN := by
  rw [← d.isNaN_find xs, ← d.isNaN_find ys]
  refine ⟨Alike.isNaN_eq, fun heq => ?_⟩
  cases hx : (d.find xs).isNaN with
  | true => exact .inr ⟨hx, heq ▸ hx⟩
  | false =>
    have hy : (d.find ys).isNaN = false := heq ▸ hx
    refine .inl ((beq_iff hx hy).mpr ?_)
    rcases eq_or_ne xs [] with rfl | hsome
    · rw [List.nil_perm.mp h]
    · have hsome' : ys ≠ [] := fun hnone => hsome (List.perm_nil.mp (hnone ▸ h))
      exact upTo_antisymm
        ((beyond_eq_false_iff hx hy).mp (d.not_beyond_find (h.mem_iff.mp (d.find_mem hsome))))
        ((beyond_eq_false_iff hy hx).mp (d.not_beyond_find (h.mem_iff.mpr (d.find_mem hsome'))))

/-- The order does not matter exactly where all are numbers or none is. -/
theorem forall_perm_alike_find_iff (d : Extreme) (xs : List Float) :
    (∀ ys, xs.Perm ys → Alike (d.find xs) (d.find ys)) ↔
      (∀ x ∈ xs, x.isNaN = false) ∨ ∀ x ∈ xs, x.isNaN = true := by
  constructor
  · intro halike
    -- any of them may be the one in front
    have hfront : ∀ x ∈ xs, xs.head?.any Float.isNaN = x.isNaN := by
      intro x hx
      obtain ⟨before, after, rfl⟩ := List.append_of_mem hx
      exact (d.alike_find_iff List.perm_middle).mp (halike _ List.perm_middle)
    cases hhead : xs.head?.any Float.isNaN with
    | true => exact .inr fun x hx => hhead ▸ (hfront x hx).symm
    | false => exact .inl fun x hx => hhead ▸ (hfront x hx).symm
  · intro hsame ys h
    obtain ⟨b, hb⟩ : ∃ b, ∀ x ∈ xs, x.isNaN = b := hsame.elim (⟨false, ·⟩) (⟨true, ·⟩)
    rw [d.alike_find_iff h]
    match xs, ys, h with
    | [], [], _ => rfl
    | [], y :: ys, h => exact absurd (List.nil_perm.mp h) (List.cons_ne_nil y ys)
    | x :: xs, [], h => exact absurd (List.perm_nil.mp h) (List.cons_ne_nil x xs)
    | x :: xs, y :: ys, h =>
      exact (hb x List.mem_cons_self).trans (hb y (h.mem_iff.mpr List.mem_cons_self)).symm

-- ---------------------------------------------------------------------------
-- The functions
-- ---------------------------------------------------------------------------

variable {e : Engine} {c : Call} {calls : List ProviderCall}

/-- The functions have a value once the numbers of their arguments are collected. -/
theorem settles_function_iff (d : Extreme) : e.Settles (d.function.number c) ⟨calls, .value x⟩ ↔
    1 ≤ c.args.length ∧ ∃ xs, e.Settles (numbers c) ⟨calls, .value xs⟩ ∧ d.find xs = x := by
  have hcall : d.function.arity = .atLeast 1 ∧ d.function.number c =
      d.function.checked (some fun c => (numbers c).bind fun xs => .value (d.find xs)) c := by
    cases d <;> exact ⟨rfl, rfl⟩
  rw [hcall.2, Engine.settles_checked_iff, hcall.1, Arity.admits_atLeast, Engine.settles_map_iff]

/-- What is found in a list of numbers is one of them, and none of them is further, not even if some
are no numbers. In another order the same is found if a number is in front both times, or neither
time, and in all orders exactly where all are numbers or none is. The functions find just this in
the numbers that are collected for them. -/
theorem find_of_numbers (d : Extreme) :
    (∀ xs, xs ≠ [] → d.find xs ∈ xs) ∧ d.find [] = 0.0 ∧
      (∀ xs, ∀ x ∈ xs, d.beyond x (d.find xs) = false) ∧
      (∀ xs ys : List Float, xs.Perm ys → (Alike (d.find xs) (d.find ys) ↔
        xs.head?.any Float.isNaN = ys.head?.any Float.isNaN)) ∧
      (∀ xs : List Float, (∀ ys, xs.Perm ys → Alike (d.find xs) (d.find ys)) ↔
        (∀ x ∈ xs, x.isNaN = false) ∨ ∀ x ∈ xs, x.isNaN = true) ∧
      ∀ (e : Engine) (c : Call) (calls : List ProviderCall) (x : Float),
        e.Settles (d.function.number c) ⟨calls, .value x⟩ ↔ 1 ≤ c.args.length ∧
          ∃ xs, e.Settles (numbers c) ⟨calls, .value xs⟩ ∧ d.find xs = x :=
  ⟨fun _ => d.find_mem, d.find_nil, fun _ _ => d.not_beyond_find, fun _ _ => d.alike_find_iff,
    d.forall_perm_alike_find_iff, fun _ _ _ _ => d.settles_function_iff⟩

/-- The greatest of one and what is no number is what stands in front. -/
theorem find_of_numbers_mixed :
    Extreme.greatest.find [0.0 / 0.0, 1.0] ∈ [(0.0 / 0.0 : Float), 1.0] ∧
      ¬Alike (Extreme.greatest.find [0.0 / 0.0, 1.0]) (Extreme.greatest.find [1.0, 0.0 / 0.0]) := by
  obtain ⟨hmem, -, -, halike, -, -⟩ := find_of_numbers .greatest
  refine ⟨hmem _ (by decide), ?_⟩
  rw [halike _ _ (.swap 1.0 (0.0 / 0.0) [])]
  decide +kernel

end Extreme

end Formulae.Evaluation
