import Formulae.Proofs.Number.Signs
import Formulae.Proofs.Text.Order
import Formulae.Proofs.Evaluation.Settling

/-!
# Comparing texts

`compareto` is a distance between two texts: it is zero only between a text and itself, seen from
the other text it is the opposite, and texts that stand behind one another do so in a chain. It
agrees with what `equals` says of the two, and with the order by which the greatest and the smallest
text of a list are found.

Main results:

* `lastOf_greatest`, `firstOf_smallest` — the ends of a list by that distance.
* `settles_comparison_iff` — the functions that compare two texts, and their values.
* `compareTo_orders` — the distance, and the functions that go by it.
-/

namespace Formulae.Evaluation

open Number

-- ---------------------------------------------------------------------------
-- The ends of a list
-- ---------------------------------------------------------------------------

/-- How far a text stands behind another one. -/
def apart (a b : String) : Int :=
  Text.distance a.toList b.toList

/-- Going through a list and keeping the better of two elements leaves one that none is better
than. Elements that have no place in the order may stand in the list, but none of them is better
than another one. -/
theorem foldl_better {α : Type} {placed : α → Prop} {le : α → α → Prop} (hrefl : ∀ a, le a a)
    (htrans : ∀ a b c, le a b → le b c → le a c) {better : α → α → Bool}
    (hbetter : ∀ a b, placed a → if better a b then placed b ∧ le a b else placed b → le b a)
    {a : α} (ha : placed a) (as : List α) :
    as.foldl (fun best b => if better best b then b else best) a ∈ a :: as ∧
      placed (as.foldl (fun best b => if better best b then b else best) a) ∧
      ∀ b ∈ a :: as, placed b →
        le b (as.foldl (fun best b => if better best b then b else best) a) := by
  induction as generalizing a with
  | nil => simp [hrefl, ha]
  | cons b as ih =>
    rw [List.foldl_cons]
    have hstep := hbetter a b ha
    by_cases hb : better a b = true
    · rw [if_pos hb] at hstep ⊢
      obtain ⟨hmem, hplaced, hbest⟩ := ih hstep.1
      refine ⟨List.mem_cons_of_mem _ hmem, hplaced, List.forall_mem_cons.mpr ⟨fun _ => ?_, hbest⟩⟩
      exact htrans _ _ _ hstep.2 (hbest b (by simp) hstep.1)
    · rw [if_neg hb] at hstep ⊢
      obtain ⟨hmem, hplaced, hbest⟩ := ih ha
      obtain ⟨hhead, has⟩ := List.forall_mem_cons.mp hbest
      refine ⟨?_, hplaced, List.forall_mem_cons.mpr ⟨hhead, List.forall_mem_cons.mpr
        ⟨fun hb => htrans _ _ _ (hstep hb) (hhead ha), has⟩⟩⟩
      exact List.mem_cons.mpr ((List.mem_cons.mp hmem).imp_right (List.mem_cons_of_mem b))

/-- A text is not behind itself. -/
theorem apart_self (a : String) : apart a a ≤ 0 := by
  rw [apart, Text.distance_eq_zero_iff.mpr rfl]

/-- A text is before another one if their distance is negative. -/
theorem isBefore_iff {a b : String} : isBefore a b = true ↔ apart a b < 0 :=
  Text.precedes_iff.trans Text.distance_neg_iff.symm

/-- Of two texts one is before the other, or does not stand behind it. -/
theorem apart_nonpos (a b : String) : if isBefore a b then apart a b ≤ 0 else apart b a ≤ 0 := by
  have hswap : apart b a = -apart a b := Text.distance_swap _ _
  have hbefore := @isBefore_iff a b
  split <;> grind

variable {ss : List String}

/-- No text of a list stands behind the last one in order, which is one of them. -/
theorem lastOf_greatest (h : ss ≠ []) : lastOf ss ∈ ss ∧ ∀ s ∈ ss, apart s (lastOf ss) ≤ 0 := by
  obtain ⟨s, ss, rfl⟩ := List.exists_cons_of_ne_nil h
  obtain ⟨hmem, -, hbest⟩ := @foldl_better _ (fun _ => True) (fun a b => apart a b ≤ 0) apart_self
    (fun _ _ _ => Text.distance_nonpos_trans) isBefore
    (fun a b _ => by simpa using apart_nonpos a b) s trivial ss
  exact ⟨hmem, fun b hb => hbest b hb trivial⟩

/-- The first one in order stands behind no text of a list, of which it is one. -/
theorem firstOf_smallest (h : ss ≠ []) : firstOf ss ∈ ss ∧ ∀ s ∈ ss, apart (firstOf ss) s ≤ 0 := by
  obtain ⟨s, ss, rfl⟩ := List.exists_cons_of_ne_nil h
  obtain ⟨hmem, -, hbest⟩ := @foldl_better _ (fun _ => True) (fun a b => apart b a ≤ 0) apart_self
    (fun _ _ _ hab hbc => Text.distance_nonpos_trans hbc hab) (fun best s => isBefore s best)
    (fun a b _ => by simpa using apart_nonpos b a) s trivial ss
  exact ⟨hmem, fun b hb => hbest b hb trivial⟩

-- ---------------------------------------------------------------------------
-- Functions of two texts
-- ---------------------------------------------------------------------------

/-- The functions that compare two texts, and their values. -/
def comparisons : List (Builtin × (String → String → Float)) :=
  [(.equals, fun a b => ofTruth (a == b)),
    (.equalsIgnoreCase, fun a b => ofTruth (lowered a == lowered b)),
    (.compareTo, distance), (.compareToIgnoreCase, fun a b => distance (lowered a) (lowered b))]

variable {e : Engine} {c : Call} {calls : List ProviderCall} {f f' : Builtin}
  {g g' : String → String → Float}

/-- A comparison is of the texts of its two arguments. -/
theorem settles_comparison_iff (known : (f, g) ∈ comparisons) {x : Float} :
    e.Settles (f.number c) ⟨calls, .value x⟩ ↔ c.args.length = 2 ∧
      ∃ before a after b, e.Settles (c.text 0) ⟨before, .value a⟩ ∧
        e.Settles (c.text 1) ⟨after, .value b⟩ ∧ calls = before ++ after ∧ x = g a b := by
  have hcall : f.arity = .exactly 2 ∧ f.number c = f.checked (some fun c =>
      (c.text 0).bind fun a => (c.text 1).bind fun b => .value (g a b)) c := by
    simp only [comparisons, List.mem_cons, Prod.mk.injEq, List.not_mem_nil, or_false] at known
    rcases known with ⟨rfl, rfl⟩ | ⟨rfl, rfl⟩ | ⟨rfl, rfl⟩ | ⟨rfl, rfl⟩ <;> exact ⟨rfl, rfl⟩
  rw [hcall.2, Engine.settles_checked_iff, hcall.1, Arity.admits_exactly, Engine.settles_both_iff]

/-- Two comparisons of the same arguments have values that belong together. -/
theorem comparisons_agree (known : (f, g) ∈ comparisons) (known' : (f', g') ∈ comparisons)
    {holds holds' : Float → Prop} (h : ∀ a b, holds (g a b) ↔ holds' (g' a b)) :
    (∃ x, e.Settles (f.number c) ⟨calls, .value x⟩ ∧ holds x) ↔
      ∃ y, e.Settles (f'.number c) ⟨calls, .value y⟩ ∧ holds' y := by
  simp only [settles_comparison_iff known, settles_comparison_iff known']
  constructor
  · rintro ⟨_, ⟨hargs, before, a, after, b, ha, hb, hcalls, rfl⟩, hx⟩
    exact ⟨_, ⟨hargs, before, a, after, b, ha, hb, hcalls, rfl⟩, (h a b).mp hx⟩
  · rintro ⟨_, ⟨hargs, before, a, after, b, ha, hb, hcalls, rfl⟩, hy⟩
    exact ⟨_, ⟨hargs, before, a, after, b, ha, hb, hcalls, rfl⟩, (h a b).mpr hy⟩

/-- A distance is zero where the texts are equal. -/
theorem distance_beq_zero_iff (a b : String) :
    (distance a b == 0.0) = true ↔ (ofTruth (a == b) == 1.0) = true := by
  rw [distance, ofInt_beq_zero_iff, Text.distance_eq_zero_iff, String.toList_inj]
  by_cases h : a = b
  · subst h
    exact iff_of_true rfl (by rw [beq_self_eq_true]; decide +kernel)
  · rw [beq_eq_false_iff_ne.mpr h]
    exact iff_of_false h (by decide +kernel)

-- ---------------------------------------------------------------------------
-- The greatest and the smallest text
-- ---------------------------------------------------------------------------

/-- The functions that find the ends of a list of texts do so once they have the texts. -/
theorem settles_ends_of_texts (h : ss ≠ []) (hss : e.Settles (texts c) ⟨calls, .value ss⟩) :
    e.Settles (Builtin.maximum.text c) ⟨calls, .value (lastOf ss)⟩ ∧
      e.Settles (Builtin.minimum.text c) ⟨calls, .value (firstOf ss)⟩ := by
  have hargs : 1 ≤ c.args.length := by
    rw [Nat.one_le_iff_ne_zero, ne_eq, List.length_eq_zero_iff]
    intro hnone
    have htexts : texts c = .value [] := by
      unfold texts collect
      rw [hnone]
      rfl
    rw [htexts] at hss
    have hsame := hss.unique (e.settles_value [])
    simp only [Run.mk.injEq, Outcome.value.injEq] at hsame
    exact h hsame.2
  have hadmits := Arity.admits_atLeast.mpr hargs
  have hmaximum : Builtin.maximum.text c = (texts c).bind fun ss => .value (lastOf ss) :=
    if_pos hadmits
  have hminimum : Builtin.minimum.text c = (texts c).bind fun ss => .value (firstOf ss) :=
    if_pos hadmits
  rw [hmaximum, hminimum, Engine.settles_map_iff, Engine.settles_map_iff]
  exact ⟨⟨ss, hss, rfl⟩, ss, hss, rfl⟩

/-- What `compareto` measures is the double of an integer, by which texts are in order: seen from
the other text it is the opposite, it is zero between equal texts only, which is where `equals`
holds, with and without regard to case, and it is transitive. The order is that of the bytes, too,
and of the greatest and the smallest text of a list. -/
theorem compareTo_orders :
    (∀ a b c : String, distance a b = Float.ofInt (apart a b) ∧ apart b a = -apart a b ∧
      (apart a b = 0 ↔ a = b) ∧ (apart a b ≤ 0 → apart b c ≤ 0 → apart a c ≤ 0) ∧
      (distance a b < 0.0 ↔ apart a b < 0) ∧ (isBefore a b = true ↔ apart a b < 0) ∧
      (Text.bytes a < Text.bytes b ↔ apart a b < 0)) ∧
    (∀ (e : Engine) (c : Call) (calls : List ProviderCall),
      (∀ f g, (f, g) ∈ comparisons → ∀ x, (e.Settles (f.number c) ⟨calls, .value x⟩ ↔
        c.args.length = 2 ∧ ∃ before a after b, e.Settles (c.text 0) ⟨before, .value a⟩ ∧
          e.Settles (c.text 1) ⟨after, .value b⟩ ∧ calls = before ++ after ∧ x = g a b)) ∧
      ((∃ x, e.Settles (Builtin.compareTo.number c) ⟨calls, .value x⟩ ∧ (x == 0.0) = true) ↔
        ∃ y, e.Settles (Builtin.equals.number c) ⟨calls, .value y⟩ ∧ (y == 1.0) = true) ∧
      ((∃ x, e.Settles (Builtin.compareToIgnoreCase.number c) ⟨calls, .value x⟩ ∧
          (x == 0.0) = true) ↔
        ∃ y, e.Settles (Builtin.equalsIgnoreCase.number c) ⟨calls, .value y⟩ ∧
          (y == 1.0) = true)) ∧
    ∀ ss : List String, ss ≠ [] →
      (lastOf ss ∈ ss ∧ ∀ s ∈ ss, apart s (lastOf ss) ≤ 0) ∧
      (firstOf ss ∈ ss ∧ ∀ s ∈ ss, apart (firstOf ss) s ≤ 0) ∧
      ∀ (e : Engine) (c : Call) (calls : List ProviderCall),
        e.Settles (texts c) ⟨calls, .value ss⟩ →
          e.Settles (Builtin.maximum.text c) ⟨calls, .value (lastOf ss)⟩ ∧
            e.Settles (Builtin.minimum.text c) ⟨calls, .value (firstOf ss)⟩ := by
  refine ⟨fun a b c => ⟨rfl, Text.distance_swap _ _, ?_, Text.distance_nonpos_trans,
    ofInt_lt_zero_iff, isBefore_iff, Text.bytes_lt_iff.trans Text.distance_neg_iff.symm⟩,
    fun e c calls => ⟨fun f g known x => settles_comparison_iff known, ?_, ?_⟩, fun ss h =>
    ⟨lastOf_greatest h, firstOf_smallest h, fun e c calls => settles_ends_of_texts h⟩⟩
  · rw [apart, Text.distance_eq_zero_iff, String.toList_inj]
  · exact comparisons_agree (by simp [comparisons]) (by simp [comparisons]) distance_beq_zero_iff
  · exact comparisons_agree (by simp [comparisons]) (by simp [comparisons])
      fun a b => distance_beq_zero_iff (lowered a) (lowered b)

/-- Two texts whose order by code points is not that of their 16-bit units. -/
theorem compareTo_orders_supplementary :
    let c : Call := ⟨({} : Engine).context, "max", ["'～'", "'😀'"], "max('～', '😀')", 14⟩
    apart "～" "😀" ≤ 0 ∧
      ({} : Engine).Settles (Builtin.maximum.text c) ⟨[], .value "😀"⟩ := by
  intro c
  obtain ⟨-, -, hends⟩ := compareTo_orders
  obtain ⟨⟨-, hgreatest⟩, -, hsettles⟩ := hends ["～", "😀"] (by simp)
  have hlast : lastOf ["～", "😀"] = "😀" := by decide +kernel
  have htexts : ({} : Engine).Settles (texts c) ⟨[], .value ["～", "😀"]⟩ :=
    ⟨1, by decide +kernel, by simp⟩
  rw [hlast] at hgreatest hsettles
  exact ⟨hgreatest _ (by simp), (hsettles {} c [] htexts).1⟩

end Formulae.Evaluation
