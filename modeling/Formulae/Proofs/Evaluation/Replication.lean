import Mathlib
import Formulae.Proofs.Evaluation.Slices

/-!
# Texts made by repetition

`replicate` makes a text of a text and as many more copies of it as a number says, up to a size in
bytes. Every number says how many: one that is infinite, or too large for an integer of 64 bits,
says as many as the largest of these, and one that is negative, or no number, says none.

The count, one more than that, and the size of the result are numbers without a limit here. In words
of 64 bits they would be the same wherever it matters: the count is small enough, one more is too,
and a size that is too large for a word is far beyond the size that is allowed.

Main results:

* `replicated?_eq` — which text is made, and when.
* `replicatedInWords?_eq` — words of 64 bits make the same text.
* `replicate_bounded` — these, and the function.
-/

namespace Formulae.Evaluation

open Number

-- ---------------------------------------------------------------------------
-- Copies
-- ---------------------------------------------------------------------------

/-- How many copies there are in a text that is made by repetition. -/
def copies (x : Float) : Int :=
  wanted x + 1

/-- There is at least one copy, and their number is a word of 64 bits. -/
theorem copies_bounds (x : Float) : 1 ≤ copies x ∧ copies x ≤ 2 ^ 63 := by
  have hrounded : roundHalfUp x ≤ 9223372036854775807 :=
    (clampedFloor_mem (by decide) (by decide) _).2
  unfold copies wanted
  omega

/-- What is wanted behind the first copy makes up the number of copies. -/
theorem countOf_add_one (x : Float) : countOf x + 1 = (copies x).toNat := by
  have hwanted := wanted_eq x
  unfold copies
  omega

/-- A text is repeated by putting copies of it behind one another, also where nothing is done. -/
theorem repeated_eq_join (text : String) (n : Nat) :
    repeated text n = String.join (List.replicate n text) := by
  have hcopies : Nat.repeat (· ++ text) n "" = String.join (List.replicate n text) := by
    induction n with
    | zero => rfl
    | succ n ih =>
      rw [Nat.repeat, ih, List.replicate_succ', String.join_append, String.join_cons,
        String.join_nil, String.append_empty]
  have hempty (n : Nat) : String.join (List.replicate n "") = "" := by
    induction n with
    | zero => rfl
    | succ n ih => rw [List.replicate_succ, String.join_cons, ih, String.append_empty]
  unfold repeated
  split
  · rename_i h
    rw [String.isEmpty_iff.mp h, hempty]
  · exact hcopies

/-- A text is repeated if the result is not too large. -/
theorem replicated?_eq (text : String) (x : Float) : replicated? text x =
    if text.utf8ByteSize * copies x ≤ 16777216 then
      some (String.join (List.replicate (copies x).toNat text))
    else none := by
  have hcopies := copies_bounds x
  have hsize : text.utf8ByteSize * (copies x).toNat ≤ maxReplicated ↔
      text.utf8ByteSize * copies x ≤ 16777216 := by
    have hnat : ((copies x).toNat : Int) = copies x := Int.toNat_of_nonneg (by omega)
    rw [← hnat, Int.toNat_natCast, ← Int.natCast_mul, maxReplicated]
    omega
  unfold replicated?
  simp only [countOf_add_one, hsize, repeated_eq_join]

-- ---------------------------------------------------------------------------
-- Words
-- ---------------------------------------------------------------------------

/-- The sum of two words of 64 bits, unless it is too large for one. -/
def checkedSum? (a b : UInt64) : Option UInt64 :=
  if a.toNat + b.toNat < 2 ^ 64 then some (a + b) else none

/-- The product of two words of 64 bits, unless it is too large for one. -/
def checkedProduct? (a b : UInt64) : Option UInt64 :=
  if a.toNat * b.toNat < 2 ^ 64 then some (a * b) else none

/-- The text that is made if all numbers are words of 64 bits. -/
def replicatedInWords? (text : String) (x : Float) : Option String := do
  let copies ← checkedSum? (UInt64.ofNat (wanted x).toNat) 1
  let size ← checkedProduct? (UInt64.ofNat text.utf8ByteSize) copies
  if size.toNat ≤ maxReplicated then some (repeated text copies.toNat) else none

/-- The number of copies is found in words. -/
theorem checkedSum?_wanted (x : Float) :
    ∃ n, checkedSum? (UInt64.ofNat (wanted x).toNat) 1 = some n ∧ n.toNat = copies x := by
  have hcopies := copies_bounds x
  have hwanted : copies x = wanted x + 1 := rfl
  have hone : (1 : UInt64).toNat = 1 := rfl
  have hword : (UInt64.ofNat (wanted x).toNat).toNat = (wanted x).toNat :=
    UInt64.toNat_ofNat_of_lt' (show _ < 2 ^ 64 by omega)
  refine ⟨_, if_pos (by rw [hword, hone]; omega), ?_⟩
  rw [UInt64.toNat_add, hword, hone, Nat.mod_eq_of_lt (by omega)]
  omega

/-- Words make the same text of any text whose size is one. -/
theorem replicatedInWords?_eq {text : String} (htext : text.utf8ByteSize < 2 ^ 64) (x : Float) :
    replicatedInWords? text x = replicated? text x := by
  obtain ⟨n, hsum, hn⟩ := checkedSum?_wanted x
  have hcount : countOf x + 1 = n.toNat := by
    rw [countOf_add_one, ← hn, Int.toNat_natCast]
  have hsize : (UInt64.ofNat text.utf8ByteSize).toNat = text.utf8ByteSize :=
    UInt64.toNat_ofNat_of_lt' htext
  unfold replicatedInWords? replicated? checkedProduct?
  rw [hsum, hcount, Option.bind_eq_bind, Option.bind_some, hsize]
  dsimp only
  by_cases hlarge : text.utf8ByteSize * n.toNat < 2 ^ 64
  · have hproduct : (UInt64.ofNat text.utf8ByteSize * n).toNat = text.utf8ByteSize * n.toNat := by
      rw [UInt64.toNat_mul, hsize, Nat.mod_eq_of_lt hlarge]
    rw [if_pos hlarge, Option.bind_some, hproduct]
  · rw [if_neg hlarge, if_neg (by unfold maxReplicated; omega)]
    rfl

-- ---------------------------------------------------------------------------
-- The function
-- ---------------------------------------------------------------------------

variable {e : Engine} {c : Call} {before after : List ProviderCall} {text : String} {x : Float}

/-- The function has the text that is made of its arguments, or else an error that names it. -/
theorem settles_replicate (hargs : c.args.length = 2)
    (htext : e.Settles (c.text 0) ⟨before, .value text⟩)
    (hnumber : e.Settles (c.number 1) ⟨after, .value x⟩) :
    e.Settles (Builtin.replicate.text c) ⟨before ++ after,
      (Outcome.value x).thenOr (replicated? text) fun _ => c.error .functionError⟩ := by
  have hcall : Builtin.replicate.text c = (c.text 0).bind fun text =>
      (c.number 1).bind fun x => .ofOption (replicated? text x) (c.error .functionError) :=
    if_pos (Arity.admits_exactly.mpr hargs)
  have hmade : e.Settles ((c.number 1).bind fun x =>
      .ofOption (replicated? text x) (c.error .functionError))
      ⟨after, (Outcome.value x).thenOr (replicated? text) fun _ => c.error .functionError⟩ :=
    Engine.settles_bind_ofOption_iff.mpr ⟨_, hnumber, rfl⟩
  rw [hcall]
  exact htext.bind (f := fun text => (c.number 1).bind fun x =>
    .ofOption (replicated? text x) (c.error .functionError)) hmade

/-- A text and as many more copies of it as a number says, whatever the number is, are made if they
have no more than 16777216 bytes; else the function fails with an error that names it. The number of
copies, one more than is asked for, has no limit here, nor has the size; in words of 64 bits, none
of which may become too large, the same comes out. -/
theorem replicate_bounded (hargs : c.args.length = 2)
    (htext : e.Settles (c.text 0) ⟨before, .value text⟩)
    (hnumber : e.Settles (c.number 1) ⟨after, .value x⟩) :
    let copies := max 0 (roundHalfUp x) + 1
    e.Settles (Builtin.replicate.text c) ⟨before ++ after,
      if text.utf8ByteSize * copies ≤ 16777216 then
        .value (String.join (List.replicate copies.toNat text))
      else .error ⟨.functionError, some c.name, c.formula, c.position⟩⟩ ∧
    (∃ n : UInt64, checkedSum? (UInt64.ofNat (max 0 (roundHalfUp x)).toNat) 1 = some n ∧
      n.toNat = copies) ∧
    (text.utf8ByteSize < 2 ^ 64 → replicatedInWords? text x = replicated? text x) := by
  refine ⟨?_, checkedSum?_wanted x, fun hsize => replicatedInWords?_eq hsize x⟩
  show e.Settles _ ⟨before ++ after, if text.utf8ByteSize * copies x ≤ 16777216 then
    .value (String.join (List.replicate (copies x).toNat text)) else .error (c.error .functionError)⟩
  have hsettles := settles_replicate hargs htext hnumber
  rw [Outcome.thenOr, replicated?_eq] at hsettles
  split
  · rename_i hsmall
    rwa [if_pos hsmall] at hsettles
  · rename_i hlarge
    rwa [if_neg hlarge] at hsettles

/-- Infinitely many copies are as many as there are words for, which is too many of a text that is
not empty. -/
theorem replicate_bounded_infinite :
    let c : Call := ⟨({} : Engine).context, "replicate", ["'€'", "1 / 0"], "replicate('€', 1 / 0)", 21⟩
    ({} : Engine).Settles (c.number 1) ⟨[], .value (1.0 / 0.0)⟩ ∧
      ({} : Engine).Settles (Builtin.replicate.text c) ⟨[], .error (c.error .functionError)⟩ := by
  intro c
  have hnumber : ({} : Engine).Settles (c.number 1) ⟨[], .value (1.0 / 0.0)⟩ :=
    ⟨1, by decide +kernel, by simp⟩
  have htext : ({} : Engine).Settles (c.text 0) ⟨[], .value "€"⟩ := ⟨1, by decide +kernel, by simp⟩
  obtain ⟨hsettles, -⟩ := replicate_bounded rfl htext hnumber
  rw [if_neg (by decide +kernel)] at hsettles
  exact ⟨hnumber, hsettles⟩

end Formulae.Evaluation
