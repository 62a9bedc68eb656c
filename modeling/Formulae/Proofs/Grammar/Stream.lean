import Formulae.Grammar.Cursor
import Formulae.Grammar.Outline

/-!
# Token streams

The tokens of a formula are what is read in it from its beginning up to the first reading that is
no token. An outline does not always follow them, for the arguments of a call are cut out of the
text and never read. Where no opening parenthesis stands right behind a name there is no call, and
the outline is the stream.

Main results:

* `Cursor.tokens_of_token`, `Cursor.tokens_of_stop` — the stream, one reading at a time.
* `Outline.follows_of_callFree` — without calls, the items of an outline are the tokens of the
  stream, and the outline is complete just if the stream is read to the end of the text.
-/

namespace Formulae.Grammar

/-- The token that was read, if any. -/
def Reading.token? : Reading → Option Token
  | token t => some t
  | _ => none

namespace Cursor

/-- The tokens from a place on, up to the first reading that is none. -/
def tokens (c : Cursor) : List Token :=
  c.readings.filterMap fun r => r.1.token?

/-- The tokens go on to the end of the text. -/
def Finishes (c : Cursor) : Prop :=
  ∃ place, (Reading.finished, place) ∈ c.readings

/-- What is skipped stands before the place. -/
theorem skip_append (before front rest : List Char) :
    skip front.length ⟨before, front ++ rest⟩ = ⟨front.reverse ++ before, rest⟩ := by
  induction front generalizing before with
  | nil => rfl
  | cons d front ih =>
    rw [List.reverse_cons, List.append_assoc]
    exact ih (d :: before)

/-- Behind a token the readings go on. -/
theorem readings_of_token {c : Cursor} {t : Token} (h : c.next.1 = .token t) :
    c.readings = (.token t, c.next.2) :: c.next.2.readings := by
  have hnext : c.next = (.token t, c.next.2) := by
    rw [← h]
  rw [readings]
  split
  · rename_i t' place heq
    rw [hnext] at heq
    obtain ⟨ht, rfl⟩ := Prod.mk.inj heq
    rw [← Reading.token.inj ht]
  · rename_i hstop
    exact absurd hnext (hstop t _)

/-- They end with what is no token. -/
theorem readings_of_stop {c : Cursor} (h : ∀ t, c.next.1 ≠ .token t) : c.readings = [c.next] := by
  rw [readings]
  split
  · rename_i t place heq
    exact absurd (congrArg Prod.fst heq) (h t)
  · rfl

/-- Behind a token the stream goes on with the tokens behind it. -/
theorem tokens_of_token {c : Cursor} {t : Token} (h : c.next.1 = .token t) :
    c.tokens = t :: c.next.2.tokens := by
  unfold tokens
  rw [readings_of_token h]
  rfl

/-- Where no token is read the stream ends. -/
theorem tokens_of_stop {c : Cursor} (h : ∀ t, c.next.1 ≠ .token t) : c.tokens = [] := by
  unfold tokens
  rw [readings_of_stop h, List.filterMap_cons]
  split
  · rfl
  · rename_i t ht
    cases hread : c.next.1 with
    | token t' => exact absurd hread (h t')
    | finished | unreadable | openLiteral =>
      rw [hread] at ht
      exact absurd ht (by simp [Reading.token?])

theorem finishes_of_token {c : Cursor} {t : Token} (h : c.next.1 = .token t) :
    c.Finishes ↔ c.next.2.Finishes := by
  unfold Finishes
  rw [readings_of_token h]
  simp

theorem finishes_of_stop {c : Cursor} (h : ∀ t, c.next.1 ≠ .token t) :
    c.Finishes ↔ c.next.1 = .finished := by
  unfold Finishes
  rw [readings_of_stop h]
  constructor
  · rintro ⟨place, hplace⟩
    rw [← List.mem_singleton.mp hplace]
  · intro hread
    exact ⟨c.next.2, List.mem_singleton.mpr (by rw [← hread])⟩

end Cursor

/-- No opening parenthesis stands right behind a name. -/
def CallFree (ts : List Token) : Prop :=
  ∀ front name back, ts ≠ front ++ .identifier name :: .leftParen :: back

/-- What is left of a stream without calls has none either. -/
theorem CallFree.of_append {front ts : List Token} (h : CallFree (front ++ ts)) : CallFree ts := by
  intro front' name back hts
  refine h (front ++ front') name back ?_
  rw [hts, List.append_assoc]

@[simp] theorem callFree_nil : CallFree [] := by
  intro front name back h
  simp at h

@[simp] theorem callFree_cons {t : Token} {ts : List Token} :
    CallFree (t :: ts) ↔
      (∀ name, t = .identifier name → ts.head? ≠ some .leftParen) ∧ CallFree ts := by
  constructor
  · intro h
    refine ⟨?_, @CallFree.of_append [t] ts h⟩
    rintro name rfl hhead
    obtain ⟨back, rfl⟩ := List.head?_eq_some_iff.mp hhead
    exact h [] name back rfl
  · rintro ⟨hhead, hts⟩ front name back h
    cases front with
    | nil =>
      obtain ⟨rfl, rfl⟩ := List.cons.inj h
      exact hhead name rfl rfl
    | cons t' front =>
      obtain ⟨-, rfl⟩ := List.cons.inj h
      exact hts front name back rfl

theorem CallFree.tail {t : Token} {ts : List Token} (h : CallFree (t :: ts)) : CallFree ts :=
  (callFree_cons.mp h).2

/-- The items are the tokens of a stream. -/
def Spells (items : List Item) (ts : List Token) : Prop :=
  items.map Item.symbol = ts.map Symbol.token

namespace Outline

/-- An outline is made of the tokens of a stream, and is complete if the stream is. -/
structure Follows (o : Outline) (c : Cursor) : Prop where
  spells : Spells o.items c.tokens
  complete : o.ending.cause = .complete ↔ c.Finishes
  uncut : ∀ name length, o.ending.cause ≠ .openCall name length

/-- Where no token comes the outline has no item. -/
theorem follows_of_stop (inPlace : String → Bool) (offset : Nat) {c : Cursor}
    (h : ∀ t, c.next.1 ≠ .token t) : (readFrom inPlace offset c.after).Follows c := by
  obtain ⟨hitems, hcomplete, huncut⟩ := @readFrom_stop c.after inPlace offset h
  refine ⟨?_, ?_, huncut⟩
  · rw [hitems, Cursor.tokens_of_stop h]
    rfl
  · rw [Cursor.finishes_of_stop h]
    exact hcomplete

/-- A token goes in front of the outline of what is behind it. -/
theorem follows_of_token {o : Outline} {c : Cursor} {t : Token} {stop : Nat}
    (h : c.next.1 = .token t) (ho : o.Follows c.next.2) :
    (o.push ⟨.token t, stop⟩).Follows c := by
  refine ⟨?_, ?_, ho.uncut⟩
  · rw [Cursor.tokens_of_token h]
    exact congrArg (Symbol.token t :: ·) ho.spells
  · rw [Cursor.finishes_of_token h]
    exact ho.complete

/-- Without calls an outline follows the stream of its text. -/
theorem follows_of_callFree (inPlace : String → Bool) (offset : Nat) (c : Cursor)
    (hfree : CallFree c.tokens) : (readFrom inPlace offset c.after).Follows c := by
  induction hlen : c.after.length using Nat.strongRecOn generalizing c offset with
  | ind length ih =>
    by_cases hstop : ∀ t, c.next.1 ≠ .token t
    · exact follows_of_stop inPlace offset hstop
    obtain ⟨t, hread⟩ : ∃ t, c.next.1 = .token t := by simpa using hstop
    have hscan : scan c.after = (.token t, c.next.2.after) := Prod.ext hread c.after_next.symm
    rw [Cursor.tokens_of_token hread] at hfree
    -- an opening parenthesis behind a name would make a call in the stream
    have hplain : ∀ name, t = .identifier name →
        inPlace name = true ∨ openParen? c.next.2.after = none := by
      intro name hname
      refine .inr (Option.eq_none_iff_forall_ne_some.mpr fun inner hopen => ?_)
      have hparen : c.next.2.next.1 = .token .leftParen :=
        congrArg Prod.fst (openParen?_eq_some_iff.mp hopen)
      refine (callFree_cons.mp hfree).1 name hname ?_
      rw [Cursor.tokens_of_token hparen]
      rfl
    have hlt : c.next.2.after.length < length := hlen ▸ Cursor.length_after_next_lt hread
    rw [readFrom_token hscan hplain]
    exact follows_of_token hread (ih _ hlt _ _ hfree.tail rfl)

/-- Without calls the outline of a formula follows its stream. -/
theorem follows_ofText (inPlace : String → Bool) {formula : String}
    (hfree : CallFree (Cursor.ofText formula).tokens) :
    (ofText inPlace formula).Follows (.ofText formula) :=
  follows_of_callFree inPlace 0 (.ofText formula) hfree

end Outline

end Formulae.Grammar
