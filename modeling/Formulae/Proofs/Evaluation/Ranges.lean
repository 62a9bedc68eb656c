import Formulae.Proofs.Grammar.Splitting
import Formulae.Evaluation.Calculate

/-!
# Range requests

An aggregate whose only argument names a range asks the providers for the values of what stands
between the parentheses of the range keyword. The parentheses are not matched: the text behind the
keyword has to begin with an opening one and to end with a closing one, and to have something in
between. Mostly that is what the opening parenthesis encloses. It is not where more text follows
the matching one, as in `childs(a) + childs(b)`, and there is nothing to ask for where only white
space is enclosed. These are sent nevertheless, as a text that is not balanced or is empty.

Main results:

* `insideParens?_eq_some_iff` — which texts are taken to stand in parentheses.
* `range_requests` — what an aggregate asks for, and when that is what the parentheses enclose.
-/

namespace Formulae

open Grammar Arguments Text

-- ---------------------------------------------------------------------------
-- Balanced texts
-- ---------------------------------------------------------------------------

namespace Grammar.Arguments

variable {depth : Nat} {quoted : Bool} {cs inside rest : List Char}

/-- The scan for the closing parenthesis goes on behind a character, or ends there. -/
theorem closeFrom?_cons (depth : Nat) (quoted : Bool) (c : Char) :
    (∃ depth' quoted', ∀ more, closeFrom? depth quoted (c :: more) =
      (closeFrom? depth' quoted' more).map fun r => (c :: r.1, r.2)) ∨
    ∀ more, closeFrom? depth quoted (c :: more) = some ([], more) := by
  by_cases hquote : c = '\''
  · subst hquote
    exact .inl ⟨_, _, passes_quote.closeFrom⟩
  cases quoted with
  | true => exact .inl ⟨_, _, (passes_quoted hquote).closeFrom⟩
  | false =>
    by_cases hopen : c = '('
    · subst hopen
      exact .inl ⟨_, _, passes_open.closeFrom⟩
    by_cases hclose : c = ')'
    · subst hclose
      cases depth with
      | zero => exact .inr fun _ => rfl
      | succ depth => exact .inl ⟨_, _, passes_close.closeFrom⟩
    · refine .inl ⟨depth, false, fun more => ?_⟩
      rw [closeFrom?, if_neg hquote, if_neg (by simp), if_neg hopen, if_neg hclose]

/-- What is put in front of a result can be taken off again. -/
theorem map_put_eq_some_iff {front inner : List Char} {result : Option (List Char × List Char)} :
    result.map (fun r => (front ++ r.1, r.2)) = some (front ++ inner, rest) ↔
      result = some (inner, rest) := by
  constructor
  · intro h
    obtain ⟨⟨i, r⟩, hr, heq⟩ := Option.map_eq_some_iff.mp h
    obtain ⟨hi, rfl⟩ := Prod.mk.inj heq
    obtain rfl : i = inner := List.append_cancel_left hi
    exact hr
  · rintro rfl
    rfl

/-- White space in front of a text has no part in finding what closes it. -/
theorem closeFrom?_blank_append {blank : List Char} (h : Blank blank) :
    closeFrom? depth quoted (blank ++ cs) =
      (closeFrom? depth quoted cs).map fun r => (blank ++ r.1, r.2) := by
  induction blank with
  | nil => simp
  | cons c blank ih =>
    rw [List.cons_append, (passes_blank (h c (by simp))).closeFrom, ih h.tail, Option.map_map]
    rfl

/-- White space behind a text has no part in finding what closes it. -/
theorem closeFrom?_append_blank {blank : List Char} (h : Blank blank) :
    closeFrom? depth quoted (cs ++ (blank ++ ')' :: rest)) = some (cs ++ blank, rest) ↔
      closeFrom? depth quoted (cs ++ ')' :: rest) = some (cs, rest) := by
  induction cs generalizing depth quoted with
  | nil =>
    rw [List.nil_append, List.nil_append, List.nil_append, closeFrom?_blank_append h,
      ← @map_put_eq_some_iff rest blank [], List.append_nil]
  | cons c cs ih =>
    rcases closeFrom?_cons depth quoted c with ⟨depth', quoted', hstep⟩ | hend
    · have hput := fun inner => @map_put_eq_some_iff rest [c] inner
      simp only [List.cons_append, List.nil_append] at hput
      simp only [List.cons_append, hstep, hput, ih]
    · simp [hend]

/-- The parenthesis behind the text is the one that closes it. -/
def Balanced (cs : List Char) : Prop :=
  close? (cs ++ [')']) = some (cs, [])

instance (cs : List Char) : Decidable (Balanced cs) :=
  inferInstanceAs (Decidable (_ = _))

/-- What stands before the parenthesis that closes a text is balanced. -/
theorem close?_eq_some_iff {behind after : List Char} :
    close? behind = some (inside, after) ↔ behind = inside ++ ')' :: after ∧ Balanced inside := by
  constructor
  · intro h
    exact ⟨append_of_closeFrom? h, (of_closeFrom? h).2 []⟩
  · rintro ⟨rfl, h⟩
    exact (of_closeFrom? h).2 after

/-- White space around a text has no part in its being balanced. -/
theorem balanced_padded {before after : List Char} (hbefore : Blank before) (hafter : Blank after) :
    Balanced (before ++ cs ++ after) ↔ Balanced cs := by
  rw [Balanced, Balanced, close?, close?, List.append_assoc, List.append_assoc, List.append_assoc,
    closeFrom?_blank_append hbefore, map_put_eq_some_iff, closeFrom?_append_blank hafter]

/-- So a text is balanced exactly if it is without the white space around it. -/
theorem balanced_trim : Balanced (trim cs) ↔ Balanced cs := by
  obtain ⟨before, after, hcs, hbefore, hafter⟩ := exists_padded isBlank cs
  have hpadded := @balanced_padded (trim cs) before after hbefore hafter
  rw [show before ++ trim cs ++ after = cs from hcs.symm] at hpadded
  exact hpadded.symm

theorem ne_nil_of_not_blank (h : ¬ Blank cs) : cs ≠ [] := by
  rintro rfl
  exact h fun c hc => absurd hc List.not_mem_nil

-- ---------------------------------------------------------------------------
-- Parentheses
-- ---------------------------------------------------------------------------

/-- The text begins with an opening parenthesis, which encloses this, and nothing but white space
follows the parenthesis that closes it. -/
def Encloses (cs inside : List Char) : Prop :=
  ∃ before behind after, cs = before ++ '(' :: behind ∧ Blank before ∧
    close? behind = some (inside, after) ∧ Blank after

/-- Up to white space at its ends, the text begins with an opening parenthesis and ends with a
closing one, and this stands between the two. -/
def Brackets (cs inside : List Char) : Prop :=
  trim cs = '(' :: (inside ++ [')'])

instance (cs inside : List Char) : Decidable (Brackets cs inside) :=
  inferInstanceAs (Decidable (_ = _))

/-- The parentheses stand at the ends, but for white space in front and behind. -/
theorem brackets_iff : Brackets cs inside ↔
    ∃ before after, cs = before ++ '(' :: (inside ++ ')' :: after) ∧ Blank before ∧
      Blank after := by
  constructor
  · intro h
    obtain ⟨before, after, hcs, hbefore, hafter⟩ := exists_padded isBlank cs
    rw [show trimBy isBlank cs = _ from h] at hcs
    exact ⟨before, after, by rw [hcs]; simp, hbefore, hafter⟩
  · rintro ⟨before, after, rfl, hbefore, hafter⟩
    have hpadded := trim_padded hbefore hafter ('(' :: (inside ++ [')']))
    rw [show before ++ '(' :: (inside ++ ')' :: after) =
      before ++ '(' :: (inside ++ [')']) ++ after by simp, Brackets, hpadded]
    exact trimBy_eq_self (by simp; decide) (by simp [List.getLast?_cons]; decide)

/-- A text encloses one thing at most between the parentheses at its ends. -/
theorem Brackets.unique {inside' : List Char} (h : Brackets cs inside) (h' : Brackets cs inside') :
    inside = inside' :=
  List.append_cancel_right (List.cons.inj (h.symm.trans h')).2

/-- Parentheses at both ends belong together if the text between them is balanced. -/
theorem encloses_iff : Encloses cs inside ↔ Brackets cs inside ∧ Balanced inside := by
  rw [brackets_iff]
  constructor
  · rintro ⟨before, behind, after, rfl, hbefore, hclose, hafter⟩
    obtain ⟨rfl, hbalanced⟩ := close?_eq_some_iff.mp hclose
    exact ⟨⟨before, after, rfl, hbefore, hafter⟩, hbalanced⟩
  · rintro ⟨⟨before, after, rfl, hbefore, hafter⟩, hbalanced⟩
    exact ⟨before, _, after, rfl, hbefore, close?_eq_some_iff.mpr ⟨rfl, hbalanced⟩, hafter⟩

end Grammar.Arguments

/-- Anything between parentheses at both ends is taken, be it blank or not, and balanced or not. -/
theorem RangeKeyword.insideParens?_eq_some_iff {cs text : List Char} :
    insideParens? cs = some text ↔
      ∃ inside, Brackets cs inside ∧ inside ≠ [] ∧ text = trim inside := by
  unfold insideParens?
  dsimp only
  constructor
  · intro h
    split at h
    · rename_i hends
      simp only [Bool.and_eq_true, decide_eq_true_eq, beq_iff_eq] at hends
      obtain ⟨⟨hlength, hhead⟩, hlast⟩ := hends
      obtain ⟨tail, htail⟩ : ∃ tail, trim cs = '(' :: tail := by
        cases htrim : trim cs with
        | nil => simp [htrim] at hhead
        | cons c tail => exact ⟨tail, by rw [htrim] at hhead; simpa using hhead⟩
      have htail' : tail ≠ [] := by
        rintro rfl
        simp [htail] at hlength
      have hlast' : tail.getLast htail' = ')' := by
        rw [htail, List.getLast?_cons_of_ne_nil htail',
          List.getLast?_eq_some_getLast htail'] at hlast
        exact Option.some.inj hlast
      have hsplit : tail = tail.dropLast ++ [')'] := by
        rw [← hlast', List.dropLast_concat_getLast]
      refine ⟨tail.dropLast, by rw [Brackets, htail, ← hsplit], ?_, ?_⟩
      · intro hnone
        rw [htail, hsplit, hnone] at hlength
        simp at hlength
      · rw [htail] at h
        exact (Option.some.inj h).symm
    · simp at h
  · rintro ⟨inside, hbrackets, hinside, rfl⟩
    rw [show trim cs = _ from hbrackets]
    have hlast : ('(' :: (inside ++ [')'])).getLast? = some ')' := by
      rw [← List.cons_append, List.getLast?_concat]
    have hlength := List.length_pos_iff.mpr hinside
    simp [hlast, hlength]

-- ---------------------------------------------------------------------------
-- Programs
-- ---------------------------------------------------------------------------

variable {α β : Type}

namespace Program

/-- The program is at its end. -/
def IsOver (p : Program α) : Prop :=
  (∃ a, p = .value a) ∨ ∃ e, p = .error e

/-- The program puts one request to the providers, and is over when it has the reply. -/
def AsksOnly (request : Request) (p : Program α) : Prop :=
  ∃ next, p = .ask request next ∧ ∀ reply, (next reply).IsOver

/-- A value that is there is an end, and so is the error for want of it. -/
theorem isOver_ofOption (a : Option α) (e : FormulaError) : (ofOption a e).IsOver := by
  cases a with
  | none => exact .inr ⟨e, rfl⟩
  | some a => exact .inl ⟨a, rfl⟩

/-- What goes on from a program at its end to another such program is at its end. -/
theorem IsOver.bind {p : Program α} (h : p.IsOver) {f : α → Program β} (hf : ∀ a, (f a).IsOver) :
    (p.bind f).IsOver := by
  rcases h with ⟨a, rfl⟩ | ⟨e, rfl⟩
  · exact hf a
  · exact .inr ⟨e, rfl⟩

end Program

namespace Evaluation

variable {c : Call} {arg : String} {keyword : RangeKeyword} {count : Nat} {channel : Channel}

/-- Nothing is asked for to make numbers of the values of a range. -/
theorem isOver_numbersOf (c : Call) (values : List RangeValue) : (numbersOf c values).IsOver := by
  induction values with
  | nil => exact .inl ⟨[], rfl⟩
  | cons value values ih =>
    have hvalue : (numberOfValue c value).IsOver := by
      cases value with
      | number x => exact .inl ⟨x, rfl⟩
      | text s => exact Program.isOver_ofOption _ _
    exact hvalue.bind fun x => ih.bind fun xs => .inl ⟨x :: xs, rfl⟩

/-- The functions that are taken of values. All of them but the mean have a text, too. -/
def aggregates : List Builtin :=
  [.sum, .maximum, .minimum, .count, .average]

/-- An aggregate collects values, and is over when it has them. -/
theorem number_aggregate {f : Builtin} (hf : f ∈ aggregates) (hargs : c.args = [arg]) :
    ∃ g, (∀ values, (g values).IsOver) ∧ f.number c = (collect c .numeric).bind g := by
  have hover : ∀ (h : List Float → Float) (values : List RangeValue),
      ((numbersOf c values).bind fun xs => .value (h xs)).IsOver :=
    fun h values => (isOver_numbersOf c values).bind fun xs => .inl ⟨h xs, rfl⟩
  have hnumbers : ∀ h : List Float → Float, ((numbers c).bind fun xs => .value (h xs)) =
      (collect c .numeric).bind fun values => (numbersOf c values).bind fun xs => .value (h xs) :=
    fun h => Program.bind_bind _ _ _
  simp only [aggregates, List.mem_cons, List.not_mem_nil, or_false] at hf
  rcases hf with rfl | rfl | rfl | rfl | rfl <;>
    simp only [Builtin.number, Builtin.checked, Builtin.numeric?, hargs, List.length_singleton]
  · exact ⟨_, hover sumOf, hnumbers sumOf⟩
  · exact ⟨_, hover maximumOf, hnumbers maximumOf⟩
  · exact ⟨_, hover minimumOf, hnumbers minimumOf⟩
  · exact ⟨_, fun values => .inl ⟨_, rfl⟩, rfl⟩
  · exact ⟨_, hover averageOf, hnumbers averageOf⟩

/-- So does its text, if it has one. -/
theorem text_aggregate {f : Builtin} (hf : f ∈ aggregates) (hmean : f ≠ .average)
    (hargs : c.args = [arg]) :
    ∃ g, (∀ values, (g values).IsOver) ∧ f.text c = (collect c .textual).bind g := by
  have htexts : ∀ h : List String → String, ((texts c).bind fun ss => .value (h ss)) =
      (collect c .textual).bind fun values => .value (h (values.map textOfValue)) :=
    fun h => Program.bind_bind _ _ _
  simp only [aggregates, List.mem_cons, List.not_mem_nil, or_false] at hf
  rcases hf with rfl | rfl | rfl | rfl | rfl <;>
    simp only [Builtin.text, Builtin.checked, Builtin.textual?, hargs, List.length_singleton]
  · exact ⟨_, fun values => .inl ⟨_, rfl⟩, htexts String.join⟩
  · exact ⟨_, fun values => .inl ⟨_, rfl⟩, htexts lastOf⟩
  · exact ⟨_, fun values => .inl ⟨_, rfl⟩, htexts firstOf⟩
  · exact ⟨_, fun values => .inl ⟨_, rfl⟩, rfl⟩
  · exact absurd rfl hmean

/-- With a range keyword in the only argument, the text behind it decides whether there is a
request, and which. -/
theorem collect_range (hargs : c.args = [arg])
    (hfind : RangeKeyword.find? (trim arg.toList) = some (keyword, count)) (channel : Channel) :
    collect c channel =
      match RangeKeyword.insideParens? ((trim arg.toList).drop count) with
      | none => .error (c.error .syntaxError)
      | some text => .ask (.range keyword (String.ofList text) channel) fun values =>
          Program.ofOption values (c.errorNaming .functionError keyword.keyword) := by
  have hrange : onlyRange? c.args = some (keyword,
      (RangeKeyword.insideParens? ((trim arg.toList).drop count)).map String.ofList) := by
    rw [hargs]
    show rangeOf? arg = _
    unfold rangeOf?
    simp only [hfind, Option.map_some]
  unfold collect
  rw [hrange]
  cases RangeKeyword.insideParens? ((trim arg.toList).drop count) <;> rfl

-- ---------------------------------------------------------------------------
-- Requests
-- ---------------------------------------------------------------------------

/-- What the parenthesis behind the range keyword encloses is asked for, without the white space
around it. If that is nothing, or there is more behind it, the argument is wrong. -/
structure AsksAsEnclosed (c : Call) (keyword : RangeKeyword) (behind : List Char)
    (channel : Channel) (p : Program α) : Prop where
  asked : ∀ inside, Encloses behind inside → ¬ Blank inside →
    p.AsksOnly (.range keyword (String.ofList (trim inside)) channel)
  refused : (∀ inside, Encloses behind inside → Blank inside) → p = .error (c.error .syntaxError)

/-- What an aggregate does about the text behind the range keyword in its argument. -/
structure AsksAsBracketed (c : Call) (keyword : RangeKeyword) (behind : List Char)
    (channel : Channel) (p : Program α) : Prop where
  /-- What a parenthesis encloses is asked for, and is not empty and balanced. -/
  enclosed : ∀ inside, Encloses behind inside → ¬ Blank inside →
    p.AsksOnly (.range keyword (String.ofList (trim inside)) channel) ∧
      trim inside ≠ [] ∧ Balanced (trim inside)
  /-- Where nothing stands between parentheses at both ends the argument is wrong. -/
  refused : (∀ inside, Brackets behind inside → inside = []) → p = .error (c.error .syntaxError)
  /-- What stands between parentheses at both ends is asked for even if it is blank, or the two do
  not belong together. -/
  mismatched : ∀ inside, Brackets behind inside → inside ≠ [] → Blank inside ∨ ¬ Balanced inside →
    p.AsksOnly (.range keyword (String.ofList (trim inside)) channel) ∧
      (trim inside = [] ∨ ¬ Balanced (trim inside))
  /-- Only then it is not what the parenthesis encloses that counts. -/
  asEnclosed_iff : AsksAsEnclosed c keyword behind channel p ↔
    ∀ inside, Brackets behind inside → inside ≠ [] → ¬ Blank inside ∧ Balanced inside

variable {behind : List Char} {p : Program α}

/-- What is asked for depends on what stands between parentheses at both ends. -/
theorem asksAsBracketed
    (hasked : ∀ inside, Brackets behind inside → inside ≠ [] →
      p.AsksOnly (.range keyword (String.ofList (trim inside)) channel))
    (hrefused : (∀ inside, Brackets behind inside → inside = []) →
      p = .error (c.error .syntaxError)) :
    AsksAsBracketed c keyword behind channel p where
  enclosed inside hencloses hblank := by
    obtain ⟨hbrackets, hbalanced⟩ := encloses_iff.mp hencloses
    exact ⟨hasked inside hbrackets (ne_nil_of_not_blank hblank), mt trim_eq_nil_iff.mp hblank,
      balanced_trim.mpr hbalanced⟩
  refused := hrefused
  mismatched inside hbrackets hinside hwrong :=
    ⟨hasked inside hbrackets hinside, hwrong.imp trim_eq_nil_iff.mpr (mt balanced_trim.mp)⟩
  asEnclosed_iff := by
    constructor
    · intro h inside hbrackets hinside
      obtain ⟨next, hask, -⟩ := hasked inside hbrackets hinside
      -- there is a request, and so something is enclosed, which can only be this
      have hsome : ¬ ∀ inside, Encloses behind inside → Blank inside := by
        intro hnone
        rw [h.refused hnone] at hask
        simp at hask
      obtain ⟨inside', hencloses, hblank⟩ : ∃ inside, Encloses behind inside ∧ ¬ Blank inside := by
        simpa using hsome
      obtain ⟨hbrackets', hbalanced⟩ := encloses_iff.mp hencloses
      rw [hbrackets.unique hbrackets']
      exact ⟨hblank, hbalanced⟩
    · intro h
      refine ⟨fun inside hencloses hblank => ?_, fun hnone => hrefused fun inside hbrackets => ?_⟩
      · exact hasked inside (encloses_iff.mp hencloses).1 (ne_nil_of_not_blank hblank)
      · refine Decidable.byContradiction fun hinside => ?_
        obtain ⟨hblank, hbalanced⟩ := h inside hbrackets hinside
        exact hblank (hnone inside (encloses_iff.mpr ⟨hbrackets, hbalanced⟩))

/-- What is collected of a range, and what is made of it, asks as the collecting does. -/
theorem asksAsBracketed_bind (hargs : c.args = [arg])
    (hfind : RangeKeyword.find? (trim arg.toList) = some (keyword, count))
    {g : List RangeValue → Program α} (hg : ∀ values, (g values).IsOver) :
    AsksAsBracketed c keyword ((trim arg.toList).drop count) channel
      ((collect c channel).bind g) := by
  rw [collect_range hargs hfind]
  refine asksAsBracketed (fun inside hbrackets hinside => ?_) fun hnone => ?_
  · rw [RangeKeyword.insideParens?_eq_some_iff.mpr ⟨inside, hbrackets, hinside, rfl⟩]
    exact ⟨_, rfl, fun reply => (Program.isOver_ofOption _ _).bind hg⟩
  · have hparens : RangeKeyword.insideParens? ((trim arg.toList).drop count) = none := by
      rw [Option.eq_none_iff_forall_ne_some]
      intro text htext
      obtain ⟨inside, hbrackets, hinside, -⟩ := RangeKeyword.insideParens?_eq_some_iff.mp htext
      exact hinside (hnone inside hbrackets)
    rw [hparens]
    rfl

/-- An aggregate with a range keyword in its only argument asks for what stands between parentheses
at both ends of the text behind the keyword, in either channel. That is what the opening parenthesis
encloses unless there is only white space in it, or it is closed before the end. -/
theorem range_requests {f : Builtin} (hf : f ∈ aggregates) {c : Call} {arg : String}
    (hargs : c.args = [arg]) {keyword : RangeKeyword} {count : Nat}
    (hfind : RangeKeyword.find? (trim arg.toList) = some (keyword, count)) :
    AsksAsBracketed c keyword ((trim arg.toList).drop count) .numeric (f.number c) ∧
      (f ≠ .average →
        AsksAsBracketed c keyword ((trim arg.toList).drop count) .textual (f.text c)) := by
  constructor
  · obtain ⟨g, hg, hprogram⟩ := number_aggregate hf hargs
    rw [hprogram]
    exact asksAsBracketed_bind hargs hfind hg
  · intro hmean
    obtain ⟨g, hg, hprogram⟩ := text_aggregate hf hmean hargs
    rw [hprogram]
    exact asksAsBracketed_bind hargs hfind hg

/-- Nothing between the parentheses, and more than what the first one encloses: both are sent to a
provider, which has values for them. -/
theorem range_requests_mismatched :
    let blank : Call := ⟨({} : Engine).context, "sum", ["childs( )"], "sum(childs( ))", 14⟩
    let more : Call :=
      ⟨({} : Engine).context, "sum", ["childs(a) + childs(b)"], "sum(childs(a) + childs(b))", 26⟩
    let e : Engine := { providers := [ProviderTable.provider
      { ranges := [(.childs, "", .values [.number 1.0]),
          (.childs, "a) + childs(b", .values [.number 2.0])] }] }
    ((Builtin.sum.number blank).AsksOnly (.range .childs "" .numeric) ∧
      ¬ AsksAsEnclosed blank .childs "( )".toList .numeric (Builtin.sum.number blank) ∧
      e.Calculates "sum(childs( ))" ⟨[⟨0, .range .childs "" .numeric⟩], .value 1.0⟩) ∧
    ((Builtin.sum.number more).AsksOnly (.range .childs "a) + childs(b" .numeric) ∧
      ¬ AsksAsEnclosed more .childs "(a) + childs(b)".toList .numeric (Builtin.sum.number more) ∧
      e.Calculates "sum(childs(a) + childs(b))"
        ⟨[⟨0, .range .childs "a) + childs(b" .numeric⟩], .value 2.0⟩) := by
  intro blank more e
  refine ⟨?_, ?_⟩
  · obtain ⟨hrange, -⟩ := @range_requests .sum (by decide) blank "childs( )" rfl .childs 6
      (by decide)
    have hbrackets : Brackets "( )".toList [' '] := by decide
    have hblank : Blank [' '] := by simp [Blank]; decide
    refine ⟨(hrange.mismatched _ hbrackets (by simp) (.inl hblank)).1, fun h => ?_,
      ⟨2, by decide +kernel, by simp⟩⟩
    exact (hrange.asEnclosed_iff.mp h _ hbrackets (by simp)).1 hblank
  · obtain ⟨hrange, -⟩ := @range_requests .sum (by decide) more "childs(a) + childs(b)" rfl .childs
      6 (by decide)
    have hbrackets : Brackets "(a) + childs(b)".toList "a) + childs(b".toList := by decide
    have hbalanced : ¬ Balanced "a) + childs(b".toList := by decide
    refine ⟨(hrange.mismatched _ hbrackets (by simp) (.inr hbalanced)).1, fun h => ?_,
      ⟨2, by decide +kernel, by simp⟩⟩
    exact hbalanced (hrange.asEnclosed_iff.mp h _ hbrackets (by simp)).2

end Evaluation

end Formulae
