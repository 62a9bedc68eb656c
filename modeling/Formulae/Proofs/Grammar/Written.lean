import Formulae.Proofs.Grammar.Reading
import Formulae.Proofs.Grammar.WellFormed
import Formulae.Proofs.Evaluation.Cleaning

/-!
# Written calls and integers

A call is written as a name and its arguments between parentheses, and an integer as its digits,
with a sign in front if it is negative. Both are read as what they were written for, and both can be
arguments of a call in turn.

Main results:

* `isArgument_writtenCall`, `isArgument_integer` — they can be arguments.
* `NumericTree.ofFormula_call`, `TextTree.ofFormula_call` — a call is parsed as one, however its
  arguments are spaced.
* `NumericTree.ofFormula_natural`, `NumericTree.ofFormula_negative` — the trees of integers.
-/

namespace Formulae.Grammar

-- ---------------------------------------------------------------------------
-- Characters
-- ---------------------------------------------------------------------------

/-- A text that is read as one name. -/
def isName (name : String) : Bool :=
  name.toList.head?.any isNameStart && name.toList.all isNamePart

/-- The names of the built-in functions are names in a formula. -/
theorem isName_builtin (f : Builtin) : isName f.name = true := by
  cases f <;> decide +kernel

variable {c : Char} {name : String} {rest : List Char}

theorem isName_iff : isName name = true ↔
    ∃ c cs, name.toList = c :: cs ∧ isNameStart c = true ∧ ∀ d ∈ c :: cs, isNamePart d = true := by
  unfold isName
  cases name.toList with
  | nil => simp
  | cons c cs =>
    rw [List.head?_cons, Option.any_some, Bool.and_eq_true, List.all_eq_true]
    constructor
    · rintro ⟨hstart, hparts⟩
      exact ⟨c, cs, rfl, hstart, hparts⟩
    · rintro ⟨_, _, heq, hstart, hparts⟩
      obtain ⟨rfl, rfl⟩ := List.cons.inj heq
      exact ⟨hstart, hparts⟩

/-- White space stands in no name. -/
theorem isBlank_isNamePart (h : isNamePart c = true) : Text.isBlank c = false := by
  let codes := [9, 10, 11, 12, 13, 32, 133, 160, 5760] ++ List.range' 8192 11 ++
    [8232, 8233, 8239, 8287, 12288]
  have hall : ∀ n ∈ codes, isNamePart (Char.ofNat n) = false := by decide +kernel
  cases hblank : Text.isBlank c with
  | false => rfl
  | true =>
    have hmem : c.toNat ∈ codes := by
      simp only [Text.isBlank, Bool.or_eq_true, Bool.and_eq_true, decide_eq_true_eq,
        beq_iff_eq] at hblank
      simp only [codes, List.mem_append, List.mem_cons, List.not_mem_nil, List.mem_range'_1]
      omega
    have hc := hall c.toNat hmem
    rw [Char.ofNat_toNat, h] at hc
    exact hc

-- ---------------------------------------------------------------------------
-- Scanning
-- ---------------------------------------------------------------------------

/-- A name is read up to the first character that is no part of it. -/
theorem scan_name (h : isName name = true) (hrest : ∀ c ∈ rest.head?, isNamePart c = false) :
    scan (name.toList ++ rest) = (.token (.identifier name), rest) := by
  obtain ⟨c, cs, hname, hstart, hparts⟩ := isName_iff.mp h
  have hword : IsWordOf (c :: cs) (.identifier (String.ofList (c :: cs))) :=
    .identifier hstart (List.forall_mem_cons.mp hparts).2
  rw [← hname, String.ofList_toList] at hword
  exact scan_eq_token_iff.mpr ⟨0, _, rfl, hword, hrest⟩

/-- The digits of a natural number are read as that number. -/
theorem scan_digits {n : Nat} (h : n ≤ maxInteger) :
    scan (Nat.toDigits 10 n) = (.token (.integer n), []) :=
  scan_eq_token_iff.mpr ⟨0, _, (List.append_nil _).symm, isWordOf_digits 0 h, by simp [Token.EndsAt]⟩

-- ---------------------------------------------------------------------------
-- As arguments
-- ---------------------------------------------------------------------------

namespace Arguments

/-- A text that stays whole as an argument and as a formula: no white space is taken off it, and
behind it nothing is open. -/
structure IsArgument (arg : String) : Prop where
  trimmed : Text.trim arg.toList = arg.toList
  unbroken : ∀ c ∈ arg.toList, ¬ (c = '\r' ∨ c = '\n' ∨ c = '\t')
  nonempty : arg.toList ≠ []
  closed : openBehind? 0 false arg.toList = some (0, false)

variable {arg : String} {args : List String}

theorem IsArgument.wellFormed (h : IsArgument arg) : WellFormed arg :=
  wellFormed_iff.mpr ⟨h.trimmed, h.closed⟩

theorem IsArgument.clean (h : IsArgument arg) : cleanFormula arg = arg :=
  cleanFormula_eq_self_iff.mpr ⟨h.trimmed, h.unbroken⟩

theorem isArgument_iff : IsArgument arg ↔ WellFormed arg ∧ cleanFormula arg = arg ∧ arg ≠ "" := by
  constructor
  · intro h
    exact ⟨h.wellFormed, h.clean, fun hnone => h.nonempty (by rw [hnone]; rfl)⟩
  · rintro ⟨hformed, hclean, hnonempty⟩
    exact ⟨hformed.trimmed, (cleanFormula_eq_self_iff.mp hclean).2, by simpa using hnonempty,
      hformed.openBehind⟩

instance (arg : String) : Decidable (IsArgument arg) :=
  decidable_of_iff _ isArgument_iff.symm

/-- The characters of arguments with commas between them. -/
def joined (args : List String) : List Char :=
  (", ".intercalate args).toList

@[simp] theorem joined_nil : joined [] = [] := rfl

@[simp] theorem joined_singleton (arg : String) : joined [arg] = arg.toList := by
  rw [joined, String.intercalate_singleton]

@[simp] theorem joined_cons_cons (arg next : String) (args : List String) :
    joined (arg :: next :: args) = arg.toList ++ ',' :: ' ' :: joined (next :: args) := by
  rw [joined, String.intercalate_cons_cons, String.toList_append, String.toList_append,
    List.append_assoc]
  rfl

/-- A space in front of arguments is white space around the first of them. -/
theorem Spaced.space {args : List String} {inner : List Char} (h : Spaced args inner) :
    Spaced args (' ' :: inner) := by
  have hcons : ∀ {blank : List Char}, Blank blank → Blank (' ' :: blank) := by
    intro blank hblank c hc
    rcases List.mem_cons.mp hc with rfl | hc
    · decide
    · exact hblank c hc
  cases h with
  | none h => exact .none (hcons h)
  | last arg hbefore hafter => exact .last arg (hcons hbefore) hafter
  | more arg hbefore hafter rest => exact .more arg (hcons hbefore) hafter rest

theorem spaced_joined (args : List String) : Spaced args (joined args) := by
  have hnone : Blank [] := by simp [Blank]
  induction args with
  | nil => exact .none hnone
  | cons arg args ih =>
    cases args with
    | nil =>
      rw [joined_singleton, ← List.append_nil arg.toList, ← List.nil_append (arg.toList ++ [])]
      exact .last arg hnone hnone
    | cons next args =>
      have hmore := Spaced.more arg hnone hnone ih.space
      rwa [List.append_nil, List.nil_append, ← joined_cons_cons] at hmore

/-- The arguments of a call are no more open than what is between their parentheses. -/
theorem openBehind?_spaced {inner : List Char} (h : ∀ a ∈ args, WellFormed a)
    (hspaced : Spaced args inner) : openBehind? 1 false inner = some (1, false) := by
  induction hspaced with
  | none hblank => exact openBehind?_blank hblank 1
  | last arg hbefore hafter =>
    exact openBehind?_deeper (openBehind?_padded (h arg (by simp)) hbefore hafter) 1
  | @more before after inner next args arg hbefore hafter _ ih =>
    have harg := openBehind?_deeper (openBehind?_padded (h arg (by simp)) hbefore hafter) 1
    rw [openBehind?_append harg]
    exact ih fun a ha => h a (List.mem_cons_of_mem _ ha)

end Arguments

/-- A call with its arguments, which are set off by commas. -/
def writtenCall (name : String) (args : List String) : String :=
  name ++ "(" ++ ", ".intercalate args ++ ")"

open Arguments

theorem toList_writtenCall (name : String) (args : List String) :
    (writtenCall name args).toList = name.toList ++ '(' :: (joined args ++ [')']) := by
  simp [writtenCall, joined]

/-- A text is a call of a name with these well-formed arguments, however they are spaced. -/
structure IsCall (name : String) (args : List String) (text : String) : Prop where
  wellFormed : ∀ a ∈ args, WellFormed a
  written : ∃ inner, Spaced args inner ∧ text.toList = name.toList ++ '(' :: (inner ++ [')'])

/-- A written call is the call of its arguments. -/
theorem isCall_of_wellFormed {args : List String} (h : ∀ a ∈ args, WellFormed a) :
    IsCall name args (writtenCall name args) :=
  ⟨h, _, spaced_joined args, toList_writtenCall name args⟩

theorem isCall_writtenCall {args : List String} (h : ∀ a ∈ args, IsArgument a) :
    IsCall name args (writtenCall name args) :=
  isCall_of_wellFormed fun a ha => (h a ha).wellFormed

/-- Characters that are no quotes, parentheses or commas open and close nothing. -/
theorem openBehind?_plain {cs : List Char}
    (h : ∀ c ∈ cs, c ≠ '\'' ∧ c ≠ '(' ∧ c ≠ ')' ∧ c ≠ ',') :
    openBehind? 0 false cs = some (0, false) := by
  induction cs with
  | nil => rfl
  | cons c cs ih =>
    obtain ⟨hquote, hopen, hclose, hcomma⟩ := h c (by simp)
    have hcs : ∀ c ∈ cs, c ≠ '\'' ∧ c ≠ '(' ∧ c ≠ ')' ∧ c ≠ ',' := by
      intro d hd
      exact h d (List.mem_cons_of_mem _ hd)
    rw [(passes_plain hquote hopen hclose (by simp [hcomma])).openBehind]
    exact ih hcs

theorem unbroken_joined {args : List String} (h : ∀ a ∈ args, IsArgument a) :
    ∀ c ∈ joined args, ¬ (c = '\r' ∨ c = '\n' ∨ c = '\t') := by
  induction args with
  | nil => simp
  | cons arg args ih =>
    have hargs : ∀ a ∈ args, IsArgument a := by
      intro a ha
      exact h a (List.mem_cons_of_mem _ ha)
    cases args with
    | nil => simpa using (h arg (by simp)).unbroken
    | cons next args =>
      intro c hc
      rw [joined_cons_cons, List.mem_append, List.mem_cons, List.mem_cons] at hc
      rcases hc with hc | rfl | rfl | hc
      · exact (h arg (by simp)).unbroken c hc
      · decide
      · decide
      · exact ih hargs c hc

/-- A name can be an argument. -/
theorem isArgument_name (hname : isName name = true) : IsArgument name := by
  obtain ⟨c, cs, hcs, -, hparts⟩ := isName_iff.mp hname
  rw [← hcs] at hparts
  refine ⟨?_, ?_, ?_, ?_⟩
  · exact Text.trimBy_eq_self
      (fun d hd => isBlank_isNamePart (hparts d (List.mem_of_head? hd)))
      (fun d hd => isBlank_isNamePart (hparts d (List.mem_of_getLast? hd)))
  · intro d hd
    rintro (rfl | rfl | rfl) <;> exact absurd (hparts _ hd) (by decide +kernel)
  · rw [hcs]
    simp
  · refine openBehind?_plain fun d hd => ?_
    have hpart := hparts d hd
    exact ⟨ne_of_class hpart (by decide +kernel), ne_of_class hpart (by decide +kernel),
      ne_of_class hpart (by decide +kernel), ne_of_class hpart (by decide +kernel)⟩

/-- Behind a name and in front of a closing parenthesis stands no white space. -/
theorem trim_call {text : String} {inner : List Char} (hname : isName name = true)
    (htext : text.toList = name.toList ++ '(' :: (inner ++ [')'])) :
    Text.trim text.toList = text.toList := by
  obtain ⟨c, cs, hcs, -, hparts⟩ := isName_iff.mp hname
  refine Text.trimBy_eq_self (fun d hd => ?_) (fun d hd => ?_)
  · rw [htext, hcs] at hd
    obtain rfl : c = d := by simpa using hd
    exact isBlank_isNamePart (hparts c (by simp))
  · rw [htext, ← List.cons_append, ← List.append_assoc, List.getLast?_concat] at hd
    obtain rfl := Option.some.inj hd
    decide

/-- A call of a name is well-formed. -/
theorem IsCall.isWellFormed {args : List String} {text : String} (hname : isName name = true)
    (h : IsCall name args text) : WellFormed text := by
  obtain ⟨inner, hspaced, htext⟩ := h.written
  refine wellFormed_iff.mpr ⟨trim_call hname htext, ?_⟩
  rw [htext, openBehind?_append (isArgument_name hname).closed]
  -- behind the opening parenthesis the arguments are one level down
  show openBehind? 1 false (inner ++ [')']) = _
  rw [openBehind?_append (openBehind?_spaced h.wellFormed hspaced)]
  rfl

/-- A call of a name can be an argument. -/
theorem isArgument_writtenCall {args : List String} (hname : isName name = true)
    (h : ∀ a ∈ args, IsArgument a) : IsArgument (writtenCall name args) := by
  have hnamed := isArgument_name hname
  have hlist := toList_writtenCall name args
  have hformed := (isCall_writtenCall h).isWellFormed hname
  refine ⟨hformed.trimmed, ?_, ?_, hformed.openBehind⟩
  · intro d hd
    rw [hlist, List.mem_append, List.mem_cons, List.mem_append, List.mem_singleton] at hd
    rcases hd with hd | rfl | hd | rfl
    · exact hnamed.unbroken d hd
    · decide
    · exact unbroken_joined h d hd
    · decide
  · rw [hlist]
    simp

/-- A clean call is a call with clean arguments. -/
theorem IsCall.clean {args : List String} {text : String} (hname : isName name = true)
    (h : IsCall name args text) : IsCall name (args.map cleanFormula) (cleanFormula text) where
  wellFormed := by
    intro a ha
    obtain ⟨arg, harg, rfl⟩ := List.mem_map.mp ha
    exact (h.wellFormed arg harg).clean
  written := by
    obtain ⟨inner, hspaced, htext⟩ := h.written
    have hnamed : name.toList.map smooth = name.toList := by
      have harg := isArgument_name hname
      rw [← harg.wellFormed.toList_clean, harg.clean]
    refine ⟨inner.map smooth, hspaced.clean h.wellFormed, ?_⟩
    rw [toList_cleanFormula, trim_call hname htext, htext, List.map_append, hnamed, List.map_cons,
      List.map_append]
    rfl

/-- Cleaning leaves no argument empty that was not. -/
theorem map_cleanFormula_ne {args : List String} (h : ∀ a ∈ args, WellFormed a)
    (hempty : args ≠ [""]) : args.map cleanFormula ≠ [""] := by
  intro hargs
  obtain ⟨arg, rest, rfl, hclean, hrest⟩ := List.map_eq_cons_iff.mp hargs
  obtain rfl := List.map_eq_nil_iff.mp hrest
  have hlist := (h arg (by simp)).toList_clean
  rw [hclean] at hlist
  obtain rfl := String.toList_eq_nil_iff.mp (List.map_eq_nil_iff.mp hlist.symm)
  exact hempty rfl

theorem toList_natural (n : Nat) : (toString (n : Int)).toList = Nat.toDigits 10 n :=
  Nat.toList_repr

theorem toList_negative {n : Nat} (h : 0 < n) :
    (toString (-(n : Int))).toList = '-' :: Nat.toDigits 10 n := by
  have hneg : ¬ (0 : Int) ≤ -(n : Int) := by omega
  rw [Int.toString_eq_repr, Int.repr_eq_if, if_neg hneg, Int.neg_neg, Int.toNat_natCast,
    String.toList_append, Nat.toList_repr]
  rfl

/-- An integer is a natural number or the negative of a positive one. -/
theorem natural_or_negative (k : Int) : (∃ n : Nat, k = n) ∨ ∃ n : Nat, 0 < n ∧ k = -(n : Int) := by
  by_cases h : 0 ≤ k
  · exact .inl ⟨k.toNat, by omega⟩
  · exact .inr ⟨k.natAbs, by omega, by omega⟩

/-- The characters of an integer are digits and the sign. -/
theorem integer_character {k : Int} (h : c ∈ (toString k).toList) :
    c = '-' ∨ c.isDigit = true := by
  have hdigit : ∀ {n : Nat}, c ∈ Nat.toDigits 10 n → c.isDigit = true := fun hc =>
    Number.isDigit_digitsOf _ c hc
  rcases natural_or_negative k with ⟨n, rfl⟩ | ⟨n, hn, rfl⟩
  · rw [toList_natural] at h
    exact .inr (hdigit h)
  · rw [toList_negative hn, List.mem_cons] at h
    exact h.imp id hdigit

/-- An integer can be an argument. -/
theorem isArgument_integer (k : Int) : IsArgument (toString k) := by
  have hclass : ∀ c ∈ (toString k).toList, ∀ d : Char, d ≠ '-' → d.isDigit = false → c ≠ d := by
    rintro c hc d hsign hdigit rfl
    rcases integer_character hc with h | h
    · exact hsign h
    · rw [h] at hdigit
      exact absurd hdigit (by simp)
  have hblank : ∀ c ∈ (toString k).toList, Text.isBlank c = false := by
    intro c hc
    rcases integer_character hc with rfl | h
    · decide
    · have hbounds := digit_bounds h
      simp only [Text.isBlank, Bool.or_eq_false_iff, Bool.and_eq_false_imp, decide_eq_true_eq,
        decide_eq_false_iff_not, beq_eq_false_iff_ne]
      omega
  refine ⟨?_, ?_, ?_, ?_⟩
  · exact Text.trimBy_eq_self (fun c hc => hblank c (List.mem_of_head? hc))
      (fun c hc => hblank c (List.mem_of_getLast? hc))
  · intro c hc
    have hne := hclass c hc
    rintro (h | h | h) <;> exact hne _ (by decide) (by decide) h
  · rcases natural_or_negative k with ⟨n, rfl⟩ | ⟨n, hn, rfl⟩
    · rw [toList_natural]
      exact Nat.toDigits_ne_nil
    · rw [toList_negative hn]
      simp
  · refine openBehind?_plain fun c hc => ?_
    have hne := hclass c hc
    exact ⟨hne _ (by decide) (by decide), hne _ (by decide) (by decide),
      hne _ (by decide) (by decide), hne _ (by decide) (by decide)⟩

-- ---------------------------------------------------------------------------
-- As formulas
-- ---------------------------------------------------------------------------

namespace Outline

variable {inPlace : String → Bool}

/-- A call is one word. -/
theorem says_call {args : List String} {text : String} (hname : isName name = true)
    (hplace : inPlace name = false) (hcall : IsCall name args text) (hempty : args ≠ [""]) :
    Says inPlace text.toList [.call name args 0] := by
  obtain ⟨inner, hspaced, htext⟩ := hcall.written
  have hscan : scan text.toList = (.token (.identifier name), '(' :: (inner ++ [')'])) := by
    rw [htext]
    refine scan_name hname fun c hc => ?_
    obtain rfl := Option.some.inj hc
    decide +kernel
  have htake : take? (inner ++ [')']) = some (args, []) :=
    take?_spaced hcall.wellFormed hspaced hempty
  exact .cons (.call hscan hplace rfl htake) (.nil _)

/-- A natural number is one word. -/
theorem says_natural {n : Nat} (h : n ≤ maxInteger) :
    Says inPlace (toString (n : Int)).toList [.token (.integer n)] := by
  rw [toList_natural]
  exact .cons (.token (scan_digits h) (by simp)) (.nil _)

/-- A negative integer is two words. -/
theorem says_negative {n : Nat} (hpos : 0 < n) (h : n ≤ maxInteger) :
    Says inPlace (toString (-(n : Int))).toList
      [.token (.operator .subtract), .token (.integer n)] := by
  have hscan : scan ('-' :: Nat.toDigits 10 n) =
      (.token (.operator .subtract), Nat.toDigits 10 n) := rfl
  rw [toList_negative hpos]
  exact .cons (.token hscan (by simp)) (.cons (.token (scan_digits h) (by simp)) (.nil _))

end Outline

namespace NumericTree

/-- The tree of a call is the call. -/
theorem ofFormula_call {args : List String} {text : String} (hname : isName name = true)
    (hplace : keepsOperand name = false) (hcall : IsCall name args text) (hempty : args ≠ [""]) :
    ∃ position, ofFormula text = .call name args position := by
  have hpart := (Part.call name args).ofTerm (by simp [Symbol.prefix?]) (.chain .sequence)
  have htree := unplaced_ofFormula (Outline.says_call hname hplace hcall hempty) hpart
  revert htree
  cases ofFormula text <;> simp [unplaced]

/-- The tree of a written number is the number. -/
theorem ofFormula_natural {n : Nat} (h : n ≤ maxInteger) :
    ofFormula (toString (n : Int)) = .number (Float.ofNat n) := by
  have hpart := (Part.integer n).ofTerm (by simp [Symbol.prefix?]) (.chain .sequence)
  exact unplaced_eq_number.mp (unplaced_ofFormula (Outline.says_natural h) hpart)

/-- The tree of a negative number is a sign in front of the number without it. -/
theorem ofFormula_negative {n : Nat} (hpos : 0 < n) (h : n ≤ maxInteger) :
    ofFormula (toString (-(n : Int))) = .prefixed .minus (.number (Float.ofNat n)) := by
  have hsign : (Symbol.token (.operator .subtract)).prefix? = some .minus := rfl
  have hoperand := (Part.integer n).ofTerm (by simp [Symbol.prefix?]) .unary
  have hpart := Part.ofChain .multiplicative (.single _ (hoperand.prefixed hsign))
  have htree := unplaced_ofFormula (Outline.says_negative hpos h) hpart
  revert htree
  cases ofFormula (toString (-(n : Int))) <;> simp [unplaced, unplaced_eq_number]

end NumericTree

namespace TextTree

theorem ofOutline_call {args : List String} {closed stop : Nat} {ending : Ending}
    (h : ending.cause = .complete) :
    ofOutline ⟨[⟨.call name args closed, stop⟩], ending⟩ = .call name args closed := by
  simp [ofOutline, concatenation, atom, concatenationRest, sequenceRest, Parsed.widen, h]

/-- A call is a call in the other channel, too, whatever its name. -/
theorem ofFormula_call {args : List String} {text : String} (hname : isName name = true)
    (hcall : IsCall name args text) (hempty : args ≠ [""]) :
    ∃ position, ofFormula text = .call name args position := by
  have hsaid : Outline.Says (fun _ => false) text.toList [.call name args 0] :=
    Outline.says_call hname rfl hcall hempty
  obtain ⟨hcomplete, hwords⟩ := (@Outline.says_iff _ _ _ 0).mp hsaid
  obtain ⟨closed, stop, rest, hitems, hrest⟩ := words_eq_call.mp hwords
  obtain rfl := words_eq_nil.mp hrest
  refine ⟨closed, ?_⟩
  rw [← @ofOutline_call name args closed stop _ hcomplete, ← hitems]
  rfl

end TextTree

end Formulae.Grammar
