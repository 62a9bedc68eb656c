import Formulae.Proofs.Grammar.Words

/-!
# Rendering

Tokens can be written down. A sign may have more than one spelling, an integer may have zeros in
front, and a text stands between quotes of either kind that do not occur in it. With at least one
space between them the tokens that were written are read again. An integer that is too large is not:
reading stops at its digits, whether or not a fraction follows.

Main results:

* `Rendered.readings` — what is read over a rendering, whatever follows behind a space.
* `readings_rendered` — rendering is undone by reading.
-/

namespace Formulae.Grammar

-- ---------------------------------------------------------------------------
-- Writing
-- ---------------------------------------------------------------------------

/-- The ways to write a token down. -/
inductive Rendering : Token → List Char → Prop
  | sign {t : Token} {word : List Char} (h : (word, t) ∈ signs) : Rendering t word
  | integer (zeros : Nat) {n : Nat} (h : n ≤ 2147483647) :
      Rendering (.integer n) (List.replicate zeros '0' ++ Nat.toDigits 10 n)
  | text {quote : Char} {s : String} (hquote : quote = '\'' ∨ quote = '"')
      (h : quote ∉ s.toList) : Rendering (.text s) (quote :: (s.toList ++ [quote]))
  | identifier {c : Char} {cs : List Char} (hstart : Text.isLetter c ∨ c = '_' ∨ c = '@')
      (hparts : ∀ d ∈ cs, Text.isLetter d ∨ Text.isNumeral d ∨ d = '_' ∨ d = '@') :
      Rendering (.identifier (String.ofList (c :: cs))) (c :: cs)

/-- Tokens that are written one after the other, with spaces in between. -/
inductive Rendered : List Token → List Char → Prop
  | none : Rendered [] []
  | last {t : Token} {word : List Char} (h : Rendering t word) : Rendered [t] word
  | more {t : Token} {word : List Char} {ts : List Token} {cs : List Char} (h : Rendering t word)
      (spaces : Nat) (rest : Rendered ts cs) :
      Rendered (t :: ts) (word ++ List.replicate (spaces + 1) ' ' ++ cs)

/-- A token is written as a word of it. -/
theorem Rendering.isWordOf {t : Token} {word : List Char} (h : Rendering t word) :
    IsWordOf word t := by
  cases h with
  | sign h => exact .sign h
  | integer zeros h => exact isWordOf_digits zeros h
  | @text quote s hquote h =>
    have hword := IsWordOf.text hquote h
    rwa [String.ofList_toList] at hword
  | identifier hstart hparts =>
    refine .identifier ?_ fun d hd => ?_
    · simpa [isNameStart, or_assoc] using hstart
    · simpa [isNamePart, or_assoc] using hparts d hd

-- ---------------------------------------------------------------------------
-- Reading
-- ---------------------------------------------------------------------------

variable {ts : List Token} {cs tail : List Char}

theorem Token.endsAt_space {t : Token} (h : ∀ c ∈ tail.head?, c = ' ') : t.EndsAt tail := by
  intro c hc
  rw [h c hc]
  exact t.goesOn_space

/-- Over a rendering the tokens are read that were written, and then what is behind it. -/
theorem Rendered.readings (h : Rendered ts cs) {c : Cursor} {spaces : Nat}
    (hafter : c.after = List.replicate spaces ' ' ++ cs ++ tail)
    (htail : ∀ d ∈ tail.head?, d = ' ') :
    ∃ (place : Cursor) (left : Nat), place.after = List.replicate left ' ' ++ tail ∧
      c.readings.map Prod.fst = ts.map Reading.token ++ place.readings.map Prod.fst := by
  induction h generalizing c spaces with
  | none => exact ⟨c, spaces, by rw [hafter, List.append_nil], rfl⟩
  | last h =>
    obtain ⟨place, hplace, hreadings⟩ :=
      Cursor.readings_word hafter h.isWordOf (Token.endsAt_space htail)
    exact ⟨place, 0, hplace, by rw [hreadings]; rfl⟩
  | @more t word ts cs h gap _ ih =>
    have hword : c.after = List.replicate spaces ' ' ++ word ++
        (List.replicate (gap + 1) ' ' ++ cs ++ tail) := by
      simp [hafter]
    obtain ⟨place, hplace, hreadings⟩ := Cursor.readings_word hword h.isWordOf
      (Token.endsAt_space (by rintro d ⟨⟩; rfl))
    obtain ⟨behind, left, hbehind, hmore⟩ := ih hplace
    exact ⟨behind, left, hbehind, by rw [hreadings, List.map_cons, hmore]; rfl⟩

/-- What was rendered is read again, up to the end of the text. Digits of an integer that is too
large are unreadable at any place, and where they follow what was rendered, reading stops at
them. -/
theorem readings_rendered :
    (∀ (ts : List Token) (formula : String), Rendered ts formula.toList →
      (Cursor.ofText formula).readings.map Prod.fst = ts.map Reading.token ++ [.finished]) ∧
    (∀ (c : Cursor) (digits rest : List Char) (spaces : Nat),
      (∀ d ∈ digits, d.isDigit = true) → 2147483647 < Number.ofDigits digits →
      (∀ d ∈ rest.head?, d.isDigit = false) →
      c.after = List.replicate spaces ' ' ++ (digits ++ rest) → c.next.1 = .unreadable) ∧
    ∀ (ts : List Token) (cs digits rest : List Char) (spaces : Nat) (formula : String),
      Rendered ts cs → ts = [] ∨ 0 < spaces → (∀ c ∈ digits, c.isDigit = true) →
      2147483647 < Number.ofDigits digits → (∀ c ∈ rest.head?, c.isDigit = false) →
      formula.toList = cs ++ List.replicate spaces ' ' ++ digits ++ rest →
      (Cursor.ofText formula).readings.map Prod.fst = ts.map Reading.token ++ [.unreadable] := by
  have hlarge : ∀ (c : Cursor) (digits rest : List Char) (spaces : Nat),
      (∀ d ∈ digits, d.isDigit = true) → 2147483647 < Number.ofDigits digits →
      (∀ d ∈ rest.head?, d.isDigit = false) →
      c.after = List.replicate spaces ' ' ++ (digits ++ rest) → c.next.1 = .unreadable := by
    intro c digits rest spaces hdigits hlarge hrest hafter
    have hscan : scan c.after = (.unreadable, rest) :=
      scan_eq_iff.mpr ⟨spaces, _, hafter, .tooLarge hdigits hlarge hrest⟩
    exact congrArg Prod.fst hscan
  refine ⟨?_, hlarge, ?_⟩
  · intro ts formula h
    have hafter : (Cursor.ofText formula).after =
        List.replicate 0 ' ' ++ formula.toList ++ [] := (List.append_nil _).symm
    obtain ⟨place, left, hplace, hreadings⟩ := h.readings hafter (by simp)
    rw [List.append_nil] at hplace
    rw [hreadings, Cursor.map_readings_spaces hplace]
  · intro ts cs digits rest spaces formula h hgap hdigits hvalue hrest hformula
    have hstop : ∀ {place : Cursor} {left : Nat},
        place.after = List.replicate left ' ' ++ (digits ++ rest) →
        place.readings.map Prod.fst = [.unreadable] := by
      intro place left hplace
      have hread : (scan place.after).1 = .unreadable :=
        hlarge place digits rest left hdigits hvalue hrest hplace
      exact Cursor.map_readings_of_stop hread (by simp)
    cases spaces with
    | zero =>
      obtain rfl : ts = [] := hgap.resolve_right (by simp)
      cases h
      exact @hstop (.ofText formula) 0 hformula
    | succ spaces =>
      have hafter : (Cursor.ofText formula).after = List.replicate 0 ' ' ++ cs ++
          (List.replicate (spaces + 1) ' ' ++ (digits ++ rest)) := by
        show formula.toList = _
        simp [hformula]
      obtain ⟨place, left, hplace, hreadings⟩ := h.readings hafter (by rintro d ⟨⟩; rfl)
      rw [← List.append_assoc, List.replicate_append_replicate] at hplace
      rw [hreadings, hstop hplace]

/-- Zeros in front, one of the spellings of a sign, quotes in a text, and a fraction behind the
smallest integer that is too large. -/
theorem readings_rendered_spelled :
    let ts : List Token := [.integer 7, .operator .different, .text "a\"b", .identifier "@é"]
    Rendered ts "007 ><  'a\"b' @é".toList ∧
      (Cursor.ofText "007 ><  'a\"b' @é").readings.map Prod.fst =
        ts.map Reading.token ++ [.finished] ∧
      (Cursor.ofText "2147483648,5").next.1 = .unreadable ∧
      (Cursor.ofText "007 ><  'a\"b' @é 2147483648,5").readings.map Prod.fst =
        ts.map Reading.token ++ [.unreadable] := by
  intro ts
  have hrendered : Rendered ts "007 ><  'a\"b' @é".toList :=
    .more (.integer 2 (by decide)) 0 (.more (@Rendering.sign _ ['>', '<'] (by simp [signs])) 1
      (.more (@Rendering.text '\'' _ (.inl rfl) (by decide)) 0
        (.last (@Rendering.identifier '@' ['é'] (.inr (.inr rfl))
          (List.forall_mem_singleton.mpr (by decide +kernel))))))
  have hdigits : ∀ d ∈ "2147483648".toList, d.isDigit = true := List.all_eq_true.mp rfl
  have hrest : ∀ d ∈ ",5".toList.head?, d.isDigit = false := by
    rintro d ⟨⟩
    rfl
  exact ⟨hrendered, readings_rendered.1 _ _ hrendered,
    readings_rendered.2.1 _ _ _ 0 hdigits (by decide) hrest rfl,
    readings_rendered.2.2 _ _ _ _ 1 _ hrendered (.inr (by decide)) hdigits (by decide) hrest
      (by decide)⟩

end Formulae.Grammar
