import Formulae.Text.Case
import Formulae.Proofs.Calendar.WrittenDates

/-!
# Patterns in percent directives

In the notation of percent directives a percent sign belongs to the character behind it: the two are
a field, or a percent sign that stands for itself. What is written for a pattern is read back as the
items of the pattern, and these spell the pattern again, up to the case of the names of its fields.
A percent sign of the pattern is an item of its own, whatever stands around it, so that it never
makes a directive of the characters behind it.

Main results:

* `readDirectives?_flatMap` — the directives of items are read back as these items.
* `spelling_patternItemsFrom` — the items of a pattern spell it.
* `patternItemsFrom_percent` — a pattern is cut at its percent signs.
* `directives_read_back` — what this says of a pattern and its directives.
-/

namespace Formulae.Calendar

-- ---------------------------------------------------------------------------
-- Reading directives
-- ---------------------------------------------------------------------------

/-- The field that the letter of a directive stands for. -/
def Field.ofDirective? : Char → Option Field
  | 'Y' => some year
  | 'y' => some yearOfCentury
  | 'm' => some month
  | 'd' => some day
  | 'H' => some hour
  | 'M' => some minute
  | 'S' => some second
  | _ => none

/-- What a percent sign and the character behind it stand for. -/
def PatternItem.ofEscape? (c : Char) : Option PatternItem :=
  if c = '%' then some (.char '%') else (Field.ofDirective? c).map .field

/-- Reads percent directives from the left, each percent sign together with the next character;
`none` if there is no next one, or the two stand for nothing. -/
def readDirectives? : List Char → Option (List PatternItem)
  | [] => some []
  | ['%'] => none
  | '%' :: c :: cs => do return (← PatternItem.ofEscape? c) :: (← readDirectives? cs)
  | c :: cs => (readDirectives? cs).map (.char c :: ·)

/-- A percent sign is read together with the character behind it. -/
theorem readDirectives?_percent (c : Char) (cs : List Char) :
    readDirectives? ('%' :: c :: cs) =
      (PatternItem.ofEscape? c).bind fun item => (readDirectives? cs).map (item :: ·) := by
  rw [readDirectives?]
  cases PatternItem.ofEscape? c with
  | none => rfl
  | some item => cases readDirectives? cs <;> rfl

/-- Any other character stands for itself. -/
theorem readDirectives?_char {c : Char} (hc : c ≠ '%') (cs : List Char) :
    readDirectives? (c :: cs) = (readDirectives? cs).map (.char c :: ·) := by
  rw [readDirectives?]
  · exact fun h => absurd h hc
  · exact fun _ _ h => absurd h hc

/-- The letter of a field is read as that field. -/
theorem Field.ofDirective?_directive (f : Field) : Field.ofDirective? f.directive = some f := by
  cases f <;> rfl

theorem Field.directive_ne_percent (f : Field) : f.directive ≠ '%' := by
  cases f <;> decide

/-- The directive of an item is read as the item, whatever stands behind it. -/
theorem readDirectives?_directive (item : PatternItem) (cs : List Char) :
    readDirectives? (item.directive ++ cs) = (readDirectives? cs).map (item :: ·) := by
  cases item with
  | field f =>
    show readDirectives? ('%' :: f.directive :: cs) = _
    rw [readDirectives?_percent, PatternItem.ofEscape?, if_neg f.directive_ne_percent,
      Field.ofDirective?_directive, Option.map_some, Option.bind_some]
  | char c =>
    rw [PatternItem.directive]
    split
    · rename_i hpercent
      subst hpercent
      exact readDirectives?_percent '%' cs
    · rename_i hother
      exact readDirectives?_char hother cs

/-- The directives of items are read back as these items. -/
theorem readDirectives?_flatMap (items : List PatternItem) :
    readDirectives? (items.flatMap PatternItem.directive) = some items := by
  induction items with
  | nil => rfl
  | cons item items ih => rw [List.flatMap_cons, readDirectives?_directive, ih, Option.map_some]

-- ---------------------------------------------------------------------------
-- Spelling items
-- ---------------------------------------------------------------------------

/-- The name of a field in capital letters. -/
def Field.spelling : Field → List Char
  | year => ['Y', 'Y', 'Y', 'Y']
  | yearOfCentury => ['Y', 'Y']
  | month => ['M', 'M']
  | day => ['D', 'D']
  | hour => ['H', 'H']
  | minute => ['M', 'I']
  | second => ['S', 'S']

/-- What an item stands for in a pattern. -/
def PatternItem.spelling : PatternItem → List Char
  | field f => f.spelling
  | char c => [c]

/-- Every name of a field is its spelling, up to case. -/
theorem map_asciiLower_name : ∀ entry ∈ Field.names,
    entry.2.spelling.map Text.asciiLower = entry.1.map Text.asciiLower := by
  decide

/-- The field that begins a text has its name there. -/
theorem exists_name_of_leading? {cs : List Char} {f : Field} {length : Nat}
    (h : Field.leading? cs = some (f, length)) :
    ∃ letters rest, (letters, f) ∈ Field.names ∧ cs = letters ++ rest ∧
      letters.length = length := by
  obtain ⟨⟨letters, f'⟩, hfind, heq⟩ := Option.map_eq_some_iff.mp h
  obtain ⟨rfl, rfl⟩ := Prod.mk.inj heq
  have hbegins := List.find?_some hfind
  obtain ⟨rest, hrest⟩ := List.isPrefixOf_iff_prefix.mp hbegins
  exact ⟨letters, rest, List.mem_of_find?_eq_some hfind, hrest.symm, rfl⟩

/-- The items of a pattern spell it, up to the case of names. -/
theorem spelling_patternItemsFrom (skip : Nat) (cs : List Char) :
    ((patternItemsFrom skip cs).flatMap PatternItem.spelling).map Text.asciiLower =
      (cs.drop skip).map Text.asciiLower := by
  induction cs generalizing skip with
  | nil => rw [patternItemsFrom, List.drop_nil, List.flatMap_nil]
  | cons c rest ih =>
    cases skip with
    | succ skip => rw [patternItemsFrom, ih, List.drop_succ_cons]
    | zero =>
      rw [patternItemsFrom, List.drop_zero]
      split
      · rename_i f length hleading
        obtain ⟨letters, behind, hname, hcs, rfl⟩ := exists_name_of_leading? hleading
        -- one letter of the name is `c`, the others are passed over
        have hrest : rest.drop (letters.length - 1) = behind := by
          have hpos := List.length_pos_of_ne_nil (name_ne_nil _ hname)
          rw [← List.drop_succ_cons (a := c), Nat.sub_add_cancel hpos, hcs, List.drop_left]
        rw [List.flatMap_cons, List.map_append, ih, hrest, hcs, List.map_append]
        exact congrArg (· ++ behind.map Text.asciiLower) (map_asciiLower_name _ hname)
      · rw [List.flatMap_cons, List.map_append, ih, List.drop_zero]
        rfl

-- ---------------------------------------------------------------------------
-- Percent signs of a pattern
-- ---------------------------------------------------------------------------

/-- No name of a field goes over a percent sign. -/
theorem leading?_append_percent (cs rest : List Char) :
    Field.leading? (cs ++ '%' :: rest) = Field.leading? cs := by
  refine leading?_append fun c hc => ?_
  obtain rfl : '%' = c := by simpa using hc
  decide

/-- A percent sign is an item of its own; what stands in front of it and behind it is read as it is
read alone. -/
theorem patternItemsFrom_percent {skip : Nat} {cs : List Char} (h : skip ≤ cs.length)
    (rest : List Char) : patternItemsFrom skip (cs ++ '%' :: rest) =
      patternItemsFrom skip cs ++ .char '%' :: patternItemsFrom 0 rest := by
  induction cs generalizing skip with
  | nil =>
    obtain rfl : skip = 0 := Nat.le_zero.mp h
    have hnone : Field.leading? ('%' :: rest) = none := leading?_append_percent [] rest
    rw [List.nil_append, patternItemsFrom, patternItemsFrom, hnone]
    rfl
  | cons c cs ih =>
    cases skip with
    | succ skip => exact ih (Nat.le_of_succ_le_succ h)
    | zero =>
      have hleading := leading?_append_percent (c :: cs) rest
      rw [List.cons_append] at hleading ⊢
      rw [patternItemsFrom, patternItemsFrom, hleading]
      split
      · rename_i f length hname
        -- a name ends in front of the percent sign
        obtain ⟨letters, behind, -, hcs, rfl⟩ := exists_name_of_leading? hname
        have hlength := congrArg List.length hcs
        rw [List.length_cons, List.length_append] at hlength
        rw [ih (by omega), List.cons_append]
      · rw [ih (Nat.zero_le _), List.cons_append]

/-- The directives of a pattern are read back as its items, in which every percent sign has been
taken together with what is behind it; the items spell the pattern, up to the case of letters of
ASCII. A percent sign of the pattern is written as two, between the directives of what stands on
either side of it. -/
theorem directives_read_back (p : String) :
    readDirectives? (directives p).toList = some (patternItems p) ∧
    Text.sameIgnoringCase ((patternItems p).flatMap PatternItem.spelling) p.toList = true ∧
    ∀ q, directives (p ++ "%" ++ q) = directives p ++ "%%" ++ directives q := by
  refine ⟨?_, ?_, fun q => ?_⟩
  · rw [directives, String.toList_ofList, readDirectives?_flatMap]
  · rw [Text.sameIgnoringCase, beq_iff_eq]
    exact spelling_patternItemsFrom 0 p.toList
  · have hitems : patternItems (p ++ "%" ++ q) = patternItems p ++ .char '%' :: patternItems q := by
      rw [patternItems, String.toList_append, String.toList_append, List.append_assoc]
      exact patternItemsFrom_percent (Nat.zero_le _) q.toList
    have hpercent : (PatternItem.char '%').directive = "%%".toList := by decide
    rw [← String.toList_inj]
    simp only [directives, hitems, List.flatMap_append, List.flatMap_cons, hpercent,
      String.toList_append, String.toList_ofList, List.append_assoc]

/-- Names in capitals and small letters overlap, and a percent sign stands in front of one. -/
example : directives "%YyyyYmI%%d" = "%%Y%yyYmI%%%%d" := by decide

end Formulae.Calendar
