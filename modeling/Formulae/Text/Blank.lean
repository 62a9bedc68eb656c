/-!
# White space and trimming

A formula, an argument and a number text are all trimmed before they are read. `isBlank` is the
standard's property *White_Space*: it holds the tabs and line ends, the no-break and the em spaces,
but no zero width character. Trimming is taken over any class of characters, since the trimming
functions of the language itself remove plain spaces only.

Main statements: `trimBy_eq_self` (a text that neither begins nor ends in the class is kept),
`head_trimBy` and `getLast_trimBy` (what is left begins and ends outside the class),
`trimBy_trimBy` (trimming twice is trimming once), and `exists_padded` and `trimBy_padded` (what is
trimmed off is in the class, and may just as well not be there).
-/

namespace Formulae.Text

/-- White space of any script. -/
def isBlank (c : Char) : Bool :=
  let code := c.toNat
  (0x09 ≤ code && code ≤ 0x0D) || code == 0x20 || code == 0x85 || code == 0xA0 ||
    code == 0x1680 || (0x2000 ≤ code && code ≤ 0x200A) || code == 0x2028 || code == 0x2029 ||
    code == 0x202F || code == 0x205F || code == 0x3000

/-- Drops the characters of a class from the end. -/
def trimEndBy (p : Char → Bool) (cs : List Char) : List Char :=
  (cs.reverse.dropWhile p).reverse

/-- Drops the characters of a class from both ends. -/
def trimBy (p : Char → Bool) (cs : List Char) : List Char :=
  trimEndBy p (cs.dropWhile p)

/-- Drops the white space at both ends. -/
def trim (cs : List Char) : List Char :=
  trimBy isBlank cs

/-! ## What trimming leaves -/

/-- What is left of a text from the front does not begin in the class. -/
theorem head_dropWhile (p : Char → Bool) (cs : List Char) :
    ∀ c ∈ (cs.dropWhile p).head?, p c = false := by
  induction cs with
  | nil => simp
  | cons c rest ih =>
    by_cases h : p c = true
    · simpa [h] using ih
    · simp [h]

/-- A text that does not begin in the class keeps its front. -/
theorem dropWhile_eq_self {p : Char → Bool} {cs : List Char}
    (h : ∀ c ∈ cs.head?, p c = false) : cs.dropWhile p = cs := by
  cases cs with
  | nil => rfl
  | cons c rest => simp [h c (by simp)]

/-- What is left does not end in the class. -/
theorem getLast_trimEndBy (p : Char → Bool) (cs : List Char) :
    ∀ c ∈ (trimEndBy p cs).getLast?, p c = false := by
  intro c hc
  refine head_dropWhile p cs.reverse c ?_
  simpa [trimEndBy] using hc

/-- A text that does not end in the class keeps its end. -/
theorem trimEndBy_eq_self {p : Char → Bool} {cs : List Char}
    (h : ∀ c ∈ cs.getLast?, p c = false) : trimEndBy p cs = cs := by
  rw [trimEndBy, dropWhile_eq_self, List.reverse_reverse]
  simpa using h

/-- Trimming the end leaves a text that begins as it did. -/
theorem trimEndBy_beginning (p : Char → Bool) (cs : List Char) : trimEndBy p cs <+: cs := by
  have h := (List.dropWhile_suffix p : cs.reverse.dropWhile p <:+ cs.reverse)
  simpa [trimEndBy] using List.reverse_prefix.mpr h

private theorem head_of_beginning {cs ds : List Char} (h : cs <+: ds) :
    ∀ c ∈ cs.head?, c ∈ ds.head? := by
  obtain ⟨tail, rfl⟩ := h
  cases cs <;> simp

/-- What is left of a trimmed text does not begin in the class. -/
theorem head_trimBy (p : Char → Bool) (cs : List Char) :
    ∀ c ∈ (trimBy p cs).head?, p c = false := fun c hc =>
  head_dropWhile p cs c (head_of_beginning (trimEndBy_beginning p _) c hc)

theorem getLast_trimBy (p : Char → Bool) (cs : List Char) :
    ∀ c ∈ (trimBy p cs).getLast?, p c = false :=
  getLast_trimEndBy p _

/-- A text that neither begins nor ends in the class is kept whole. -/
theorem trimBy_eq_self {p : Char → Bool} {cs : List Char}
    (first : ∀ c ∈ cs.head?, p c = false) (last : ∀ c ∈ cs.getLast?, p c = false) :
    trimBy p cs = cs := by
  rw [trimBy, dropWhile_eq_self first, trimEndBy_eq_self last]

/-- Trimming twice is trimming once. -/
theorem trimBy_trimBy (p : Char → Bool) (cs : List Char) :
    trimBy p (trimBy p cs) = trimBy p cs :=
  trimBy_eq_self (head_trimBy p cs) (getLast_trimBy p cs)

/-- Characters that are mapped within the class and outside of it are trimmed off alike. -/
theorem trimBy_map {p : Char → Bool} {f : Char → Char} (h : ∀ c, p (f c) = p c) (cs : List Char) :
    trimBy p (cs.map f) = (trimBy p cs).map f := by
  have hclass : p ∘ f = p := funext h
  simp only [trimBy, trimEndBy, List.dropWhile_map, ← List.map_reverse, hclass]

/-- Only characters of the class are trimmed off. -/
theorem exists_padded (p : Char → Bool) (cs : List Char) :
    ∃ before after, cs = before ++ trimBy p cs ++ after ∧
      (∀ c ∈ before, p c = true) ∧ ∀ c ∈ after, p c = true := by
  let ds := cs.dropWhile p
  refine ⟨cs.takeWhile p, (ds.reverse.takeWhile p).reverse, ?_, ?_, ?_⟩
  · have hds : trimEndBy p ds ++ (ds.reverse.takeWhile p).reverse = ds := by
      rw [trimEndBy, ← List.reverse_append, List.takeWhile_append_dropWhile, List.reverse_reverse]
    rw [List.append_assoc, trimBy, hds, List.takeWhile_append_dropWhile]
  · exact List.all_eq_true.mp List.all_takeWhile
  · intro c hc
    exact List.all_eq_true.mp List.all_takeWhile c (List.mem_reverse.mp hc)

/-- Characters of the class around a text make no difference when it is trimmed. -/
theorem trimBy_padded {p : Char → Bool} {before after : List Char} (cs : List Char)
    (hbefore : ∀ c ∈ before, p c = true) (hafter : ∀ c ∈ after, p c = true) :
    trimBy p (before ++ cs ++ after) = trimBy p cs := by
  have hend : ∀ ds : List Char, trimEndBy p (ds ++ after) = trimEndBy p ds := by
    intro ds
    rw [trimEndBy, List.reverse_append, List.dropWhile_append_of_pos (by simpa using hafter),
      trimEndBy]
  rw [trimBy, List.append_assoc, List.dropWhile_append_of_pos hbefore, List.dropWhile_append,
    trimBy]
  split
  -- nothing is left of the text itself
  · rename_i hempty
    have hnone : (after ++ []).dropWhile p = [] := List.dropWhile_append_of_pos hafter
    rw [List.append_nil] at hnone
    rw [List.isEmpty_iff.mp hempty, hnone]
  · exact hend _

end Formulae.Text
