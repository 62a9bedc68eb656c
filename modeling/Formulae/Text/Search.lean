/-!
# Places in texts

A text is a list of characters, and a place in it a number of characters. On the outside a place is
counted in bytes of the UTF-8 form: `byteLength` measures a text, and `dropBytes?` finds what follows
an offset, if the offset falls between two characters. `find?` looks for the first place where one
text stands inside another.

Two texts are compared at the first place where they differ: `precedes` puts them in the order of
their code points, and `distance` measures how far they are apart, by the difference of the two
characters, else of the lengths.

Main statement: `dropBytes?_eq_some_iff`, an offset is found exactly where it measures a beginning
of the text.
-/

namespace Formulae.Text

/-! ## Bytes -/

/-- Number of bytes of a text. -/
def byteLength : List Char → Nat
  | [] => 0
  | c :: cs => c.utf8Size + byteLength cs

@[simp] theorem byteLength_nil : byteLength [] = 0 := rfl

@[simp] theorem byteLength_cons (c : Char) (cs : List Char) :
    byteLength (c :: cs) = c.utf8Size + byteLength cs := rfl

@[simp] theorem byteLength_append (cs ds : List Char) :
    byteLength (cs ++ ds) = byteLength cs + byteLength ds := by
  induction cs with
  | nil => simp
  | cons c cs ih => simp [ih, Nat.add_assoc]

@[simp] theorem byteLength_reverse (cs : List Char) :
    byteLength cs.reverse = byteLength cs := by
  induction cs with
  | nil => rfl
  | cons c cs ih => simp [ih, Nat.add_comm]

/-- The text after a byte offset; `none` past the end or inside a character. -/
def dropBytes? : Nat → List Char → Option (List Char)
  | 0, cs => some cs
  | _ + 1, [] => none
  | n + 1, c :: cs => if c.utf8Size ≤ n + 1 then dropBytes? (n + 1 - c.utf8Size) cs else none
termination_by _ cs => cs.length

/-- An offset is found exactly where it measures a beginning of the text. -/
theorem dropBytes?_eq_some_iff {n : Nat} {cs rest : List Char} :
    dropBytes? n cs = some rest ↔ ∃ front, cs = front ++ rest ∧ byteLength front = n := by
  induction cs generalizing n with
  | nil =>
    cases n with
    | zero =>
      simp only [dropBytes?, Option.some.injEq]
      constructor
      · rintro rfl
        exact ⟨[], rfl, rfl⟩
      · rintro ⟨front, h, -⟩
        exact (List.append_eq_nil_iff.1 h.symm).2.symm
    | succ n =>
      simp only [dropBytes?, reduceCtorEq, false_iff, not_exists, not_and]
      intro front h
      simp [(List.append_eq_nil_iff.1 h.symm).1]
  | cons c cs ih =>
    have hc : 0 < c.utf8Size := c.utf8Size_pos
    cases n with
    | zero =>
      simp only [dropBytes?, Option.some.injEq]
      constructor
      · rintro rfl
        exact ⟨[], rfl, rfl⟩
      · rintro ⟨front, h, hn⟩
        cases front with
        | nil => simpa using h
        | cons d front => simp [byteLength_cons] at hn; have := d.utf8Size_pos; omega
    | succ n =>
      rw [dropBytes?]
      split
      -- the first character ends before the offset, or at it
      · rename_i hle
        rw [ih]
        constructor
        · rintro ⟨front, rfl, hn⟩
          exact ⟨c :: front, rfl, by rw [byteLength_cons, hn]; omega⟩
        · rintro ⟨front, h, hn⟩
          cases front with
          | nil => simp at hn
          | cons d front =>
            obtain ⟨rfl, rfl⟩ := List.cons.inj h
            exact ⟨front, rfl, by rw [byteLength_cons] at hn; omega⟩
      -- the offset falls into the first character
      · rename_i hle
        simp only [reduceCtorEq, false_iff, not_exists, not_and]
        intro front h hn
        cases front with
        | nil => simp at hn
        | cons d front =>
          obtain ⟨rfl, rfl⟩ := List.cons.inj h
          rw [byteLength_cons] at hn
          omega

/-! ## Occurrences -/

/-- Number of characters before the first occurrence of `needle`, counted on from `start`. -/
def findFrom? (needle : List Char) (start : Nat) : List Char → Option Nat
  | [] => if needle.isEmpty then some start else none
  | c :: cs =>
    if needle.isPrefixOf (c :: cs) then some start else findFrom? needle (start + 1) cs

/-- Number of characters before the first occurrence of `needle`. -/
def find? (needle cs : List Char) : Option Nat :=
  findFrom? needle 0 cs

/-! ## Comparison -/

/-- The difference of the first two characters that differ; of the lengths, if none do. -/
def distanceFrom (whole : Int) : List Char → List Char → Int
  | c :: cs, d :: ds => if c = d then distanceFrom whole cs ds else (c.toNat : Int) - d.toNat
  | _, _ => whole

/-- How far a text stands behind another one. -/
def distance (cs ds : List Char) : Int :=
  distanceFrom ((cs.length : Int) - ds.length) cs ds

/-- Whether a text stands before another one in the order of code points. -/
def precedes : List Char → List Char → Bool
  | _, [] => false
  | [], _ :: _ => true
  | c :: cs, d :: ds => c.toNat < d.toNat || (c = d && precedes cs ds)

end Formulae.Text
