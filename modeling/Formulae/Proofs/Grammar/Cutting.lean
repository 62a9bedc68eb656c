import Formulae.Proofs.Text.Boundaries
import Formulae.Proofs.Grammar.Splitting

/-!
# Cutting arguments out by byte offsets

The arguments of a call are found by going through the text behind its opening parenthesis and
counting bytes: one offset is that of the closing parenthesis, and between it and the opening one
others are those of the commas. The arguments are then cut out between the offsets. A parenthesis
and a comma are passed over as one byte, which is what they are; so all of the offsets are
boundaries, everything can be cut out, and it is what the text is split into.

Main results:

* `closingIn?_eq` — the closing parenthesis, found by counting bytes.
* `cutFrom?_eq`, `cutIn?_eq` — the pieces that are cut out.
* `takeIn?_eq` — the arguments of a call and the offset behind it.
* `isBoundary_of_closingOffset?`, `isBoundary_of_takeFrom?` — the offsets are boundaries.
-/

namespace Formulae.Grammar.Arguments

open Text

-- ---------------------------------------------------------------------------
-- The closing parenthesis
-- ---------------------------------------------------------------------------

/-- The offset of the parenthesis that closes `depth` open ones, counted on from `offset`. -/
def closingFrom? (depth : Nat) (quoted : Bool) (offset : Nat) : List Char → Option Nat
  | [] => none
  | c :: cs =>
    let next := offset + c.utf8Size
    if c = '\'' then closingFrom? depth (!quoted) next cs
    else if quoted then closingFrom? depth true next cs
    else if c = '(' then closingFrom? (depth + 1) false next cs
    else if c = ')' then
      if depth = 1 then some offset else closingFrom? (depth - 1) false next cs
    else closingFrom? depth false next cs

/-- The offset of the parenthesis that closes a text from an offset on, by counting bytes. -/
def closingIn? (text : String) (start : Nat) : Option Nat := do
  let rest ← dropBytes? start text.toList
  let offset ← closingFrom? 1 false 0 rest
  return start + offset

/-- Counting bytes up to the closing parenthesis is finding what stands before it. -/
theorem closingFrom?_eq (depth : Nat) (quoted : Bool) (offset : Nat) (cs : List Char) :
    closingFrom? (depth + 1) quoted offset cs =
      (closeFrom? depth quoted cs).map fun r => offset + byteLength r.1 := by
  induction cs generalizing depth quoted offset with
  | nil => rfl
  | cons c cs ih =>
    have hput : ∀ result : Option (List Char × List Char),
        (result.map fun r => (c :: r.1, r.2)).map (fun r => offset + byteLength r.1) =
          result.map fun r => offset + c.utf8Size + byteLength r.1 := by
      intro result
      rw [Option.map_map]
      congr 1
      funext r
      exact (Nat.add_assoc ..).symm
    rw [closingFrom?, closeFrom?]
    split
    · rw [ih, hput]
    · split
      · rw [ih, hput]
      · split
        · rw [ih, hput]
        · split
          · cases depth with
            | zero => rfl
            | succ depth =>
              rw [if_neg (by omega), if_neg (by omega), hput]
              exact ih ..
          · rw [ih, hput]

/-- Both ways to find the closing parenthesis agree on its offset. -/
theorem closingIn?_eq (text : String) (start : Nat) :
    closingIn? text start = closingOffset? text start := by
  rw [closingIn?, closingOffset?]
  cases dropBytes? start text.toList with
  | none => rfl
  | some rest =>
    show (closingFrom? (0 + 1) false 0 rest).bind (fun offset => some (start + offset)) =
      (closeFrom? 0 false rest).bind fun r => some (start + byteLength r.1)
    rw [closingFrom?_eq]
    cases closeFrom? 0 false rest with
    | none => rfl
    | some r => exact congrArg (fun n => some (start + n)) (Nat.zero_add _)

variable {text : String} {start stop : Nat} {args : List String}

/-- The parts of a text around the parenthesis that closes it, and their offsets. -/
theorem exists_parts_of_closingOffset? (h : closingOffset? text start = some stop) :
    ∃ front inner rest, text.toList = front ++ inner ++ ')' :: rest ∧ byteLength front = start ∧
      byteLength (front ++ inner) = stop ∧ takeFrom? text start = some (split inner, stop + 1) := by
  rw [closingOffset?] at h
  obtain ⟨rest, hdrop, h⟩ := Option.bind_eq_some_iff.mp h
  obtain ⟨⟨inner, after⟩, hclose, h⟩ := Option.bind_eq_some_iff.mp h
  obtain rfl : start + byteLength inner = stop := Option.some.inj h
  obtain ⟨front, htext, hfront⟩ := dropBytes?_eq_some_iff.mp hdrop
  refine ⟨front, inner, after, ?_, hfront, ?_, ?_⟩
  · rw [htext, append_of_closeFrom? hclose, List.append_assoc]
  · rw [byteLength_append, hfront]
  · rw [takeFrom?, hdrop, Option.bind_eq_bind, Option.bind_some, hclose]
    rfl

/-- The closing parenthesis is between two boundaries. -/
theorem isBoundary_of_closingOffset? (h : closingOffset? text start = some stop) :
    IsBoundary text stop ∧ IsBoundary text (stop + 1) := by
  obtain ⟨front, inner, rest, htext, -, rfl, -⟩ := exists_parts_of_closingOffset? h
  refine ⟨isBoundary_of_append htext, isBoundary_iff.mpr ⟨front ++ inner ++ [')'], rest, ?_, ?_⟩⟩
  · rw [htext, List.append_assoc _ _ rest]
    rfl
  · rw [byteLength_append]
    rfl

/-- Without a closing parenthesis nothing is taken. -/
theorem takeFrom?_eq_none (h : closingOffset? text start = none) : takeFrom? text start = none := by
  rw [closingOffset?] at h
  rw [takeFrom?]
  cases hdrop : dropBytes? start text.toList with
  | none => rfl
  | some rest =>
    rw [hdrop, Option.bind_eq_bind, Option.bind_some] at h
    rw [Option.bind_eq_bind, Option.bind_some]
    cases hclose : close? rest with
    | none => rfl
    | some r => rw [hclose] at h; cases h

/-- Behind a call there is a boundary. -/
theorem isBoundary_of_takeFrom? (h : takeFrom? text start = some (args, stop)) :
    IsBoundary text stop := by
  cases hclosing : closingOffset? text start with
  | none => rw [takeFrom?_eq_none hclosing] at h; cases h
  | some close =>
    obtain ⟨-, inner, -, -, -, -, htake⟩ := exists_parts_of_closingOffset? hclosing
    rw [htake] at h
    cases h
    exact (isBoundary_of_closingOffset? hclosing).2

-- ---------------------------------------------------------------------------
-- The pieces
-- ---------------------------------------------------------------------------

/-- Cuts a text at the commas where no parenthesis and no quote is open. The piece in hand begins at
`first`, and `offset` is how far the text has been gone through. -/
def cutFrom? (whole : List Char) (depth : Int) (quoted : Bool) (first offset : Nat) :
    List Char → Option (List String)
  | [] => (slice? first (byteLength whole) whole).map fun piece => [String.ofList (trim piece)]
  | c :: cs =>
    let next := offset + c.utf8Size
    if c = '\'' then cutFrom? whole depth (!quoted) first next cs
    else if quoted then cutFrom? whole depth true first next cs
    else if c = '(' then cutFrom? whole (depth + 1) false first next cs
    else if c = ')' then cutFrom? whole (depth - 1) false first next cs
    else if c = ',' ∧ depth = 0 then do
      let piece ← slice? first offset whole
      let pieces ← cutFrom? whole depth false (offset + 1) next cs
      return String.ofList (trim piece) :: pieces
    else cutFrom? whole depth false first next cs

/-- The arguments in a text, cut out of it. -/
def cutIn? (cs : List Char) : Option (List String) :=
  let inner := trim cs
  if inner.isEmpty then some [] else cutFrom? inner 0 false 0 0 inner

/-- The arguments of a call whose opening parenthesis ends at an offset, and the offset behind the
closing one: nothing on the outside if something cannot be cut out, and nothing on the inside if the
call is not closed. -/
def takeIn? (text : String) (start : Nat) : Option (Option (List String × Nat)) :=
  match closingIn? text start with
  | none => some none
  | some stop => do
    let inner ← slice? start stop text.toList
    let args ← cutIn? inner
    return some (args, stop + 1)

/-- What has been gone through stands in front of the first piece of the rest. -/
theorem cutFrom?_eq (front piece : List Char) (depth : Int) (quoted : Bool) (cs : List Char) :
    cutFrom? (front ++ piece ++ cs) depth quoted (byteLength front)
        (byteLength (front ++ piece)) cs =
      some ((piece.foldr putFirst (piecesFrom depth quoted cs)).map fun piece =>
        String.ofList (trim piece)) := by
  induction cs generalizing front piece depth quoted with
  | nil =>
    have hslice : slice? (byteLength front) (byteLength (front ++ piece ++ []))
        (front ++ piece ++ []) = some piece :=
      slice?_eq_some_iff.mpr ⟨front, [], rfl, rfl, by rw [List.append_nil]⟩
    rw [cutFrom?, hslice, piecesFrom, foldr_putFirst, List.append_nil]
    rfl
  | cons c cs ih =>
    -- a character that belongs to the piece
    have hnext : ∀ (depth : Int) (quoted : Bool),
        cutFrom? (front ++ piece ++ c :: cs) depth quoted (byteLength front)
            (byteLength (front ++ piece) + c.utf8Size) cs =
          some ((piece.foldr putFirst (putFirst c (piecesFrom depth quoted cs))).map fun piece =>
            String.ofList (trim piece)) := by
      intro depth quoted
      have h := ih front (piece ++ [c]) depth quoted
      rw [List.foldr_append] at h
      have hwhole : front ++ (piece ++ [c]) ++ cs = front ++ piece ++ c :: cs := by simp
      have hoffset : byteLength (front ++ (piece ++ [c])) =
          byteLength (front ++ piece) + c.utf8Size := by
        rw [← List.append_assoc, byteLength_append (front ++ piece)]
        rfl
      rwa [hwhole, hoffset] at h
    rw [cutFrom?, piecesFrom]
    split
    · exact hnext ..
    · split
      · exact hnext ..
      · split
        · exact hnext ..
        · split
          · exact hnext ..
          · split
            · rename_i hcomma
              obtain ⟨rfl, -⟩ := hcomma
              have hslice : slice? (byteLength front) (byteLength (front ++ piece))
                  (front ++ piece ++ ',' :: cs) = some piece :=
                slice?_eq_some_iff.mpr ⟨front, ',' :: cs, rfl, rfl, rfl⟩
              have h := ih (front ++ piece ++ [',']) [] depth false
              have hwhole : front ++ piece ++ [','] ++ [] ++ cs = front ++ piece ++ ',' :: cs := by
                simp
              have hoffset : byteLength (front ++ piece ++ [',']) =
                  byteLength (front ++ piece) + 1 := by
                rw [byteLength_append]
                rfl
              rw [hwhole, List.append_nil, hoffset] at h
              have hsize : Char.utf8Size ',' = 1 := rfl
              rw [hslice, hsize, h, foldr_putFirst, List.append_nil]
              rfl
            · exact hnext ..

/-- Cutting by offsets gives the arguments that are split. -/
theorem cutIn?_eq (cs : List Char) : cutIn? cs = some (split cs) := by
  rw [cutIn?, split]
  split
  · rfl
  · exact cutFrom?_eq [] [] 0 false (trim cs)

/-- The arguments of a call can always be cut out, and are those that it is split into. -/
theorem takeIn?_eq (text : String) (start : Nat) :
    takeIn? text start = some (takeFrom? text start) := by
  rw [takeIn?, closingIn?_eq]
  cases hclosing : closingOffset? text start with
  | none => rw [takeFrom?_eq_none hclosing]
  | some stop =>
    obtain ⟨front, inner, rest, htext, hfront, hinner, htake⟩ :=
      exists_parts_of_closingOffset? hclosing
    have hslice : slice? start stop text.toList = some inner :=
      slice?_eq_some_iff.mpr ⟨front, _, htext, hfront, hinner⟩
    rw [htake]
    show ((slice? start stop text.toList).bind fun inner => (cutIn? inner).bind fun args =>
      some (some (args, stop + 1))) = _
    rw [hslice, Option.bind_some, cutIn?_eq]
    rfl

end Formulae.Grammar.Arguments
