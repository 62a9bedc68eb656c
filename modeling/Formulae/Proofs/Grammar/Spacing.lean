import Formulae.Proofs.Grammar.Words

/-!
# Spaces between tokens

Spaces can be put in wherever one token ends and the next one begins, before the first token and
behind the last one. A word that ends where the next one begins ends in front of a space as well,
and where no space is put in the same character follows it as before, so that the same tokens are
read.

Main results:

* `Cursor.readings_spaced` — what is read behind any place when spaces are put in there.
* `readings_spacedFormula` — what is read of a formula with spaces put in.
-/

namespace Formulae.Grammar

namespace Cursor

variable {c : Cursor} {widths : Nat → Nat}

/-- The text behind a place, with spaces put in there, behind every reading of a list, and at the
end: as many as the widths say in turn. -/
def spaced (c : Cursor) (widths : Nat → Nat) : List (Reading × Cursor) → List Char
  | [] => List.replicate (widths 0) ' ' ++ c.after
  | (_, place) :: rs =>
    List.replicate (widths 0) ' ' ++ c.after.take (c.after.length - place.after.length) ++
      place.spaced (fun i => widths (i + 1)) rs

/-- Where a token is read, its word stands behind spaces, and the text with spaces put in goes on
behind the word. -/
theorem spaced_of_token {t : Token} (h : c.next.1 = .token t) (widths : Nat → Nat) :
    ∃ spaces word, c.after = List.replicate spaces ' ' ++ word ++ c.next.2.after ∧
      IsWordOf word t ∧ t.EndsAt c.next.2.after ∧
      c.spaced widths c.readings = List.replicate (widths 0 + spaces) ' ' ++ word ++
        c.next.2.spaced (fun i => widths (i + 1)) c.next.2.readings := by
  have hscan : scan c.after = (.token t, c.next.2.after) := Prod.ext h c.after_next.symm
  obtain ⟨spaces, word, hafter, hword, hends⟩ := scan_eq_token_iff.mp hscan
  have htake : c.after.take (c.after.length - c.next.2.after.length) =
      List.replicate spaces ' ' ++ word := by
    rw [hafter, List.length_append, Nat.add_sub_cancel, List.take_left]
  refine ⟨spaces, word, hafter, hword, hends, ?_⟩
  rw [readings_of_token h, spaced, htake, ← List.append_assoc (List.replicate (widths 0) ' '),
    List.replicate_append_replicate]

/-- Where nothing is left there are spaces only, with spaces put in as well. -/
theorem spaced_of_finished (h : c.next.1 = .finished) (widths : Nat → Nat) :
    ∃ spaces, c.spaced widths c.readings = List.replicate spaces ' ' := by
  obtain ⟨spaces, hafter⟩ := scan_eq_finished_iff.mp h
  have hrest : c.next.2.after <:+ c.after := by
    rw [after_next]
    exact scan_suffix c.after
  rw [readings_of_stop (by simp [h])]
  refine ⟨_, List.eq_replicate_iff.mpr ⟨rfl, fun d hd => ?_⟩⟩
  have hspace : d ∈ c.after → d = ' ' := by
    rw [hafter]
    exact List.eq_of_mem_replicate
  simp only [spaced, List.mem_append] at hd
  rcases hd with (hd | hd) | hd | hd
  · exact List.eq_of_mem_replicate hd
  · exact hspace (List.mem_of_mem_take hd)
  · exact List.eq_of_mem_replicate hd
  · exact hspace (hrest.mem hd)

/-- A text that is read to its end begins with a space or as before with spaces put in. -/
theorem head?_spaced (hfinishes : c.Finishes) (widths : Nat → Nat) :
    ∀ d ∈ (c.spaced widths c.readings).head?, d = ' ' ∨ d ∈ c.after.head? := by
  by_cases hstop : ∀ t, c.next.1 ≠ .token t
  · obtain ⟨spaces, hspaced⟩ := spaced_of_finished ((finishes_of_stop hstop).mp hfinishes) widths
    intro d hd
    rw [hspaced] at hd
    exact .inl (List.eq_of_mem_replicate (List.mem_of_mem_head? hd))
  · obtain ⟨t, hread⟩ : ∃ t, c.next.1 = .token t := by simpa using hstop
    obtain ⟨spaces, word, hafter, hword, -, hspaced⟩ := spaced_of_token hread widths
    obtain ⟨first, more, rfl, -⟩ := hword.exists_head
    intro d hd
    rw [hspaced] at hd
    rw [hafter]
    cases hwidth : widths 0 + spaces with
    | zero =>
      obtain rfl : spaces = 0 := Nat.eq_zero_of_add_eq_zero_left hwidth
      rw [hwidth] at hd
      exact .inr hd
    | succ n =>
      rw [hwidth] at hd
      exact .inl (Option.some.inj hd).symm

/-- A text that is read to its end is read as before with spaces put in. -/
theorem readings_spaced (hfinishes : c.Finishes) {c' : Cursor}
    (h : c'.after = c.spaced widths c.readings) :
    c'.readings.map Prod.fst = c.readings.map Prod.fst := by
  induction hlen : c.after.length using Nat.strongRecOn generalizing c c' widths with
  | ind length ih =>
    by_cases hstop : ∀ t, c.next.1 ≠ .token t
    · have hread := (finishes_of_stop hstop).mp hfinishes
      obtain ⟨spaces, hspaced⟩ := spaced_of_finished hread widths
      rw [map_readings_spaces (h.trans hspaced), map_readings_of_stop hread (by simp)]
    · obtain ⟨t, hread⟩ : ∃ t, c.next.1 = .token t := by simpa using hstop
      obtain ⟨spaces, word, -, hword, hends, hspaced⟩ := spaced_of_token hread widths
      have hbehind : c.next.2.Finishes := (finishes_of_token hread).mp hfinishes
      -- what ended the word before ends it still, or a space does
      have hstill : t.EndsAt (c.next.2.spaced (fun i => widths (i + 1)) c.next.2.readings) := by
        intro d hd
        rcases head?_spaced hbehind _ d hd with rfl | hd
        · exact t.goesOn_space
        · exact hends d hd
      obtain ⟨place, hplace, hreadings⟩ := readings_word (h.trans hspaced) hword hstill
      have hlt : c.next.2.after.length < length := hlen ▸ length_after_next_lt hread
      rw [hreadings, readings_of_token hread, List.map_cons, List.map_cons,
        ih _ hlt hbehind hplace rfl]

end Cursor

/-- A formula with spaces put in before, between and behind its tokens, as many as the widths say in
turn. -/
def spacedFormula (formula : String) (widths : Nat → Nat) : String :=
  String.ofList ((Cursor.ofText formula).spaced widths (Cursor.ofText formula).readings)

/-- A formula that is read to its end is read as before with spaces put in. -/
theorem readings_spacedFormula {formula : String} (h : (Cursor.ofText formula).Finishes)
    (widths : Nat → Nat) :
    (Cursor.ofText (spacedFormula formula widths)).readings.map Prod.fst =
      (Cursor.ofText formula).readings.map Prod.fst :=
  Cursor.readings_spaced h String.toList_ofList

/-- Tokens that stand side by side. -/
theorem readings_spacedFormula_adjacent :
    let formula := "12abc<-'a'\"b\"("
    (Cursor.ofText formula).Finishes ∧
      spacedFormula formula (· % 3) = "12 abc  <- 'a'  \"b\"(   " ∧
      (Cursor.ofText (spacedFormula formula (· % 3))).readings.map Prod.fst =
        (Cursor.ofText formula).readings.map Prod.fst := by
  intro formula
  have hfinishes : (Cursor.ofText formula).Finishes :=
    ⟨⟨formula.toList.reverse, []⟩, by decide +kernel⟩
  have hspaced : (Cursor.ofText formula).spaced (· % 3) (Cursor.ofText formula).readings =
      "12 abc  <- 'a'  \"b\"(   ".toList := by decide +kernel
  exact ⟨hfinishes, congrArg String.ofList hspaced, readings_spacedFormula hfinishes _⟩

end Formulae.Grammar
