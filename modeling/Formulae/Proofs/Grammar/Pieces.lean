import Formulae.Proofs.Grammar.WellFormed

/-!
# What calls are cut into

The closing parenthesis of a call is the first one outside quotes that closes more than was opened
behind the opening one. The text before it is cut at the commas that stand outside quotes and
parentheses. No parenthesis is closed in that text that was not opened in it, and no quote is open at
its end, so that the pieces are self-contained: each of them is well-formed once it is trimmed, and
is a single argument when it is split again.

Both scans go on in the same way behind a character, unless it is one that they are looking for;
`Outermost` follows them by counting quotes and parentheses.

Main results:

* `closeFrom?_eq_some`, `closeFrom?_eq_none` — the scan for the closing parenthesis finds the first
  one, if there is one.
* `isCut_piecesFrom`, `length_piecesFrom` — the commas that a text is cut at, and their number.
* `takeFrom?_resplit` — when a call can be split, where it ends, and what its arguments are.
-/

namespace Formulae.Grammar.Arguments

variable {quoted : Bool} {c : Char} {cs inner rest front back : List Char}

-- ---------------------------------------------------------------------------
-- Outside quotes and parentheses
-- ---------------------------------------------------------------------------

/-- Behind a text no quote is open, and no parenthesis either, so many being open before it. -/
def Outermost (start : Int) (quoted : Bool) (cs : List Char) : Prop :=
  quotedBehind quoted cs = false ∧ start + depth (unquoted quoted cs) = 0

instance (start : Int) (quoted : Bool) (cs : List Char) : Decidable (Outermost start quoted cs) :=
  inferInstanceAs (Decidable (_ ∧ _))

variable {start : Int}

theorem outermost_nil : Outermost start quoted [] ↔ quoted = false ∧ start = 0 := by
  simp [Outermost, quotedBehind, unquoted]

theorem outermost_quote : Outermost start quoted ('\'' :: cs) ↔ Outermost start (!quoted) cs := by
  rw [Outermost, quotedBehind_quote]
  rfl

theorem outermost_quoted (h : c ≠ '\'') :
    Outermost start true (c :: cs) ↔ Outermost start true cs := by
  rw [Outermost, Outermost, quotedBehind_cons h, unquoted, if_neg h, if_pos rfl]

theorem outermost_unquoted (h : c ≠ '\'') :
    Outermost start false (c :: cs) ↔ Outermost (start + weight c) false cs := by
  rw [Outermost, Outermost, quotedBehind_cons h, unquoted, if_neg h, if_neg (by simp), depth_cons,
    Int.add_assoc]

/-- What stands behind this text stands outside quotes and outside parentheses. -/
def TopLevel (front : List Char) : Prop :=
  front.count '\'' % 2 = 0 ∧ depth (unquoted false front) = 0

instance (front : List Char) : Decidable (TopLevel front) :=
  inferInstanceAs (Decidable (_ ∧ _))

/-- The top level is where the text before it leaves nothing open. -/
theorem topLevel_iff : TopLevel front ↔ Outermost 0 false front := by
  simp [TopLevel, Outermost, quotedBehind]

/-- A closing parenthesis behind this text stands outside quotes, and one parenthesis being open
before the text, none is behind that. -/
def ClosedBehind (inner : List Char) : Prop :=
  inner.count '\'' % 2 = 0 ∧ 1 + depth (unquoted false (inner ++ [')'])) = 0

instance (inner : List Char) : Decidable (ClosedBehind inner) :=
  inferInstanceAs (Decidable (_ ∧ _))

/-- So is the place of the parenthesis that closes one which was open before the text. -/
theorem closedBehind_iff : ClosedBehind inner ↔ Outermost 0 false inner := by
  have hquotes : inner.count '\'' % 2 = 0 ↔ quotedBehind false inner = false := by
    simp [quotedBehind]
  rw [ClosedBehind, Outermost, hquotes, Int.zero_add]
  refine and_congr_right fun hbehind => ?_
  -- the parenthesis itself stands outside quotes
  rw [unquoted_append, hbehind, depth_append]
  show 1 + (depth (unquoted false inner) + -1) = 0 ↔ _
  omega

-- ---------------------------------------------------------------------------
-- The closing parenthesis
-- ---------------------------------------------------------------------------

/-- Both scans pass over a character and count alike, unless it is a parenthesis or a comma that
they are looking for. -/
theorem passes_or_found (depth : Nat) (quoted : Bool) (c : Char) :
    (depth = 0 ∧ quoted = false ∧ (c = ')' ∨ c = ',')) ∨
      (¬ (c = ')' ∧ Outermost depth quoted []) ∧ ∃ depth' quoted',
        Passes depth quoted c depth' quoted' ∧
          ∀ cs, Outermost depth quoted (c :: cs) ↔ Outermost depth' quoted' cs) := by
  rw [outermost_nil]
  by_cases hquote : c = '\''
  · subst hquote
    exact .inr ⟨by simp, _, _, passes_quote, fun _ => outermost_quote⟩
  cases quoted with
  | true => exact .inr ⟨by simp, _, _, passes_quoted hquote, fun _ => outermost_quoted hquote⟩
  | false =>
    by_cases hfound : depth = 0 ∧ (c = ')' ∨ c = ',')
    · exact .inl ⟨hfound.1, rfl, hfound.2⟩
    refine .inr ⟨fun hclose => hfound ⟨by omega, .inl hclose.1⟩, ?_⟩
    by_cases hopen : c = '('
    · subst hopen
      exact ⟨_, _, passes_open, fun _ => outermost_unquoted hquote⟩
    by_cases hclose : c = ')'
    · subst hclose
      obtain ⟨depth, rfl⟩ := Nat.exists_eq_succ_of_ne_zero fun hzero => hfound ⟨hzero, .inl rfl⟩
      refine ⟨_, _, passes_close, fun cs => ?_⟩
      rw [outermost_unquoted hquote]
      show Outermost (((depth + 1 : Nat) : Int) + -1) false cs ↔ _
      rw [show ((depth + 1 : Nat) : Int) + -1 = depth by omega]
    · refine ⟨_, _, passes_plain hquote hopen hclose fun hcomma => hfound ⟨hcomma.2, .inr hcomma.1⟩,
        fun cs => ?_⟩
      rw [outermost_unquoted hquote, weight_eq_zero hopen hclose, Int.add_zero]

/-- The scan for the closing parenthesis ends at the first character, or goes on behind it. -/
theorem closeFrom?_step (depth : Nat) (quoted : Bool) (c : Char) :
    (c = ')' ∧ depth = 0 ∧ quoted = false) ∨
      (¬ (c = ')' ∧ Outermost depth quoted []) ∧ ∃ depth' quoted',
        (∀ more, closeFrom? depth quoted (c :: more) =
          (closeFrom? depth' quoted' more).map fun r => (c :: r.1, r.2)) ∧
        ∀ cs, Outermost depth quoted (c :: cs) ↔ Outermost depth' quoted' cs) := by
  rcases passes_or_found depth quoted c with ⟨rfl, rfl, rfl | rfl⟩ | ⟨hnot, _, _, hpasses, hcounts⟩
  · exact .inl ⟨rfl, rfl, rfl⟩
  -- a comma does not hold it up
  · exact .inr ⟨by simp, 0, false, fun _ => rfl, fun _ => outermost_unquoted (by decide)⟩
  · exact .inr ⟨hnot, _, _, hpasses.closeFrom, hcounts⟩

/-- The scan finds the first closing parenthesis that stands outermost. -/
theorem closeFrom?_eq_some {depth : Nat} (h : closeFrom? depth quoted cs = some (inner, rest)) :
    Outermost depth quoted inner ∧ ∀ inner' rest', cs = inner' ++ ')' :: rest' →
      Outermost depth quoted inner' → inner <+: inner' := by
  induction cs generalizing depth quoted inner with
  | nil => simp [closeFrom?] at h
  | cons c cs ih =>
    rcases closeFrom?_step depth quoted c with ⟨rfl, rfl, rfl⟩ | ⟨hnot, d, q, hclose, hcounts⟩
    · obtain ⟨rfl, -⟩ := Prod.mk.inj (Option.some.inj h)
      exact ⟨outermost_nil.mpr ⟨rfl, rfl⟩, fun _ _ _ _ => List.nil_prefix⟩
    · rw [hclose] at h
      obtain ⟨⟨more, _⟩, hmore, heq⟩ := Option.map_eq_some_iff.mp h
      obtain ⟨rfl, rfl⟩ := Prod.mk.inj heq
      obtain ⟨houtermost, hfirst⟩ := ih hmore
      refine ⟨(hcounts more).mpr houtermost, fun inner' rest' hcs hinner' => ?_⟩
      cases inner' with
      | nil => exact absurd ⟨(List.cons.inj hcs).1, hinner'⟩ hnot
      | cons d inner' =>
        obtain ⟨rfl, hmore⟩ := List.cons.inj hcs
        exact List.cons_prefix_cons.mpr
          ⟨rfl, hfirst inner' rest' hmore ((hcounts inner').mp hinner')⟩

/-- The scan finds nothing only if no closing parenthesis stands outermost. -/
theorem closeFrom?_eq_none {depth : Nat} (h : closeFrom? depth quoted cs = none)
    (hcs : cs = inner ++ ')' :: rest) : ¬ Outermost depth quoted inner := by
  induction cs generalizing depth quoted inner with
  | nil => simp at hcs
  | cons c cs ih =>
    rcases closeFrom?_step depth quoted c with ⟨rfl, rfl, rfl⟩ | ⟨hnot, d, q, hclose, hcounts⟩
    · simp [closeFrom?] at h
    · rw [hclose, Option.map_eq_none_iff] at h
      cases inner with
      | nil => exact fun hinner => hnot ⟨(List.cons.inj hcs).1, hinner⟩
      | cons d inner =>
        obtain ⟨rfl, hmore⟩ := List.cons.inj hcs
        exact mt (hcounts inner).mp (ih h hmore)

-- ---------------------------------------------------------------------------
-- The commas
-- ---------------------------------------------------------------------------

/-- The comma between these texts stands between two of the pieces. -/
def Meets (pieces : List (List Char)) (front back : List Char) : Prop :=
  ∃ before after, before ≠ [] ∧ after ≠ [] ∧ pieces = before ++ after ∧
    front = [','].intercalate before ∧ back = [','].intercalate after

variable {piece : List Char} {pieces : List (List Char)}

/-- A character in front of the first piece stands in front of all of them with their commas. -/
theorem intercalate_putFirst (h : pieces ≠ []) :
    [','].intercalate (putFirst c pieces) = c :: [','].intercalate pieces := by
  obtain ⟨piece, pieces, rfl⟩ := List.exists_cons_of_ne_nil h
  cases pieces with
  | nil => simp [putFirst]
  | cons next pieces => simp [putFirst]

/-- It does not change which pieces meet. -/
theorem meets_putFirst (h : pieces ≠ []) : Meets (putFirst c pieces) (c :: front) back ↔
    Meets pieces front back := by
  obtain ⟨piece, pieces, rfl⟩ := List.exists_cons_of_ne_nil h
  constructor
  · rintro ⟨before, after, hbefore, hafter, hpieces, hfront, hback⟩
    obtain ⟨first, before, rfl⟩ := List.exists_cons_of_ne_nil hbefore
    obtain ⟨rfl, rfl⟩ := List.cons.inj hpieces
    refine ⟨piece :: before, after, by simp, hafter, rfl, ?_, hback⟩
    have hput := @intercalate_putFirst c (piece :: before) (by simp)
    exact (List.cons.inj (hfront.trans hput)).2
  · rintro ⟨before, after, hbefore, hafter, hpieces, rfl, hback⟩
    obtain ⟨first, before, rfl⟩ := List.exists_cons_of_ne_nil hbefore
    obtain ⟨rfl, rfl⟩ := List.cons.inj hpieces
    exact ⟨(c :: piece) :: before, after, by simp, hafter, rfl,
      (@intercalate_putFirst c (piece :: before) (by simp)).symm, hback⟩

/-- No comma stands in front of the first piece. -/
theorem not_meets_putFirst (h : pieces ≠ []) : ¬ Meets (putFirst c pieces) [] back := by
  rintro ⟨before, after, hbefore, -, hpieces, hnone, -⟩
  obtain ⟨piece, pieces, rfl⟩ := List.exists_cons_of_ne_nil h
  obtain ⟨first, before, rfl⟩ := List.exists_cons_of_ne_nil hbefore
  obtain ⟨rfl, -⟩ := List.cons.inj hpieces
  have hput := @intercalate_putFirst c (piece :: before) (by simp)
  exact List.cons_ne_nil _ _ (hnone.trans hput).symm

/-- The first comma stands behind the first piece. -/
theorem meets_nil_cons_nil (h : pieces ≠ []) :
    Meets ([] :: pieces) [] back ↔ back = [','].intercalate pieces := by
  constructor
  · rintro ⟨before, after, hbefore, hafter, hpieces, hnone, rfl⟩
    obtain ⟨first, before, rfl⟩ := List.exists_cons_of_ne_nil hbefore
    obtain ⟨rfl, rfl⟩ := List.cons.inj hpieces
    cases before with
    | nil => rfl
    | cons next before => simp at hnone
  · rintro rfl
    exact ⟨[[]], pieces, by simp, h, rfl, List.intercalate_singleton.symm, rfl⟩

theorem meets_nil_cons_comma : Meets ([] :: pieces) (',' :: front) back ↔
    Meets pieces front back := by
  have hjoined : ∀ {before : List (List Char)}, before ≠ [] →
      [','].intercalate ([] :: before) = ',' :: [','].intercalate before := by
    intro before hbefore
    rw [List.intercalate_cons_of_ne_nil hbefore]
    rfl
  constructor
  · rintro ⟨before, after, hbefore, hafter, hpieces, hfront, rfl⟩
    obtain ⟨first, before, rfl⟩ := List.exists_cons_of_ne_nil hbefore
    obtain ⟨rfl, rfl⟩ := List.cons.inj hpieces
    have hmore : before ≠ [] := by
      rintro rfl
      simp at hfront
    rw [hjoined hmore] at hfront
    exact ⟨before, after, hmore, hafter, rfl, (List.cons.inj hfront).2, rfl⟩
  · rintro ⟨before, after, hbefore, hafter, rfl, rfl, rfl⟩
    exact ⟨[] :: before, after, by simp, hafter, rfl, (hjoined hbefore).symm, rfl⟩

/-- At a comma that stands outermost the scan ends a piece; any other character it puts into one. -/
theorem piecesFrom_step (start : Int) (quoted : Bool) (c : Char) :
    (c = ',' ∧ start = 0 ∧ quoted = false) ∨
      (¬ (c = ',' ∧ Outermost start quoted []) ∧ ∃ start' quoted',
        (∀ more,
          piecesFrom start quoted (c :: more) = putFirst c (piecesFrom start' quoted' more)) ∧
        ∀ cs, Outermost start quoted (c :: cs) ↔ Outermost start' quoted' cs) := by
  rw [outermost_nil]
  by_cases hquote : c = '\''
  · subst hquote
    exact .inr ⟨by simp, _, _, fun _ => rfl, fun _ => outermost_quote⟩
  cases quoted with
  | true =>
    refine .inr ⟨by simp, _, _, fun more => ?_, fun _ => outermost_quoted hquote⟩
    rw [piecesFrom, if_neg hquote, if_pos rfl]
  | false =>
    by_cases hcomma : c = ',' ∧ start = 0
    · exact .inl ⟨hcomma.1, hcomma.2, rfl⟩
    refine .inr ⟨fun h => hcomma ⟨h.1, h.2.2⟩, start + weight c, false, fun more => ?_,
      fun _ => outermost_unquoted hquote⟩
    rw [piecesFrom, if_neg hquote, if_neg (by simp)]
    by_cases hopen : c = '('
    · subst hopen
      rfl
    by_cases hclose : c = ')'
    · subst hclose
      rfl
    rw [if_neg hopen, if_neg hclose, if_neg hcomma, weight_eq_zero hopen hclose, Int.add_zero]

theorem piecesFrom_comma (cs : List Char) :
    piecesFrom 0 false (',' :: cs) = [] :: piecesFrom 0 false cs := rfl

theorem piecesFrom_ne_nil (start : Int) (quoted : Bool) (cs : List Char) :
    piecesFrom start quoted cs ≠ [] := by
  induction cs generalizing start quoted with
  | nil => simp [piecesFrom]
  | cons c cs ih =>
    rcases piecesFrom_step start quoted c with ⟨rfl, rfl, rfl⟩ | ⟨-, d, q, hput, -⟩
    · simp [piecesFrom_comma]
    · rw [hput]
      cases piecesFrom d q cs <;> simp [putFirst]

/-- The pieces of a text make it up, with the commas between them. -/
theorem intercalate_piecesFrom (start : Int) (quoted : Bool) (cs : List Char) :
    [','].intercalate (piecesFrom start quoted cs) = cs := by
  induction cs generalizing start quoted with
  | nil => exact List.intercalate_singleton
  | cons c cs ih =>
    rcases piecesFrom_step start quoted c with ⟨rfl, rfl, rfl⟩ | ⟨-, d, q, hput, -⟩
    · rw [piecesFrom_comma, List.intercalate_cons_of_ne_nil (piecesFrom_ne_nil _ _ _), ih]
      rfl
    · rw [hput, intercalate_putFirst (piecesFrom_ne_nil _ _ _), ih]

/-- The commas between the pieces are those that stand outermost. -/
theorem outermost_iff_meets (hcs : cs = front ++ ',' :: back) :
    Outermost start quoted front ↔ Meets (piecesFrom start quoted cs) front back := by
  induction cs generalizing start quoted front with
  | nil => simp at hcs
  | cons c cs ih =>
    have hpieces : ∀ {start quoted}, piecesFrom start quoted cs ≠ [] := piecesFrom_ne_nil _ _ _
    rcases piecesFrom_step start quoted c with ⟨rfl, rfl, rfl⟩ | ⟨hnot, d, q, hput, hcounts⟩
    · rw [piecesFrom_comma]
      cases front with
      | nil =>
        rw [meets_nil_cons_nil hpieces, intercalate_piecesFrom]
        exact iff_of_true (outermost_nil.mpr ⟨rfl, rfl⟩) (List.cons.inj hcs).2.symm
      | cons c' front =>
        obtain ⟨rfl, hmore⟩ := List.cons.inj hcs
        rw [outermost_unquoted (by decide), meets_nil_cons_comma]
        exact ih hmore
    · rw [hput]
      cases front with
      | nil =>
        refine iff_of_false (fun h => hnot ⟨(List.cons.inj hcs).1, h⟩) ?_
        exact not_meets_putFirst hpieces
      | cons c' front =>
        obtain ⟨rfl, hmore⟩ := List.cons.inj hcs
        rw [hcounts, ih hmore, meets_putFirst hpieces]

/-- The number of commas that stand outermost. -/
def commasFrom (start : Int) (quoted : Bool) (cs : List Char) : Nat :=
  (List.range cs.length).countP fun i => cs[i]? = some ',' ∧ Outermost start quoted (cs.take i)

/-- The outermost commas are those behind the first character, and that one if it is one. -/
theorem commasFrom_cons {start' : Int} {quoted' : Bool}
    (h : ∀ cs, Outermost start quoted (c :: cs) ↔ Outermost start' quoted' cs) (cs : List Char) :
    commasFrom start quoted (c :: cs) =
      commasFrom start' quoted' cs + if c = ',' ∧ Outermost start quoted [] then 1 else 0 := by
  unfold commasFrom
  rw [List.length_cons, List.range_succ_eq_map, List.countP_cons, List.countP_map]
  simp only [Function.comp_def, List.getElem?_cons_succ, List.take_succ_cons, h]
  simp

/-- There is one piece more than there are commas that stand outermost. -/
theorem length_piecesFrom (start : Int) (quoted : Bool) (cs : List Char) :
    (piecesFrom start quoted cs).length = commasFrom start quoted cs + 1 := by
  induction cs generalizing start quoted with
  | nil => rfl
  | cons c cs ih =>
    rcases piecesFrom_step start quoted c with ⟨rfl, rfl, rfl⟩ | ⟨hnot, d, q, hput, hcounts⟩
    · have hcounts : ∀ cs, Outermost 0 false (',' :: cs) ↔ Outermost 0 false cs := fun _ =>
        outermost_unquoted (by decide)
      rw [piecesFrom_comma, List.length_cons, ih, commasFrom_cons hcounts,
        if_pos ⟨rfl, outermost_nil.mpr ⟨rfl, rfl⟩⟩]
    · rw [commasFrom_cons hcounts, if_neg hnot, Nat.add_zero, ← ih, hput]
      obtain ⟨piece, pieces, hpieces⟩ := List.exists_cons_of_ne_nil (piecesFrom_ne_nil d q cs)
      rw [hpieces]
      rfl

-- ---------------------------------------------------------------------------
-- Arguments
-- ---------------------------------------------------------------------------

/-- In front of the closing parenthesis every piece closes what it opens; the first one closes what
was open before it, too. -/
theorem openBehind?_pieces {depth : Nat} (h : closeFrom? depth quoted cs = some (inner, rest)) :
    ∃ first more, piecesFrom depth quoted inner = first :: more ∧
      openBehind? depth quoted first = some (0, false) ∧
      ∀ piece ∈ more, openBehind? 0 false piece = some (0, false) := by
  induction cs generalizing depth quoted inner with
  | nil => simp [closeFrom?] at h
  | cons c cs ih =>
    have hbehind : ∀ {d : Nat} {q : Bool}, (closeFrom? d q cs).map (fun r => (c :: r.1, r.2)) =
        some (inner, rest) → ∃ more, closeFrom? d q cs = some (more, rest) ∧ inner = c :: more := by
      intro d q h
      obtain ⟨⟨more, _⟩, hmore, heq⟩ := Option.map_eq_some_iff.mp h
      obtain ⟨rfl, rfl⟩ := Prod.mk.inj heq
      exact ⟨more, hmore, rfl⟩
    rcases passes_or_found depth quoted c with ⟨rfl, rfl, rfl | rfl⟩ | ⟨-, d, q, hpasses, -⟩
    · obtain ⟨rfl, -⟩ := Prod.mk.inj (Option.some.inj h)
      exact ⟨[], [], rfl, rfl, by simp⟩
    -- a comma ends a piece, and behind it begins another first one
    · obtain ⟨inner, hmore, rfl⟩ := hbehind (d := 0) (q := false) h
      obtain ⟨first, more, hpieces, hfirst, hrest⟩ := ih hmore
      exact ⟨[], first :: more, by rw [← hpieces]; rfl, rfl,
        List.forall_mem_cons.mpr ⟨hfirst, hrest⟩⟩
    · rw [hpasses.closeFrom] at h
      obtain ⟨inner, hmore, rfl⟩ := hbehind h
      obtain ⟨first, more, hpieces, hfirst, hrest⟩ := ih hmore
      exact ⟨c :: first, more, by rw [hpasses.piecesFrom, hpieces]; rfl,
        by rw [hpasses.openBehind, hfirst], hrest⟩

/-- White space at the ends of a text is no part of what it closes. -/
theorem openBehind?_trim (h : openBehind? 0 false cs = some (0, false)) :
    openBehind? 0 false (Text.trim cs) = some (0, false) := by
  obtain ⟨before, after, hcs, hbefore, hafter⟩ := Text.exists_padded Text.isBlank cs
  rw [hcs, List.append_assoc, openBehind?_append (openBehind?_blank hbefore 0)] at h
  obtain ⟨d, q, htrimmed, hbehind⟩ := openBehind?_append_eq_some h
  rw [openBehind?_blank hafter] at hbehind
  rw [← hbehind]
  exact htrimmed

theorem wellFormed_trim (h : openBehind? 0 false cs = some (0, false)) :
    WellFormed (String.ofList (Text.trim cs)) := by
  rw [wellFormed_iff, String.toList_ofList]
  exact ⟨Text.trimBy_trimBy _ _, openBehind?_trim h⟩

/-- A well-formed argument is a single one when it is split. -/
theorem split_wellFormed {arg : String} (h : WellFormed arg) (hempty : arg ≠ "") :
    split arg.toList = [arg] := by
  have hnone : Blank [] := by simp [Blank]
  have hspaced := Spaced.last arg hnone hnone
  rw [List.append_nil, List.nil_append] at hspaced
  exact split_spaced (by simpa using h) hspaced (by simpa using hempty)

/-- The arguments in front of the closing parenthesis of a call are well-formed. -/
theorem wellFormed_of_mem_split {arg : String} (h : closeFrom? 0 false cs = some (inner, rest))
    (harg : arg ∈ split inner) : WellFormed arg := by
  obtain ⟨first, more, hpieces, hfirst, hmore⟩ := openBehind?_pieces h
  rw [split_eq] at harg
  split at harg
  · simp at harg
  · rw [List.map_map, List.mem_map] at harg
    obtain ⟨piece, hpiece, rfl⟩ := harg
    rw [show piecesFrom 0 false inner = first :: more from hpieces] at hpiece
    rcases List.mem_cons.mp hpiece with rfl | hpiece
    · exact wellFormed_trim hfirst
    · exact wellFormed_trim (hmore piece hpiece)

/-- A text is cut into these pieces at the commas that stand outside quotes and parentheses. -/
structure IsCut (cs : List Char) (pieces : List (List Char)) : Prop where
  /-- Nothing is lost, and nothing is there twice. -/
  joined : [','].intercalate pieces = cs
  /-- The commas between the pieces are those on top level. -/
  topLevel_iff : ∀ front back, cs = front ++ ',' :: back →
    (TopLevel front ↔ Meets pieces front back)

/-- The pieces of a text are what its outermost commas cut it into. -/
theorem isCut_piecesFrom (cs : List Char) : IsCut cs (piecesFrom 0 false cs) :=
  ⟨intercalate_piecesFrom 0 false cs, fun _ _ hcs => topLevel_iff.trans (outermost_iff_meets hcs)⟩

/-- The number of commas on top level. -/
def topCommas (cs : List Char) : Nat :=
  (List.range cs.length).countP fun i => cs[i]? = some ',' ∧ TopLevel (cs.take i)

/-- These are the arguments in a text that is closed. -/
structure HasArguments (inner : List Char) (args : List String) : Prop where
  none_of_blank : Blank inner → args = []
  /-- There is one argument more than there are commas on top level. -/
  length_eq : ¬ Blank inner → args.length = topCommas inner + 1
  /-- The arguments are what stands between these commas, without the white space around it. -/
  between : ¬ Blank inner → ∃ pieces, IsCut inner pieces ∧
    args = pieces.map fun piece => String.ofList (Text.trim piece)
  wellFormed : ∀ arg ∈ args, WellFormed arg
  /-- Split again, an argument is a single one. -/
  again : ∀ arg ∈ args, arg ≠ "" → split arg.toList = [arg]

/-- What is split from a text up to its closing parenthesis are its arguments. -/
theorem hasArguments_split (h : closeFrom? 0 false cs = some (inner, rest)) :
    HasArguments inner (split inner) where
  none_of_blank hblank := by rw [split_eq, if_pos (trim_eq_nil_iff.mpr hblank)]
  length_eq hblank := by
    rw [split_eq, if_neg (mt trim_eq_nil_iff.mp hblank), List.length_map, List.length_map,
      length_piecesFrom]
    simp only [commasFrom, topCommas, topLevel_iff]
  between hblank := by
    refine ⟨_, isCut_piecesFrom inner, ?_⟩
    rw [split_eq, if_neg (mt trim_eq_nil_iff.mp hblank), List.map_map]
    rfl
  wellFormed _ harg := wellFormed_of_mem_split h harg
  again _ harg hempty := split_wellFormed (wellFormed_of_mem_split h harg) hempty

-- ---------------------------------------------------------------------------
-- By byte offsets
-- ---------------------------------------------------------------------------

/-- At a byte offset of a text stands a closing parenthesis outside quotes, and one parenthesis
being open at another offset, none is behind this one. Quotes and parentheses are counted from that
offset on. -/
def ClosesAt (text : String) (start i : Nat) : Prop :=
  ∃ front inner rest, text.toList = front ++ (inner ++ ')' :: rest) ∧
    Text.byteLength front = start ∧ Text.byteLength (front ++ inner) = i ∧ ClosedBehind inner

variable {text : String}

/-- Counting goes on from where the text is split. -/
theorem closesAt_iff (hfront : text.toList = front ++ cs) {i : Nat} :
    ClosesAt text (Text.byteLength front) i ↔ ∃ inner rest, cs = inner ++ ')' :: rest ∧
      Text.byteLength (front ++ inner) = i ∧ Outermost 0 false inner := by
  have hdrop : Text.dropBytes? (Text.byteLength front) text.toList = some cs :=
    Text.dropBytes?_eq_some_iff.mpr ⟨front, hfront, rfl⟩
  constructor
  · rintro ⟨front', inner, rest, htext, hstart, hi, hclosed⟩
    have hdrop' := Text.dropBytes?_eq_some_iff.mpr ⟨front', htext, hstart⟩
    obtain rfl := Option.some.inj (hdrop.symm.trans hdrop')
    obtain rfl := List.append_cancel_right (hfront.symm.trans htext)
    exact ⟨inner, rest, rfl, hi, closedBehind_iff.mp hclosed⟩
  · rintro ⟨inner, rest, rfl, hi, hclosed⟩
    exact ⟨front, inner, rest, hfront, rfl, hi, closedBehind_iff.mpr hclosed⟩

/-- From an offset on a call can be split if some parenthesis closes it; it ends behind the first one
that does, and its arguments are those in the text up to there. An argument is well-formed, and
split again it is a single one. -/
theorem takeFrom?_resplit (text : String) (start : Nat) :
    ((takeFrom? text start).isSome = true ↔ ∃ i, ClosesAt text start i) ∧
      ∀ args next, takeFrom? text start = some (args, next) →
        ∃ i, next = i + 1 ∧ ClosesAt text start i ∧ (∀ j, ClosesAt text start j → i ≤ j) ∧
          ∃ front inner rest, text.toList = front ++ (inner ++ ')' :: rest) ∧
            Text.byteLength front = start ∧ Text.byteLength (front ++ inner) = i ∧
            HasArguments inner args := by
  cases hdrop : Text.dropBytes? start text.toList with
  | none =>
    -- the offset falls into a character, or behind the text
    have hnone : takeFrom? text start = none := by rw [takeFrom?, hdrop]; rfl
    have hnowhere : ¬ ∃ i, ClosesAt text start i := by
      rintro ⟨i, front, inner, rest, htext, hstart, -⟩
      rw [Text.dropBytes?_eq_some_iff.mpr ⟨front, htext, hstart⟩] at hdrop
      simp at hdrop
    simp [hnone, hnowhere]
  | some cs =>
    obtain ⟨front, hfront, rfl⟩ := Text.dropBytes?_eq_some_iff.mp hdrop
    have htake : takeFrom? text (Text.byteLength front) =
        (closeFrom? 0 false cs).map fun r =>
          (split r.1, Text.byteLength front + Text.byteLength r.1 + 1) := by
      rw [takeFrom?, hdrop]
      show (closeFrom? 0 false cs).bind _ = _
      cases closeFrom? 0 false cs <;> rfl
    simp only [htake, closesAt_iff hfront, Option.isSome_map]
    cases hclose : closeFrom? 0 false cs with
    | none =>
      refine ⟨?_, by simp⟩
      simp only [Option.isSome_none, Bool.false_eq_true, false_iff]
      rintro ⟨i, inner, rest, hcs, -, houtermost⟩
      exact closeFrom?_eq_none hclose hcs houtermost
    | some r =>
      obtain ⟨inner, rest⟩ := r
      have hcs := append_of_closeFrom? hclose
      obtain ⟨houtermost, hfirst⟩ := closeFrom?_eq_some hclose
      refine ⟨⟨fun _ => ⟨_, inner, rest, hcs, rfl, houtermost⟩, fun _ => rfl⟩, ?_⟩
      rintro args next heq
      obtain ⟨rfl, rfl⟩ := Prod.mk.inj (Option.some.inj heq)
      refine ⟨_, rfl, ⟨inner, rest, hcs, Text.byteLength_append _ _, houtermost⟩, ?_,
        front, inner, rest, hcs ▸ hfront, rfl, Text.byteLength_append _ _,
        hasArguments_split hclose⟩
      rintro j ⟨inner', rest', hcs', rfl, hinner'⟩
      obtain ⟨more, rfl⟩ := hfirst inner' rest' hcs' hinner'
      simp only [Text.byteLength_append]
      omega

/-- Nested calls, quoted commas and parentheses, an empty argument, and a character of two bytes
before the call. -/
theorem takeFrom?_resplit_nested :
    takeFrom? "é + f( g(1, (2)) ,'a,)b',, x ) + 1" 7 =
        some (["g(1, (2))", "'a,)b'", "", "x"], 31) ∧
      ∃ i, 31 = i + 1 ∧ ClosesAt "é + f( g(1, (2)) ,'a,)b',, x ) + 1" 7 i ∧
        (∀ j, ClosesAt "é + f( g(1, (2)) ,'a,)b',, x ) + 1" 7 j → i ≤ j) ∧
          ∃ front inner rest,
            "é + f( g(1, (2)) ,'a,)b',, x ) + 1".toList = front ++ (inner ++ ')' :: rest) ∧
              Text.byteLength front = 7 ∧ Text.byteLength (front ++ inner) = i ∧
              HasArguments inner ["g(1, (2))", "'a,)b'", "", "x"] := by
  have htake : takeFrom? "é + f( g(1, (2)) ,'a,)b',, x ) + 1" 7 =
      some (["g(1, (2))", "'a,)b'", "", "x"], 31) := by decide +kernel
  exact ⟨htake, (takeFrom?_resplit _ 7).2 _ _ htake⟩

end Formulae.Grammar.Arguments
