import Formulae.Evaluation.Calculate

/-!
# Programs that come to an end

How deep formulas are nested is of no interest where an evaluation comes to an end, for with more
room it goes the same way. A program settles on a run if it runs so within some depth; the depths
that two programs need are joined here, and nowhere else.

Main results:

* `settles_bind_iff`, `settles_bind_congr` — what a program settles on when it goes on with another.
* `settles_bind_ofOption_iff`, `settles_checked_iff` — the same where the other one at most fails.
* `Settles.unique` — a program settles on one run at most.
* `calculates_iff_settles`, `calculatesText_iff_settles` — formulas are calculated as their programs
  settle.
-/

namespace Formulae

variable {α β : Type} {e : Engine} {p : Program α} {f : α → Program β} {a : α} {b : β}

/-- What is made of the value of an outcome, or else an error. -/
def Outcome.thenOr (g : α → Option β) (err : α → FormulaError) : Outcome α → Outcome β
  | .value a =>
    match g a with
    | some b => .value b
    | none => .error (err a)
  | .error err' => .error err'
  | .overflow => .overflow
  | .unfinished => .unfinished

namespace Engine

/-- Within some depth the program comes to an end, and this is what happens. -/
def Settles (e : Engine) (p : Program α) (r : Run α) : Prop :=
  ∃ depth, p.run e.providers (e.nested depth) = r ∧ r.outcome ≠ .unfinished

/-- What comes to an end within some depth runs so from that depth on, if it goes no other way with
more room. -/
theorem from_depth_of_within {g : Nested → Run α}
    (hg : ∀ {n m : Nested}, n.Within m → (g n).Within (g m)) {r : Run α}
    (h : ∃ depth, g (e.nested depth) = r ∧ r.outcome ≠ .unfinished) :
    ∃ depth, ∀ deeper ≥ depth, g (e.nested deeper) = r := by
  obtain ⟨depth, hrun, hr⟩ := h
  refine ⟨depth, fun deeper hdeeper => ?_⟩
  rw [← hrun] at hr ⊢
  exact (hg (e.nested_within hdeeper) hr).symm

/-- From some depth on a program runs as it settles. -/
theorem Settles.from_depth {r : Run α} (h : e.Settles p r) :
    ∃ depth, ∀ deeper ≥ depth, p.run e.providers (e.nested deeper) = r :=
  from_depth_of_within (fun hwithin => Program.run_within hwithin e.providers p) h

/-- A program settles for one run at most. -/
theorem Settles.unique {r s : Run α} (hr : e.Settles p r) (hs : e.Settles p s) : r = s := by
  obtain ⟨depth, hdepth⟩ := hr.from_depth
  obtain ⟨depth', hdepth'⟩ := hs.from_depth
  rw [← hdepth (max depth depth') (Nat.le_max_left _ _)]
  exact hdepth' (max depth depth') (Nat.le_max_right _ _)

theorem settles_value (e : Engine) (a : α) : e.Settles (.value a) ⟨[], .value a⟩ :=
  ⟨0, rfl, by simp⟩

theorem settles_error (e : Engine) (err : FormulaError) :
    e.Settles (.error err : Program α) ⟨[], .error err⟩ :=
  ⟨0, rfl, by simp⟩

/-- A program goes on with the value that it settles on. -/
theorem Settles.bind {calls : List ProviderCall} {r : Run β} (hp : e.Settles p ⟨calls, .value a⟩)
    (hf : e.Settles (f a) r) : e.Settles (p.bind f) ⟨calls ++ r.calls, r.outcome⟩ := by
  obtain ⟨depth, hdepth⟩ := hp.from_depth
  obtain ⟨depth', hdepth'⟩ := hf.from_depth
  obtain ⟨_, -, hr⟩ := hf
  refine ⟨max depth depth', ?_, hr⟩
  rw [Program.run_bind, hdepth _ (Nat.le_max_left _ _), Run.bind_value,
    hdepth' _ (Nat.le_max_right _ _)]

/-- A program that settles on an error does not go on. -/
theorem Settles.bind_error {calls : List ProviderCall} {err : FormulaError}
    (hp : e.Settles p ⟨calls, .error err⟩) : e.Settles (p.bind f) ⟨calls, .error err⟩ := by
  obtain ⟨depth, hrun, -⟩ := hp
  refine ⟨depth, ?_, by simp⟩
  rw [Program.run_bind, hrun, Run.bind_error]

/-- A program that goes on with another settles where the first one fails, or else where the other
one settles. -/
theorem settles_bind_iff {r : Run β} : e.Settles (p.bind f) r ↔
    (∃ calls a s, e.Settles p ⟨calls, .value a⟩ ∧ e.Settles (f a) s ∧
      r = ⟨calls ++ s.calls, s.outcome⟩) ∨
    (∃ calls err, e.Settles p ⟨calls, .error err⟩ ∧ r = ⟨calls, .error err⟩) ∨
    ∃ calls, e.Settles p ⟨calls, .overflow⟩ ∧ r = ⟨calls, .overflow⟩ := by
  constructor
  · rintro ⟨depth, hrun, hr⟩
    rw [Program.run_bind] at hrun
    match hp : p.run e.providers (e.nested depth) with
    | ⟨calls, .value a⟩ =>
      rw [hp, Run.bind_value] at hrun
      subst hrun
      exact .inl ⟨calls, a, _, ⟨depth, hp, by simp⟩, ⟨depth, rfl, hr⟩, rfl⟩
    | ⟨calls, .error err⟩ =>
      rw [hp] at hrun
      exact .inr (.inl ⟨calls, err, ⟨depth, hp, by simp⟩, hrun.symm⟩)
    | ⟨calls, .overflow⟩ =>
      rw [hp] at hrun
      exact .inr (.inr ⟨calls, ⟨depth, hp, by simp⟩, hrun.symm⟩)
    | ⟨calls, .unfinished⟩ =>
      rw [hp] at hrun
      subst hrun
      exact absurd rfl hr
  · rintro (⟨calls, a, s, hp, hf, rfl⟩ | ⟨calls, err, hp, rfl⟩ | ⟨calls, ⟨depth, hrun, -⟩, rfl⟩)
    · exact hp.bind hf
    · exact hp.bind_error
    · refine ⟨depth, ?_, by simp⟩
      rw [Program.run_bind, hrun]
      rfl

/-- A program that settles on a value after going on settled on a value before. -/
theorem Settles.of_bind {calls : List ProviderCall} (h : e.Settles (p.bind f) ⟨calls, .value b⟩) :
    ∃ before a after, e.Settles p ⟨before, .value a⟩ ∧ e.Settles (f a) ⟨after, .value b⟩ ∧
      calls = before ++ after := by
  rcases settles_bind_iff.mp h with ⟨before, a, ⟨after, _⟩, hp, hf, hr⟩ | ⟨_, _, -, hr⟩ | ⟨_, -, hr⟩
  · obtain ⟨rfl, rfl⟩ := Run.mk.inj hr
    exact ⟨before, a, after, hp, hf, rfl⟩
  all_goals exact absurd (congrArg Run.outcome hr) (by simp)

/-- A program may be replaced by one that settles alike, and what it goes on with needs to do so for
the values that it can settle on. -/
theorem settles_bind_congr {p' : Program α} {g : α → Program β} {r : Run β}
    (hp : ∀ s, e.Settles p s ↔ e.Settles p' s)
    (hfg : ∀ calls a, e.Settles p ⟨calls, .value a⟩ →
      ∀ s, e.Settles (f a) s ↔ e.Settles (g a) s) :
    e.Settles (p.bind f) r ↔ e.Settles (p'.bind g) r := by
  rw [settles_bind_iff, settles_bind_iff]
  simp only [← hp]
  refine or_congr ?_ Iff.rfl
  refine exists_congr fun calls => exists_congr fun a => exists_congr fun s => ?_
  exact and_congr_right fun ha => and_congr (hfg calls a ha s) Iff.rfl

/-- A program whose value is changed settles on what the values it settles on are changed to. -/
theorem settles_map_iff {g : α → β} {calls : List ProviderCall} :
    e.Settles (p.bind fun a => .value (g a)) ⟨calls, .value b⟩ ↔
      ∃ a, e.Settles p ⟨calls, .value a⟩ ∧ g a = b := by
  constructor
  · intro h
    obtain ⟨before, a, after, hp, hvalue, rfl⟩ := h.of_bind
    have hsame := hvalue.unique (e.settles_value (g a))
    simp only [Run.mk.injEq, Outcome.value.injEq] at hsame
    obtain ⟨rfl, rfl⟩ := hsame
    exact ⟨a, by rwa [List.append_nil], rfl⟩
  · rintro ⟨a, hp, rfl⟩
    have hvalue := hp.bind (f := fun a => .value (g a)) (e.settles_value (g a))
    rwa [List.append_nil] at hvalue

/-- Two programs in turn, and what is made of their values. -/
theorem settles_both_iff {γ : Type} {q : Program β} {g : α → β → γ} {calls : List ProviderCall}
    {c : γ} : e.Settles (p.bind fun a => q.bind fun b => .value (g a b)) ⟨calls, .value c⟩ ↔
      ∃ before a after b, e.Settles p ⟨before, .value a⟩ ∧ e.Settles q ⟨after, .value b⟩ ∧
        calls = before ++ after ∧ c = g a b := by
  constructor
  · intro h
    obtain ⟨before, a, after, hp, hmore, rfl⟩ := h.of_bind
    obtain ⟨b, hq, rfl⟩ := settles_map_iff.mp hmore
    exact ⟨before, a, after, b, hp, hq, rfl, rfl⟩
  · rintro ⟨before, a, after, b, hp, hq, rfl, rfl⟩
    have hmore : e.Settles (q.bind fun b => .value (g a b)) ⟨after, .value (g a b)⟩ :=
      settles_map_iff.mpr ⟨b, hq, rfl⟩
    exact hp.bind (f := fun a => q.bind fun b => .value (g a b)) hmore

/-- What is made of the value of a program, or else an error. -/
theorem settles_bind_ofOption_iff {g : α → Option β} {err : α → FormulaError} {r : Run β} :
    e.Settles (p.bind fun a => .ofOption (g a) (err a)) r ↔
      ∃ s, e.Settles p s ∧ r = ⟨s.calls, s.outcome.thenOr g err⟩ := by
  constructor
  · intro h
    rcases settles_bind_iff.mp h with ⟨calls, a, s, hp, hs, rfl⟩ | ⟨calls, err', hp, rfl⟩ |
      ⟨calls, hp, rfl⟩
    · refine ⟨_, hp, ?_⟩
      rw [Outcome.thenOr]
      cases hg : g a with
      | none =>
        rw [hg] at hs
        rw [hs.unique (e.settles_error (err a)), List.append_nil]
      | some b =>
        rw [hg] at hs
        rw [hs.unique (e.settles_value b), List.append_nil]
    · exact ⟨_, hp, rfl⟩
    · exact ⟨_, hp, rfl⟩
  · rintro ⟨⟨calls, outcome⟩, hp, rfl⟩
    match outcome with
    | .value a =>
      refine settles_bind_iff.mpr
        (.inl ⟨calls, a, ⟨[], Outcome.thenOr g err (.value a)⟩, hp, ?_, ?_⟩)
      · rw [Outcome.thenOr]
        cases g a with
        | none => exact e.settles_error _
        | some b => exact e.settles_value b
      · rw [List.append_nil]
    | .error err' => exact hp.bind_error
    | .overflow => exact settles_bind_iff.mpr (.inr (.inr ⟨calls, hp, rfl⟩))
    | .unfinished => exact absurd rfl hp.choose_spec.2

/-- A call of a built-in function has a value only with a number of arguments that it can have. -/
theorem settles_checked_iff {f : Builtin} {act : Call → Program α} {c : Call}
    {calls : List ProviderCall} : e.Settles (f.checked (some act) c) ⟨calls, .value a⟩ ↔
      f.arity.admits c.args.length = true ∧ e.Settles (act c) ⟨calls, .value a⟩ := by
  rw [Builtin.checked]
  split
  · rename_i hargs
    exact (and_iff_right hargs).symm
  · rename_i hargs
    refine iff_of_false (fun h => ?_) fun h => hargs h.1
    have herror := h.unique (e.settles_error _)
    simp at herror

/-! ## Formulas -/

/-- Evaluating a formula is calculating it. -/
theorem settles_evaluate_iff {formula : String} {r : Run Float} :
    e.Settles (Program.evaluate formula) r ↔ e.Calculates formula r := by
  have hrun : ∀ n : Nested, (Program.evaluate formula).run e.providers n = n.number formula := by
    intro n
    show (n.number formula >>= fun x => pure x) = _
    rw [bind_pure]
  simp only [Settles, Calculates, hrun]

/-- Evaluating a text formula is calculating its text. -/
theorem settles_evaluateText_iff {formula : String} {r : Run String} :
    e.Settles (Program.evaluateText formula) r ↔ e.CalculatesText formula r := by
  have hrun : ∀ n : Nested,
      (Program.evaluateText formula).run e.providers n = n.text formula := by
    intro n
    show (n.text formula >>= fun s => pure s) = _
    rw [bind_pure]
  simp only [Settles, CalculatesText, hrun]

/-- A formula is calculated by its program. -/
theorem calculates_iff_settles {formula : String} {r : Run Float} :
    e.Calculates formula r ↔ e.Settles (numericProgram e.context formula) r := by
  constructor
  · rintro ⟨depth, hrun, hr⟩
    cases depth with
    | zero =>
      rw [← hrun] at hr
      exact absurd rfl hr
    | succ depth => exact ⟨depth, hrun, hr⟩
  · rintro ⟨depth, hrun, hr⟩
    exact ⟨depth + 1, hrun, hr⟩

/-- So it is in the text channel. -/
theorem calculatesText_iff_settles {formula : String} {r : Run String} :
    e.CalculatesText formula r ↔ e.Settles (textProgram e.context formula) r := by
  constructor
  · rintro ⟨depth, hrun, hr⟩
    cases depth with
    | zero =>
      rw [← hrun] at hr
      exact absurd rfl hr
    | succ depth => exact ⟨depth, hrun, hr⟩
  · rintro ⟨depth, hrun, hr⟩
    exact ⟨depth + 1, hrun, hr⟩

/-! ## Values and errors, whatever is asked for them -/

/-- The program comes to an end with a value. -/
def Yields (e : Engine) (p : Program α) (a : α) : Prop :=
  ∃ calls, e.Settles p ⟨calls, .value a⟩

/-- The program comes to an end with an error of one of these kinds. -/
def FailsWith (e : Engine) (p : Program α) (kinds : List ErrorKind) : Prop :=
  ∃ calls err, e.Settles p ⟨calls, .error err⟩ ∧ err.kind ∈ kinds

theorem yields_value (e : Engine) (a : α) : e.Yields (.value a) a :=
  ⟨[], e.settles_value a⟩

/-- A program with a value goes on with it. -/
theorem Yields.bind (hp : e.Yields p a) (hf : e.Yields (f a) b) : e.Yields (p.bind f) b := by
  obtain ⟨calls, hp⟩ := hp
  obtain ⟨calls', hf⟩ := hf
  exact ⟨calls ++ calls', hp.bind hf⟩

/-- A formula that is evaluated yields what its own program yields. -/
theorem Yields.evaluate {formula : String} {x : Float}
    (h : e.Yields (numericProgram e.context formula) x) :
    e.Yields (Program.evaluate formula) x := by
  obtain ⟨calls, h⟩ := h
  exact ⟨calls, settles_evaluate_iff.mpr (calculates_iff_settles.mpr h)⟩

/-- A program yields one value at most. -/
theorem Yields.unique {a' : α} (h : e.Yields p a) (h' : e.Yields p a') : a = a' := by
  obtain ⟨calls, hrun⟩ := h
  obtain ⟨calls', hrun'⟩ := h'
  have hsame := hrun.unique hrun'
  simp only [Run.mk.injEq, Outcome.value.injEq] at hsame
  exact hsame.2

variable {kinds : List ErrorKind}

/-- A program that fails does not go on. -/
theorem FailsWith.bind (hp : e.FailsWith p kinds) : e.FailsWith (p.bind f) kinds := by
  obtain ⟨calls, err, hp, herr⟩ := hp
  exact ⟨calls, err, hp.bind_error, herr⟩

/-- A program may fail behind a value. -/
theorem Yields.bind_failsWith (hp : e.Yields p a) (hf : e.FailsWith (f a) kinds) :
    e.FailsWith (p.bind f) kinds := by
  obtain ⟨calls, hp⟩ := hp
  obtain ⟨calls', err, hf, herr⟩ := hf
  exact ⟨calls ++ calls', err, hp.bind hf, herr⟩

/-- A program with a value does not fail. -/
theorem Yields.not_failsWith (hp : e.Yields p a) : ¬ e.FailsWith p kinds := by
  rintro ⟨calls', err, herr, -⟩
  obtain ⟨calls, hval⟩ := hp
  have hsame := hval.unique herr
  simp at hsame

end Engine

end Formulae
