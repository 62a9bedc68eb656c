import Formulae.Proofs.Number.RoundingLimits
import Formulae.Proofs.Calendar.Moving
import Formulae.Proofs.Evaluation.Settling
import Formulae.Proofs.Evaluation.Steps
import Formulae.Proofs.Evaluation.Strictness
import Formulae.Proofs.Evaluation.Alone

/-!
# Overflows

An evaluation without providers ends with a value or with an error, unless a number leaves its
range. Only two things can do so: a number that is rounded to places left of the point, and a moment
that is moved at the ends of the calendar. All other programs are calm: they overflow only where a
formula does that they have evaluated.

Main results:

* `Program.Calm`, `Builtin.calm_numeric?`, `Builtin.calm_textual?` — the programs that do not
  overflow by themselves.
* `overflows_callNumber_iff` — when the call of a function overflows by itself.
* `Engine.overflows_only_at_limits` — where evaluations without providers overflow.
-/

namespace Formulae

variable {α β : Type}

-- ---------------------------------------------------------------------------
-- Calm programs
-- ---------------------------------------------------------------------------

namespace Program

/-- The program does not overflow by itself, whatever values it is given. -/
def Calm : Program α → Prop
  | value _ => True
  | error _ => True
  | overflow => False
  | number _ next => ∀ x, (next x).Calm
  | text _ next => ∀ s, (next s).Calm
  | attempt _ next => ∀ s, (next s).Calm
  | ask _ next => ∀ r, (next r).Calm

/-- A value is calm. -/
@[simp] theorem calm_value (a : α) : (value a).Calm := trivial

@[simp] theorem calm_error (e : FormulaError) : (error e : Program α).Calm := trivial

@[simp] theorem calm_evaluate (formula : String) : (evaluate formula).Calm := fun _ => trivial

@[simp] theorem calm_evaluateText (formula : String) : (evaluateText formula).Calm :=
  fun _ => trivial

@[simp] theorem calm_attemptText (formula : String) : (attemptText formula).Calm :=
  fun _ => trivial

@[simp] theorem calm_request (r : Request) : (request r).Calm := fun _ => trivial

/-- Something that may be missing is calm, as it is a value or an error. -/
@[simp] theorem calm_ofOption (a : Option α) (e : FormulaError) : (ofOption a e).Calm := by
  cases a <;> trivial

/-- Going on calmly after a calm program is calm. -/
theorem Calm.bind {p : Program α} {f : α → Program β} (hp : p.Calm)
    (hf : ∀ a, (f a).Calm) : (p.bind f).Calm := by
  induction p with
  | value a => exact hf a
  | error => trivial
  | overflow => exact hp.elim
  | number _ _ ih | text _ _ ih | attempt _ _ ih | ask _ _ ih => exact fun x => ih x (hp x)

end Program

open Program

-- ---------------------------------------------------------------------------
-- Calm functions
-- ---------------------------------------------------------------------------

namespace Call

@[simp] theorem calm_arg (c : Call) (index : Nat) : (c.arg index).Calm :=
  calm_ofOption _ _

/-- An argument that is evaluated is calm: if it overflows, it is the formula in it that does. -/
@[simp] theorem calm_number (c : Call) (index : Nat) : (c.number index).Calm :=
  (c.calm_arg index).bind calm_evaluate

@[simp] theorem calm_text (c : Call) (index : Nat) : (c.text index).Calm :=
  (c.calm_arg index).bind calm_evaluateText

end Call

open Evaluation

namespace Builtin

/-- The functions that can overflow by themselves. -/
def strained : List Builtin :=
  [round, previousMonday, startOfMonth, endOfMonth]

/-- No step of another function overflows by itself. -/
theorem steps_calm {f : Builtin} (hf : f ∉ strained) (c : Call) : f.Steps c fun p => p.Calm where
  value := calm_value
  bind := Calm.bind
  number _ := c.calm_number _
  text _ := c.calm_text _
  error _ _ := trivial
  request r _ := (calm_request r).bind fun _ => calm_ofOption _ _
  overflow h := absurd h hf
  raiseError _ := (c.calm_arg 0).bind fun formula =>
    (calm_attemptText formula).bind fun _ => calm_error _

/-- What other functions do in the numeric channel is calm. -/
theorem calm_numeric? {f : Builtin} {act : Call → Program Float} (h : f.numeric? = some act)
    (hf : f ∉ strained) (c : Call) : (act c).Calm :=
  (steps_calm hf c).numeric? h

/-- What functions do in the text channel is calm. -/
theorem calm_textual? {f : Builtin} {act : Call → Program String} (h : f.textual? = some act)
    (c : Call) : (act c).Calm := by
  have hf : f ∉ strained := by
    -- the functions that can overflow are not known in the text channel
    intro hf
    simp only [strained, List.mem_cons, List.not_mem_nil, or_false] at hf
    rcases hf with rfl | rfl | rfl | rfl <;> simp [textual?] at h
  exact (steps_calm hf c).textual? h

/-- A call is calm if the action of the function is; counting the arguments never overflows. -/
theorem calm_checked {f : Builtin} {action : Option (Call → Program α)} {c : Call}
    (h : ∀ act, action = some act → (act c).Calm) : (f.checked action c).Calm := by
  unfold checked
  split
  · trivial
  · split
    · exact h _ rfl
    · trivial

end Builtin

-- ---------------------------------------------------------------------------
-- Calm trees
-- ---------------------------------------------------------------------------

namespace Grammar

/-- A function that is not built in is calm, since it is only asked for. -/
theorem calm_userNumber (c : Call) : (userNumber c).Calm := by
  unfold userNumber
  split
  · trivial
  · exact (calm_request _).bind fun _ => calm_ofOption _ _

/-- No call overflows by itself in the text channel. -/
theorem calm_callText (c : Call) : (callText c).Calm := by
  unfold callText
  split
  · exact Builtin.calm_checked fun act h => Builtin.calm_textual? h c
  · have hargs : (userArgs c.args).Calm := by
      unfold userArgs
      split
      · exact (calm_evaluateText _).bind fun _ => trivial
      · trivial
    refine hargs.bind fun args => ?_
    split
    · trivial
    · split
      · trivial
      · exact (calm_request _).bind fun _ => calm_ofOption _ _

/-- A name is only looked up or asked for. -/
theorem calm_valueOf (x : Context) (name : String) (unknown : FormulaError) :
    (valueOf x name unknown).Calm := by
  unfold valueOf
  split
  · exact calm_ofOption _ _
  · exact (calm_request _).bind fun _ => calm_ofOption _ _

/-- A text formula overflows only where a formula does that it has evaluated. -/
theorem TextTree.calm_evaluate (x : Context) (formula : String) (tree : TextTree) :
    (tree.evaluate x formula).Calm := by
  induction tree with
  | literal s => trivial
  | value name position => exact (calm_request _).bind fun _ => calm_ofOption _ _
  | call name args position => exact calm_callText _
  | append left right ihl ihr => exact ihl.bind fun _ => ihr.bind fun _ => trivial
  | sequence first second ihf ihs => exact ihf.bind fun _ => ihs
  | failure complaint => trivial

end Grammar

-- ---------------------------------------------------------------------------
-- Overflows of programs
-- ---------------------------------------------------------------------------

namespace Engine

variable {e : Engine} {p : Program α} {f : α → Program β}

/-- The program comes to an end with an overflow. -/
def Overflows (e : Engine) (p : Program α) : Prop :=
  ∃ calls, e.Settles p ⟨calls, .overflow⟩

/-- The formula overflows in one of the channels. -/
def OverflowsIn (e : Engine) (formula : String) : Prop :=
  e.Overflows (numericProgram e.context formula) ∨ e.Overflows (textProgram e.context formula)

/-- A program that leaves the range of its numbers ends with an overflow. -/
theorem overflows_overflow (e : Engine) : e.Overflows (.overflow : Program α) :=
  ⟨[], 0, rfl, by simp⟩

/-- A value does not. -/
theorem not_overflows_value (a : α) : ¬e.Overflows (.value a) := by
  rintro ⟨calls, h⟩
  have hsame := h.unique (e.settles_value a)
  simp at hsame

/-- Nor does an error. -/
theorem not_overflows_error (err : FormulaError) : ¬e.Overflows (.error err : Program α) := by
  rintro ⟨calls, h⟩
  have hsame := h.unique (e.settles_error err)
  simp at hsame

/-- A program that goes on overflows before that or afterwards. -/
theorem overflows_bind_iff :
    e.Overflows (p.bind f) ↔ e.Overflows p ∨ ∃ a, e.Yields p a ∧ e.Overflows (f a) := by
  constructor
  · rintro ⟨calls, h⟩
    rcases settles_bind_iff.mp h with ⟨before, a, ⟨after, outcome⟩, hp, hf, hr⟩ | ⟨_, _, -, hr⟩ |
      ⟨before, hp, -⟩
    · obtain ⟨-, rfl⟩ := Run.mk.inj hr
      exact .inr ⟨a, ⟨before, hp⟩, after, hf⟩
    · exact absurd (congrArg Run.outcome hr) (by simp)
    · exact .inl ⟨before, hp⟩
  · rintro (⟨calls, hp⟩ | ⟨a, ⟨before, hp⟩, after, hf⟩)
    · exact ⟨calls, settles_bind_iff.mpr (.inr (.inr ⟨calls, hp, rfl⟩))⟩
    · exact ⟨before ++ after, hp.bind hf⟩

/-- A formula that is evaluated overflows as it would by itself. -/
theorem overflows_evaluate_iff {formula : String} :
    e.Overflows (Program.evaluate formula) ↔ e.Overflows (numericProgram e.context formula) :=
  exists_congr fun _ => settles_evaluate_iff.trans calculates_iff_settles

/-- So does a text formula. -/
theorem overflows_evaluateText_iff {formula : String} :
    e.Overflows (Program.evaluateText formula) ↔ e.Overflows (textProgram e.context formula) :=
  exists_congr fun _ => settles_evaluateText_iff.trans calculatesText_iff_settles

/-- An attempt of a text formula catches an error but no overflow. -/
theorem overflows_attemptText {formula : String} (h : e.Overflows (Program.attemptText formula)) :
    e.Overflows (textProgram e.context formula) := by
  obtain ⟨calls, depth, hrun, -⟩ := h
  have hattempt : (Program.attemptText formula).run e.providers (e.nested depth) =
      ((e.nested depth).text formula).attempt := by
    show (((e.nested depth).text formula).attempt >>= fun s => pure s) = _
    rw [bind_pure]
  rw [hattempt] at hrun
  generalize hformula : (e.nested depth).text formula = r at hrun
  obtain ⟨calls', outcome⟩ := r
  cases outcome with
  | overflow => exact ⟨calls', calculatesText_iff_settles.mp ⟨depth, hformula, by simp⟩⟩
  | value | error | unfinished =>
    exact absurd (congrArg Run.outcome hrun) (by simp [Run.attempt])

/-- Without providers nothing comes of a request. -/
theorem not_overflows_request (hnone : e.providers = []) (r : Request) :
    ¬e.Overflows (Program.request r) := by
  rintro ⟨calls, depth, hrun, -⟩
  rw [hnone] at hrun
  exact absurd (congrArg Run.outcome hrun) (by simp [Program.request, Program.run, ask])

/-- Without providers a calm program overflows only where a formula does that it has evaluated. -/
theorem overflows_of_calm (hnone : e.providers = []) {faults : FormulaError → Prop}
    {formulas : String → Prop} (hkeeps : p.KeepsTo faults formulas) (hcalm : p.Calm)
    (h : e.Overflows p) : ∃ formula, formulas formula ∧ e.OverflowsIn formula := by
  induction hkeeps with
  | value a => exact absurd h (not_overflows_value a)
  | error => exact absurd h (not_overflows_error _)
  | overflow => exact hcalm.elim
  | @number formula next handed _ ih =>
    rcases (overflows_bind_iff (p := Program.evaluate formula) (f := next)).mp h with h | ⟨x, -, h⟩
    · exact ⟨formula, handed, .inl (overflows_evaluate_iff.mp h)⟩
    · exact ih x (hcalm x) h
  | @text formula next handed _ ih =>
    rcases (overflows_bind_iff (p := Program.evaluateText formula) (f := next)).mp h with
      h | ⟨s, -, h⟩
    · exact ⟨formula, handed, .inr (overflows_evaluateText_iff.mp h)⟩
    · exact ih s (hcalm s) h
  | @attempt formula next handed _ ih =>
    rcases (overflows_bind_iff (p := Program.attemptText formula) (f := next)).mp h with
      h | ⟨s, -, h⟩
    · exact ⟨formula, handed, .inr (overflows_attemptText h)⟩
    · exact ih s (hcalm s) h
  | @ask request next _ ih =>
    rcases (overflows_bind_iff (p := Program.request request) (f := next)).mp h with h | ⟨r, -, h⟩
    · exact absurd h (not_overflows_request hnone request)
    · exact ih r (hcalm r) h

end Engine

-- ---------------------------------------------------------------------------
-- Overflows of calls
-- ---------------------------------------------------------------------------

/-- The call overflows by itself: it rounds a number beyond the largest coefficient, or moves a
moment that its zone shows beyond the calendar or, if it goes back to a Monday, on the first five
days. -/
inductive Call.Exceeds (e : Engine) (c : Call) : Prop
  | round {x y : Float} (named : Builtin.ofName? c.name = some .round) (count : c.args.length = 2)
      (number : e.Yields (c.number 0) x) (places : e.Yields (c.number 1) y)
      (beyond : Number.RoundsBeyond .halfEven x (placesOf y))
  | month {f : Builtin} {i : Calendar.Instant} (named : Builtin.ofName? c.name = some f)
      (ends : f = .startOfMonth ∨ f = .endOfMonth) (count : c.args.length = 1)
      (moment : e.Yields (instant c 0) i) (beyond : ¬i.IsShown c.zone 0)
  | monday {i : Calendar.Instant} (named : Builtin.ofName? c.name = some .previousMonday)
      (count : c.args.length = 1) (moment : e.Yields (instant c 0) i)
      (beyond : ¬i.IsShown c.zone (5 * 86400))

namespace Engine

variable {e : Engine} {c : Call}

/-- Rounding overflows where an argument does, or beyond the largest coefficient. -/
theorem overflows_round_iff : e.Overflows (Evaluation.round c) ↔
    e.Overflows (c.number 0) ∨ ∃ x, e.Yields (c.number 0) x ∧
      (e.Overflows (c.number 1) ∨
        ∃ y, e.Yields (c.number 1) y ∧ Number.RoundsBeyond .halfEven x (placesOf y)) := by
  refine overflows_bind_iff.trans (or_congr_right (exists_congr fun x => and_congr_right fun _ => ?_))
  refine overflows_bind_iff.trans (or_congr_right (exists_congr fun y => and_congr_right fun _ => ?_))
  rw [← Number.roundTo?_eq_none_iff]
  dsimp only
  cases Number.roundTo? .halfEven x (placesOf y) with
  | none => exact iff_of_true e.overflows_overflow rfl
  | some rounded => exact iff_of_false (not_overflows_value rounded) (by simp)

/-- Moving overflows where the argument does, or beyond the calendar. -/
theorem overflows_moved_iff
    {move : Calendar.Zone → Calendar.Instant → Except Calendar.Failure Calendar.Instant} :
    e.Overflows (moved move c) ↔ e.Overflows (instant c 0) ∨
      ∃ i, e.Yields (instant c 0) i ∧ move c.zone i = .error .beyondCalendar := by
  refine overflows_bind_iff.trans (or_congr_right (exists_congr fun i => and_congr_right fun _ => ?_))
  match move c.zone i with
  | .ok j => exact iff_of_false (not_overflows_value _) (by simp)
  | .error (.rejected _) => exact iff_of_false (not_overflows_error _) (by simp)
  | .error .beyondCalendar => exact iff_of_true e.overflows_overflow rfl

/-- A moment overflows only where its argument does. -/
theorem overflows_number_of_instant (h : e.Overflows (instant c 0)) : e.Overflows (c.number 0) := by
  rcases overflows_bind_iff.mp h with h | ⟨x, -, h⟩
  · exact h
  · cases hi : (Calendar.ofHours x).toOption with
    | none => rw [hi] at h; exact absurd h (not_overflows_error _)
    | some i => rw [hi] at h; exact absurd h (not_overflows_value i)

/-- An argument that overflows is one of the formulas that the call is given. -/
theorem overflowsIn_of_number {index : Nat} (h : e.Overflows (c.number index)) :
    ∃ arg ∈ c.args, e.OverflowsIn arg := by
  unfold Call.number Call.arg at h
  cases hindex : c.args[index]? with
  | none =>
    rw [hindex] at h
    exact absurd h (not_overflows_error _)
  | some arg =>
    rw [hindex] at h
    exact ⟨arg, List.mem_of_getElem? hindex, .inl (overflows_evaluate_iff.mp h)⟩

/-- A call overflows if its arguments are as many as they should be and its action overflows. -/
theorem overflows_checked_iff {f : Builtin} {act : Call → Program α} :
    e.Overflows (f.checked (some act) c) ↔ f.arity.admits c.args.length ∧ e.Overflows (act c) := by
  show e.Overflows (if f.arity.admits c.args.length then act c else _) ↔ _
  split
  · rename_i hcount
    exact (and_iff_right hcount).symm
  · rename_i hcount
    exact iff_of_false (not_overflows_error _) fun h => hcount h.1

/-- What a call does that exceeds its limits. -/
theorem overflows_of_exceeds (h : c.Exceeds e) : e.Overflows (Grammar.callNumber c) := by
  cases h with
  | @round x y named count number places beyond =>
    rw [Grammar.callNumber, named]
    exact overflows_checked_iff.mpr ⟨Arity.admits_exactly.mpr count,
      overflows_round_iff.mpr (.inr ⟨x, number, .inr ⟨y, places, beyond⟩⟩)⟩
  | @month f i named ends count moment beyond =>
    rw [Grammar.callNumber, named]
    rcases ends with rfl | rfl
    · exact overflows_checked_iff.mpr ⟨Arity.admits_exactly.mpr count, overflows_moved_iff.mpr
        (.inr ⟨i, moment, Calendar.startOfMonth_beyond_iff.mpr beyond⟩)⟩
    · exact overflows_checked_iff.mpr ⟨Arity.admits_exactly.mpr count, overflows_moved_iff.mpr
        (.inr ⟨i, moment, Calendar.endOfMonth_beyond_iff.mpr beyond⟩)⟩
  | @monday i named count moment beyond =>
    rw [Grammar.callNumber, named]
    exact overflows_checked_iff.mpr ⟨Arity.admits_exactly.mpr count, overflows_moved_iff.mpr
      (.inr ⟨i, moment, Calendar.previousMonday_beyond_iff.mpr beyond⟩)⟩

/-- A call overflows by itself or in one of its arguments. -/
theorem exceeds_of_overflows (hnone : e.providers = [])
    (h : e.Overflows (Grammar.callNumber c)) :
    c.Exceeds e ∨ ∃ arg ∈ c.args, e.OverflowsIn arg := by
  cases hname : Builtin.ofName? c.name with
  | none =>
    rw [Grammar.callNumber, hname] at h
    -- a function that is not built in is asked for in vain
    have hkeeps := Grammar.keepsTo_callNumber c (Nat.le_refl _) (fun arg harg => harg)
    rw [Grammar.callNumber, hname] at hkeeps
    exact .inr (overflows_of_calm hnone hkeeps (Grammar.calm_userNumber c) h)
  | some f =>
    rw [Grammar.callNumber, hname] at h
    by_cases hf : f ∈ Builtin.strained
    · simp only [Builtin.strained, List.mem_cons, List.not_mem_nil, or_false] at hf
      rcases hf with rfl | rfl | rfl | rfl
      case inl =>
        obtain ⟨hcount, h⟩ := overflows_checked_iff.mp h
        rcases overflows_round_iff.mp h with h | ⟨x, hx, h | ⟨y, hy, hbeyond⟩⟩
        · exact .inr (overflowsIn_of_number h)
        · exact .inr (overflowsIn_of_number h)
        · exact .inl (.round hname (Arity.admits_exactly.mp hcount) hx hy hbeyond)
      all_goals
        obtain ⟨hcount, h⟩ := overflows_checked_iff.mp h
        rcases overflows_moved_iff.mp h with h | ⟨i, hi, hbeyond⟩
        · exact .inr (overflowsIn_of_number (overflows_number_of_instant h))
      · exact .inl (.monday hname (Arity.admits_exactly.mp hcount) hi
          (Calendar.previousMonday_beyond_iff.mp hbeyond))
      · exact .inl (.month hname (.inl rfl) (Arity.admits_exactly.mp hcount) hi
          (Calendar.startOfMonth_beyond_iff.mp hbeyond))
      · exact .inl (.month hname (.inr rfl) (Arity.admits_exactly.mp hcount) hi
          (Calendar.endOfMonth_beyond_iff.mp hbeyond))
    · have hcalm : (f.number c).Calm :=
        Builtin.calm_checked fun act hact => Builtin.calm_numeric? hact hf c
      exact .inr (overflows_of_calm hnone (Builtin.confines_number f c) hcalm h)

/-- If no argument overflows, the call does just where it exceeds its limits. -/
theorem overflows_callNumber_iff (hnone : e.providers = [])
    (hargs : ∀ arg ∈ c.args, ¬e.OverflowsIn arg) :
    e.Overflows (Grammar.callNumber c) ↔ c.Exceeds e := by
  refine ⟨fun h => (exceeds_of_overflows hnone h).resolve_right ?_, overflows_of_exceeds⟩
  rintro ⟨arg, harg, h⟩
  exact hargs arg harg h

end Engine

-- ---------------------------------------------------------------------------
-- Overflows of formulas
-- ---------------------------------------------------------------------------

/-- A call that exceeds its limits stands in the numeric formula, which is clean. -/
def Engine.ExceedsIn (e : Engine) (formula : String) : Prop :=
  ∃ name args position, (name, args, position) ∈ (Grammar.NumericTree.ofFormula formula).calls ∧
    (⟨e.context, name, args, formula, position⟩ : Call).Exceeds e

namespace Engine

open Grammar

variable {e : Engine}

/-- A numeric formula overflows at one of its calls or in an argument. -/
theorem exceeds_of_overflows_evaluate (hnone : e.providers = []) {formula : String} {limit : Nat}
    {isArg : String → Prop} {tree : NumericTree} (hwithin : tree.Within limit isArg)
    (h : e.Overflows (tree.evaluate e.context formula)) :
    (∃ name args position, (name, args, position) ∈ tree.calls ∧
      (⟨e.context, name, args, formula, position⟩ : Call).Exceeds e) ∨
    ∃ arg, isArg arg ∧ e.OverflowsIn arg := by
  induction tree with
  | number n => exact absurd h (not_overflows_value n)
  | value name position =>
    -- a name has nothing evaluated without providers
    have hkeeps := NumericTree.keepsTo_evaluate hwithin e.context formula
    exact .inr (overflows_of_calm hnone hkeeps (calm_valueOf _ _ _) h)
  | call name args position =>
    rcases exceeds_of_overflows hnone h with h | ⟨arg, harg, h⟩
    · exact .inl ⟨name, args, position, List.mem_singleton.mpr rfl, h⟩
    · exact .inr ⟨arg, hwithin.2 arg harg, h⟩
  | apply f operand ih | prefixed op operand ih =>
    rcases overflows_bind_iff.mp h with h | ⟨x, -, h⟩
    · exact ih hwithin h
    · exact absurd h (not_overflows_value _)
  | binary op left right ihl ihr =>
    rcases overflows_bind_iff.mp h with h | ⟨x, -, h⟩
    · refine (ihl hwithin.1 h).imp_left ?_
      exact fun ⟨name, args, position, hmem, h⟩ =>
        ⟨name, args, position, List.mem_append_left _ hmem, h⟩
    · rcases overflows_bind_iff.mp h with h | ⟨y, -, h⟩
      · refine (ihr hwithin.2 h).imp_left ?_
        exact fun ⟨name, args, position, hmem, h⟩ =>
          ⟨name, args, position, List.mem_append_right _ hmem, h⟩
      · exact absurd h (not_overflows_value _)
  | sequence first second ihf ihs =>
    rcases overflows_bind_iff.mp h with h | ⟨x, -, h⟩
    · refine (ihf hwithin.1 h).imp_left ?_
      exact fun ⟨name, args, position, hmem, h⟩ =>
        ⟨name, args, position, List.mem_append_left _ hmem, h⟩
    · refine (ihs hwithin.2 h).imp_left ?_
      exact fun ⟨name, args, position, hmem, h⟩ =>
        ⟨name, args, position, List.mem_append_right _ hmem, h⟩
  | failure complaint => exact absurd h (not_overflows_error _)

/-- A formula overflows at a call in it or in an argument. -/
theorem exceedsIn_or_argument (hnone : e.providers = []) {formula : String}
    (h : e.OverflowsIn formula) :
    e.ExceedsIn (cleanFormula formula) ∨ ∃ arg, HasArgument formula arg ∧ e.OverflowsIn arg := by
  rcases h with h | h
  · refine (exceeds_of_overflows_evaluate hnone (NumericTree.within_ofFormula _) h).imp_right ?_
    exact fun ⟨arg, harg, h⟩ => ⟨arg, .inl harg, h⟩
  · exact .inr (overflows_of_calm hnone (keepsTo_textProgram e.context formula)
      (TextTree.calm_evaluate _ _ _) h)

/-- A formula overflows at a call in it or in a formula that is nested in it. -/
theorem exists_nested_exceedsIn (hnone : e.providers = []) {formula : String}
    (h : e.OverflowsIn formula) :
    ∃ text, Nests (cleanFormula formula) text ∧ e.ExceedsIn text := by
  -- by induction on the length, since arguments are shorter
  induction hlength : (cleanFormula formula).length using Nat.strong_induction_on
    generalizing formula with
  | _ length ih =>
    rcases exceedsIn_or_argument hnone h with h | ⟨arg, harg, h⟩
    · exact ⟨cleanFormula formula, .refl, h⟩
    · have hshorter := harg.shorter
      obtain ⟨text, hnests, hexceeds⟩ :=
        ih (cleanFormula arg).length (by rw [harg.clean]; omega) h rfl
      have hfirst : HasArgument (cleanFormula formula) (cleanFormula arg) := by
        rwa [harg.clean, HasArgument, cleanFormula_cleanFormula]
      exact ⟨text, hnests.head hfirst, hexceeds⟩

/-- A formula that is calculated with an overflow overflows. -/
theorem overflowsIn_of_calculate {formula : String}
    (h : (e.calculate formula).outcome = .overflow ∨
      (e.calculateText formula).outcome = .overflow) : e.OverflowsIn formula := by
  refine h.imp (fun h => ⟨(e.calculate formula).calls, ?_⟩)
    fun h => ⟨(e.calculateText formula).calls, ?_⟩
  · refine calculates_iff_settles.mp ?_
    rw [← h]
    exact calculates_calculate (by simp [h])
  · refine calculatesText_iff_settles.mp ?_
    rw [← h]
    exact calculatesText_calculateText (by simp [h])

/-- Evaluation without providers ends with a value or an error, or else with an overflow. It
overflows only if a call that exceeds its limits stands in the formula or in an argument that is
nested in it; and a call none of whose arguments overflow does so just where it exceeds its limits.
These are the limits of the four functions themselves, for every number, count of places, zone and
moment. -/
theorem overflows_only_at_limits (e : Engine) (hnone : e.providers = []) :
    (∀ formula,
      (e.calculate formula).outcome ≠ .unfinished ∧
      (e.calculateText formula).outcome ≠ .unfinished ∧
      ((e.calculate formula).outcome = .overflow ∨
          (e.calculateText formula).outcome = .overflow →
        ∃ text, Nests (cleanFormula formula) text ∧ e.ExceedsIn text)) ∧
    (∀ c : Call, (∀ arg ∈ c.args, ¬e.OverflowsIn arg) →
      (e.Overflows (callNumber c) ↔ c.Exceeds e) ∧ ¬e.Overflows (callText c)) ∧
    (∀ mode x places, Number.roundTo? mode x places = none ↔ Number.RoundsBeyond mode x places) ∧
    ∀ (zone : Calendar.Zone) (i : Calendar.Instant),
      (Calendar.previousMonday zone i = .error .beyondCalendar ↔ ¬i.IsShown zone (5 * 86400)) ∧
      (Calendar.startOfMonth zone i = .error .beyondCalendar ↔ ¬i.IsShown zone 0) ∧
      (Calendar.endOfMonth zone i = .error .beyondCalendar ↔ ¬i.IsShown zone 0) := by
  refine ⟨fun formula => ?_, fun c hargs => ⟨overflows_callNumber_iff hnone hargs, fun h => ?_⟩,
    fun _ _ _ => Number.roundTo?_eq_none_iff, fun _ _ => ⟨Calendar.previousMonday_beyond_iff,
      Calendar.startOfMonth_beyond_iff, Calendar.endOfMonth_beyond_iff⟩⟩
  · obtain ⟨hnumber, htext⟩ := calculation_ends hnone formula
    exact ⟨hnumber.finished, htext.finished, fun h =>
      exists_nested_exceedsIn hnone (overflowsIn_of_calculate h)⟩
  · obtain ⟨arg, harg, h⟩ := overflows_of_calm hnone
      (keepsTo_callText c (Nat.le_refl _) fun arg harg => harg) (calm_callText c) h
    exact hargs arg harg h

/-- Seventy-nine octillions cannot be rounded to a multiple of ten octillions. -/
theorem overflows_only_at_limits_octillions :
    let formula := "round(790000000 * 1000000000 * 1000000000 * 100, -28)"
    (({} : Engine).calculate formula).outcome = .overflow ∧
      ∃ text, Nests (cleanFormula formula) text ∧ ({} : Engine).ExceedsIn text := by
  intro formula
  have hoverflow : (({} : Engine).calculate formula).outcome = .overflow := by decide +kernel
  exact ⟨hoverflow, ((overflows_only_at_limits {} rfl).1 formula).2.2 (.inl hoverflow)⟩

end Engine

end Formulae
