import Formulae.Evaluation.Dispatch

/-!
# What calls are made of

What a built-in function does with its call is put together from few steps: an argument is
evaluated, a range is asked for, and the call fails with an error of its own. Rounding and moving
can overflow, and `raiseerror` attempts its argument. A property of programs that holds of the steps
and is kept by going on from one program to another is a property of what the function does. So the
built-in functions are gone through here once, and not for each property.

Every step that evaluates an argument looks it up by an index that a call with an admissible number
of arguments has.

Main results:

* `Builtin.Steps.numeric?`, `Builtin.Steps.textual?` — what holds of the steps holds of the function.
-/

namespace Formulae.Builtin

open Program

/-- The property holds of the steps that the call of a function is made of, and of programs that go
on from one to another. -/
structure Steps (f : Builtin) (c : Call) (P : {α : Type} → Program α → Prop) : Prop where
  value {α : Type} (a : α) : P (.value a)
  bind {α β : Type} {p : Program α} {g : α → Program β} (hp : P p) (hg : ∀ a, P (g a)) :
    P (p.bind g)
  number {index : Nat} (there : f.arity.admits c.args.length = true → index < c.args.length) :
    P (c.number index)
  text {index : Nat} (there : f.arity.admits c.args.length = true → index < c.args.length) :
    P (c.text index)
  error {α : Type} {kind : ErrorKind}
    (hkind : kind ∈ [ErrorKind.syntaxError, .functionError, .parseError]) (identifier : String) :
    P (.error (c.errorNaming kind identifier) : Program α)
  /-- A request comes with the error for want of a reply. -/
  request (r : Request) (identifier : String) :
    P ((Program.request r).bind fun reply =>
      ofOption reply (c.errorNaming .functionError identifier))
  overflow {α : Type} (strained : f ∈ [round, previousMonday, startOfMonth, endOfMonth]) :
    P (.overflow : Program α)
  raiseError (raises : f = .raiseError) : P (Evaluation.raiseError c)

namespace Steps

variable {α : Type} {f : Builtin} {c : Call} {P : {α : Type} → Program α → Prop}

-- ---------------------------------------------------------------------------
-- Arguments
-- ---------------------------------------------------------------------------

/-- A function of exactly so many arguments evaluates any of them as a number. -/
theorem number_exactly (s : f.Steps c P) {n index : Nat} (hf : f.arity = .exactly n)
    (hindex : index < n) : P (c.number index) :=
  s.number fun h => by
    rw [hf, Arity.admits_exactly] at h
    omega

theorem text_exactly (s : f.Steps c P) {n index : Nat} (hf : f.arity = .exactly n)
    (hindex : index < n) : P (c.text index) :=
  s.text fun h => by
    rw [hf, Arity.admits_exactly] at h
    omega

/-- Who goes through all arguments evaluates each by its index. -/
theorem evaluate (s : f.Steps c P) {formula : String} (h : formula ∈ c.args) :
    P (Program.evaluate formula) := by
  obtain ⟨index, hindex⟩ := List.mem_iff_getElem?.mp h
  rw [← (Call.number_of_arg hindex).1]
  exact s.number fun _ => (List.getElem?_eq_some_iff.mp hindex).1

theorem evaluateText (s : f.Steps c P) {formula : String} (h : formula ∈ c.args) :
    P (Program.evaluateText formula) := by
  obtain ⟨index, hindex⟩ := List.mem_iff_getElem?.mp h
  rw [← (Call.number_of_arg hindex).2]
  exact s.text fun _ => (List.getElem?_eq_some_iff.mp hindex).1

-- ---------------------------------------------------------------------------
-- Steps in turn
-- ---------------------------------------------------------------------------

/-- A step, and what is made of its value. -/
theorem map (s : f.Steps c P) {β : Type} {p : Program α} (hp : P p) (g : α → β) :
    P (p.bind fun a => .value (g a)) :=
  s.bind hp fun a => s.value (g a)

/-- Two steps, and what is made of their values. -/
theorem both (s : f.Steps c P) {β γ : Type} {p : Program α} {q : Program β} (hp : P p) (hq : P q)
    (g : α → β → γ) : P (p.bind fun a => q.bind fun b => .value (g a b)) :=
  s.bind hp fun a => s.map hq (g a)

/-- A value that is there, or an error of the call for want of it. -/
theorem ofOption (s : f.Steps c P) {kind : ErrorKind}
    (hkind : kind ∈ [ErrorKind.syntaxError, .functionError, .parseError]) (identifier : String)
    (a : Option α) : P (Program.ofOption a (c.errorNaming kind identifier)) := by
  cases a with
  | none => exact s.error hkind identifier
  | some a => exact s.value a

theorem orFail (s : f.Steps c P) (a : Option α) : P (c.orFail a) :=
  s.ofOption (by simp) c.name a

theorem parsed (s : f.Steps c P) (text : String) : P (Evaluation.parsed c text) :=
  s.ofOption (by simp) text _

-- ---------------------------------------------------------------------------
-- All arguments
-- ---------------------------------------------------------------------------

/-- Arguments in turn, up to one that decides. -/
theorem decides (s : f.Steps c P) (truth : Bool) {formulas : List String}
    (h : ∀ formula ∈ formulas, formula ∈ c.args) : P (Evaluation.decides truth formulas) := by
  induction formulas with
  | nil => exact s.value false
  | cons formula formulas ih =>
    rw [List.forall_mem_cons] at h
    refine s.bind (s.evaluate h.1) fun x => ?_
    split
    · exact s.value true
    · exact ih h.2

/-- All texts in turn, each put behind those before it. -/
theorem concatenateFrom (s : f.Steps c P) (done : String) {formulas : List String}
    (h : ∀ formula ∈ formulas, formula ∈ c.args) : P (Evaluation.concatenateFrom done formulas) := by
  induction formulas generalizing done with
  | nil => exact s.value done
  | cons formula formulas ih =>
    rw [List.forall_mem_cons] at h
    exact s.bind (s.evaluateText h.1) fun text => ih _ h.2

/-- All arguments in turn, in either channel. -/
theorem evaluateAll (s : f.Steps c P) (channel : Channel) {formulas : List String}
    (h : ∀ formula ∈ formulas, formula ∈ c.args) : P (Evaluation.evaluateAll channel formulas) := by
  induction formulas with
  | nil => exact s.value []
  | cons formula formulas ih =>
    rw [List.forall_mem_cons] at h
    have hvalue : P (Evaluation.evaluateIn channel formula) := by
      cases channel with
      | numeric => exact s.map (s.evaluate h.1) RangeValue.number
      | textual => exact s.map (s.evaluateText h.1) RangeValue.text
    exact s.bind hvalue fun v => s.map (ih h.2) (v :: ·)

/-- The values of an aggregate: of all arguments, or of the range that is its only one. -/
theorem collect (s : f.Steps c P) (channel : Channel) : P (Evaluation.collect c channel) := by
  unfold Evaluation.collect
  split
  · exact s.evaluateAll channel fun _ h => h
  · exact s.error (by simp) c.name
  · exact s.request _ _

/-- What is collected is made numbers, which a text may not be. -/
theorem numbers (s : f.Steps c P) : P (Evaluation.numbers c) := by
  refine s.bind (s.collect .numeric) fun values => ?_
  induction values with
  | nil => exact s.value []
  | cons value values ih =>
    have hvalue : P (Evaluation.numberOfValue c value) := by
      cases value with
      | number x => exact s.value x
      | text t => exact s.parsed t
    exact s.bind hvalue fun x => s.map ih (x :: ·)

theorem texts (s : f.Steps c P) : P (Evaluation.texts c) :=
  s.map (s.collect .textual) _

-- ---------------------------------------------------------------------------
-- Dates and pieces
-- ---------------------------------------------------------------------------

variable {index : Nat}

/-- An argument that is an hour, made an instant. -/
theorem instant (s : f.Steps c P) (h : P (c.number index)) : P (Evaluation.instant c index) :=
  s.bind h fun _ => s.orFail _

/-- An argument that is an integer within bounds. -/
theorem component (s : f.Steps c P) (h : P (c.number index)) (low high : Int) :
    P (Evaluation.component c low high index) :=
  s.bind h fun _ => s.orFail _

theorem field (s : f.Steps c P) (h : P (c.number index)) : P (Evaluation.field c index) :=
  s.map (s.component h _ _) Int.toNat

/-- A moment that is made is not beyond the calendar. -/
theorem hourOf_made (s : f.Steps c P) (i : Except Calendar.CalendarError Calendar.Instant) :
    P (Evaluation.hourOf c (i.mapError .rejected)) := by
  cases i with
  | ok i => exact s.value _
  | error e => exact s.error (by simp) c.name

/-- A moment that is moved may be beyond the calendar. -/
theorem moved (s : f.Steps c P) (strained : f ∈ [round, previousMonday, startOfMonth, endOfMonth])
    (h : P (c.number 0))
    (move : Calendar.Zone → Calendar.Instant → Except Calendar.Failure Calendar.Instant) :
    P (Evaluation.moved move c) := by
  refine s.bind (s.instant h) fun i => ?_
  match move c.zone i with
  | .ok i => exact s.value _
  | .error (.rejected _) => exact s.error (by simp) c.name
  | .error .beyondCalendar => exact s.overflow strained

theorem fieldOf (s : f.Steps c P) (h : P (c.number 0)) (get : Calendar.WallClock → Int) :
    P (Evaluation.fieldOf get c) :=
  s.map (s.map (s.instant h) _) _

theorem left (s : f.Steps c P) (hf : f.arity = .exactly 2) : P (Evaluation.left c) :=
  s.both (s.text_exactly hf (by decide)) (s.number_exactly hf (by decide)) _

theorem right (s : f.Steps c P) (hf : f.arity = .exactly 2) : P (Evaluation.right c) :=
  s.both (s.text_exactly hf (by decide)) (s.number_exactly hf (by decide)) _

theorem substring (s : f.Steps c P) (hf : f.arity = .exactly 3) : P (Evaluation.substring c) :=
  s.bind (s.text_exactly hf (by decide)) fun _ =>
    s.both (s.number_exactly hf (by decide)) (s.number_exactly hf (by decide)) _

/-- The number of a piece of a text. -/
theorem numberOf (s : f.Steps c P) {piece : Call → Program String} (h : P (piece c)) :
    P (Evaluation.numberOf piece c) :=
  s.bind h s.parsed

-- ---------------------------------------------------------------------------
-- Functions
-- ---------------------------------------------------------------------------

/-- What holds of the steps holds of what the function does in the numeric channel. -/
theorem numeric? (s : f.Steps c P) {act : Call → Program Float} (h : f.numeric? = some act) :
    P (act c) := by
  have nth {n index : Nat} (hf : f.arity = .exactly n) (hindex : index < n) : P (c.number index) :=
    s.number_exactly hf hindex
  have nthText {n index : Nat} (hf : f.arity = .exactly n) (hindex : index < n) :
      P (c.text index) := s.text_exactly hf hindex
  cases f <;> simp only [Builtin.numeric?, Option.some.injEq, reduceCtorEq] at h <;> subst h
  case conditional =>
    refine s.bind (nth rfl (by decide)) fun x => ?_
    split <;> exact nth rfl (by decide)
  case conjunction => exact s.map (s.decides false fun _ h => h) _
  case disjunction => exact s.map (s.decides true fun _ h => h) _
  case between =>
    exact s.bind (nth rfl (by decide)) fun _ =>
      s.both (nth rfl (by decide)) (nth rfl (by decide)) _
  case raiseError => exact s.raiseError rfl
  case safeDivide => exact s.both (nth rfl (by decide)) (nth rfl (by decide)) _
  case round =>
    refine s.bind (nth rfl (by decide)) fun x => s.bind (nth rfl (by decide)) fun y => ?_
    dsimp only
    split
    · exact s.value _
    · exact s.overflow (by simp)
  case negation | ceiling | floor | distanceFromNow => exact s.map (nth rfl (by decide)) _
  case toDouble => exact s.bind (nthText rfl (by decide)) s.parsed
  case empty | length => exact s.map (nthText rfl (by decide)) _
  case position | equals | equalsIgnoreCase | compareTo | compareToIgnoreCase =>
    exact s.both (nthText rfl (by decide)) (nthText rfl (by decide)) _
  case left => exact s.numberOf (s.left rfl)
  case right => exact s.numberOf (s.right rfl)
  case substring => exact s.numberOf (s.substring rfl)
  case sum | maximum | minimum | average => exact s.map s.numbers _
  case count => exact s.map (s.collect .numeric) _
  case day | week | month | year | hour | minute | second =>
    exact s.fieldOf (nth rfl (by decide)) _
  case previousMonday | startOfMonth | endOfMonth =>
    exact s.moved (by simp) (nth rfl (by decide)) _
  case toDate =>
    exact s.bind (s.field (nth rfl (by decide))) fun _ =>
      s.bind (s.field (nth rfl (by decide))) fun _ =>
      s.bind (s.component (nth rfl (by decide)) _ _) fun _ => s.hourOf_made _
  case toDateTime =>
    have part {index : Nat} (hindex : index < 6) : P (Evaluation.field c index) :=
      s.field (nth rfl hindex)
    exact s.bind (part (by decide)) fun _ => s.bind (part (by decide)) fun _ =>
      s.bind (s.component (nth rfl (by decide)) _ _) fun _ => s.bind (part (by decide)) fun _ =>
      s.bind (part (by decide)) fun _ => s.bind (part (by decide)) fun _ => s.hourOf_made _
  case distanceFromToday =>
    exact s.bind (nth rfl (by decide)) fun _ => s.map (s.orFail _) _
  case textToDateTime =>
    refine s.bind (nthText rfl (by decide)) fun text =>
      s.bind (nthText rfl (by decide)) fun pattern => ?_
    split
    · exact s.value _
    · exact s.error (by simp) text

/-- What holds of the steps holds of what the function does in the text channel. -/
theorem textual? (s : f.Steps c P) {act : Call → Program String} (h : f.textual? = some act) :
    P (act c) := by
  have nth {n index : Nat} (hf : f.arity = .exactly n) (hindex : index < n) : P (c.number index) :=
    s.number_exactly hf hindex
  have nthText {n index : Nat} (hf : f.arity = .exactly n) (hindex : index < n) :
      P (c.text index) := s.text_exactly hf hindex
  cases f <;> simp only [Builtin.textual?, Option.some.injEq, reduceCtorEq] at h <;> subst h
  case conditional =>
    refine s.bind (nth rfl (by decide)) fun x => ?_
    split <;> exact nthText rfl (by decide)
  case left => exact s.left rfl
  case right => exact s.right rfl
  case substring => exact s.substring rfl
  case concatenate => exact s.concatenateFrom "" fun _ h => h
  case replicate =>
    exact s.bind (nthText rfl (by decide)) fun _ =>
      s.bind (nth rfl (by decide)) fun _ => s.orFail _
  case toText => exact s.map (nth rfl (by decide)) _
  case upperCase | lowerCase => exact s.map (nthText rfl (by decide)) _
  case sum | maximum | minimum => exact s.map s.texts _
  case count => exact s.map (s.collect .textual) _

end Steps

end Formulae.Builtin
