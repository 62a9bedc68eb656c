import Formulae.Evaluation.Calculate

/-!
# Two evaluations side by side

Without providers an evaluation learns nothing about a formula but what comes of it. If all formulas
that a program has evaluated are written in another way that comes to the same, then the program
ends in the same way: with the same value, or with an error of the same kind. What an error names
may differ, since errors quote formulas and names.

`Program.Respelled` sets two programs side by side that differ in the spelling of their formulas.
The call of a built-in function with other spellings of its arguments is such a program; only one
that looks for a range keyword in its argument must find the same in both spellings.

Main results:

* `Program.Respelled.run_alike` — respelled programs end alike.
* `Builtin.respells_number`, `Builtin.respells_text` — the calls of built-in functions.
* `Grammar.respells_callNumber`, `Grammar.respells_callText` — calls of any function.
-/

namespace Formulae

variable {α β : Type}

-- ---------------------------------------------------------------------------
-- Runs
-- ---------------------------------------------------------------------------

/-- Two ends with the same value, with errors of the same kind, or for the same other reason. -/
inductive Outcome.Alike : Outcome α → Outcome α → Prop
  | value (a : α) : Alike (.value a) (.value a)
  | error {e e' : FormulaError} (kind : e.kind = e'.kind) : Alike (.error e) (.error e')
  | overflow : Alike .overflow .overflow
  | unfinished : Alike .unfinished .unfinished

theorem Outcome.Alike.symm {o o' : Outcome α} (h : o.Alike o') : o'.Alike o := by
  cases h with
  | value a => exact .value a
  | error kind => exact .error kind.symm
  | overflow => exact .overflow
  | unfinished => exact .unfinished

theorem Outcome.Alike.trans {o o' o'' : Outcome α} (h : o.Alike o') (h' : o'.Alike o'') :
    o.Alike o'' := by
  cases h with
  | value => exact h'
  | overflow => exact h'
  | unfinished => exact h'
  | error kind =>
    cases h' with
    | error kind' => exact .error (kind.trans kind')

/-- Two runs that end alike, whoever was asked on the way. -/
def Run.Alike (r r' : Run α) : Prop :=
  r.outcome.Alike r'.outcome

namespace Run.Alike

/-- Runs that end alike go on alike. -/
theorem bind {r r' : Run α} {f f' : α → Run β} (h : r.Alike r') (hf : ∀ a, (f a).Alike (f' a)) :
    (r >>= f).Alike (r' >>= f') := by
  obtain ⟨calls, outcome⟩ := r
  obtain ⟨calls', outcome'⟩ := r'
  cases h with
  | value a => exact hf a
  | error kind => exact .error kind
  | overflow => exact .overflow
  | unfinished => exact .unfinished

/-- Attempts at runs that end alike tell the same. -/
theorem attempt {r r' : Run α} (h : r.Alike r') : r.attempt.Alike r'.attempt := by
  obtain ⟨calls, outcome⟩ := r
  obtain ⟨calls', outcome'⟩ := r'
  cases h with
  | value a => exact .value (some a)
  | error kind => exact .value none
  | overflow => exact .overflow
  | unfinished => exact .unfinished

end Run.Alike

/-- Two formulas that come to the same in both channels. -/
structure Nested.Alike (n : Nested) (formula formula' : String) : Prop where
  number : (n.number formula).Alike (n.number formula')
  text : (n.text formula).Alike (n.text formula')

-- ---------------------------------------------------------------------------
-- Programs
-- ---------------------------------------------------------------------------

variable {g : String → String} {formulas formulas' : String → Prop}

namespace Program

/-- The second program is the first one with its formulas spelled as `g` says, and with errors of the
same kinds. Nobody replies to its requests. -/
inductive Respelled (g : String → String) (formulas : String → Prop) :
    Program α → Program α → Prop
  | value (a : α) : Respelled g formulas (.value a) (.value a)
  | error {e e' : FormulaError} (kind : e.kind = e'.kind) :
      Respelled g formulas (.error e) (.error e')
  | overflow : Respelled g formulas .overflow .overflow
  | number {formula : String} {next next' : Float → Program α} (handed : formulas formula)
      (rest : ∀ x, Respelled g formulas (next x) (next' x)) :
      Respelled g formulas (.number formula next) (.number (g formula) next')
  | text {formula : String} {next next' : String → Program α} (handed : formulas formula)
      (rest : ∀ s, Respelled g formulas (next s) (next' s)) :
      Respelled g formulas (.text formula next) (.text (g formula) next')
  | attempt {formula : String} {next next' : Option String → Program α}
      (handed : formulas formula) (rest : ∀ s, Respelled g formulas (next s) (next' s)) :
      Respelled g formulas (.attempt formula next) (.attempt (g formula) next')
  | ask {request request' : Request} {next : Option request.Reply → Program α}
      {next' : Option request'.Reply → Program α}
      (rest : Respelled g formulas (next none) (next' none)) :
      Respelled g formulas (.ask request next) (.ask request' next')

namespace Respelled

/-- Respelled programs that go on to respelled programs are respelled. -/
theorem bind {p p' : Program α} {f f' : α → Program β} (hp : p.Respelled g formulas p')
    (hf : ∀ a, (f a).Respelled g formulas (f' a)) :
    (p.bind f).Respelled g formulas (p'.bind f') := by
  induction hp with
  | value a => exact hf a
  | error kind => exact .error kind
  | overflow => exact .overflow
  | number handed _ ih => exact .number handed ih
  | text handed _ ih => exact .text handed ih
  | attempt handed _ ih => exact .attempt handed ih
  | ask _ ih => exact .ask ih

/-- The formulas handed over may be said to be among more than they are. -/
theorem mono {p p' : Program α} (hp : p.Respelled g formulas p')
    (h : ∀ formula, formulas formula → formulas' formula) : p.Respelled g formulas' p' := by
  induction hp with
  | value a => exact .value a
  | error kind => exact .error kind
  | overflow => exact .overflow
  | number handed _ ih => exact .number (h _ handed) ih
  | text handed _ ih => exact .text (h _ handed) ih
  | attempt handed _ ih => exact .attempt (h _ handed) ih
  | ask _ ih => exact .ask ih

theorem evaluate {formula : String} (h : formulas formula) :
    (Program.evaluate formula).Respelled g formulas (Program.evaluate (g formula)) :=
  .number h .value

theorem evaluateText {formula : String} (h : formulas formula) :
    (Program.evaluateText formula).Respelled g formulas (Program.evaluateText (g formula)) :=
  .text h .value

/-- A value that is there is there in both programs, and errors for want of it are of one kind. -/
theorem ofOption {e e' : FormulaError} (kind : e.kind = e'.kind) (a : Option α) :
    (Program.ofOption a e).Respelled g formulas (Program.ofOption a e') := by
  cases a with
  | none => exact .error kind
  | some a => exact .value a

/-- Without providers respelled programs end alike, if the spellings of their formulas come to the
same. -/
theorem run_alike {p p' : Program α} (hp : p.Respelled g formulas p') {n : Nested}
    (hn : ∀ formula, formulas formula → n.Alike formula (g formula)) :
    (p.run [] n).Alike (p'.run [] n) := by
  induction hp with
  | value a => exact .value a
  | error kind => exact .error kind
  | overflow => exact .overflow
  | number handed _ ih => exact (hn _ handed).number.bind ih
  | text handed _ ih => exact (hn _ handed).text.bind ih
  | attempt handed _ ih => exact (hn _ handed).text.attempt.bind ih
  | ask _ ih => exact ih

end Respelled

end Program

open Program

-- ---------------------------------------------------------------------------
-- Calls
-- ---------------------------------------------------------------------------

namespace Call

/-- The second call is the first one with its arguments spelled as `g` says, perhaps by another name
and in another formula. -/
structure Respelled (g : String → String) (c c' : Call) : Prop where
  context : c'.context = c.context
  args : c'.args = c.args.map g

/-- The second program is the first one with the arguments of the call respelled. -/
abbrev Respells (g : String → String) (c : Call) (p p' : Program α) : Prop :=
  p.Respelled g (· ∈ c.args) p'

variable {c c' : Call}

theorem Respelled.places (h : c.Respelled g c') : c'.places = c.places := by
  rw [Call.places, Call.places, h.context]

theorem Respelled.zone (h : c.Respelled g c') : c'.zone = c.zone := by
  rw [Call.zone, Call.zone, h.context]

/-- Both calls have an argument at an index, or neither has; then what is made of it may be
respelled. -/
theorem respells_arg_bind (h : c.Respelled g c') (index : Nat) {f f' : String → Program α}
    (hf : ∀ arg ∈ c.args, c.Respells g (f arg) (f' (g arg))) :
    c.Respells g ((c.arg index).bind f) ((c'.arg index).bind f') := by
  rw [arg, arg, h.args, List.getElem?_map]
  cases hindex : c.args[index]? with
  | none => exact .error rfl
  | some arg => exact hf arg (List.mem_of_getElem? hindex)

theorem respells_number (h : c.Respelled g c') (index : Nat) :
    c.Respells g (c.number index) (c'.number index) :=
  respells_arg_bind h index fun _ => .evaluate

theorem respells_text (h : c.Respelled g c') (index : Nat) :
    c.Respells g (c.text index) (c'.text index) :=
  respells_arg_bind h index fun _ => .evaluateText

/-- What the calls blame is of the same kind. -/
theorem kind_errorNaming (c c' : Call) (kind : ErrorKind) (identifier identifier' : String) :
    (c.errorNaming kind identifier).kind = (c'.errorNaming kind identifier').kind := rfl

theorem respells_orFail (c c' : Call) (a : Option α) : c.Respells g (c.orFail a) (c'.orFail a) :=
  .ofOption (kind_errorNaming c c' _ _ _) a

end Call

open Call

-- ---------------------------------------------------------------------------
-- Built-in functions
-- ---------------------------------------------------------------------------

namespace Evaluation

variable {c c' : Call}

/-- To decide about arguments is to decide about their other spellings. -/
theorem respelled_decides (truth : Bool) {args : List String} (h : ∀ arg ∈ args, formulas arg) :
    (decides truth args).Respelled g formulas (decides truth (args.map g)) := by
  induction args with
  | nil => exact .value false
  | cons arg args ih =>
    rw [List.forall_mem_cons] at h
    refine Respelled.bind (.evaluate h.1) fun x => ?_
    split
    · exact .value true
    · exact ih h.2

theorem respelled_concatenateFrom (done : String) {args : List String}
    (h : ∀ arg ∈ args, formulas arg) :
    (concatenateFrom done args).Respelled g formulas (concatenateFrom done (args.map g)) := by
  induction args generalizing done with
  | nil => exact .value done
  | cons arg args ih =>
    rw [List.forall_mem_cons] at h
    exact Respelled.bind (.evaluateText h.1) fun s => ih _ h.2

theorem respelled_evaluateAll (channel : Channel) {args : List String}
    (h : ∀ arg ∈ args, formulas arg) :
    (evaluateAll channel args).Respelled g formulas (evaluateAll channel (args.map g)) := by
  induction args with
  | nil => exact .value []
  | cons arg args ih =>
    rw [List.forall_mem_cons] at h
    have hvalue : (evaluateIn channel arg).Respelled g formulas (evaluateIn channel (g arg)) := by
      cases channel with
      | numeric => exact Respelled.bind (.evaluate h.1) fun x => .value (RangeValue.number x)
      | textual => exact Respelled.bind (.evaluateText h.1) fun s => .value (RangeValue.text s)
    exact hvalue.bind fun v => (ih h.2).bind fun vs => .value (v :: vs)

/-- Both spellings of an argument name a range, or neither does, and if they do then both have
parentheses, or neither has. -/
def KeepsRanges (g : String → String) : Prop :=
  ∀ arg, (rangeOf? (g arg)).map (·.2.isSome) = (rangeOf? arg).map (·.2.isSome)

/-- Both calls have a range for their only argument, or neither has. -/
theorem KeepsRanges.onlyRange? (hranges : KeepsRanges g) (args : List String) :
    (onlyRange? (args.map g)).map (·.2.isSome) = (onlyRange? args).map (·.2.isSome) := by
  match args with
  | [] => rfl
  | [arg] => exact hranges arg
  | _ :: _ :: _ => rfl

variable (hranges : KeepsRanges g) (h : c.Respelled g c')

include hranges h in
/-- The values of an aggregate: those of its arguments, or those of a range. -/
theorem respells_collect (channel : Channel) :
    c.Respells g (collect c channel) (collect c' channel) := by
  have hrange := hranges.onlyRange? c.args
  unfold collect
  rw [h.args]
  match hfound : onlyRange? c.args with
  | none =>
    rw [hfound, Option.map_none, Option.map_eq_none_iff] at hrange
    rw [hrange]
    exact respelled_evaluateAll channel fun _ harg => harg
  | some (_, none) =>
    rw [hfound] at hrange
    obtain ⟨⟨_, inner⟩, hfound', hinner⟩ := Option.map_eq_some_iff.mp hrange
    obtain rfl : inner = none := by simpa using hinner
    rw [hfound']
    exact .error rfl
  | some (_, some _) =>
    rw [hfound] at hrange
    obtain ⟨⟨_, inner⟩, hfound', hinner⟩ := Option.map_eq_some_iff.mp hrange
    obtain ⟨inner, rfl⟩ := Option.isSome_iff_exists.mp hinner
    rw [hfound']
    exact .ask (.error rfl)

include hranges h in
theorem respells_numbers : c.Respells g (numbers c) (numbers c') := by
  refine (respells_collect hranges h .numeric).bind fun values => ?_
  induction values with
  | nil => exact .value []
  | cons value values ih =>
    have hvalue : c.Respells g (numberOfValue c value) (numberOfValue c' value) := by
      cases value with
      | number x => exact .value x
      | text s => exact .ofOption (kind_errorNaming c c' _ _ _) _
    exact hvalue.bind fun x => ih.bind fun xs => .value (x :: xs)

include hranges h in
theorem respells_texts : c.Respells g (texts c) (texts c') :=
  (respells_collect hranges h .textual).bind fun _ => .value _

theorem respells_parsed (c c' : Call) (text : String) :
    c.Respells g (parsed c text) (parsed c' text) :=
  .ofOption (kind_errorNaming c c' _ _ _) _

/-- An instant may be beyond the calendar for both calls. -/
theorem respells_hourOf (c c' : Call) (i : Except Calendar.Failure Calendar.Instant) :
    c.Respells g (hourOf c i) (hourOf c' i) := by
  match i with
  | .ok i => exact .value _
  | .error (.rejected _) => exact .error rfl
  | .error .beyondCalendar => exact .overflow

include h

/-- The message is attempted in its other spelling, and errors follow of one kind. -/
theorem respells_raiseError : c.Respells g (raiseError c) (raiseError c') :=
  respells_arg_bind h 0 fun _ harg => .attempt harg fun _ => .error rfl

theorem respells_instant (index : Nat) : c.Respells g (instant c index) (instant c' index) :=
  (respells_number h index).bind fun _ => respells_orFail c c' _

theorem respells_component (low high : Int) (index : Nat) :
    c.Respells g (component c low high index) (component c' low high index) :=
  (respells_number h index).bind fun _ => respells_orFail c c' _

theorem respells_field (index : Nat) : c.Respells g (field c index) (field c' index) :=
  (respells_component h _ _ index).bind fun n => .value n.toNat

theorem respells_fieldOf (get : Calendar.WallClock → Int) :
    c.Respells g (fieldOf get c) (fieldOf get c') := by
  have hclock : c.Respells g (clockOf c) (clockOf c') := by
    refine (respells_instant h 0).bind fun i => ?_
    rw [h.zone]
    exact .value _
  exact hclock.bind fun _ => .value _

theorem respells_moved
    (move : Calendar.Zone → Calendar.Instant → Except Calendar.Failure Calendar.Instant) :
    c.Respells g (moved move c) (moved move c') := by
  refine (respells_instant h 0).bind fun i => ?_
  rw [h.zone]
  exact respells_hourOf c c' _

theorem respells_left : c.Respells g (left c) (left c') :=
  (respells_text h 0).bind fun _ => (respells_number h 1).bind fun _ => .value _

theorem respells_right : c.Respells g (right c) (right c') :=
  (respells_text h 0).bind fun _ => (respells_number h 1).bind fun _ => .value _

theorem respells_substring : c.Respells g (substring c) (substring c') :=
  (respells_text h 0).bind fun _ => (respells_number h 1).bind fun _ =>
    (respells_number h 2).bind fun _ => .value _

omit h in
theorem respells_numberOf {piece : Call → Program String}
    (h : c.Respells g (piece c) (piece c')) :
    c.Respells g (numberOf piece c) (numberOf piece c') :=
  h.bind fun s => respells_parsed c c' s

theorem respells_round : c.Respells g (round c) (round c') := by
  refine (respells_number h 0).bind fun x => (respells_number h 1).bind fun y => ?_
  dsimp only
  split
  · exact .value _
  · exact .overflow

theorem respells_toDate : c.Respells g (toDate c) (toDate c') := by
  refine (respells_field h 0).bind fun _ => (respells_field h 1).bind fun _ =>
    (respells_component h _ _ 2).bind fun _ => ?_
  rw [h.zone]
  exact respells_hourOf c c' _

theorem respells_toDateTime : c.Respells g (toDateTime c) (toDateTime c') := by
  refine (respells_field h 0).bind fun _ => (respells_field h 1).bind fun _ =>
    (respells_component h _ _ 2).bind fun _ => (respells_field h 3).bind fun _ =>
    (respells_field h 4).bind fun _ => (respells_field h 5).bind fun _ => ?_
  rw [h.zone]
  exact respells_hourOf c c' _

theorem respells_textToDateTime : c.Respells g (textToDateTime c) (textToDateTime c') := by
  refine (respells_text h 0).bind fun text => (respells_text h 1).bind fun pattern => ?_
  rw [h.zone]
  split
  · exact .value _
  · exact .error rfl

end Evaluation

open Evaluation

namespace Builtin

variable {c c' : Call} (hranges : KeepsRanges g) (h : c.Respelled g c')

include hranges h

/-- What a function does in the numeric channel with a call and with one of other spelling. -/
theorem respells_numeric? {f : Builtin} {act : Call → Program Float} (hact : f.numeric? = some act) :
    c.Respells g (act c) (act c') := by
  have unary : ∀ k : Float → Float, c.Respells g ((c.number 0).bind fun x => .value (k x))
      ((c'.number 0).bind fun x => .value (k x)) := fun k =>
    (respells_number h 0).bind fun _ => .value _
  have textual : ∀ k : String → Float, c.Respells g ((c.text 0).bind fun s => .value (k s))
      ((c'.text 0).bind fun s => .value (k s)) := fun k =>
    (respells_text h 0).bind fun _ => .value _
  have two : ∀ k : String → String → Float,
      c.Respells g ((c.text 0).bind fun s => (c.text 1).bind fun t => .value (k s t))
        ((c'.text 0).bind fun s => (c'.text 1).bind fun t => .value (k s t)) := fun k =>
    (respells_text h 0).bind fun _ => (respells_text h 1).bind fun _ => .value _
  have aggregate : ∀ k : List Float → Float,
      c.Respells g ((numbers c).bind fun xs => .value (k xs))
        ((numbers c').bind fun xs => .value (k xs)) := fun k =>
    (respells_numbers hranges h).bind fun _ => .value _
  cases f <;> simp only [numeric?, Option.some.injEq, reduceCtorEq] at hact <;> subst hact
  case conditional =>
    refine (respells_number h 0).bind fun x => ?_
    split <;> exact respells_number h _
  case conjunction =>
    rw [Evaluation.conjunction, Evaluation.conjunction, h.args]
    exact (respelled_decides false fun _ harg => harg).bind fun _ => .value _
  case disjunction =>
    rw [Evaluation.disjunction, Evaluation.disjunction, h.args]
    exact (respelled_decides true fun _ harg => harg).bind fun _ => .value _
  case negation => exact unary _
  case between =>
    refine (respells_number h 0).bind fun _ => (respells_number h 1).bind fun _ =>
      (respells_number h 2).bind fun _ => ?_
    rw [h.places]
    exact .value _
  case raiseError => exact respells_raiseError h
  case safeDivide =>
    exact (respells_number h 0).bind fun _ => (respells_number h 1).bind fun _ => .value _
  case round => exact respells_round h
  case ceiling => exact unary _
  case floor => exact unary _
  case toDouble => exact (respells_text h 0).bind fun s => respells_parsed c c' s
  case empty => exact textual _
  case length => exact textual _
  case position => exact two _
  case equals => exact two _
  case equalsIgnoreCase => exact two _
  case compareTo => exact two _
  case compareToIgnoreCase => exact two _
  case left => exact respells_numberOf (respells_left h)
  case right => exact respells_numberOf (respells_right h)
  case substring => exact respells_numberOf (respells_substring h)
  case sum => exact aggregate _
  case maximum => exact aggregate _
  case minimum => exact aggregate _
  case count => exact (respells_collect hranges h .numeric).bind fun _ => .value _
  case average => exact aggregate _
  case day | week | month | year | hour | minute | second => exact respells_fieldOf h _
  case previousMonday | startOfMonth | endOfMonth => exact respells_moved h _
  case toDate => exact respells_toDate h
  case toDateTime => exact respells_toDateTime h
  case distanceFromNow =>
    refine (respells_number h 0).bind fun _ => ?_
    rw [h.context]
    exact .value _
  case distanceFromToday =>
    refine (respells_number h 0).bind fun _ => ?_
    rw [h.context]
    exact (respells_orFail c c' _).bind fun _ => .value _
  case textToDateTime => exact respells_textToDateTime h

/-- What a function does in the text channel with a call and with one of other spelling. -/
theorem respells_textual? {f : Builtin} {act : Call → Program String}
    (hact : f.textual? = some act) : c.Respells g (act c) (act c') := by
  have aggregate : ∀ k : List String → String,
      c.Respells g ((texts c).bind fun ss => .value (k ss))
        ((texts c').bind fun ss => .value (k ss)) := fun k =>
    (respells_texts hranges h).bind fun _ => .value _
  cases f <;> simp only [textual?, Option.some.injEq, reduceCtorEq] at hact <;> subst hact
  case conditional =>
    refine (respells_number h 0).bind fun x => ?_
    rw [h.places]
    split <;> exact respells_text h _
  case left => exact respells_left h
  case right => exact respells_right h
  case substring => exact respells_substring h
  case concatenate =>
    rw [Evaluation.concatenate, Evaluation.concatenate, h.args]
    exact respelled_concatenateFrom "" fun _ harg => harg
  case replicate =>
    exact (respells_text h 0).bind fun _ => (respells_number h 1).bind fun _ =>
      respells_orFail c c' _
  case toText => exact (respells_number h 0).bind fun _ => .value _
  case upperCase => exact (respells_text h 0).bind fun _ => .value _
  case lowerCase => exact (respells_text h 0).bind fun _ => .value _
  case sum => exact aggregate _
  case maximum => exact aggregate _
  case minimum => exact aggregate _
  case count => exact (respells_collect hranges h .textual).bind fun _ => .value _

omit hranges in
/-- Both calls have the same number of arguments, so both are admitted or neither is. -/
theorem respells_checked {f : Builtin} {action : Option (Call → Program α)}
    (hact : ∀ act, action = some act → c.Respells g (act c) (act c')) :
    c.Respells g (f.checked action c) (f.checked action c') := by
  unfold checked
  rw [h.args, List.length_map]
  split
  · exact .error rfl
  · split
    · exact hact _ rfl
    · exact .error rfl

/-- Calls of a function with other spellings of the arguments are respelled. -/
theorem respells_number (f : Builtin) : c.Respells g (f.number c) (f.number c') :=
  respells_checked h fun _ hact => respells_numeric? hranges h hact

/-- So are they in the text channel. -/
theorem respells_text (f : Builtin) : c.Respells g (f.text c) (f.text c') :=
  respells_checked h fun _ hact => respells_textual? hranges h hact

end Builtin

-- ---------------------------------------------------------------------------
-- Other functions
-- ---------------------------------------------------------------------------

namespace Grammar

variable {c c' : Call} (hranges : KeepsRanges g) (h : c.Respelled g c')
  (hbuiltin : Builtin.ofName? c'.name = Builtin.ofName? c.name)

include hranges h hbuiltin

/-- Calls of a function by names that are those of the same function, if it is built in. -/
theorem respells_callNumber : c.Respells g (callNumber c) (callNumber c') := by
  unfold callNumber
  rw [hbuiltin]
  split
  · exact Builtin.respells_number hranges h _
  · unfold userNumber
    rw [h.context]
    split
    · exact .error rfl
    · exact .ask (.error rfl)

/-- Texts are trimmed by functions with names of their own. -/
theorem respells_callText (htrim : TrimFunction.ofName? c'.name = TrimFunction.ofName? c.name) :
    c.Respells g (callText c) (callText c') := by
  unfold callText
  rw [hbuiltin]
  split
  · exact Builtin.respells_text hranges h _
  · unfold userText
    -- where nobody knows the function nothing depends on its arguments
    have hunknown : ∀ args args', c.Respells g
        (if c.context.isAlone then Program.error (c.error .functionUnknown)
          else (Program.request (.textFunction c.name args)).bind fun reply =>
            Program.ofOption reply (c.error .externalFunctionError))
        (if c.context.isAlone then Program.error (c'.error .functionUnknown)
          else (Program.request (.textFunction c'.name args')).bind fun reply =>
            Program.ofOption reply (c'.error .externalFunctionError)) := by
      intro args args'
      split
      · exact .error rfl
      · exact .ask (.error rfl)
    rw [htrim, h.context, h.args]
    match hargs : c.args with
    | [arg] =>
      refine .text (by rw [hargs]; exact List.mem_singleton_self arg) fun s => ?_
      cases TrimFunction.ofName? c.name with
      | some f => exact .value _
      | none => exact hunknown [s] [s]
    | [] => cases TrimFunction.ofName? c.name <;> exact hunknown [] []
    | first :: second :: more =>
      cases TrimFunction.ofName? c.name <;>
        exact hunknown (first :: second :: more) ((first :: second :: more).map g)

end Grammar

end Formulae
