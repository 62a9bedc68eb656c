import Formulae.Proofs.Evaluation.Strictness

/-!
# Registering one more provider

A provider that is registered after the others is asked only when all of them decline. In an
evaluation that has a value nobody ever has: a request without a reply is an error, and no error
comes back as a value. So the evaluation goes the same way with the new provider.

On an engine without any provider, calls of unknown functions fail before anybody is asked. With
one provider they become requests, which is why two different programs are compared here:
`Program.Persists p q` says that `q` does what `p` does as long as `p` can still have a value.

Main result: `calculates_register`, one more provider changes neither the value nor the requests of
an evaluation that has a value, and is not asked in it.
-/

namespace Formulae

variable {α β : Type}

-- ---------------------------------------------------------------------------
-- Programs
-- ---------------------------------------------------------------------------

namespace Program

/-- The second program does what the first one does, as long as the first can still have a value.
Where a request of the first has no reply, the second may do as it likes. -/
inductive Persists : Program α → Program α → Prop
  | value (a : α) : Persists (.value a) (.value a)
  | error (e : FormulaError) (q : Program α) : Persists (.error e) q
  | overflow (q : Program α) : Persists .overflow q
  | number {formula : String} {next next' : Float → Program α}
      (rest : ∀ x, Persists (next x) (next' x)) :
      Persists (.number formula next) (.number formula next')
  | text {formula : String} {next next' : String → Program α}
      (rest : ∀ s, Persists (next s) (next' s)) :
      Persists (.text formula next) (.text formula next')
  | attempt {formula : String} {next : Option String → Program α} (q : Program α)
      (fails : ∀ s, ∃ e, next s = .error e) : Persists (.attempt formula next) q
  | ask {request : Request} {next next' : Option request.Reply → Program α}
      (needed : ∃ e, next none = .error e)
      (rest : ∀ r, Persists (next (some r)) (next' (some r))) :
      Persists (.ask request next) (.ask request next')

namespace Persists

/-- Programs that go on alike after programs that are alike are alike. -/
theorem bind {p q : Program α} {f g : α → Program β} (h : p.Persists q)
    (k : ∀ a, (f a).Persists (g a)) : (p.bind f).Persists (q.bind g) := by
  induction h with
  | value a => exact k a
  | error e q => exact .error e _
  | overflow q => exact .overflow _
  | number _ ih => exact .number ih
  | text _ ih => exact .text ih
  | attempt q fails =>
    refine .attempt _ fun s => ?_
    obtain ⟨e, he⟩ := fails s
    exact ⟨e, by rw [he]; rfl⟩
  | ask needed _ ih =>
    obtain ⟨e, he⟩ := needed
    exact .ask ⟨e, by rw [he]; rfl⟩ ih

end Persists

/-- A strict program does what it does itself. -/
theorem Strict.persists {blames : String → FormulaError → Prop} {p : Program α}
    (h : p.Strict blames) : p.Persists p := by
  induction h with
  | value a => exact .value a
  | error e => exact .error e _
  | overflow => exact .overflow _
  | number _ ih => exact .number ih
  | text _ ih => exact .text ih
  | attempt blame fails _ => exact .attempt _ fun s => ⟨blame s, fails s⟩
  | ask needed _ ih => exact .ask needed ih

end Program

-- ---------------------------------------------------------------------------
-- Company
-- ---------------------------------------------------------------------------

/-- What an evaluation knows of the engine once there is somebody to ask. -/
def Context.accompanied (x : Context) : Context :=
  { x with isAlone := false }

namespace Call

/-- The call once there is somebody to ask. -/
def accompanied (c : Call) : Call :=
  { c with context := c.context.accompanied }

@[simp] theorem name_accompanied (c : Call) : c.accompanied.name = c.name := rfl

@[simp] theorem args_accompanied (c : Call) : c.accompanied.args = c.args := rfl

@[simp] theorem isAlone_accompanied (c : Call) : c.accompanied.context.isAlone = false := rfl

@[simp] theorem error_accompanied (c : Call) (kind : ErrorKind) :
    c.accompanied.error kind = c.error kind := rfl

/-- The numbers that an aggregate is taken of do not depend on company. -/
theorem numbers_accompanied (c : Call) :
    Evaluation.numbers c.accompanied = Evaluation.numbers c := by
  have h : ∀ values, Evaluation.numbersOf c.accompanied values =
      Evaluation.numbersOf c values := by
    intro values
    induction values with
    | nil => rfl
    | cons value values ih =>
      rw [Evaluation.numbersOf, Evaluation.numbersOf, ih]
      rfl
  rw [Evaluation.numbers, Evaluation.numbers, funext h]
  rfl

end Call

namespace Builtin

/-- Built-in functions do not look whether there is anybody to ask. -/
theorem number_accompanied (f : Builtin) (c : Call) : f.number c.accompanied = f.number c := by
  -- the aggregates go through their values again, and the others only read fields of the call
  have aggregate : ∀ act : List Float → Float,
      f.checked (some fun c => act <$> Evaluation.numbers c) c.accompanied =
        f.checked (some fun c => act <$> Evaluation.numbers c) c := by
    intro act
    rw [checked, checked, Call.numbers_accompanied]
    rfl
  cases f
  case sum => exact aggregate _
  case maximum => exact aggregate _
  case minimum => exact aggregate _
  case average => exact aggregate _
  all_goals rfl

/-- Built-in functions do not look whether there is anybody to ask. -/
theorem text_accompanied (f : Builtin) (c : Call) : f.text c.accompanied = f.text c := by
  cases f <;> rfl

end Builtin

namespace Grammar

open Program Call

/-- A request that is put only in company is put, or the call fails. -/
theorem request_persists (c : Call) (r : Request) :
    Program.Persists
      (if c.context.isAlone then .error (c.error .functionUnknown)
        else (request r).bind fun reply => ofOption reply (c.error .externalFunctionError))
      ((request r).bind fun reply => ofOption reply (c.error .externalFunctionError)) := by
  split
  · exact .error _ _
  · exact (strict_request _ _ : Program.Strict Blameless _).persists

/-- A call of a function that is not built in needs company to have a number. -/
theorem userNumber_persists (c : Call) : (userNumber c).Persists (userNumber c.accompanied) := by
  rw [userNumber, userNumber, isAlone_accompanied, error_accompanied]
  exact request_persists c _

/-- So it does to have a text, but for what trims its argument. -/
theorem userText_persists (c : Call) : (userText c).Persists (userText c.accompanied) := by
  have hargs : (userArgs c.args).Persists (userArgs c.args) := by
    unfold userArgs
    split
    · exact (strict_evaluateText _ : Program.Strict Blameless _).persists.bind fun _ => .value _
    · exact .value _
  rw [userText, userText, args_accompanied, name_accompanied]
  refine hargs.bind fun args => ?_
  split
  · exact .value _
  · simp only [isAlone_accompanied, error_accompanied, Bool.false_eq_true, if_false]
    exact request_persists c _

/-- In company a call does what it does alone, if that can still have a number. -/
theorem callNumber_persists (c : Call) : (callNumber c).Persists (callNumber c.accompanied) := by
  rw [callNumber, callNumber, name_accompanied]
  split
  · rename_i f hname
    rw [f.number_accompanied]
    exact (Builtin.strict_number hname).persists
  · exact userNumber_persists c

/-- So it does in the text channel. -/
theorem callText_persists (c : Call) : (callText c).Persists (callText c.accompanied) := by
  rw [callText, callText, name_accompanied]
  split
  · rename_i f hname
    rw [f.text_accompanied]
    exact (f.strict_text c : Program.Strict Blameless _).persists
  · exact userText_persists c

/-- In company a numeric formula does what it does alone, as long as that can still have a
value. -/
theorem NumericTree.evaluate_persists (x : Context) (formula : String) (tree : NumericTree) :
    (tree.evaluate x formula).Persists (tree.evaluate x.accompanied formula) := by
  induction tree with
  | number n => exact .value n
  | value name position =>
    exact (strict_valueOf x name _ : Program.Strict Blameless _).persists
  | call name args position => exact callNumber_persists ⟨x, name, args, formula, position⟩
  | apply f operand ih => exact Persists.bind ih fun _ => .value _
  | prefixed op operand ih => exact Persists.bind ih fun _ => .value _
  | binary op left right ihl ihr =>
    exact Persists.bind ihl fun _ => Persists.bind ihr fun _ => .value _
  | sequence first second ihf ihs => exact Persists.bind ihf fun _ => ihs
  | failure complaint => exact .error _ _

/-- In company a text formula does what it does alone, as long as that can still have a value. -/
theorem TextTree.evaluate_persists (x : Context) (formula : String) (tree : TextTree) :
    (tree.evaluate x formula).Persists (tree.evaluate x.accompanied formula) := by
  induction tree with
  | literal s => exact .value s
  | value name position =>
    exact (strict_textValueOf name _ : Program.Strict Blameless _).persists
  | call name args position => exact callText_persists ⟨x, name, args, formula, position⟩
  | append left right ihl ihr =>
    exact Persists.bind ihl fun _ => Persists.bind ihr fun _ => .value _
  | sequence first second ihf ihs => exact Persists.bind ihf fun _ => ihs
  | failure complaint => exact .error _ _

end Grammar

-- ---------------------------------------------------------------------------
-- Runs
-- ---------------------------------------------------------------------------

namespace Run

/-- If the first run has a value, the second one is the same, and only providers before `count` are
asked in it. -/
def Persists (count : Nat) (r s : Run α) : Prop :=
  ∀ calls a, r = ⟨calls, .value a⟩ → s = ⟨calls, .value a⟩ ∧ ∀ c ∈ calls, c.provider < count

namespace Persists

/-- A value persists, since nobody is asked for it. -/
theorem pure (count : Nat) (a : α) : Persists count (Run.pure a) (Run.pure a) := by
  intro calls a' h
  obtain ⟨rfl, -⟩ := Run.mk.inj h
  exact ⟨h, by simp⟩

/-- An error has no value that could change. -/
theorem fail (count : Nat) (e : FormulaError) (s : Run α) : Persists count (Run.fail e) s := by
  intro calls a h
  simp [Run.fail] at h

/-- Runs that persist are followed by runs that do. -/
theorem bind {count : Nat} {r s : Run α} {f g : α → Run β} (h : Persists count r s)
    (k : ∀ a, Persists count (f a) (g a)) : Persists count (r >>= f) (s >>= g) := by
  intro calls b hb
  obtain ⟨before, a, after, hr, hf, rfl⟩ := bind_eq_value hb
  obtain ⟨hs, hbefore⟩ := h before a hr
  obtain ⟨hg, hafter⟩ := k a after b hf
  refine ⟨by rw [hs, bind_value, hg], fun c hc => ?_⟩
  rcases List.mem_append.mp hc with hc | hc
  · exact hbefore c hc
  · exact hafter c hc

end Persists

end Run

/-- Formulas that have a value in the first way have it in the second one. -/
structure Nested.Persists (count : Nat) (n m : Nested) : Prop where
  number (formula : String) : (n.number formula).Persists count (m.number formula)
  text (formula : String) : (n.text formula).Persists count (m.text formula)

/-- What a provider replies it replies in the second way, too. -/
theorem Script.run_persists {count : Nat} {n m : Nested} (h : n.Persists count m)
    (s : Script α) : (s.run n).Persists count (s.run m) := by
  induction s with
  | decline => exact .pure count none
  | reply value => exact .pure count (some value)
  | raise error => exact .fail count error _
  | evaluate formula _ ih => exact (h.number formula).bind ih
  | evaluateText formula _ ih => exact (h.text formula).bind ih

/-- The reply of a provider is found before a provider who is asked after the others. -/
theorem ask_persists {count : Nat} {n m : Nested} (h : n.Persists count m) (request : Request)
    (index : Nat) (ps : List Provider) (last : Provider) (hcount : index + ps.length = count)
    {calls : List ProviderCall} {reply : request.Reply}
    (hask : ask n request index ps = ⟨calls, .value (some reply)⟩) :
    ask m request index (ps ++ [last]) = ⟨calls, .value (some reply)⟩ ∧
      ∀ c ∈ calls, c.provider < count := by
  induction ps generalizing index calls with
  | nil => simp [ask] at hask
  | cons p ps ih =>
    rw [ask_cons] at hask
    obtain ⟨noted, _, rest, hnote, hrest, rfl⟩ := Run.bind_eq_value hask
    obtain ⟨before, answer, after, hscript, hafter, rfl⟩ := Run.bind_eq_value hrest
    obtain ⟨hscript', hbefore⟩ := Script.run_persists h _ before answer hscript
    rw [List.length_cons] at hcount
    have hnoted : noted = [⟨index, request⟩] := (congrArg Run.calls hnote).symm
    have hfirst : ∀ c ∈ noted, c.provider < count := by
      intro c hc
      rw [hnoted, List.mem_singleton] at hc
      subst hc
      show index < count
      omega
    rw [List.cons_append, ask_cons, hnote, Run.bind_value, hscript', Run.bind_value]
    cases answer with
    | some found =>
      -- this provider replies, and nobody else is asked
      obtain ⟨rfl, hfound⟩ := Run.mk.inj hafter
      refine ⟨by simpa using hfound, fun c hc => ?_⟩
      rw [List.append_nil] at hc
      rcases List.mem_append.mp hc with hc | hc
      · exact hfirst c hc
      · exact hbefore c hc
    | none =>
      -- one of those behind it replies
      obtain ⟨hothers, hbehind⟩ := ih (index + 1) (by omega) hafter
      refine ⟨by simp only [hothers], fun c hc => ?_⟩
      rcases List.mem_append.mp hc with hc | hc
      · exact hfirst c hc
      · rcases List.mem_append.mp hc with hc | hc
        · exact hbefore c hc
        · exact hbehind c hc

/-- A program that has a value has it with one more provider. -/
theorem Program.run_persists {ps : List Provider} {n m : Nested} (h : n.Persists ps.length m)
    (last : Provider) {p q : Program α} (hpq : p.Persists q) :
    (p.run ps n).Persists ps.length (q.run (ps ++ [last]) m) := by
  induction hpq with
  | value a => exact .pure _ a
  | error e q => exact .fail _ e _
  | overflow q =>
    intro calls a ha
    simp [run, Run.overflow] at ha
  | number _ ih => exact (h.number _).bind ih
  | text _ ih => exact (h.text _).bind ih
  | attempt q fails =>
    intro calls a ha
    obtain ⟨_, s, after, -, hafter, -⟩ := Run.bind_eq_value ha
    -- whatever the attempt has found out, an error follows
    obtain ⟨e, he⟩ := fails s
    rw [he] at hafter
    simp [run, Run.fail] at hafter
  | @ask request next next' needed _ ih =>
    intro calls a ha
    obtain ⟨before, reply, after, hask, hafter, rfl⟩ := Run.bind_eq_value ha
    cases reply with
    | none =>
      obtain ⟨e, he⟩ := needed
      rw [he] at hafter
      simp [run, Run.fail] at hafter
    | some reply =>
      obtain ⟨hask', hbefore⟩ := ask_persists h request 0 ps last (by omega) hask
      obtain ⟨hrest, hbehind⟩ := ih reply after a hafter
      refine ⟨by rw [run, hask', Run.bind_value, hrest], fun c hc => ?_⟩
      rcases List.mem_append.mp hc with hc | hc
      · exact hbefore c hc
      · exact hbehind c hc

-- ---------------------------------------------------------------------------
-- Engines
-- ---------------------------------------------------------------------------

namespace Engine

theorem context_register (e : Engine) (p : Provider) :
    (e.register p).context = e.context.accompanied := by
  simp [register, context, Context.accompanied]

/-- Within any depth a formula that has a value has it with one more provider. -/
theorem nested_register (e : Engine) (p : Provider) (depth : Nat) :
    (e.nested depth).Persists e.providers.length ((e.register p).nested depth) := by
  induction depth with
  | zero =>
    constructor <;> intro formula calls a h <;> simp [nested, Run.unfinished] at h
  | succ depth ih =>
    refine ⟨fun formula => ?_, fun formula => ?_⟩
    · show Run.Persists _ _ ((numericProgram (e.register p).context formula).run _ _)
      rw [context_register]
      exact Program.run_persists ih p (Grammar.NumericTree.evaluate_persists _ _ _)
    · show Run.Persists _ _ ((textProgram (e.register p).context formula).run _ _)
      rw [context_register]
      exact Program.run_persists ih p (Grammar.TextTree.evaluate_persists _ _ _)

/-- One more provider, registered after the others, changes nothing about an evaluation that has a
value: the value and the requests are the same, and the new provider is not asked. -/
theorem calculates_register (e : Engine) (p : Provider) (formula : String)
    (calls : List ProviderCall) :
    (∀ x, e.Calculates formula ⟨calls, .value x⟩ →
      (e.register p).Calculates formula ⟨calls, .value x⟩ ∧
        ∀ c ∈ calls, c.provider < e.providers.length) ∧
    (∀ s, e.CalculatesText formula ⟨calls, .value s⟩ →
      (e.register p).CalculatesText formula ⟨calls, .value s⟩ ∧
        ∀ c ∈ calls, c.provider < e.providers.length) := by
  refine ⟨fun x ⟨depth, hrun, hend⟩ => ?_, fun s ⟨depth, hrun, hend⟩ => ?_⟩
  · obtain ⟨hrun', hcalls⟩ := (e.nested_register p depth).number formula calls x hrun
    exact ⟨⟨depth, hrun', hend⟩, hcalls⟩
  · obtain ⟨hrun', hcalls⟩ := (e.nested_register p depth).text formula calls s hrun
    exact ⟨⟨depth, hrun', hend⟩, hcalls⟩

/-- An engine whose second provider knows a number and a text, and others by formulas. -/
def acquainted : Engine :=
  { providers := [.silent, ProviderTable.provider {
      values := [("x", .number 2.0), ("y", .formula "x * x")]
      textValues := [("s", .text "a"), ("t", .formula "concatenate(s, 'b')")] }] }

/-- What the second provider knows is not asked of a third one who knows it, too. -/
theorem calculates_register_acquainted :
    let other := ProviderTable.provider { values := [("x", .number 7.0)] }
    (acquainted.register other).Calculates "x + y"
      ⟨[⟨0, .value "x"⟩, ⟨1, .value "x"⟩, ⟨0, .value "y"⟩, ⟨1, .value "y"⟩, ⟨0, .value "x"⟩,
        ⟨1, .value "x"⟩, ⟨0, .value "x"⟩, ⟨1, .value "x"⟩], .value 6.0⟩ ∧
    (acquainted.register other).CalculatesText "s + t"
      ⟨[⟨0, .textValue "s"⟩, ⟨1, .textValue "s"⟩, ⟨0, .textValue "t"⟩, ⟨1, .textValue "t"⟩,
        ⟨0, .textValue "s"⟩, ⟨1, .textValue "s"⟩], .value "aab"⟩ :=
  ⟨((calculates_register acquainted _ "x + y" _).1 _ ⟨3, by decide +kernel, by simp⟩).1,
    ((calculates_register acquainted _ "s + t" _).2 _ ⟨3, by decide +kernel, by simp⟩).1⟩

end Engine

end Formulae
