import Formulae.Proofs.Evaluation.Containment
import Formulae.Proofs.Evaluation.Registration
import Formulae.Proofs.Evaluation.Settling

/-!
# Providers that decline

A provider that declines whatever it is asked leaves every question to the others. It may be put
anywhere among them, and every evaluation ends as it did before, with the same value or the same
error. Only if there was nobody at all before does it make a difference: the call of a function
that is not built in failed at once, and is now put to somebody, who declines it. So the error
becomes another one, about the same name at the same place.

The two evaluations are compared step by step. `Program.Accompanied` compares what is to be done,
where only those calls differ, and `Run.Mirrors` what happens. A provider may also think about a
question, by formulas it has evaluated, before it declines; then the second evaluation may be late,
and not come to an end where the first one does.

Main results:

* `ask_mirrors` — with declining providers in between the others reply as before.
* `Grammar.NumericTree.evaluate_accompanied`, `Grammar.TextTree.evaluate_accompanied` — what
  company changes about a formula.
* `Engine.nested_mirrors` — what declining providers change about an evaluation.
* `Engine.declining_unnoticed` — declining providers go unnoticed.
-/

namespace Formulae

open Program

variable {α β : Type}

-- ---------------------------------------------------------------------------
-- Errors
-- ---------------------------------------------------------------------------

/-- The error in the place of this one once there is somebody to ask: a function that is not built
in is no longer unknown, but declined. -/
def FormulaError.accompanied (e : FormulaError) : FormulaError :=
  if e.kind = .functionUnknown ∧ e.identifier.any (fun name => (Builtin.ofName? name).isNone) then
    { e with kind := .externalFunctionError }
  else e

/-- How an error changes once there is somebody to ask: not at all if there was somebody before. -/
def Context.accompany (x : Context) (e : FormulaError) : FormulaError :=
  if x.isAlone then e.accompanied else e

/-- The outcome with another error. -/
def Outcome.mapError (change : FormulaError → FormulaError) : Outcome α → Outcome α
  | value a => .value a
  | error e => .error (change e)
  | overflow => .overflow
  | unfinished => .unfinished

/-- Errors that stay the same leave the outcome as it is. -/
theorem Outcome.mapError_id {change : FormulaError → FormulaError} (h : ∀ e, change e = e)
    (o : Outcome α) : o.mapError change = o := by
  cases o with
  | error e => rw [mapError, h]
  | value | overflow | unfinished => rfl

namespace Context

variable {x : Context}

/-- Nothing changes for those that were not alone. -/
theorem accompany_of_company (h : x.isAlone = false) (e : FormulaError) : x.accompany e = e := by
  simp [accompany, h]

/-- Only unknown functions become something else. -/
theorem accompany_of_kind {e : FormulaError} (h : e.kind ≠ .functionUnknown) :
    x.accompany e = e := by
  simp [accompany, FormulaError.accompanied, h]

/-- What a built-in function is blamed for stays the same. -/
theorem accompany_of_blames {c : Call} {f : Builtin} (hname : Builtin.ofName? c.name = some f)
    {e : FormulaError} (h : c.Blames e) : x.accompany e = e := by
  by_cases hkind : e.kind = .functionUnknown
  · simp [accompany, FormulaError.accompanied, h.unknown hkind, hname]
  · exact accompany_of_kind hkind

/-- The call of a function that is not built in is declined once there is somebody to ask. -/
theorem accompany_unknown {c : Call} (hname : Builtin.ofName? c.name = none)
    (halone : x.isAlone = true) :
    x.accompany (c.error .functionUnknown) = c.error .externalFunctionError := by
  simp [accompany, halone, FormulaError.accompanied, Call.error, Call.errorNaming, hname]

end Context

-- ---------------------------------------------------------------------------
-- Programs
-- ---------------------------------------------------------------------------

namespace Program

/-- In company the second program does what the first one does, up to its errors. Where the first
one fails because it is alone, the second one may ask, and fails if there is no reply. -/
inductive Accompanied (change : FormulaError → FormulaError) (alone : Prop) :
    Program α → Program α → Prop
  | value (a : α) : Accompanied change alone (.value a) (.value a)
  | error (e : FormulaError) : Accompanied change alone (.error e) (.error (change e))
  | overflow : Accompanied change alone .overflow .overflow
  | number {formula : String} {next next' : Float → Program α}
      (rest : ∀ x, Accompanied change alone (next x) (next' x)) :
      Accompanied change alone (.number formula next) (.number formula next')
  | text {formula : String} {next next' : String → Program α}
      (rest : ∀ s, Accompanied change alone (next s) (next' s)) :
      Accompanied change alone (.text formula next) (.text formula next')
  | attempt {formula : String} {next next' : Option String → Program α}
      (rest : ∀ s, Accompanied change alone (next s) (next' s)) :
      Accompanied change alone (.attempt formula next) (.attempt formula next')
  | ask {request : Request} {next next' : Option request.Reply → Program α}
      (rest : ∀ r, Accompanied change alone (next r) (next' r)) :
      Accompanied change alone (.ask request next) (.ask request next')
  | dare {e : FormulaError} {request : Request} {next : Option request.Reply → Program α}
      (halone : alone) (declined : next none = .error (change e)) :
      Accompanied change alone (.error e) (.ask request next)

namespace Accompanied

variable {change : FormulaError → FormulaError} {alone : Prop}

/-- Programs that go on alike are accompanied alike. -/
theorem bind {p q : Program α} {f g : α → Program β} (h : p.Accompanied change alone q)
    (k : ∀ a, (f a).Accompanied change alone (g a)) :
    (p.bind f).Accompanied change alone (q.bind g) := by
  induction h with
  | value a => exact k a
  | error e => exact .error e
  | overflow => exact .overflow
  | number _ ih => exact .number ih
  | text _ ih => exact .text ih
  | attempt _ ih => exact .attempt ih
  | ask _ ih => exact .ask ih
  | dare halone declined => exact .dare halone (by rw [declined]; rfl)

end Accompanied

/-- A program whose errors stay the same does in company what it does. -/
theorem KeepsTo.accompanied {change : FormulaError → FormulaError} {alone : Prop}
    {faults : FormulaError → Prop} {formulas : String → Prop} {p : Program α}
    (h : p.KeepsTo faults formulas) (hsame : ∀ e, faults e → change e = e) :
    p.Accompanied change alone p := by
  induction h with
  | value a => exact .value a
  | @error e fault =>
    have herror : (Program.error e : Program α).Accompanied change alone (.error (change e)) :=
      .error e
    rwa [hsame e fault] at herror
  | overflow => exact .overflow
  | number _ _ ih => exact .number ih
  | text _ _ ih => exact .text ih
  | attempt _ _ ih => exact .attempt ih
  | ask _ ih => exact .ask ih

end Program

-- ---------------------------------------------------------------------------
-- Trees
-- ---------------------------------------------------------------------------

namespace Grammar

/-- What a context changes about a program once there is somebody to ask. -/
abbrev AccompaniedIn (x : Context) (p q : Program α) : Prop :=
  p.Accompanied x.accompany (x.isAlone = true) q

/-- Errors that are not about functions are the same in company. -/
theorem error_accompanied (x : Context) {e : FormulaError} (h : e.kind ≠ .functionUnknown) :
    AccompaniedIn x (.error e : Program α) (.error e) := by
  have herror : AccompaniedIn x (.error e : Program α) (.error (x.accompany e)) := .error e
  rwa [Context.accompany_of_kind h] at herror

/-- A value that may be missing is the same in company, with an error that is not about functions.
-/
theorem ofOption_accompanied (x : Context) (a : Option α) {e : FormulaError}
    (h : e.kind ≠ .functionUnknown) : AccompaniedIn x (ofOption a e) (ofOption a e) := by
  cases a with
  | none => exact error_accompanied x h
  | some a => exact .value a

/-- So is a request that comes with such an error. -/
theorem request_accompanied (x : Context) (r : Request) {e : FormulaError}
    (h : e.kind ≠ .functionUnknown) :
    AccompaniedIn x ((request r).bind fun reply => ofOption reply e)
      ((request r).bind fun reply => ofOption reply e) :=
  .ask fun reply => ofOption_accompanied x reply h

/-- A request that is put only in company. -/
theorem company_accompanied {c : Call} (hname : Builtin.ofName? c.name = none) (r : Request) :
    AccompaniedIn c.context
      (if c.context.isAlone then .error (c.error .functionUnknown)
        else (request r).bind fun reply => ofOption reply (c.error .externalFunctionError))
      ((request r).bind fun reply => ofOption reply (c.error .externalFunctionError)) := by
  split
  · rename_i halone
    refine .dare halone ?_
    rw [Context.accompany_unknown hname halone]
    rfl
  · exact request_accompanied _ r (by simp [Call.error, Call.errorNaming])

/-- A call in company is the call of what is built in, or is put to the others. -/
theorem callNumber_accompanied (c : Call) :
    AccompaniedIn c.context (callNumber c) (callNumber c.accompanied) := by
  rw [callNumber, callNumber, Call.name_accompanied]
  split
  · rename_i f hname
    rw [f.number_accompanied]
    exact (f.confines_number c).accompanied fun _ => Context.accompany_of_blames hname
  · rename_i hname
    rw [userNumber, userNumber, Call.isAlone_accompanied, Call.error_accompanied]
    exact company_accompanied hname _

/-- So it is in the text channel. -/
theorem callText_accompanied (c : Call) :
    AccompaniedIn c.context (callText c) (callText c.accompanied) := by
  rw [callText, callText, Call.name_accompanied]
  split
  · rename_i f hname
    rw [f.text_accompanied]
    exact (f.confines_text c).accompanied fun _ => Context.accompany_of_blames hname
  · rename_i hname
    have hargs : AccompaniedIn c.context (userArgs c.args) (userArgs c.args) := by
      unfold userArgs
      split
      · exact .text fun s => .value [s]
      · exact .value _
    rw [userText, userText, Call.args_accompanied, Call.name_accompanied]
    refine hargs.bind fun args => ?_
    split
    · exact .value _
    · simp only [Call.isAlone_accompanied, Call.error_accompanied, Bool.false_eq_true, if_false]
      exact company_accompanied hname _

/-- In company a numeric formula does what it does alone, but for the calls of functions that are
not built in. -/
theorem NumericTree.evaluate_accompanied {limit : Nat} {isArg : String → Prop} {tree : NumericTree}
    (h : tree.Within limit isArg) (x : Context) (formula : String) :
    AccompaniedIn x (tree.evaluate x formula) (tree.evaluate x.accompanied formula) := by
  induction tree with
  | number n => exact .value n
  | value name position =>
    unfold evaluate valueOf
    split
    · exact ofOption_accompanied x _ (by simp)
    · exact request_accompanied x _ (by simp)
  | call name args position => exact callNumber_accompanied ⟨x, name, args, formula, position⟩
  | apply f operand ih => exact Accompanied.bind (ih h) fun _ => .value _
  | prefixed op operand ih => exact Accompanied.bind (ih h) fun _ => .value _
  | binary op left right ihl ihr =>
    exact Accompanied.bind (ihl h.1) fun _ => Accompanied.bind (ihr h.2) fun _ => .value _
  | sequence first second ihf ihs => exact Accompanied.bind (ihf h.1) fun _ => ihs h.2
  | failure complaint => exact error_accompanied x h.known

/-- In company a text formula does what it does alone, but for the calls of functions that are not
built in. -/
theorem TextTree.evaluate_accompanied {limit : Nat} {isArg : String → Prop} {tree : TextTree}
    (h : tree.Within limit isArg) (x : Context) (formula : String) :
    AccompaniedIn x (tree.evaluate x formula) (tree.evaluate x.accompanied formula) := by
  induction tree with
  | literal s => exact .value s
  | value name position => exact request_accompanied x _ (by simp)
  | call name args position => exact callText_accompanied ⟨x, name, args, formula, position⟩
  | append left right ihl ihr =>
    exact Accompanied.bind (ihl h.1) fun _ => Accompanied.bind (ihr h.2) fun _ => .value _
  | sequence first second ihf ihs => exact Accompanied.bind (ihf h.1) fun _ => ihs h.2
  | failure complaint => exact error_accompanied x h.known

end Grammar

-- ---------------------------------------------------------------------------
-- Runs
-- ---------------------------------------------------------------------------

/-- The first run ends as the second one, up to its error. If it may be late, it may also not come
to an end. -/
def Run.Mirrors (late : Prop) (change : FormulaError → FormulaError) (s r : Run α) : Prop :=
  s.outcome = r.outcome.mapError change ∨ late ∧ s.outcome = .unfinished

variable {late : Prop} {change : FormulaError → FormulaError}

namespace Run.Mirrors

theorem pure (a : α) : (Run.pure a).Mirrors late change (Run.pure a) := .inl rfl

/-- Errors that change as they should are mirrored. -/
theorem fail {e e' : FormulaError} (h : e' = change e) :
    (Run.fail e' : Run α).Mirrors late change (Run.fail e) :=
  .inl (by rw [h]; rfl)

/-- Runs that go on after mirrored ones are mirrored. -/
theorem bind {s r : Run α} {f g : α → Run β} (h : s.Mirrors late change r)
    (k : ∀ a, (f a).Mirrors late change (g a)) : (s >>= f).Mirrors late change (r >>= g) := by
  obtain ⟨calls, outcome⟩ := s
  obtain ⟨calls', outcome'⟩ := r
  rcases h with h | ⟨hlate, h⟩
  · dsimp only at h
    subst h
    cases outcome' with
    | value a => exact k a
    | error | overflow | unfinished => exact .inl rfl
  · dsimp only at h
    subst h
    exact .inr ⟨hlate, rfl⟩

/-- What has a value that is known goes unnoticed before the rest. -/
theorem skip {s : Run α} {a : α} {f : α → Run β} {r : Run β}
    (h : s.Mirrors late id (Run.pure a)) (k : (f a).Mirrors late change r) :
    (s >>= f).Mirrors late change r := by
  obtain ⟨calls, outcome⟩ := s
  rcases h with h | ⟨hlate, h⟩
  · obtain rfl : outcome = .value a := h
    exact k
  · dsimp only at h
    subst h
    exact .inr ⟨hlate, rfl⟩

/-- An attempt does not tell errors apart. -/
theorem attempt {s r : Run α} (h : s.Mirrors late change r) :
    s.attempt.Mirrors late change r.attempt := by
  obtain ⟨calls, outcome⟩ := s
  obtain ⟨calls', outcome'⟩ := r
  rcases h with h | ⟨hlate, h⟩
  · dsimp only at h
    subst h
    cases outcome' <;> exact .inl rfl
  · dsimp only at h
    subst h
    exact .inr ⟨hlate, rfl⟩

end Run.Mirrors

/-- Formulas end in the first way as in the second one. -/
structure Nested.Mirrors (late : Prop) (change : FormulaError → FormulaError) (m n : Nested) :
    Prop where
  number (formula : String) : (m.number formula).Mirrors late change (n.number formula)
  text (formula : String) : (m.text formula).Mirrors late change (n.text formula)

/-- What a provider does ends as before, where errors stay the same. -/
theorem Script.run_mirrors {m n : Nested} (h : m.Mirrors late change n)
    (hsame : ∀ e, change e = e) (s : Script α) : (s.run m).Mirrors late change (s.run n) := by
  induction s with
  | decline => exact .pure none
  | reply value => exact .pure (some value)
  | raise error => exact .fail (hsame error).symm
  | evaluate formula _ ih => exact (h.number formula).bind ih
  | evaluateText formula _ ih => exact (h.text formula).bind ih

/-- The second list is the first one with such providers anywhere in between. -/
inductive Interspersed (extra : Provider → Prop) : List Provider → List Provider → Prop
  | nil : Interspersed extra [] []
  | keep (p : Provider) {ps qs : List Provider} (rest : Interspersed extra ps qs) :
      Interspersed extra (p :: ps) (p :: qs)
  | insert {p : Provider} {ps qs : List Provider} (declines : extra p)
      (rest : Interspersed extra ps qs) : Interspersed extra ps (p :: qs)

/-- Somebody remains when others come in between. -/
theorem Interspersed.ne_nil {extra : Provider → Prop} {ps qs : List Provider}
    (h : Interspersed extra ps qs) (hps : ps ≠ []) : qs ≠ [] := by
  cases h with
  | nil => exact hps
  | keep p | @insert p => exact List.cons_ne_nil p _

/-- The provider declines the request, or it may be late, and never comes to an end with that. -/
def Provider.Declines (late : Prop) (m : Nested) (request : Request) (p : Provider) : Prop :=
  ((p.script request).run m).Mirrors late id (Run.pure none)

/-- The provider that declines everything is not even late. -/
theorem Provider.declines_silent (m : Nested) (request : Request) :
    Provider.silent.Declines False m request :=
  .inl rfl

/-- With declining providers in between the others reply as before. If there are others, errors have
to stay the same, since they may raise some. -/
theorem ask_mirrors {m n : Nested} (h : m.Mirrors late change n) {request : Request}
    {extra : Provider → Prop} (hextra : ∀ p, extra p → p.Declines late m request)
    {ps qs : List Provider} (hinter : Interspersed extra ps qs)
    (hsame : ps ≠ [] → ∀ e, change e = e) (index index' : Nat) :
    (ask m request index' qs).Mirrors late change (ask n request index ps) := by
  induction hinter generalizing index index' with
  | nil => exact .pure none
  | @keep p ps qs _ ih =>
    have hsame := hsame (List.cons_ne_nil p ps)
    rw [ask_cons, ask_cons]
    refine Run.Mirrors.bind (.inl rfl) fun _ => (Script.run_mirrors h hsame _).bind fun reply => ?_
    cases reply with
    | some reply => exact .pure (some reply)
    | none => exact ih (fun _ => hsame) _ _
  | @insert p ps qs declines _ ih =>
    rw [ask_cons]
    exact Run.Mirrors.skip (.inl rfl) (Run.Mirrors.skip (hextra p declines) (ih hsame _ _))

/-- A program in company ends as it does alone, or as it does in other company. -/
theorem Program.run_mirrors {m n : Nested} (h : m.Mirrors late change n) {ps qs : List Provider}
    (hask : ∀ request,
      (Formulae.ask m request 0 qs).Mirrors late change (Formulae.ask n request 0 ps))
    {alone : Prop} (halone : alone → ps = []) {p q : Program α}
    (hpq : p.Accompanied change alone q) : (q.run qs m).Mirrors late change (p.run ps n) := by
  induction hpq with
  | value a => exact .pure a
  | error e => exact .fail rfl
  | overflow => exact .inl rfl
  | number _ ih => exact (h.number _).bind ih
  | text _ ih => exact (h.text _).bind ih
  | attempt _ ih => exact (h.text _).attempt.bind ih
  | ask _ ih => exact (hask _).bind ih
  | @dare e request next isAlone declined =>
    have hnone := hask request
    rw [halone isAlone, ask_nil] at hnone
    refine Run.Mirrors.skip hnone ?_
    rw [declined]
    exact .fail rfl

-- ---------------------------------------------------------------------------
-- Engines
-- ---------------------------------------------------------------------------

namespace Engine

/-- The engine with other providers. -/
def withProviders (e : Engine) (qs : List Provider) : Engine :=
  { e with providers := qs }

/-- An engine with providers is in company. -/
theorem context_withProviders (e : Engine) {qs : List Provider} (h : qs ≠ []) :
    (e.withProviders qs).context = e.context.accompanied := by
  simp [withProviders, context, Context.accompanied, h]

/-- Within any depth a formula ends with declining providers as it does without them. -/
theorem nested_mirrors (e : Engine) {qs : List Provider} {extra : Provider → Prop}
    (hinter : Interspersed extra e.providers qs) (hqs : qs ≠ [])
    (hextra : ∀ p, extra p → ∀ request depth,
      p.Declines late ((e.withProviders qs).nested depth) request) (depth : Nat) :
    ((e.withProviders qs).nested depth).Mirrors late e.context.accompany (e.nested depth) := by
  have hsame : e.providers ≠ [] → ∀ err, e.context.accompany err = err := fun hne err =>
    Context.accompany_of_company (by simp [context, hne]) err
  have halone : e.context.isAlone = true → e.providers = [] := by simp [context]
  induction depth with
  | zero => exact ⟨fun _ => .inl rfl, fun _ => .inl rfl⟩
  | succ depth ih =>
    have hask : ∀ request, (ask _ request 0 qs).Mirrors late e.context.accompany _ := fun request =>
      ask_mirrors ih (fun p hp => hextra p hp request depth) hinter hsame 0 0
    refine ⟨fun formula => ?_, fun formula => ?_⟩
    · show ((numericProgram (e.withProviders qs).context formula).run qs _).Mirrors _ _ _
      rw [e.context_withProviders hqs]
      exact Program.run_mirrors ih hask halone
        (Grammar.NumericTree.evaluate_accompanied (Grammar.NumericTree.within_ofFormula _) _ _)
    · show ((textProgram (e.withProviders qs).context formula).run qs _).Mirrors _ _ _
      rw [e.context_withProviders hqs]
      exact Program.run_mirrors ih hask halone
        (Grammar.TextTree.evaluate_accompanied (Grammar.TextTree.within_ofFormula _) _ _)

/-- How the program ends, whoever is asked on the way. -/
def SettlesWith (e : Engine) (p : Program α) (o : Outcome α) : Prop :=
  ∃ calls, e.Settles p ⟨calls, o⟩

/-- A program that runs like another one within any depth ends like it, if it ends. -/
theorem settlesWith_iff_of_mirrors {e e' : Engine} {p q : Program α}
    (h : ∀ depth, (q.run e'.providers (e'.nested depth)).Mirrors True change
      (p.run e.providers (e.nested depth)))
    (hends : ∃ o, e'.SettlesWith q o) (o : Outcome α) :
    e'.SettlesWith q o ↔ ∃ o', e.SettlesWith p o' ∧ o = o'.mapError change := by
  have hfollows : ∀ o, e'.SettlesWith q o → ∃ o', e.SettlesWith p o' ∧ o = o'.mapError change := by
    rintro o ⟨calls, depth, hrun, ho⟩
    rcases h depth with heq | ⟨-, hlate⟩
    · rw [hrun] at heq
      dsimp only at heq ho
      refine ⟨_, ⟨_, depth, rfl, fun hu => ho ?_⟩, heq⟩
      rw [heq, hu]
      rfl
    · rw [hrun] at hlate
      exact absurd hlate ho
  refine ⟨hfollows o, fun ⟨o', ⟨calls, hp⟩, ho⟩ => ?_⟩
  obtain ⟨o₀, hends⟩ := hends
  obtain ⟨o₀', ⟨calls', hp'⟩, ho₀⟩ := hfollows o₀ hends
  have hsame := hp.unique hp'
  simp only [Run.mk.injEq] at hsame
  rwa [ho, hsame.2, ← ho₀]

/-- A program that runs like another one within any depth, and is not late, ends if that does. -/
theorem exists_settlesWith_of_mirrors {e e' : Engine} {p q : Program α}
    (h : ∀ depth, (q.run e'.providers (e'.nested depth)).Mirrors False change
      (p.run e.providers (e.nested depth)))
    (hends : ∃ o, e.SettlesWith p o) : ∃ o, e'.SettlesWith q o := by
  obtain ⟨o, calls, depth, hrun, ho⟩ := hends
  rcases h depth with heq | ⟨hfalse, -⟩
  · refine ⟨_, _, depth, rfl, fun hu => ho ?_⟩
    rw [heq, hrun] at hu
    cases o with
    | unfinished => rfl
    | value | error | overflow => simp [Outcome.mapError] at hu
  · exact hfalse.elim

-- ---------------------------------------------------------------------------
-- Formulas
-- ---------------------------------------------------------------------------

/-- How a formula ends as a number, whoever is asked on the way. -/
def EndsWith (e : Engine) (formula : String) (o : Outcome Float) : Prop :=
  ∃ calls, e.Calculates formula ⟨calls, o⟩

/-- How a formula ends as a text, whoever is asked on the way. -/
def EndsWithText (e : Engine) (formula : String) (o : Outcome String) : Prop :=
  ∃ calls, e.CalculatesText formula ⟨calls, o⟩

/-- A formula ends as its program does. -/
theorem endsWith_iff {e : Engine} {formula : String} {o : Outcome Float} :
    e.EndsWith formula o ↔ e.SettlesWith (numericProgram e.context formula) o :=
  exists_congr fun _ => calculates_iff_settles

/-- So does a text formula. -/
theorem endsWithText_iff {e : Engine} {formula : String} {o : Outcome String} :
    e.EndsWithText formula o ↔ e.SettlesWith (textProgram e.context formula) o :=
  exists_congr fun _ => calculatesText_iff_settles

/-- What ends within some depth ends so. -/
theorem endsWith_of_depth {e : Engine} {formula : String} {o : Outcome Float} (depth : Nat)
    (h : ((e.nested depth).number formula).outcome = o) (ho : o ≠ .unfinished) :
    e.EndsWith formula o :=
  ⟨_, depth, by rw [← h], ho⟩

theorem endsWithText_of_depth {e : Engine} {formula : String} {o : Outcome String} (depth : Nat)
    (h : ((e.nested depth).text formula).outcome = o) (ho : o ≠ .unfinished) :
    e.EndsWithText formula o :=
  ⟨_, depth, by rw [← h], ho⟩

/-- Whatever the engine asks the provider, it declines, if it comes to an end with that. -/
def IsDeclinedBy (e : Engine) (p : Provider) : Prop :=
  ∀ request depth, p.Declines True (e.nested depth) request

/-- With declining providers anywhere among the others a formula that ends does so as before, with
the same value or the same error. Among no others it ends as before, but that unknown functions that
are not built in are declined. It does end, if it did before, where they decline at once. -/
theorem declining_unnoticed (e : Engine) (qs : List Provider) (formula : String)
    (h : Interspersed (e.withProviders qs).IsDeclinedBy e.providers qs) :
    (e.providers ≠ [] →
      ((∃ o, (e.withProviders qs).EndsWith formula o) →
        ∀ o, (e.withProviders qs).EndsWith formula o ↔ e.EndsWith formula o) ∧
      ((∃ o, (e.withProviders qs).EndsWithText formula o) →
        ∀ o, (e.withProviders qs).EndsWithText formula o ↔ e.EndsWithText formula o)) ∧
    (e.providers = [] → qs ≠ [] →
      ((∃ o, (e.withProviders qs).EndsWith formula o) →
        ∀ o, (e.withProviders qs).EndsWith formula o ↔
          ∃ o', e.EndsWith formula o' ∧ o = o'.mapError FormulaError.accompanied) ∧
      ((∃ o, (e.withProviders qs).EndsWithText formula o) →
        ∀ o, (e.withProviders qs).EndsWithText formula o ↔
          ∃ o', e.EndsWithText formula o' ∧ o = o'.mapError FormulaError.accompanied)) ∧
    (Interspersed (· = Provider.silent) e.providers qs →
      ((∃ o, e.EndsWith formula o) → ∃ o, (e.withProviders qs).EndsWith formula o) ∧
      ((∃ o, e.EndsWithText formula o) → ∃ o, (e.withProviders qs).EndsWithText formula o)) := by
  simp only [endsWith_iff, endsWithText_iff]
  have hmirrors := fun hqs => nested_mirrors e h hqs fun p hp => hp
  refine ⟨fun hcompany => ?_, fun halone hqs => ?_, fun hsilent => ?_⟩
  · -- errors stay the same
    have hsame : ∀ err, e.context.accompany err = err :=
      Context.accompany_of_company (by simp [context, hcompany])
    have hmirrors := hmirrors (h.ne_nil hcompany)
    refine ⟨fun hends o => ?_, fun hends o => ?_⟩
    · rw [settlesWith_iff_of_mirrors (fun depth => (hmirrors (depth + 1)).number formula) hends]
      simp [Outcome.mapError_id hsame]
    · rw [settlesWith_iff_of_mirrors (fun depth => (hmirrors (depth + 1)).text formula) hends]
      simp [Outcome.mapError_id hsame]
  · -- errors become those in company
    have hchange : e.context.accompany = FormulaError.accompanied := by
      funext err
      simp [Context.accompany, context, halone]
    have hmirrors := hmirrors hqs
    rw [hchange] at hmirrors
    exact ⟨settlesWith_iff_of_mirrors fun depth => (hmirrors (depth + 1)).number formula,
      settlesWith_iff_of_mirrors fun depth => (hmirrors (depth + 1)).text formula⟩
  · by_cases hqs : qs = []
    · -- nobody is there now, so nobody has come
      have hnone : e.providers = [] :=
        Classical.byContradiction fun hcompany => hsilent.ne_nil hcompany hqs
      rw [hqs, ← hnone]
      exact ⟨id, id⟩
    · have hmirrors := nested_mirrors e hsilent hqs fun p hp request _ =>
        hp ▸ Provider.declines_silent _ request
      exact ⟨exists_settlesWith_of_mirrors fun depth => (hmirrors (depth + 1)).number formula,
        exists_settlesWith_of_mirrors fun depth => (hmirrors (depth + 1)).text formula⟩

/-- A provider that has a formula evaluated before it declines. -/
def thoughtful : Provider :=
  ⟨fun _ => .evaluateText "'a'" fun _ => .decline⟩

/-- A provider that thinks first declines as well, if the formula it evaluates has a value. -/
theorem isDeclinedBy_thoughtful {e : Engine}
    (h : (e.nested 1).text "'a'" = ⟨[], .value "a"⟩) : e.IsDeclinedBy thoughtful := by
  intro request depth
  cases depth with
  | zero => exact .inr ⟨trivial, rfl⟩
  | succ depth =>
    have hwithin := (e.nested_within (Nat.succ_le_succ (Nat.zero_le depth))).text "'a'"
    rw [h] at hwithin
    have hvalue : (e.nested (depth + 1)).text "'a'" = ⟨[], .value "a"⟩ := (hwithin (by simp)).symm
    refine .inl ?_
    show ((e.nested (depth + 1)).text "'a'" >>= fun _ => _).outcome = _
    rw [hvalue]
    rfl

/-- Two providers that decline, around two others and around nobody. -/
theorem declining_unnoticed_thoughtful :
    let more := [thoughtful] ++ acquainted.providers ++ [Provider.silent]
    let text := "s + foo('ü', t)"
    let err : FormulaError := ⟨.externalFunctionError, some "foo", text, 15⟩
    acquainted.EndsWith "x + y" (.value 6.0) ∧
      (acquainted.withProviders more).EndsWithText text (.error err) ∧
      acquainted.EndsWithText text (.error err) ∧
      (({} : Engine).withProviders [.silent]).EndsWithText "foo('ü', t)"
        (.error ⟨.externalFunctionError, some "foo", "foo('ü', t)", 11⟩) := by
  intro more text err
  have hthoughtful : (acquainted.withProviders more).IsDeclinedBy thoughtful :=
    isDeclinedBy_thoughtful (by decide +kernel)
  have hsilent : ∀ e : Engine, e.IsDeclinedBy .silent := fun _ _ _ => .inl rfl
  have hmore :
      Interspersed (acquainted.withProviders more).IsDeclinedBy acquainted.providers more :=
    .insert hthoughtful (.keep _ (.keep _ (.insert (hsilent _) .nil)))
  have hnumber : (acquainted.withProviders more).EndsWith "x + y" (.value 6.0) :=
    endsWith_of_depth 4 (by decide +kernel) (by simp)
  have htext : (acquainted.withProviders more).EndsWithText text (.error err) :=
    endsWithText_of_depth 4 (by decide +kernel) (by simp)
  obtain ⟨hcompany, -⟩ := declining_unnoticed acquainted more "x + y" hmore
  obtain ⟨hcompany', -⟩ := declining_unnoticed acquainted more text hmore
  have halone : ({} : Engine).EndsWithText "foo('ü', t)"
      (.error ⟨.functionUnknown, some "foo", "foo('ü', t)", 11⟩) :=
    endsWithText_of_depth 4 (by decide +kernel) (by simp)
  obtain ⟨-, hjoined, hends⟩ := declining_unnoticed {} [.silent] "foo('ü', t)"
    (.insert (hsilent _) .nil)
  have hends := (hends (.insert rfl .nil)).2 ⟨_, halone⟩
  refine ⟨((hcompany (by simp [acquainted])).1 ⟨_, hnumber⟩ _).mp hnumber, htext,
    ((hcompany' (by simp [acquainted])).2 ⟨_, htext⟩ _).mp htext,
    ((hjoined rfl (by simp)).2 hends _).mpr ⟨_, halone, ?_⟩⟩
  decide +kernel

end Engine

end Formulae
