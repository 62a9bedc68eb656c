import Formulae.Proofs.Evaluation.Ranges
import Formulae.Proofs.Evaluation.Settling

/-!
# Calls of user functions

A function that the language does not know is a matter of the providers, of which the first that
does not decline decides. They are asked with the texts of the arguments, and evaluate what they
need of them. Only a call with one argument that is to have a text is different: the argument is
evaluated before anything else is looked at, and its value takes its place. Whether there is anybody
to ask is looked at after that, and so is whether the name is that of a trim function, for which
nobody is asked.

Main results:

* `asked_iff` — what comes of a request to providers, asked in turn.
* `settles_userNumber_iff`, `settles_userText_iff` — what comes of a call of a user function.
* `user_calls` — the same of a call at any place of a formula.
-/

namespace Formulae

open Grammar Arguments

-- ---------------------------------------------------------------------------
-- Providers in turn
-- ---------------------------------------------------------------------------

namespace Engine

/-- Within some depth a provider comes to an end with a request, and this is what happens. -/
def RepliesWith (e : Engine) (p : Provider) (request : Request) (r : Run (Option request.Reply)) :
    Prop :=
  ∃ depth, (p.script request).run (e.nested depth) = r ∧ r.outcome ≠ .unfinished

/-- The same of providers who are asked one after the other, the first of which has an index. -/
def Asked (e : Engine) (request : Request) (index : Nat) (ps : List Provider)
    (r : Run (Option request.Reply)) : Prop :=
  ∃ depth, ask (e.nested depth) request index ps = r ∧ r.outcome ≠ .unfinished

/-- Providers, the first of which has an index, decline one after the other. Behind the request to
one of them is noted what it has others asked before it declines. -/
inductive AllDecline (e : Engine) (request : Request) :
    Nat → List Provider → List ProviderCall → Prop
  | none (index : Nat) : AllDecline e request index [] []
  | more {index : Nat} {p : Provider} {ps : List Provider} {calls behind : List ProviderCall}
      (hp : e.RepliesWith p request ⟨calls, .value .none⟩)
      (hps : AllDecline e request (index + 1) ps behind) :
      AllDecline e request index (p :: ps) (⟨index, request⟩ :: calls ++ behind)

variable {e : Engine} {request : Request} {index : Nat} {p : Provider} {ps : List Provider}

/-- The first provider is asked first, and the others only if it declines. -/
theorem asked_cons_iff {r : Run (Option request.Reply)} : e.Asked request index (p :: ps) r ↔
    (∃ calls s, e.RepliesWith p request ⟨calls, .value none⟩ ∧ e.Asked request (index + 1) ps s ∧
      r = ⟨⟨index, request⟩ :: calls ++ s.calls, s.outcome⟩) ∨
    ∃ s, e.RepliesWith p request s ∧ s.outcome ≠ .value none ∧
      r = ⟨⟨index, request⟩ :: s.calls, s.outcome⟩ := by
  constructor
  · rintro ⟨depth, hrun, hr⟩
    rw [ask_cons, Run.note, Run.bind_value] at hrun
    match hp : (p.script request).run (e.nested depth) with
    | ⟨calls, .value none⟩ =>
      rw [hp] at hrun
      subst hrun
      exact .inl ⟨calls, _, ⟨depth, hp, by simp⟩, ⟨depth, rfl, hr⟩, rfl⟩
    | ⟨calls, .value (some reply)⟩ | ⟨calls, .error err⟩ | ⟨calls, .overflow⟩ =>
      rw [hp] at hrun
      refine .inr ⟨_, ⟨depth, hp, by simp⟩, by simp, ?_⟩
      simpa using hrun.symm
    | ⟨calls, .unfinished⟩ =>
      rw [hp] at hrun
      subst hrun
      exact absurd rfl hr
  · rintro (⟨calls, s, hp, hps, rfl⟩ | ⟨⟨calls, outcome⟩, ⟨depth, hrun, hs⟩, hstop, rfl⟩)
    · have hr := hps.choose_spec.2
      obtain ⟨depth, hdepth⟩ := from_depth_of_within
        (fun hwithin => Script.run_within hwithin (p.script request)) hp
      obtain ⟨depth', hdepth'⟩ := from_depth_of_within
        (fun hwithin => ask_within hwithin request (index + 1) ps) hps
      refine ⟨max depth depth', ?_, hr⟩
      rw [ask_cons, Run.note, Run.bind_value, hdepth _ (Nat.le_max_left _ _), Run.bind_value,
        hdepth' _ (Nat.le_max_right _ _)]
      rfl
    · refine ⟨depth, ?_, hs⟩
      rw [ask_cons, Run.note, Run.bind_value, hrun]
      match outcome with
      | .value none => exact absurd rfl hstop
      | .value (some reply) => simp
      | .error _ | .overflow => rfl
      | .unfinished => exact absurd rfl hs

/-- Where nobody is left to be asked nobody replies. -/
theorem asked_nil_iff {r : Run (Option request.Reply)} :
    e.Asked request index [] r ↔ r = ⟨[], .value none⟩ := by
  constructor
  · rintro ⟨_, hrun, -⟩
    exact hrun.symm
  · rintro rfl
    exact ⟨0, rfl, by simp⟩

/-- Either all providers decline, or one of them does not, and those before it do; then nobody is
asked behind it. -/
theorem asked_iff {r : Run (Option request.Reply)} : e.Asked request index ps r ↔
    (∃ calls, e.AllDecline request index ps calls ∧ r = ⟨calls, .value none⟩) ∨
    ∃ front p back calls s, ps = front ++ p :: back ∧ e.AllDecline request index front calls ∧
      e.RepliesWith p request s ∧ s.outcome ≠ .value none ∧
      r = ⟨calls ++ ⟨index + front.length, request⟩ :: s.calls, s.outcome⟩ := by
  induction ps generalizing index r with
  | nil =>
    rw [asked_nil_iff]
    constructor
    · rintro rfl
      exact .inl ⟨[], .none index, rfl⟩
    · rintro (⟨calls, hnone, rfl⟩ | ⟨front, p, back, _, _, hps, -⟩)
      · cases hnone
        rfl
      · simp at hps
  | cons p ps ih =>
    rw [asked_cons_iff]
    constructor
    · rintro (⟨calls, s, hp, hps, rfl⟩ | ⟨s, hp, hstop, rfl⟩)
      · rcases ih.mp hps with ⟨behind, hall, rfl⟩ | ⟨front, q, back, behind, s, rfl, hfront, hq⟩
        · exact .inl ⟨_, .more hp hall, rfl⟩
        · obtain ⟨hq, hstop, rfl⟩ := hq
          refine .inr ⟨p :: front, q, back, _, s, rfl, .more hp hfront, hq, hstop, ?_⟩
          simp [Nat.add_comm, Nat.add_left_comm]
      · exact .inr ⟨[], p, ps, [], s, rfl, .none index, hp, hstop, rfl⟩
    · rintro (⟨calls, hall, rfl⟩ | ⟨front, q, back, calls, s, hps, hfront, hq, hstop, rfl⟩)
      · cases hall with
        | more hp hall => exact .inl ⟨_, _, hp, ih.mpr (.inl ⟨_, hall, rfl⟩), rfl⟩
      · cases hfront with
        | none =>
          obtain ⟨rfl, rfl⟩ := List.cons.inj hps
          exact .inr ⟨s, hq, hstop, rfl⟩
        | @more _ _ front _ _ hp hfront =>
          obtain ⟨rfl, rfl⟩ := List.cons.inj hps
          refine .inl ⟨_, _, hp, ih.mpr (.inr ⟨front, q, back, _, s, rfl, hfront, hq, hstop, rfl⟩),
            ?_⟩
          simp [Nat.add_comm, Nat.add_left_comm]

/-- A program that puts a request asks all providers of the engine. -/
theorem settles_request_iff {r : Run (Option request.Reply)} :
    e.Settles (Program.request request) r ↔ e.Asked request 0 e.providers r := by
  have hrun : ∀ n : Nested,
      (Program.request request).run e.providers n = ask n request 0 e.providers := by
    intro n
    show (ask n request 0 e.providers >>= fun reply => pure reply) = _
    rw [bind_pure]
  simp only [Settles, Asked, hrun]

-- ---------------------------------------------------------------------------
-- Dispatch
-- ---------------------------------------------------------------------------

/-- What comes of a call that is a matter of the providers, with this request. -/
inductive Dispatched (e : Engine) (c : Call) (request : Request) : Run request.Reply → Prop
  | unknown (hnone : e.providers = []) :
      Dispatched e c request ⟨[], .error (c.error .functionUnknown)⟩
  | declined {calls : List ProviderCall} (hsome : e.providers ≠ [])
      (hall : e.AllDecline request 0 e.providers calls) :
      Dispatched e c request ⟨calls, .error (c.error .externalFunctionError)⟩
  /-- The first provider that does not decline replies. -/
  | replied {front back : List Provider} {p : Provider} {calls own : List ProviderCall}
      {reply : request.Reply} (hproviders : e.providers = front ++ p :: back)
      (hfront : e.AllDecline request 0 front calls)
      (hp : e.RepliesWith p request ⟨own, .value (some reply)⟩) :
      Dispatched e c request ⟨calls ++ ⟨front.length, request⟩ :: own, .value reply⟩
  /-- The first provider that does not decline fails, or what it has evaluated does. -/
  | raised {front back : List Provider} {p : Provider} {calls own : List ProviderCall}
      {err : FormulaError} (hproviders : e.providers = front ++ p :: back)
      (hfront : e.AllDecline request 0 front calls)
      (hp : e.RepliesWith p request ⟨own, .error err⟩) :
      Dispatched e c request ⟨calls ++ ⟨front.length, request⟩ :: own, .error err⟩
  /-- A number leaves its range in what the first provider that does not decline has evaluated. -/
  | overflowed {front back : List Provider} {p : Provider} {calls own : List ProviderCall}
      (hproviders : e.providers = front ++ p :: back)
      (hfront : e.AllDecline request 0 front calls)
      (hp : e.RepliesWith p request ⟨own, .overflow⟩) :
      Dispatched e c request ⟨calls ++ ⟨front.length, request⟩ :: own, .overflow⟩

/-- The program of a call that is a matter of the providers. -/
def dispatch (c : Call) (request : Request) : Program request.Reply :=
  if c.context.isAlone then .error (c.error .functionUnknown)
  else (Program.request request).bind fun reply =>
    .ofOption reply (c.error .externalFunctionError)

variable {c : Call}

/-- What is a matter of the providers is settled by them. -/
theorem settles_dispatch_iff (hc : c.context = e.context) {r : Run request.Reply} :
    e.Settles (dispatch c request) r ↔ e.Dispatched c request r := by
  have halone : c.context.isAlone = e.providers.isEmpty := by
    rw [hc]
    rfl
  by_cases hnone : e.providers = []
  · rw [dispatch, if_pos (by simp [halone, hnone])]
    constructor
    · intro h
      rw [h.unique (e.settles_error _)]
      exact .unknown hnone
    · intro h
      cases h with
      | unknown => exact e.settles_error _
      | declined hsome => exact absurd hnone hsome
      | replied hproviders | raised hproviders | overflowed hproviders => simp [hnone] at hproviders
  · rw [dispatch, if_neg (by simp [halone, hnone])]
    refine (settles_bind_ofOption_iff (g := id)).trans ?_
    simp only [settles_request_iff, asked_iff, Nat.zero_add]
    constructor
    · rintro ⟨s, ⟨calls, hall, rfl⟩ | ⟨front, p, back, calls, ⟨own, outcome⟩, hproviders, hfront,
        hp, hstop, rfl⟩, rfl⟩
      · exact .declined hnone hall
      match outcome with
      | .value none => exact absurd rfl hstop
      | .value (some reply) => exact .replied hproviders hfront hp
      | .error err => exact .raised hproviders hfront hp
      | .overflow => exact .overflowed hproviders hfront hp
      | .unfinished => exact absurd rfl hp.choose_spec.2
    · intro h
      cases h with
      | unknown hnone' => exact absurd hnone' hnone
      | declined _ hall => exact ⟨_, .inl ⟨_, hall, rfl⟩, rfl⟩
      | replied hproviders hfront hp | raised hproviders hfront hp
      | overflowed hproviders hfront hp =>
        exact ⟨_, .inr ⟨_, _, _, _, _, hproviders, hfront, hp, by simp, rfl⟩, rfl⟩

-- ---------------------------------------------------------------------------
-- User functions
-- ---------------------------------------------------------------------------

/-- A call that is to have a number is put to the providers with the texts of its arguments. -/
theorem settles_userNumber_iff (hc : c.context = e.context) {r : Run Float} :
    e.Settles (userNumber c) r ↔ e.Dispatched c (.numericFunction c.name c.args) r :=
  settles_dispatch_iff hc

/-- No argument is evaluated for that. -/
theorem userNumber_asksOnly (hsome : c.context.isAlone = false) :
    (userNumber c).AsksOnly (.numericFunction c.name c.args) := by
  rw [userNumber, if_neg (by simp [hsome])]
  exact ⟨_, rfl, fun reply => Program.isOver_ofOption _ _⟩

/-- What comes of a call of a user function that is to have a text. -/
inductive TextDispatched (e : Engine) (c : Call) : Run String → Prop
  /-- Without an argument, or with several of them, it is put to the providers with their texts. -/
  | others {r : Run String} (hargs : c.args.length ≠ 1)
      (h : e.Dispatched c (.textFunction c.name c.args) r) : TextDispatched e c r
  /-- An only argument is evaluated first, and if it fails the call does. -/
  | failed {arg : String} {calls : List ProviderCall} {err : FormulaError} (hargs : c.args = [arg])
      (harg : e.CalculatesText arg ⟨calls, .error err⟩) : TextDispatched e c ⟨calls, .error err⟩
  | overflowed {arg : String} {calls : List ProviderCall} (hargs : c.args = [arg])
      (harg : e.CalculatesText arg ⟨calls, .overflow⟩) : TextDispatched e c ⟨calls, .overflow⟩
  | trimmed {arg text : String} {calls : List ProviderCall} {f : TrimFunction}
      (hargs : c.args = [arg]) (harg : e.CalculatesText arg ⟨calls, .value text⟩)
      (hf : TrimFunction.ofName? c.name = some f) :
      TextDispatched e c ⟨calls, .value (f.apply text)⟩
  /-- Its value is what the providers get. -/
  | forwarded {arg text : String} {calls : List ProviderCall} {r : Run String}
      (hargs : c.args = [arg]) (harg : e.CalculatesText arg ⟨calls, .value text⟩)
      (hf : TrimFunction.ofName? c.name = none)
      (h : e.Dispatched c (.textFunction c.name [text]) r) :
      TextDispatched e c ⟨calls ++ r.calls, r.outcome⟩

/-- A call with no argument or with several of them sends them as they are written. -/
theorem userText_others (hargs : c.args.length ≠ 1) :
    userText c = dispatch c (.textFunction c.name c.args) := by
  unfold userText userArgs
  rcases hlist : c.args with _ | ⟨arg, _ | ⟨arg', args⟩⟩
  · cases TrimFunction.ofName? c.name <;> rfl
  · simp [hlist] at hargs
  · cases TrimFunction.ofName? c.name <;> rfl

/-- A lone argument is evaluated, and trimmed or sent as a text. -/
theorem userText_only {arg : String} (hargs : c.args = [arg]) :
    userText c = (Program.evaluateText arg).bind fun text =>
      match TrimFunction.ofName? c.name with
      | some f => .value (f.apply text)
      | none => dispatch c (.textFunction c.name [text]) := by
  unfold userText userArgs
  rw [hargs]
  show (Program.evaluateText arg).bind _ = _
  congr 1
  funext text
  cases TrimFunction.ofName? c.name <;> rfl

/-- A call that is to have a text is put to the providers with the texts of its arguments or, if it
is an only one, its value; to a trim function it is not. -/
theorem settles_userText_iff (hc : c.context = e.context) {r : Run String} :
    e.Settles (userText c) r ↔ e.TextDispatched c r := by
  by_cases hothers : c.args.length ≠ 1
  · rw [userText_others hothers, settles_dispatch_iff hc]
    constructor
    · exact .others hothers
    · intro h
      cases h with
      | others _ h => exact h
      | failed hargs | overflowed hargs | trimmed hargs | forwarded hargs => simp [hargs] at hothers
  obtain ⟨arg, hargs⟩ := List.length_eq_one_iff.mp (Decidable.not_not.mp hothers)
  rw [userText_only hargs, settles_bind_iff]
  simp only [settles_evaluateText_iff]
  constructor
  · rintro (⟨calls, text, s, harg, hs, rfl⟩ | ⟨calls, err, harg, rfl⟩ | ⟨calls, harg, rfl⟩)
    · cases hf : TrimFunction.ofName? c.name with
      | some f =>
        rw [hf] at hs
        rw [hs.unique (e.settles_value _), List.append_nil]
        exact .trimmed hargs harg hf
      | none =>
        rw [hf] at hs
        exact .forwarded hargs harg hf ((settles_dispatch_iff hc).mp hs)
    · exact .failed hargs harg
    · exact .overflowed hargs harg
  · intro h
    cases h with
    | others hargs' => exact absurd hargs' hothers
    | failed hargs' harg =>
      obtain rfl := List.singleton_inj.mp (hargs.symm.trans hargs')
      exact .inr (.inl ⟨_, _, harg, rfl⟩)
    | overflowed hargs' harg =>
      obtain rfl := List.singleton_inj.mp (hargs.symm.trans hargs')
      exact .inr (.inr ⟨_, harg, rfl⟩)
    | trimmed hargs' harg hf =>
      obtain rfl := List.singleton_inj.mp (hargs.symm.trans hargs')
      rw [hf]
      exact .inl ⟨_, _, _, harg, e.settles_value _, by simp⟩
    | forwarded hargs' harg hf h =>
      obtain rfl := List.singleton_inj.mp (hargs.symm.trans hargs')
      rw [hf]
      exact .inl ⟨_, _, _, harg, (settles_dispatch_iff hc).mpr h, rfl⟩

end Engine

-- ---------------------------------------------------------------------------
-- In formulas
-- ---------------------------------------------------------------------------

namespace Grammar

/-- The text begins with a call: with a name and an opening parenthesis, up to the closing one there
is `inner`, and behind it `after`. -/
def BeginsCall (cs : List Char) (name : String) (inner after : List Char) : Prop :=
  ∃ behind inside, scan cs = (.token (.identifier name), behind) ∧
    Outline.openParen? behind = some inside ∧ close? inside = some (inner, after)

/-- From an offset on a numeric formula begins with an operand that has this tree, and goes on with
another text. -/
def NumericTree.Begins (offset : Nat) (cs : List Char) (tree : NumericTree) (behind : Nat)
    (after : List Char) : Prop :=
  ∃ item, Outline.readFrom keepsOperand offset cs =
      (Outline.readFrom keepsOperand behind after).push item ∧
    ∀ ending rest fits, NumericTree.term ending (item :: rest) = .done tree rest fits

/-- The same of a text formula and an atom. -/
def TextTree.Begins (offset : Nat) (cs : List Char) (tree : TextTree) (behind : Nat)
    (after : List Char) : Prop :=
  ∃ item, Outline.readFrom (fun _ => false) offset cs =
      (Outline.readFrom (fun _ => false) behind after).push item ∧
    ∀ ending rest fits, TextTree.atom ending (item :: rest) = .done tree rest fits

variable {cs inner after : List Char} {name : String}

/-- A call that is cut out is one item, with the arguments that are split, and the outline goes on
behind it. -/
theorem BeginsCall.readFrom (h : BeginsCall cs name inner after) {p : String → Bool}
    (hp : p name = false) (offset : Nat) : ∃ stop, Outline.readFrom p offset cs =
      (Outline.readFrom p (offset + (cs.length - after.length)) after).push
        ⟨.call name (split inner) (offset + (cs.length - after.length)), stop⟩ := by
  obtain ⟨behind, inside, hscan, hopen, hclose⟩ := h
  rw [Outline.readFrom_call hscan hp hopen, take?, hclose]
  exact ⟨_, rfl⟩

/-- A call at the beginning of a text is the first operand of its tree. -/
theorem BeginsCall.begins_numeric (h : BeginsCall cs name inner after)
    (hmath : MathFunction.ofName? name = none) (offset : Nat) :
    NumericTree.Begins offset cs
      (.call name (split inner) (offset + (cs.length - after.length)))
      (offset + (cs.length - after.length)) after := by
  have hplace : keepsOperand name = false := by simp [keepsOperand, hmath]
  obtain ⟨stop, hread⟩ := h.readFrom hplace offset
  exact ⟨_, hread, fun ending rest fits => by rw [NumericTree.term]⟩

/-- So it is in the text channel. -/
theorem BeginsCall.begins_text (h : BeginsCall cs name inner after) (offset : Nat) :
    TextTree.Begins offset cs (.call name (split inner) (offset + (cs.length - after.length)))
      (offset + (cs.length - after.length)) after := by
  obtain ⟨stop, hread⟩ := h.readFrom (p := fun _ => false) rfl offset
  exact ⟨_, hread, fun ending rest fits => by rw [TextTree.atom]⟩

end Grammar

namespace Engine

/-- At any place of any formula, a call of a function that is not built in is read as a call with
the arguments between its parentheses. To a number comes what comes of it by the engine's providers,
who are asked with the arguments as they are, and nothing else is evaluated or asked; to a text the
same, but an only argument is evaluated first. -/
theorem user_calls (e : Engine) {name : String} (hname : Builtin.ofName? name = none)
    {cs inner after : List Char} (hcall : BeginsCall cs name inner after) (formula : String)
    (offset : Nat) :
    let closed := offset + (cs.length - after.length)
    let args := split inner
    let c : Call := ⟨e.context, name, args, formula, closed⟩
    (MathFunction.ofName? name = none →
      let p := (NumericTree.call name args closed).evaluate e.context formula
      NumericTree.Begins offset cs (.call name args closed) closed after ∧
        (e.providers = [] → p = .error (c.error .functionUnknown)) ∧
        (e.providers ≠ [] → p.AsksOnly (.numericFunction name args)) ∧
        ∀ r, e.Settles p r ↔ e.Dispatched c (.numericFunction name args) r) ∧
    TextTree.Begins offset cs (.call name args closed) closed after ∧
      ∀ r, e.Settles ((TextTree.call name args closed).evaluate e.context formula) r ↔
        e.TextDispatched c r := by
  intro closed args c
  have htext : (TextTree.call name args closed).evaluate e.context formula = userText c := by
    show callText c = _
    rw [callText, hname]
  refine ⟨fun hmath => ?_, hcall.begins_text offset, fun r => ?_⟩
  · intro p
    have hp : p = userNumber c := by
      show callNumber c = _
      rw [callNumber, hname]
    have halone : c.context.isAlone = e.providers.isEmpty := rfl
    refine ⟨hcall.begins_numeric hmath offset, fun hnone => ?_, fun hsome => ?_, fun r => ?_⟩
    · rw [hp, userNumber, if_pos (by simp [halone, hnone])]
    · rw [hp]
      exact userNumber_asksOnly (by simpa [halone] using hsome)
    · rw [hp]
      exact settles_userNumber_iff rfl
  · rw [htext]
    exact settles_userText_iff rfl

/-- An engine whose second provider greets, but only who has a name. -/
def greeting : Engine :=
  { providers := [.silent, ProviderTable.provider {
      numericFunctions := [⟨"greet", none, .rule (.raise "deaf")⟩]
      textFunctions := [⟨"greet", some 1, .joinRaw ", "⟩] }] }

/-- A call in the middle of a formula: its argument is evaluated for a text, and not for a number,
for which the second provider raises an error. -/
theorem user_calls_greeting :
    BeginsCall "greet( 'a' + 'b' ) + x".toList "greet" " 'a' + 'b' ".toList " + x".toList ∧
      greeting.Settles ((NumericTree.call "greet" ["'a' + 'b'"] 22).evaluate greeting.context
          "x + greet( 'a' + 'b' ) + x")
        ⟨[⟨0, .numericFunction "greet" ["'a' + 'b'"]⟩, ⟨1, .numericFunction "greet" ["'a' + 'b'"]⟩],
          .error (.raised "deaf" "greet")⟩ ∧
      greeting.Settles ((TextTree.call "greet" ["'a' + 'b'"] 22).evaluate greeting.context
          "x + greet( 'a' + 'b' ) + x")
        ⟨[⟨0, .textFunction "greet" ["ab"]⟩, ⟨1, .textFunction "greet" ["ab"]⟩], .value "ab"⟩ := by
  have hcall : BeginsCall "greet( 'a' + 'b' ) + x".toList "greet" " 'a' + 'b' ".toList
      " + x".toList :=
    ⟨"( 'a' + 'b' ) + x".toList, " 'a' + 'b' ) + x".toList, by decide +kernel, by decide +kernel,
      by decide +kernel⟩
  have hargs : split " 'a' + 'b' ".toList = ["'a' + 'b'"] := by decide +kernel
  have hcalls := user_calls greeting (by decide +kernel) hcall "x + greet( 'a' + 'b' ) + x" 4
  rw [hargs] at hcalls
  obtain ⟨hnumber, -, htext⟩ := hcalls
  have hsilent : ∀ request : Request, greeting.AllDecline request 0 [.silent] [⟨0, request⟩] := by
    intro request
    have hp : greeting.RepliesWith .silent request ⟨[], .value none⟩ := ⟨0, rfl, by simp⟩
    exact .more hp (.none 1)
  refine ⟨hcall, ?_, (htext _).mpr ?_⟩
  · obtain ⟨-, -, -, hsettles⟩ := hnumber (by decide +kernel)
    exact (hsettles _).mpr (.raised rfl (hsilent _) ⟨0, by decide +kernel, by simp⟩)
  · have harg : greeting.CalculatesText "'a' + 'b'" ⟨[], .value "ab"⟩ :=
      ⟨1, by decide +kernel, by simp⟩
    exact .forwarded rfl harg (by decide +kernel)
      (.replied rfl (hsilent _) ⟨0, by decide +kernel, by simp⟩)

end Engine

end Formulae
