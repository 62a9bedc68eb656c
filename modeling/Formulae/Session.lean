import Formulae.Evaluation.Calculate

/-!
# Sessions

A session is an engine that is used step by step: settings are changed, providers are added, and
formulas are calculated with what has been set so far. Every step has an answer and shows the
questions that were put to providers during it. A provider that declines everything is asked like
any other, but what it is asked is not shown.
-/

namespace Formulae

/-- A provider of a session. -/
inductive ProviderSource
  /-- Declines everything. -/
  | silent
  | table (t : ProviderTable)

namespace ProviderSource

def provider : ProviderSource → Provider
  | silent => .silent
  | table t => t.provider

def isSilent : ProviderSource → Bool
  | silent => true
  | table _ => false

end ProviderSource

structure Session where
  settings : Settings := {}
  sources : List ProviderSource := []
  clock : Calendar.Instant := ⟨0⟩

inductive Step
  | calculate (formula : String)
  | calculateText (formula : String)
  | setDecimalNumbers (count : UInt32)
  | setUtcOffset (seconds : Int)
  | addProvider (source : ProviderSource)
  | summary

inductive Answer
  | number (outcome : Outcome Float)
  | text (outcome : Outcome String)
  | integer (value : Int)
  | summary (text : String)

namespace Session

def engine (s : Session) : Engine :=
  { settings := s.settings, providers := s.sources.map (·.provider), clock := s.clock }

/-- The questions that are shown. -/
def shown (s : Session) (calls : List ProviderCall) : List ProviderCall :=
  calls.filter fun call => !(s.sources[call.provider]?.any (·.isSilent))

/-- The answer to a step with the questions that are shown, and the session after it. -/
def perform (s : Session) : Step → (Answer × List ProviderCall) × Session
  | .calculate formula =>
    let r := s.engine.calculate formula
    ((.number r.outcome, s.shown r.calls), s)
  | .calculateText formula =>
    let r := s.engine.calculateText formula
    ((.text r.outcome, s.shown r.calls), s)
  | .setDecimalNumbers count =>
    ((.integer count.toNat, []), { s with settings.decimalNumbers := count })
  | .setUtcOffset seconds =>
    let s := { s with settings.utcOffset := seconds }
    ((.integer s.settings.zone.offset, []), s)
  | .addProvider source =>
    let s := { s with sources := s.sources ++ [source] }
    ((.integer s.sources.length, []), s)
  | .summary => ((.summary s.engine.summary, []), s)

/-- The answers to steps, one after the other. -/
def performAll (s : Session) : List Step → List (Answer × List ProviderCall)
  | [] => []
  | step :: steps =>
    let (answer, s) := s.perform step
    answer :: performAll s steps

end Session

end Formulae
