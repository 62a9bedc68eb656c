import Formulae.Evaluation.Tree
import Formulae.Proofs.Grammar.Stream

/-!
# Derivations of numeric formulas

The grammar of numeric formulas without calls, given by itself: a derivation is built by the
productions, spells a list of tokens, and has a value, for which nothing is parsed. A chain is its
first operand and what it goes on with, and its value is folded over that from left to right.

What can follow a derivation without belonging to it is a matter of how tightly signs bind: behind
an operand of a level stands no sign that binds tighter than those of the level. So a derivation
ends where it does for only one reason, and a list of tokens has at most one of them.

Main results:

* `Derivation.prefix_unique` — of the beginnings of a list of tokens that nothing ties to what
  follows them, at most one has a derivation, and it has one only.
* `Derivation.unique` — derivations with the same tokens are the same.
-/

namespace Formulae.Grammar

-- ---------------------------------------------------------------------------
-- The grammar
-- ---------------------------------------------------------------------------

/-- The parts of a numeric formula that the grammar has a name for. -/
inductive Category
  | chain (level : Level)
  | unary
  | power
  | term

/-- What the operands of a chain are. -/
def Level.operand : Level → Category
  | sequence => .chain bitwise
  | bitwise => .chain comparison
  | comparison => .chain additive
  | additive => .chain multiplicative
  | multiplicative => .unary

/-- What is done with the values on both sides of a sign. -/
inductive Joint
  | keepLast
  | apply (op : BinaryOperation)

/-- The signs between the operands of a chain. -/
def Level.signs : Level → List (Token × Joint)
  | sequence => [(.semicolon, .keepLast)]
  | bitwise =>
    [(.operator .or, .apply .or), (.operator .xor, .apply .xor), (.operator .and, .apply .and)]
  | comparison =>
    [(.operator .less, .apply .less), (.operator .atMost, .apply .atMost),
      (.operator .equal, .apply .equal), (.operator .different, .apply .different),
      (.operator .atLeast, .apply .atLeast), (.operator .greater, .apply .greater)]
  | additive => [(.operator .add, .apply .add), (.operator .subtract, .apply .subtract)]
  | multiplicative =>
    [(.operator .multiply, .apply .multiply), (.operator .divide, .apply .divide),
      (.operator .modulo, .apply .modulo), (.operator .percent, .apply .percent)]

/-- The signs before an operand. -/
def prefixSigns : List (Token × PrefixOperation) :=
  [(.operator .not, .not), (.operator .invert, .invert), (.operator .add, .plus),
    (.operator .subtract, .minus)]

mutual

/-- A derivation of a part of a numeric formula. -/
inductive Derivation : Category → Type
  | chain {level : Level} (first : Derivation level.operand) (more : Continuation level) :
      Derivation (.chain level)
  | prefixed {sign : Token} {op : PrefixOperation} (known : (sign, op) ∈ prefixSigns)
      (operand : Derivation .unary) : Derivation .unary
  | unprefixed (operand : Derivation .power) : Derivation .unary
  | base (base : Derivation .term) : Derivation .power
  | power (base exponent : Derivation .term) : Derivation .power
  | integer (n : Nat) : Derivation .term
  | double (x : Float) : Derivation .term
  | name (name : String) : Derivation .term
  | parens (inner : Derivation (.chain .sequence)) : Derivation .term

/-- What a chain goes on with behind its first operand. -/
inductive Continuation : Level → Type
  | done {level : Level} : Continuation level
  | join {level : Level} {sign : Token} {joint : Joint} (known : (sign, joint) ∈ level.signs)
      (operand : Derivation level.operand) (more : Continuation level) : Continuation level

end

mutual

/-- The tokens of a derivation. -/
def Derivation.tokens {c : Category} : Derivation c → List Token
  | .chain first more => first.tokens ++ more.tokens
  | @Derivation.prefixed sign _ _ operand => sign :: operand.tokens
  | .unprefixed operand => operand.tokens
  | .base base => base.tokens
  | .power base exponent => base.tokens ++ .operator .power :: exponent.tokens
  | .integer n => [.integer n]
  | .double x => [.double x]
  | .name name => [.identifier name]
  | .parens inner => .leftParen :: (inner.tokens ++ [.rightParen])

def Continuation.tokens {level : Level} : Continuation level → List Token
  | .done => []
  | @Continuation.join _ sign _ _ operand more => sign :: (operand.tokens ++ more.tokens)

end

/-- The value of a sign between two values. -/
def Joint.value (places : UInt32) : Joint → Float → Float → Float
  | keepLast, _, y => y
  | apply op, x, y => op.apply places x y

mutual

/-- The value of a derivation, given those of its names. -/
def Derivation.value (places : UInt32) (number : String → Float) {c : Category} :
    Derivation c → Float
  | .chain first more => more.value places number (first.value places number)
  | @Derivation.prefixed _ op _ operand => op.apply (operand.value places number)
  | .unprefixed operand => operand.value places number
  | .base base => base.value places number
  | .power base exponent =>
    BinaryOperation.power.apply places (base.value places number) (exponent.value places number)
  | .integer n => Float.ofNat n
  | .double x => x
  | .name name => number name
  | .parens inner => inner.value places number

/-- The value of a chain that goes on like this behind a value, from left to right. -/
def Continuation.value (places : UInt32) (number : String → Float) {level : Level} :
    Continuation level → Float → Float
  | .done, left => left
  | @Continuation.join _ _ joint _ operand more, left =>
    more.value places number (joint.value places left (operand.value places number))

end

-- ---------------------------------------------------------------------------
-- How tightly signs bind
-- ---------------------------------------------------------------------------

def Level.tightness : Level → Nat
  | sequence => 0
  | bitwise => 1
  | comparison => 2
  | additive => 3
  | multiplicative => 4

def Operator.tightness? : Operator → Option Nat
  | or | xor | and => some 1
  | less | atMost | equal | different | atLeast | greater => some 2
  | add | subtract => some 3
  | multiply | divide | modulo | percent => some 4
  | power => some 5
  | not | invert => none

/-- How tightly a token binds what stands on both sides of it, if it can stand between operands. -/
def Token.tightness? : Token → Option Nat
  | semicolon => some 0
  | operator op => op.tightness?
  | _ => none

/-- How tightly a sign behind a part must bind to belong to it. -/
def Category.tightness : Category → Nat
  | chain level => level.tightness
  | unary => 5
  | power => 5
  | term => 6

@[simp] theorem Level.tightness_operand (level : Level) :
    level.operand.tightness = level.tightness + 1 := by
  cases level <;> rfl

/-- A sign of a level binds as tightly as the level. -/
theorem Level.tightness_sign {level : Level} {sign : Token} {joint : Joint}
    (h : (sign, joint) ∈ level.signs) : sign.tightness? = some level.tightness := by
  cases level <;> simp only [signs, List.mem_cons, List.not_mem_nil, or_false, Prod.mk.injEq] at h
  case sequence => rw [h.1]; rfl
  case bitwise => rcases h with ⟨rfl, -⟩ | ⟨rfl, -⟩ | ⟨rfl, -⟩ <;> rfl
  case comparison =>
    rcases h with ⟨rfl, -⟩ | ⟨rfl, -⟩ | ⟨rfl, -⟩ | ⟨rfl, -⟩ | ⟨rfl, -⟩ | ⟨rfl, -⟩ <;> rfl
  case additive => rcases h with ⟨rfl, -⟩ | ⟨rfl, -⟩ <;> rfl
  case multiplicative => rcases h with ⟨rfl, -⟩ | ⟨rfl, -⟩ | ⟨rfl, -⟩ | ⟨rfl, -⟩ <;> rfl

/-- A sign joins in one way. -/
theorem Level.joint_unique {level : Level} {sign : Token} {joint joint' : Joint}
    (h : (sign, joint) ∈ level.signs) (h' : (sign, joint') ∈ level.signs) : joint = joint' := by
  cases level <;>
    simp only [signs, List.mem_cons, List.not_mem_nil, or_false, Prod.mk.injEq] at h h'
  all_goals grind

/-- The tokens do not begin with a sign that binds so tightly. -/
def Stops (tightness : Nat) (ts : List Token) : Prop :=
  ∀ t ∈ ts.head?, ∀ n ∈ t.tightness?, n < tightness

theorem stops_nil (tightness : Nat) : Stops tightness [] := by
  intro t ht
  simp at ht

theorem stops_cons {tightness : Nat} {t : Token} {ts : List Token} :
    Stops tightness (t :: ts) ↔ ∀ n ∈ t.tightness?, n < tightness := by
  simp [Stops]

/-- A parenthesis that closes goes on with nothing. -/
theorem stops_rightParen {tightness : Nat} (ts : List Token) :
    Stops tightness (.rightParen :: ts) := by
  rw [stops_cons]
  intro n hn
  simp [Token.tightness?] at hn

/-- A power goes on behind its base, not behind its exponent. -/
theorem stops_power {ts : List Token} : Stops Category.term.tightness (.operator .power :: ts) := by
  rw [stops_cons]
  intro n hn
  obtain rfl : 5 = n := by simpa [Token.tightness?, Operator.tightness?] using hn
  decide

/-- A power would go on with another one. -/
theorem not_stops_power {ts : List Token} :
    ¬ Stops Category.power.tightness (.operator .power :: ts) := by
  rw [stops_cons]
  intro h
  exact Nat.lt_irrefl 5 (h 5 rfl)

/-- A chain would go on with a sign of its own. -/
theorem not_stops_sign {level : Level} {sign : Token} {joint : Joint} {ts : List Token}
    (known : (sign, joint) ∈ level.signs) : ¬ Stops level.tightness (sign :: ts) := by
  rw [stops_cons, Level.tightness_sign known]
  intro h
  exact Nat.lt_irrefl _ (h _ rfl)

/-- What does not bind tightly enough for one part does not for a part that asks for more. -/
theorem Stops.mono {n m : Nat} {ts : List Token} (h : Stops n ts) (hnm : n ≤ m) : Stops m ts :=
  fun t ht k hk => Nat.lt_of_lt_of_le (h t ht k hk) hnm

/-- What a chain goes on with does not tie its first operand to anything. -/
theorem Continuation.stops {level : Level} (more : Continuation level) {us : List Token}
    (h : Stops level.tightness us) : Stops level.operand.tightness (more.tokens ++ us) := by
  rw [Level.tightness_operand]
  cases more with
  | done =>
    rw [Continuation.tokens, List.nil_append]
    exact h.mono (Nat.le_succ _)
  | @join _ sign joint known operand more =>
    rw [Continuation.tokens, List.cons_append, stops_cons, Level.tightness_sign known]
    intro n hn
    rw [Option.mem_some_iff] at hn
    omega

-- ---------------------------------------------------------------------------
-- There is one derivation at most
-- ---------------------------------------------------------------------------

/-- A term does not begin like an operand with a sign before it. -/
theorem Derivation.tokens_term (d : Derivation .term) :
    ∃ t ts, d.tokens = t :: ts ∧ ∀ op, (t, op) ∉ prefixSigns := by
  cases d <;> exact ⟨_, _, by rw [Derivation.tokens], by simp [prefixSigns]⟩

theorem Derivation.tokens_power (d : Derivation .power) :
    ∃ t ts, d.tokens = t :: ts ∧ ∀ op, (t, op) ∉ prefixSigns := by
  cases d with
  | base base =>
    rw [Derivation.tokens]
    exact base.tokens_term
  | power base exponent =>
    obtain ⟨t, ts, hts, ht⟩ := base.tokens_term
    refine ⟨t, ts ++ .operator .power :: exponent.tokens, ?_, ht⟩
    rw [Derivation.tokens, hts, List.cons_append]

/-- A sign before an operand is no other one, too. -/
theorem prefixSign_unique {sign : Token} {op op' : PrefixOperation}
    (h : (sign, op) ∈ prefixSigns) (h' : (sign, op') ∈ prefixSigns) : op = op' := by
  simp only [prefixSigns, List.mem_cons, List.not_mem_nil, or_false, Prod.mk.injEq] at h h'
  grind

mutual

/-- Two derivations of beginnings of the same tokens are the same, if neither is tied to what
follows it. -/
theorem Derivation.prefix_unique {c : Category} (d d' : Derivation c) {us us' : List Token}
    (h : d.tokens ++ us = d'.tokens ++ us') (hus : Stops c.tightness us)
    (hus' : Stops c.tightness us') : d = d' ∧ us = us' := by
  match d, d' with
  | .chain first more, .chain first' more' =>
    simp only [Derivation.tokens, List.append_assoc] at h
    obtain ⟨rfl, hmore⟩ := first.prefix_unique first' h (more.stops hus) (more'.stops hus')
    obtain ⟨rfl, rfl⟩ := more.prefix_unique more' hmore hus hus'
    exact ⟨rfl, rfl⟩
  | .prefixed known operand, .prefixed known' operand' =>
    simp only [Derivation.tokens, List.cons_append, List.cons.injEq] at h
    obtain ⟨rfl, htail⟩ := h
    obtain rfl := prefixSign_unique known known'
    obtain ⟨rfl, rfl⟩ := operand.prefix_unique operand' htail hus hus'
    exact ⟨rfl, rfl⟩
  | .prefixed known operand, .unprefixed operand' =>
    obtain ⟨t, ts, hts, ht⟩ := operand'.tokens_power
    simp only [Derivation.tokens, hts, List.cons_append, List.cons.injEq] at h
    exact absurd (h.1 ▸ known) (ht _)
  | .unprefixed operand, .prefixed known' operand' =>
    obtain ⟨t, ts, hts, ht⟩ := operand.tokens_power
    simp only [Derivation.tokens, hts, List.cons_append, List.cons.injEq] at h
    exact absurd (h.1 ▸ known') (ht _)
  | .unprefixed operand, .unprefixed operand' =>
    simp only [Derivation.tokens] at h
    obtain ⟨rfl, rfl⟩ := operand.prefix_unique operand' h hus hus'
    exact ⟨rfl, rfl⟩
  | .base base, .base base' =>
    simp only [Derivation.tokens] at h
    obtain ⟨rfl, rfl⟩ := base.prefix_unique base' h (hus.mono (by decide)) (hus'.mono (by decide))
    exact ⟨rfl, rfl⟩
  | .base base, .power base' exponent' =>
    simp only [Derivation.tokens, List.append_assoc, List.cons_append] at h
    obtain ⟨-, rfl⟩ := base.prefix_unique base' h (hus.mono (by decide)) stops_power
    exact absurd hus not_stops_power
  | .power base exponent, .base base' =>
    simp only [Derivation.tokens, List.append_assoc, List.cons_append] at h
    obtain ⟨-, rfl⟩ := base.prefix_unique base' h stops_power (hus'.mono (by decide))
    exact absurd hus' not_stops_power
  | .power base exponent, .power base' exponent' =>
    simp only [Derivation.tokens, List.append_assoc, List.cons_append] at h
    obtain ⟨rfl, htail⟩ := base.prefix_unique base' h stops_power stops_power
    obtain ⟨rfl, rfl⟩ := exponent.prefix_unique exponent' (List.cons.inj htail).2
      (hus.mono (by decide)) (hus'.mono (by decide))
    exact ⟨rfl, rfl⟩
  | .parens inner, .parens inner' =>
    simp only [Derivation.tokens, List.cons_append, List.append_assoc, List.nil_append,
      List.cons.injEq, true_and] at h
    obtain ⟨rfl, htail⟩ := inner.prefix_unique inner' h (stops_rightParen _) (stops_rightParen _)
    exact ⟨rfl, (List.cons.inj htail).2⟩
  | .integer n, d' => cases d' <;> simp_all [Derivation.tokens]
  | .double x, d' => cases d' <;> simp_all [Derivation.tokens]
  | .name name, d' => cases d' <;> simp_all [Derivation.tokens]
  | .parens inner, .integer n => simp [Derivation.tokens] at h
  | .parens inner, .double x => simp [Derivation.tokens] at h
  | .parens inner, .name name => simp [Derivation.tokens] at h

/-- Two ways to go on that are followed by what does not go on are the same. -/
theorem Continuation.prefix_unique {level : Level} (m m' : Continuation level)
    {us us' : List Token} (h : m.tokens ++ us = m'.tokens ++ us')
    (hus : Stops level.tightness us) (hus' : Stops level.tightness us') : m = m' ∧ us = us' := by
  match m, m' with
  | .done, .done => exact ⟨rfl, h⟩
  | .done, .join known' operand' more' =>
    simp only [Continuation.tokens, List.nil_append, List.cons_append] at h
    rw [h] at hus
    exact absurd hus (not_stops_sign known')
  | .join known operand more, .done =>
    simp only [Continuation.tokens, List.nil_append, List.cons_append] at h
    rw [← h] at hus'
    exact absurd hus' (not_stops_sign known)
  | .join known operand more, .join known' operand' more' =>
    simp only [Continuation.tokens, List.cons_append, List.cons.injEq, List.append_assoc] at h
    obtain ⟨rfl, htail⟩ := h
    obtain rfl := Level.joint_unique known known'
    obtain ⟨rfl, hmore⟩ := operand.prefix_unique operand' htail (more.stops hus) (more'.stops hus')
    obtain ⟨rfl, rfl⟩ := more.prefix_unique more' hmore hus hus'
    exact ⟨rfl, rfl⟩

end

/-- A list of tokens has one derivation at most. -/
theorem Derivation.unique {c : Category} {d d' : Derivation c} (h : d.tokens = d'.tokens) :
    d = d' := by
  have happend : d.tokens ++ [] = d'.tokens ++ [] := by rw [h]
  exact (d.prefix_unique d' happend (stops_nil _) (stops_nil _)).1

end Formulae.Grammar
