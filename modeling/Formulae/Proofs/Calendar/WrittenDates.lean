import Formulae.Calendar.Pattern
import Formulae.Proofs.Number.Digits
import Formulae.Proofs.Calendar.Navigation

/-!
# Dates written by a pattern

A date pattern names the day, the month and the year, and any of the hour, the minute and the
second, in any order and with one separator between two names. What a wall clock shows is written by
a pattern with as many digits for a field as the field is read with, so that it is read along the
same pattern without looking at what comes next.

The date is always found again. The time is found again only if the hour and the minute are both
named: a text with just one of them, or with the second alone, is read as a date, and the number
that stands there for the time is dropped.

Main results:

* `DatePattern.patternItems_text` — a pattern is read as the fields that it names.
* `DatePattern.readFields?_write` — the fields are found with what the clock shows.
* `DatePattern.keeps_fields_iff` — which moment is read, and which patterns keep every field.
-/

namespace Formulae.Calendar

-- ---------------------------------------------------------------------------
-- Patterns
-- ---------------------------------------------------------------------------

/-- A field as a pattern names it. -/
structure FieldName where
  letters : List Char
  field : Field
  known : (letters, field) ∈ Field.names

/-- What may stand between two names. -/
def separators : List Char :=
  ['-', '/', ':', ' ']

/-- The names behind the first one, each with the separator in front of it, in writing. -/
def layOut (write : FieldName → List Char) (more : List (Char × FieldName)) : List Char :=
  more.flatMap fun entry => entry.1 :: write entry.2

/-- A pattern of single names with single separators that says what a date is, and may say what the
time is. -/
structure DatePattern where
  first : FieldName
  more : List (Char × FieldName)
  separated : ∀ entry ∈ more, entry.1 ∈ separators
  /-- No field is named twice. -/
  once : (first.field :: more.map (·.2.field)).Nodup
  dated : ∀ f ∈ [Field.day, .month, .year], f ∈ first.field :: more.map (·.2.field)
  /-- The year is named in whole. -/
  whole : .yearOfCentury ∉ first.field :: more.map (·.2.field)

/-- Digits of a number, with zeros in front up to a width. -/
def padded : Nat → Nat → List Char
  | 0, _ => []
  | width + 1, n => padded width (n / 10) ++ [Nat.digitChar (n % 10)]

namespace WallClock

/-- What a clock shows in a field. -/
def value (w : WallClock) : Field → Int
  | .year => w.date.year
  | .yearOfCentury => w.date.year % 100
  | .month => w.date.month
  | .day => w.date.day
  | .hour => w.time.hour
  | .minute => w.time.minute
  | .second => w.time.second

end WallClock

/-- How many digits a field is written with. -/
def Field.width : Field → Nat
  | year => 4
  | _ => 2

/-- A field in writing. -/
def WallClock.digits (w : WallClock) (f : Field) : List Char :=
  padded f.width (w.value f).toNat

namespace DatePattern

variable (p : DatePattern)

/-- The fields that a pattern names. -/
def fields : List Field :=
  p.first.field :: p.more.map (·.2.field)

/-- The pattern as a text. -/
def text : String :=
  String.ofList (p.first.letters ++ layOut (·.letters) p.more)

/-- What a clock shows, written by the pattern. -/
def write (w : WallClock) : String :=
  String.ofList (w.digits p.first.field ++ layOut (fun name => w.digits name.field) p.more)

/-- A time with what the pattern does not name at zero. -/
def namedTime (t : TimeOfDay) : TimeOfDay where
  hour := if .hour ∈ p.fields then t.hour else 0
  minute := if .minute ∈ p.fields then t.minute else 0
  second := if .second ∈ p.fields then t.second else 0

/-- The time that is read of what the pattern names: none, unless it names the hour and the
minute. -/
def readTime (t : TimeOfDay) : TimeOfDay :=
  if .hour ∈ p.fields ∧ .minute ∈ p.fields then p.namedTime t else .midnight

end DatePattern

-- ---------------------------------------------------------------------------
-- Reading the pattern
-- ---------------------------------------------------------------------------

/-- A text that goes on behind a name with a separator, if it goes on. -/
def Apart (cs : List Char) : Prop :=
  ∀ c ∈ cs.head?, c ∈ separators

/-- Fields go on apart if separators stand in front of them. -/
theorem apart_layOut {write : FieldName → List Char} {more : List (Char × FieldName)}
    (h : ∀ entry ∈ more, entry.1 ∈ separators) : Apart (layOut write more) := by
  cases more with
  | nil => intro c hc; simp [layOut] at hc
  | cons entry more =>
    intro c hc
    obtain rfl : entry.1 = c := by simpa [layOut] using hc
    exact h entry List.mem_cons_self

/-- What begins a text before a character that it does not have begins the part in front of it. -/
theorem prefix_front {xs ys rest : List Char} (h : ∀ c ∈ rest.head?, c ∉ xs) :
    xs <+: ys ++ rest ↔ xs <+: ys := by
  constructor
  · intro hxs
    rcases List.prefix_or_prefix_of_prefix hxs (List.prefix_append ys rest) with hle | hge
    · exact hle
    · obtain ⟨zs, rfl⟩ := hge
      cases zs with
      | nil => rw [List.append_nil]
      | cons c zs =>
        -- the text would go on with the character behind the part
        obtain ⟨tail, htail⟩ := (List.prefix_append_right_inj ys).mp hxs
        refine absurd (List.mem_append_right ys List.mem_cons_self) (h c ?_)
        rw [← htail]
        rfl
  · exact fun hxs => hxs.trans (List.prefix_append ys rest)

/-- What a text goes on with behind a name is no letter of any name. -/
theorem Apart.not_mem_name {rest : List Char} (h : Apart rest) :
    ∀ c ∈ rest.head?, ∀ entry ∈ Field.names, c ∉ entry.1 := by
  have hnames : ∀ c ∈ separators, ∀ entry ∈ Field.names, c ∉ entry.1 := by
    simp [Field.names, separators]
  exact fun c hc => hnames c (h c hc)

/-- In front of a character that no name has only the part up to it counts. -/
theorem leading?_append {letters rest : List Char}
    (h : ∀ c ∈ rest.head?, ∀ entry ∈ Field.names, c ∉ entry.1) :
    Field.leading? (letters ++ rest) = Field.leading? letters := by
  have hfind : Field.names.find? (fun entry => entry.1.isPrefixOf (letters ++ rest)) =
      Field.names.find? fun entry => entry.1.isPrefixOf letters := by
    refine List.find?_congr fun entry hentry => ?_
    rw [Bool.eq_iff_iff, List.isPrefixOf_iff_prefix, List.isPrefixOf_iff_prefix]
    exact prefix_front fun c hc => h c hc entry hentry
  unfold Field.leading?
  rw [hfind]

/-- Every name of a field is found where it stands. -/
theorem leading?_known :
    ∀ entry ∈ Field.names, Field.leading? entry.1 = some (entry.2, entry.1.length) := by
  decide

/-- The field that begins a text is the one whose name stands there. -/
theorem leading?_name (name : FieldName) {rest : List Char} (h : Apart rest) :
    Field.leading? (name.letters ++ rest) = some (name.field, name.letters.length) := by
  rw [leading?_append h.not_mem_name]
  exact leading?_known _ name.known

/-- No name of a field begins with a separator. -/
theorem leading?_separator {c : Char} (hc : c ∈ separators) (rest : List Char) :
    Field.leading? (c :: rest) = none := by
  have happart : Apart (c :: rest) := by
    intro d hd
    obtain rfl : c = d := by simpa using hd
    exact hc
  have hbehind := @leading?_append [] (c :: rest) happart.not_mem_name
  rwa [List.nil_append] at hbehind

theorem name_ne_nil : ∀ entry ∈ Field.names, entry.1 ≠ [] := by
  decide

/-- The rest of a name is passed over. -/
theorem patternItemsFrom_skip (skipped rest : List Char) :
    patternItemsFrom skipped.length (skipped ++ rest) = patternItemsFrom 0 rest := by
  induction skipped with
  | nil => rfl
  | cons c skipped ih => simpa only [List.length_cons, List.cons_append, patternItemsFrom] using ih

/-- A name is read as its field, if what follows stands apart. -/
theorem patternItemsFrom_name (name : FieldName) {rest : List Char} (h : Apart rest) :
    patternItemsFrom 0 (name.letters ++ rest) = .field name.field :: patternItemsFrom 0 rest := by
  have hleading := leading?_name name h
  cases hletters : name.letters with
  | nil => exact absurd hletters (name_ne_nil _ name.known)
  | cons c letters =>
    rw [hletters] at hleading
    rw [List.cons_append, patternItemsFrom]
    rw [List.cons_append] at hleading
    rw [hleading]
    dsimp only
    rw [List.length_cons, Nat.add_sub_cancel, patternItemsFrom_skip]

/-- The fields with their separators are read one after the other. -/
theorem patternItemsFrom_layOut {more : List (Char × FieldName)}
    (h : ∀ entry ∈ more, entry.1 ∈ separators) :
    patternItemsFrom 0 (layOut (·.letters) more) =
      more.flatMap fun entry => [.char entry.1, .field entry.2.field] := by
  induction more with
  | nil => rfl
  | cons entry more ih =>
    have hmore : ∀ entry ∈ more, entry.1 ∈ separators := fun e he =>
      h e (List.mem_cons_of_mem entry he)
    have htext : layOut (·.letters) (entry :: more) =
        entry.1 :: (entry.2.letters ++ layOut (·.letters) more) := rfl
    rw [htext, patternItemsFrom, leading?_separator (h entry List.mem_cons_self)]
    dsimp only
    rw [patternItemsFrom_name entry.2 (apart_layOut hmore), ih hmore]
    rfl

/-- A pattern is read as the fields that it names. -/
theorem DatePattern.patternItems_text (p : DatePattern) :
    patternItems p.text = .field p.first.field ::
      p.more.flatMap fun entry => [.char entry.1, .field entry.2.field] := by
  unfold patternItems DatePattern.text
  rw [String.toList_ofList, patternItemsFrom_name p.first (apart_layOut p.separated),
    patternItemsFrom_layOut p.separated]

-- ---------------------------------------------------------------------------
-- Numbers of a fixed width
-- ---------------------------------------------------------------------------

/-- As many digits are written as the width says. -/
theorem length_padded (width n : Nat) : (padded width n).length = width := by
  induction width generalizing n with
  | zero => rfl
  | succ width ih => rw [padded, List.length_append, ih, List.length_singleton]

theorem isDigit_padded (width n : Nat) : ∀ c ∈ padded width n, c.isDigit = true := by
  induction width generalizing n with
  | zero => intro c hc; simp [padded] at hc
  | succ width ih =>
    intro c hc
    rw [padded, List.mem_append, List.mem_singleton] at hc
    rcases hc with hc | rfl
    · exact ih _ c hc
    · rw [Nat.isDigit_digitChar, decide_eq_true_eq]
      omega

/-- Padded digits denote the number, if it fits the width. -/
theorem ofDigits_padded {width n : Nat} (h : n < 10 ^ width) :
    Number.ofDigits (padded width n) = n := by
  induction width generalizing n with
  | zero => rw [pow_zero] at h; obtain rfl : n = 0 := by omega
            rfl
  | succ width ih =>
    have hfront : n / 10 < 10 ^ width := by rw [pow_succ] at h; omega
    have hlast : Number.ofDigits [Nat.digitChar (n % 10)] = n % 10 := by
      have hvalue : Number.digitValue (Nat.digitChar (n % 10)) = n % 10 :=
        Number.digitValue_digitChar (by omega)
      simp [Number.ofDigits, Number.ofDigitsFrom, hvalue]
    rw [padded, Number.ofDigits_append, ih hfront, hlast, List.length_singleton]
    omega

/-- As many digits are read as were written, whatever follows them. -/
theorem readDigits?_padded {width n : Nat} (hwidth : 0 < width) (h : n < 10 ^ width)
    (rest : List Char) : readDigits? width (padded width n ++ rest) = some (n, rest) := by
  have hlength := length_padded width n
  have htake : (padded width n ++ rest).take width = padded width n :=
    List.take_left' hlength
  have hdrop : (padded width n ++ rest).drop width = rest :=
    List.drop_left' hlength
  have hdigits : (padded width n).takeWhile Char.isDigit = padded width n :=
    List.takeWhile_eq_self_iff.mpr (isDigit_padded width n)
  have hsome : (padded width n).isEmpty = false := by
    rw [List.isEmpty_eq_false_iff_exists_mem]
    exact List.exists_mem_of_length_pos (by omega)
  unfold readDigits?
  rw [htake, hdigits]
  dsimp only
  rw [hsome, if_neg Bool.false_ne_true, hlength, hdrop, ofDigits_padded h]

/-- A field whose text begins with a digit has no sign and no white space in front. -/
theorem read?_of_isDigit {f : Field} {c : Char} (hc : c.isDigit = true) (cs : List Char) :
    f.read? (c :: cs) =
      (readDigits? f.width (c :: cs)).map fun (n, rest) => ((n : Int), rest) := by
  have hblank : (c :: cs).dropWhile Text.isBlank = c :: cs :=
    List.dropWhile_cons_of_neg (by rw [Number.isBlank_of_isDigit hc]; exact Bool.false_ne_true)
  have hminus : c ≠ '-' := by rintro rfl; exact absurd hc (by decide)
  have hplus : c ≠ '+' := by rintro rfl; exact absurd hc (by decide)
  unfold Field.read?
  rw [hblank]
  cases f
  case year =>
    dsimp only
    split
    · rename_i heq; exact absurd (List.cons.inj heq).1 hminus
    · rename_i heq; exact absurd (List.cons.inj heq).1 hplus
    · rfl
    · rename_i hyear _ _; exact absurd rfl hyear
  all_goals rfl

-- ---------------------------------------------------------------------------
-- Reading the fields
-- ---------------------------------------------------------------------------

theorem WallClock.isDigit_digits (w : WallClock) (f : Field) :
    ∀ c ∈ w.digits f, c.isDigit = true :=
  isDigit_padded f.width _

theorem WallClock.digits_ne_nil (w : WallClock) (f : Field) : w.digits f ≠ [] := by
  refine List.ne_nil_of_length_pos ?_
  rw [WallClock.digits, length_padded]
  cases f <;> decide

/-- What the clocks show that are written here: a day of the calendar whose year has up to four
digits, and a time of day. -/
structure WallClock.Writable (w : WallClock) : Prop where
  valid : w.date.isValid = true
  first : 0 ≤ w.date.year
  last : w.date.year ≤ 9999
  time : w.time.isValid = true

namespace WallClock.Writable

variable {w : WallClock} (hw : w.Writable)

include hw

/-- The bounds of the numbers of a time. -/
theorem hour_lt : w.time.hour < 24 ∧ w.time.minute < 60 ∧ w.time.second < 60 :=
  TimeOfDay.isValid_iff.mp hw.time

/-- The bounds of the numbers of a date. -/
theorem date_bounds : (1 ≤ w.date.month ∧ w.date.month ≤ 12) ∧
    1 ≤ w.date.day ∧ w.date.day ≤ 31 := by
  have hvalid := Date.isValid_iff.mp hw.valid
  have hday := Date.day_le hw.valid
  omega

/-- No field has more digits than it is written with. -/
theorem exists_value (f : Field) : ∃ n : Nat, w.value f = n ∧ n < 10 ^ f.width := by
  have hdate := hw.date_bounds
  have htime := hw.hour_lt
  have hfirst := hw.first
  have hlast := hw.last
  refine ⟨(w.value f).toNat, ?_, ?_⟩ <;>
    cases f <;> simp only [WallClock.value, Field.width] <;> omega

/-- The digits of a field are read as what the clock shows there. -/
theorem read?_digits (f : Field) (rest : List Char) :
    f.read? (w.digits f ++ rest) = some (w.value f, rest) := by
  obtain ⟨n, hvalue, hlt⟩ := hw.exists_value f
  have hwidth : 0 < f.width := by cases f <;> decide
  have hread : readDigits? f.width (w.digits f ++ rest) = some (n, rest) := by
    rw [WallClock.digits, hvalue, Int.toNat_natCast]
    exact readDigits?_padded hwidth hlt rest
  obtain ⟨c, cs, hcs⟩ := List.exists_cons_of_ne_nil (w.digits_ne_nil f)
  have hdigit : c.isDigit = true :=
    w.isDigit_digits f c (by rw [hcs]; exact List.mem_cons_self)
  rw [hcs, List.cons_append] at hread ⊢
  rw [read?_of_isDigit hdigit, hread, hvalue]
  rfl

end WallClock.Writable

/-- What has been found when the named fields of a clock have been read. -/
def WallClock.found (w : WallClock) (named : List Field) : Fields where
  year := if .year ∈ named then some w.date.year else none
  month := if .month ∈ named then some w.date.month else none
  day := if .day ∈ named then some w.date.day else none
  hour := if .hour ∈ named then some w.time.hour else none
  minute := if .minute ∈ named then some w.time.minute else none
  second := if .second ∈ named then some w.time.second else none

namespace WallClock.Writable

variable {w : WallClock} (hw : w.Writable)

include hw

/-- Another field is found with what the clock shows there. -/
theorem set?_found {named : List Field} {f : Field} (hnew : f ∉ named)
    (hwhole : f ≠ .yearOfCentury) :
    (w.found named).set? f (w.value f) = some (w.found (named ++ [f])) := by
  obtain ⟨hmonth, hday⟩ := hw.date_bounds
  obtain ⟨hhour, hminute, hsecond⟩ := hw.hour_lt
  have hyear : -2147483648 ≤ w.date.year ∧ w.date.year ≤ 2147483647 := by
    have hfirst := hw.first
    have hlast := hw.last
    omega
  have hhour : w.time.hour ≤ 23 := by omega
  have hminute : w.time.minute ≤ 59 := by omega
  have hsecond : w.time.second ≤ 60 := by omega
  cases f with
  | yearOfCentury => exact absurd rfl hwhole
  | year => simp [Fields.set?, WallClock.found, WallClock.value, agree, hnew, hyear]
  | month => simp [Fields.set?, WallClock.found, WallClock.value, agree, hnew, hmonth]
  | day => simp [Fields.set?, WallClock.found, WallClock.value, agree, hnew, hday]
  | hour => simp [Fields.set?, WallClock.found, WallClock.value, agree, hnew, hhour]
  | minute => simp [Fields.set?, WallClock.found, WallClock.value, agree, hnew, hminute]
  | second => simp [Fields.set?, WallClock.found, WallClock.value, agree, hnew, hsecond]

/-- A named field is read and found. -/
theorem readFields?_field {named : List Field} {f : Field} (hnew : f ∉ named)
    (hwhole : f ≠ .yearOfCentury) (items : List PatternItem) (rest : List Char) :
    readFields? (.field f :: items) (w.found named) (w.digits f ++ rest) =
      readFields? items (w.found (named ++ [f])) rest := by
  rw [readFields?, hw.read?_digits]
  dsimp only [Option.bind_eq_bind, Option.bind_some]
  rw [hw.set?_found hnew hwhole, Option.bind_some]

omit hw in
/-- A separator is read as itself, since no white space follows it. -/
theorem readFields?_separator {c : Char} (items : List PatternItem) (fs : Fields)
    (f : Field) (rest : List Char) :
    readFields? (.char c :: items) fs (c :: (w.digits f ++ rest)) =
      readFields? items fs (w.digits f ++ rest) := by
  have hdigits : (w.digits f ++ rest).dropWhile Text.isBlank = w.digits f ++ rest := by
    refine Text.dropWhile_eq_self fun d hd => ?_
    rw [List.head?_append_of_ne_nil _ (w.digits_ne_nil f)] at hd
    exact Number.isBlank_of_isDigit (w.isDigit_digits f d (List.mem_of_mem_head? hd))
  rw [readFields?]
  split
  · rename_i hblank
    rw [List.dropWhile_cons_of_pos hblank, hdigits]
  · rw [if_pos rfl]

/-- The fields behind the first one are found in turn. -/
theorem readFields?_layOut {named : List Field} {more : List (Char × FieldName)}
    (once : (named ++ more.map (·.2.field)).Nodup)
    (whole : .yearOfCentury ∉ more.map (·.2.field)) :
    readFields? (more.flatMap fun entry => [.char entry.1, .field entry.2.field])
        (w.found named) (layOut (fun name => w.digits name.field) more) =
      some (w.found (named ++ more.map (·.2.field))) := by
  induction more generalizing named with
  | nil => simp [layOut, readFields?]
  | cons entry more ih =>
    rw [List.map_cons, List.mem_cons, not_or] at whole
    have hnew : entry.2.field ∉ named := fun hmem =>
      List.disjoint_of_nodup_append once hmem List.mem_cons_self
    have htext : layOut (fun name => w.digits name.field) (entry :: more) =
        entry.1 :: (w.digits entry.2.field ++ layOut (fun name => w.digits name.field) more) := rfl
    have hnamed : named ++ (entry :: more).map (·.2.field) =
        named ++ [entry.2.field] ++ more.map (·.2.field) := by simp
    rw [htext, List.flatMap_cons, List.cons_append, List.singleton_append, readFields?_separator,
      hw.readFields?_field hnew (Ne.symm whole.1), hnamed]
    rw [hnamed] at once
    exact ih once whole.2

end WallClock.Writable

namespace DatePattern

variable {p : DatePattern} {w : WallClock}

/-- The fields are found with what the clock shows. -/
theorem readFields?_write (hw : w.Writable) :
    readFields? (patternItems p.text) {} (p.write w).toList = some (w.found p.fields) := by
  have hnone : ({} : Fields) = w.found [] := rfl
  have whole := p.whole
  rw [List.mem_cons, not_or] at whole
  rw [p.patternItems_text, DatePattern.write, String.toList_ofList, hnone,
    hw.readFields?_field List.not_mem_nil (Ne.symm whole.1), List.nil_append]
  exact hw.readFields?_layOut p.once whole.2

/-- A text that is written by a pattern ends with a field too. -/
theorem exists_last (p : DatePattern) (w : WallClock) :
    ∃ front f, (p.write w).toList = front ++ w.digits f := by
  rw [DatePattern.write, String.toList_ofList]
  rcases List.eq_nil_or_concat p.more with hnil | ⟨init, last, hmore⟩
  · exact ⟨[], p.first.field, by simp [hnil, layOut]⟩
  · refine ⟨w.digits p.first.field ++ layOut (fun name => w.digits name.field) init ++ [last.1],
      last.2.field, ?_⟩
    simp [hmore, layOut]

/-- There is no white space around a text that is written by a pattern. -/
theorem trim_write (p : DatePattern) (w : WallClock) :
    Text.trim (p.write w).toList = (p.write w).toList := by
  have hblank (f : Field) : ∀ c ∈ w.digits f, Text.isBlank c = false := fun c hc =>
    Number.isBlank_of_isDigit (w.isDigit_digits f c hc)
  refine Text.trimBy_eq_self (fun c hc => ?_) (fun c hc => ?_)
  · rw [DatePattern.write, String.toList_ofList,
      List.head?_append_of_ne_nil _ (w.digits_ne_nil _)] at hc
    exact hblank p.first.field c (List.mem_of_mem_head? hc)
  · obtain ⟨front, f, htext⟩ := p.exists_last w
    rw [htext, List.getLast?_append_of_ne_nil _ (w.digits_ne_nil f)] at hc
    exact hblank f c (List.mem_of_getLast? hc)

-- ---------------------------------------------------------------------------
-- The moment of the fields
-- ---------------------------------------------------------------------------

/-- The date is found as it was written. -/
theorem date?_found (hw : w.Writable) : (w.found p.fields).date? = some w.date := by
  have hsupported : w.date.isSupported = true := by
    have hfirst := hw.first
    have hlast := hw.last
    simp only [Date.isSupported, Bool.and_eq_true, decide_eq_true_eq]
    omega
  have hfields : Date.ofFields? w.date.year w.date.month w.date.day = some w.date := by
    show (if w.date.isValid && w.date.isSupported then some w.date else none) = some w.date
    rw [hw.valid, hsupported]
    rfl
  have hyear : .year ∈ p.fields := p.dated .year (by decide)
  have hmonth : .month ∈ p.fields := p.dated .month (by decide)
  have hday : .day ∈ p.fields := p.dated .day (by decide)
  simpa [Fields.date?, Fields.fullYear?, WallClock.found, hyear, hmonth, hday] using hfields

/-- The time is found if the hour and the minute were written. -/
theorem time_found (hw : w.Writable) : (w.found p.fields).time = p.readTime w.time := by
  obtain ⟨-, -, hsecond⟩ := hw.hour_lt
  unfold Fields.time readTime namedTime WallClock.found
  by_cases hhour : .hour ∈ p.fields
  · by_cases hminute : .minute ∈ p.fields
    · by_cases hnamed : .second ∈ p.fields
      · have hmin : min w.time.second 59 = w.time.second := by omega
        simp [hhour, hminute, hnamed, hmin]
      · simp [hhour, hminute, hnamed]
    · simp [hminute]
  · simp [hhour]

/-- The fields that a pattern names are a time of day if all are. -/
theorem isValid_namedTime {t : TimeOfDay} (h : t.isValid) : (p.namedTime t).isValid := by
  simp only [TimeOfDay.isValid, namedTime, Bool.and_eq_true, decide_eq_true_eq] at h ⊢
  obtain ⟨⟨hhour, hminute⟩, hsecond⟩ := h
  refine ⟨⟨?_, ?_⟩, ?_⟩ <;> exact decide_eq_true (by split <;> omega)

/-- So are those that are read with the pattern. -/
theorem isValid_readTime {t : TimeOfDay} (h : t.isValid) : (p.readTime t).isValid := by
  unfold readTime
  split
  · exact isValid_namedTime h
  · decide

end DatePattern

/-- A clock in any zone shows what can be written at some instant. -/
theorem WallClock.Writable.exists_instant {w : WallClock} (hw : w.Writable) (zone : Zone) :
    ∃ i, Instant.ofLocal? zone w = some i ∧ i.localClock zone = w := by
  have hfirst := hw.first
  have hlast := hw.last
  have hinner : w.date.IsInner := ⟨by omega, by omega⟩
  have hsupported : (Instant.showing zone w).IsSupported :=
    hinner.isSupported_showing hw.valid hw.time
  exact ⟨.showing zone w, Instant.ofLocal?_eq_some_iff_showing.mpr ⟨rfl, hsupported⟩,
    Instant.localClock_showing hw.valid hw.time⟩

-- ---------------------------------------------------------------------------
-- The moment that is read
-- ---------------------------------------------------------------------------

namespace DatePattern

variable {p : DatePattern}

/-- What is read shows the date that was written, and the time of the hour and the minute. -/
theorem parseDateTime_write {w : WallClock} (hw : w.Writable) (zone : Zone) :
    ∃ i, parseDateTime zone (p.write w) p.text = .ok i ∧
      i.localClock zone = ⟨w.date, p.readTime w.time⟩ := by
  have hread : WallClock.Writable ⟨w.date, p.readTime w.time⟩ :=
    ⟨hw.valid, hw.first, hw.last, isValid_readTime hw.time⟩
  obtain ⟨i, hi, hclock⟩ := hread.exists_instant zone
  refine ⟨i, ?_, hclock⟩
  unfold parseDateTime
  dsimp only [Option.bind_eq_bind]
  rw [p.trim_write, readFields?_write hw, Option.bind_some, date?_found hw, Option.bind_some,
    time_found hw, hi]

/-- A pattern keeps the time if it names the hour and the minute, or no field of the time. -/
def KeepsTime (p : DatePattern) : Prop :=
  (.hour ∈ p.fields ∧ .minute ∈ p.fields) ∨
    .hour ∉ p.fields ∧ .minute ∉ p.fields ∧ .second ∉ p.fields

/-- A pattern that keeps the time reads just what it names. -/
theorem readTime_eq_namedTime (h : p.KeepsTime) (t : TimeOfDay) :
    p.readTime t = p.namedTime t := by
  rcases h with hboth | ⟨hhour, hminute, hsecond⟩
  · rw [readTime, if_pos hboth]
  · simp [readTime, namedTime, hhour, hminute, hsecond, TimeOfDay.midnight]

/-- The time 01:01:01 is told apart from midnight by each of its fields. -/
theorem keepsTime_of_readTime (h : p.readTime ⟨1, 1, 1⟩ = p.namedTime ⟨1, 1, 1⟩) :
    p.KeepsTime := by
  by_cases hboth : .hour ∈ p.fields ∧ .minute ∈ p.fields
  · exact .inl hboth
  · rw [readTime, if_neg hboth] at h
    simp only [TimeOfDay.midnight, namedTime, TimeOfDay.mk.injEq] at h
    obtain ⟨hhour, hminute, hsecond⟩ := h
    refine .inr ⟨fun hmem => ?_, fun hmem => ?_, fun hmem => ?_⟩
    · rw [if_pos hmem] at hhour; omega
    · rw [if_pos hmem] at hminute; omega
    · rw [if_pos hmem] at hsecond; omega

/-- A date that is written by a pattern is always read again, in any zone. Of the time, the fields
that the pattern names are kept if it names the hour and the minute; otherwise midnight is read, so
that a pattern keeps what it names only if it names both of them, or nothing of the time. -/
theorem keeps_fields_iff (p : DatePattern) (zone : Zone) {d : Date} (hvalid : d.isValid)
    (hfirst : 0 ≤ d.year) (hlast : d.year ≤ 9999) :
    (∀ t : TimeOfDay, t.isValid → ∃ i, parseDateTime zone (p.write ⟨d, t⟩) p.text = .ok i ∧
      i.localClock zone = ⟨d, p.readTime t⟩) ∧
    ((∀ t : TimeOfDay, t.isValid → ∃ i, parseDateTime zone (p.write ⟨d, t⟩) p.text = .ok i ∧
      i.localClock zone = ⟨d, p.namedTime t⟩) ↔ p.KeepsTime) := by
  have hreads (t : TimeOfDay) (ht : t.isValid) :
      ∃ i, parseDateTime zone (p.write ⟨d, t⟩) p.text = .ok i ∧
        i.localClock zone = ⟨d, p.readTime t⟩ :=
    parseDateTime_write ⟨hvalid, hfirst, hlast, ht⟩ zone
  refine ⟨hreads, fun hkeeps => ?_, fun hkeeps t ht => ?_⟩
  · obtain ⟨i, hi, hread⟩ := hreads ⟨1, 1, 1⟩ rfl
    obtain ⟨j, hj, hnamed⟩ := hkeeps ⟨1, 1, 1⟩ rfl
    -- one text is read as one moment
    obtain rfl : i = j := by rw [hi] at hj; exact Except.ok.inj hj
    rw [hread] at hnamed
    exact keepsTime_of_readTime (congrArg WallClock.time hnamed)
  · rw [← readTime_eq_namedTime hkeeps]
    exact hreads t ht

/-- Day, month and year with the hour behind them. -/
def byTheHour : DatePattern where
  first := ⟨['D', 'D'], .day, by decide⟩
  more := [('-', ⟨['M', 'M'], .month, by decide⟩), ('-', ⟨['Y', 'Y', 'Y', 'Y'], .year, by decide⟩),
    (' ', ⟨['H', 'H'], .hour, by decide⟩)]
  separated := by decide
  once := by decide
  dated := by decide
  whole := by decide

/-- One in the afternoon of 15 March 2024, by the hour: the hour is written and named, but what is
read is midnight. -/
theorem keeps_fields_iff_byTheHour :
    byTheHour.text = "DD-MM-YYYY HH" ∧
    byTheHour.write ⟨⟨2024, 3, 15⟩, ⟨13, 0, 0⟩⟩ = "15-03-2024 13" ∧
    byTheHour.namedTime ⟨13, 0, 0⟩ = ⟨13, 0, 0⟩ ∧
    (∃ i, parseDateTime .utc "15-03-2024 13" "DD-MM-YYYY HH" = .ok i ∧
      i.localClock .utc = ⟨⟨2024, 3, 15⟩, ⟨0, 0, 0⟩⟩) ∧
    ¬byTheHour.KeepsTime := by
  obtain ⟨hreads, hkeeps⟩ :=
    byTheHour.keeps_fields_iff .utc (d := ⟨2024, 3, 15⟩) (by decide) (by decide) (by decide)
  refine ⟨by decide, by decide, by decide, hreads ⟨13, 0, 0⟩ rfl, fun h => ?_⟩
  obtain ⟨i, hi, hclock⟩ := hkeeps.mpr h ⟨13, 0, 0⟩ rfl
  obtain ⟨j, hj, hmidnight⟩ := hreads ⟨13, 0, 0⟩ rfl
  obtain rfl : i = j := by rw [hi] at hj; exact Except.ok.inj hj
  rw [hclock] at hmidnight
  exact absurd (congrArg (·.time.hour) hmidnight) (by decide)

end DatePattern

end Formulae.Calendar
