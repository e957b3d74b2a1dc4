/-
Durations that are read from texts.  A text is read exactly if it writes a
number that fits 64 bits, in digits, and after it a unit in any letter case or
nothing at all, with blanks anywhere but inside these two; what is read is
that many of the unit.  So whatever number of whichever unit is written, it is
read again.
-/
import WindowedMetrics.Export.Properties
import WindowedMetrics.Proofs.Number.Reader
import WindowedMetrics.Proofs.Text.Trimming

namespace WindowedMetrics

/-! ### Units -/

/-- The units of written durations. -/
inductive DurationUnit
  | nanoseconds
  | microseconds
  | milliseconds
  | seconds
  | minutes
  | hours
  | days
deriving Repr, DecidableEq

namespace DurationUnit

/-- The letters that a unit is written with. -/
def symbol : DurationUnit → String
  | nanoseconds => "ns"
  | microseconds => "us"
  | milliseconds => "ms"
  | seconds => "s"
  | minutes => "m"
  | hours => "h"
  | days => "d"

/-- Nanoseconds in one unit. -/
def inNanos : DurationUnit → Nat
  | nanoseconds => 1
  | microseconds => 1000
  | milliseconds => 1000000
  | seconds => 1000000000
  | minutes => 60 * 1000000000
  | hours => 60 * 60 * 1000000000
  | days => 24 * 60 * 60 * 1000000000

/-- That many of a unit.  Minutes, hours and days are counted in seconds, of
which there are no more than fit 64 bits. -/
def duration (unit : DurationUnit) (amount : Nat) : Duration :=
  if unit.inNanos ≤ 1000000000 then .ofNanos (amount * unit.inNanos)
  else
    .ofSeconds (min (amount * (unit.inNanos / 1000000000))
      Duration.maxSeconds)

/-- What a unit may be called: its symbol in any letter case, or nothing at
all for milliseconds. -/
inductive NamedBy : DurationUnit → List Char → Prop
  | symbol {unit : DurationUnit} {name : List Char}
      (h : name.map Char.toLower = unit.symbol.toList) : NamedBy unit name
  | nothing : NamedBy milliseconds []

theorem namedBy_iff {unit : DurationUnit} {name : List Char} :
    unit.NamedBy name ↔
      lowerAscii (String.ofList name) = unit.symbol ∨
        lowerAscii (String.ofList name) = "" ∧ unit = milliseconds := by
  rw [lowerAscii_ofList_eq_iff, lowerAscii_ofList_eq_iff]
  constructor
  · intro h
    cases h with
    | symbol h => exact .inl h
    | nothing => exact .inr ⟨rfl, rfl⟩
  · rintro (h | ⟨h, rfl⟩)
    · exact .symbol h
    · obtain rfl : name = [] := List.map_eq_nil_iff.mp h
      exact .nothing

/-- The symbols are made of letters. -/
theorem isAlpha_of_mem_symbol (unit : DurationUnit) :
    ∀ c ∈ unit.symbol.toList, c.isAlpha = true := by
  rw [← List.all_eq_true]
  cases unit <;> decide

theorem NamedBy.isAlpha {unit : DurationUnit} {name : List Char}
    (h : unit.NamedBy name) : ∀ c ∈ name, c.isAlpha = true := by
  cases h with
  | symbol h =>
      intro c hc
      apply isAlpha_of_isAlpha_toLower
      apply unit.isAlpha_of_mem_symbol
      rw [← h]
      exact List.mem_map_of_mem hc
  | nothing => exact List.forall_mem_nil _

end DurationUnit

section Named

variable {amount : Nat} {name : String}

theorem durationOf_of_name {unit : DurationUnit}
    (h : name = unit.symbol ∨ name = "" ∧ unit = .milliseconds) :
    durationOf amount name = .ok (unit.duration amount) := by
  rcases h with rfl | ⟨rfl, rfl⟩
  · cases unit <;> simp [durationOf, DurationUnit.symbol,
      DurationUnit.duration, DurationUnit.inNanos, Duration.ofNanos,
      Duration.ofMicros, Duration.ofMillis, Duration.ofSeconds,
      Duration.maxSeconds]
  · rfl

theorem exists_name_of_durationOf {d : Duration}
    (h : durationOf amount name = .ok d) :
    ∃ unit : DurationUnit,
      name = unit.symbol ∨ name = "" ∧ unit = .milliseconds := by
  unfold durationOf at h
  split at h
  · exact ⟨.nanoseconds, .inl rfl⟩
  · exact ⟨.microseconds, .inl rfl⟩
  · exact ⟨.milliseconds, .inr ⟨rfl, rfl⟩⟩
  · exact ⟨.milliseconds, .inl rfl⟩
  · exact ⟨.seconds, .inl rfl⟩
  · exact ⟨.minutes, .inl rfl⟩
  · exact ⟨.hours, .inl rfl⟩
  · exact ⟨.days, .inl rfl⟩
  · cases h

end Named

/-- The units that are known are the ones with a name, in any letter case. -/
theorem durationOf_eq_ok_iff {amount : Nat} {name : List Char}
    {d : Duration} :
    durationOf amount (lowerAscii (String.ofList name)) = .ok d ↔
      ∃ unit : DurationUnit, unit.NamedBy name ∧ d = unit.duration amount := by
  simp only [DurationUnit.namedBy_iff]
  constructor
  · intro h
    obtain ⟨unit, hname⟩ := exists_name_of_durationOf h
    rw [durationOf_of_name hname] at h
    exact ⟨unit, hname, (Except.ok.inj h).symm⟩
  · rintro ⟨unit, hname, rfl⟩
    exact durationOf_of_name hname

/-! ### Written durations -/

/-- A number in digits and a unit, with blanks before, between and after
them. -/
inductive WritesDuration : List Char → Nat → DurationUnit → Prop
  | intro (before digits gap name after : List Char) (unit : DurationUnit)
      (hbefore : AllBlank before) (hsome : digits ≠ [])
      (hdigits : ∀ c ∈ digits, c.isDigit = true) (hgap : AllBlank gap)
      (hname : unit.NamedBy name) (hafter : AllBlank after) :
      WritesDuration (before ++ digits ++ gap ++ name ++ after)
        (Nat.ofDigitChars 10 digits 0) unit

theorem readDuration_eq_ok_iff {text : String} {d : Duration} :
    readDuration text = .ok d ↔
      ∃ amount, readUnsigned? UInt64.size
          (String.ofList (spanDigits (trimChars text.toList)).1) = some amount ∧
        durationOf amount (lowerAscii (String.ofList
          (trimChars (spanDigits (trimChars text.toList)).2))) = .ok d := by
  unfold readDuration
  generalize spanDigits (trimChars text.toList) = parts
  obtain ⟨digits, unit⟩ := parts
  simp only
  cases readUnsigned? UInt64.size (String.ofList digits) with
  | none => simp
  | some amount => simp

/-- What is read was written: the digits are the front of the trimmed text,
and the unit is what is left of the rest when it is trimmed. -/
theorem exists_writes_of_read {text : String} {d : Duration}
    (h : readDuration text = .ok d) :
    ∃ amount unit, WritesDuration text.toList amount unit ∧
      amount < UInt64.size ∧ d = unit.duration amount := by
  obtain ⟨amount, hamount, hunit⟩ := readDuration_eq_ok_iff.mp h
  obtain ⟨digits, rest, hspan, hparts, hdigits, -⟩ :=
    exists_spanDigits (trimChars text.toList)
  rw [hspan] at hamount hunit
  obtain ⟨hsome, rfl, hfits⟩ :=
    (readUnsigned?_ofList_eq_some_iff hdigits).mp hamount
  obtain ⟨unit, hname, rfl⟩ := durationOf_eq_ok_iff.mp hunit
  obtain ⟨before, after, hbefore, hafter, htext⟩ :=
    exists_trimChars text.toList
  obtain ⟨gap, ending, hgap, hending, hrest⟩ := exists_trimChars rest
  refine ⟨_, unit, ?_, hfits, rfl⟩
  have hwhole : text.toList =
      before ++ digits ++ gap ++ trimChars rest ++ (ending ++ after) := by
    calc text.toList
        = before ++ (digits ++ rest) ++ after := by rw [← hparts, ← htext]
      _ = before ++ (digits ++ (gap ++ trimChars rest ++ ending)) ++ after := by
          rw [← hrest]
      _ = before ++ digits ++ gap ++ trimChars rest ++ (ending ++ after) := by
          simp only [List.append_assoc]
  rw [hwhole]
  exact .intro before digits gap _ _ unit hbefore hsome hdigits hgap hname
    (hending.append hafter)

/-- What is written is cut into its digits and its name again. -/
theorem WritesDuration.exists_spanDigits {text : List Char} {amount : Nat}
    {unit : DurationUnit} (h : WritesDuration text amount unit) :
    ∃ digits rest, spanDigits (trimChars text) = (digits, rest) ∧
      (∀ c ∈ digits, c.isDigit = true) ∧ digits ≠ [] ∧
      Nat.ofDigitChars 10 digits 0 = amount ∧
      unit.NamedBy (trimChars rest) := by
  cases h with
  | intro before digits gap name after unit hbefore hsome hdigits hgap hname
      hafter =>
      have hnumber : Trimmed digits :=
        .of_forall fun c hc => isBlank_of_isDigit (hdigits c hc)
      by_cases hunnamed : name = []
      · -- The gap belongs to the blanks at the end.
        subst hunnamed
        have htrim :
            trimChars (before ++ digits ++ gap ++ [] ++ after) = digits := by
          rw [List.append_nil, List.append_assoc,
            trimChars_padded hbefore digits (hgap.append hafter),
            hnumber.trimChars_eq]
        refine ⟨digits, [], ?_, hdigits, hsome, rfl, hname⟩
        rw [htrim]
        have hspan : spanDigits (digits ++ []) = (digits, []) :=
          spanDigits_append hdigits nofun
        rwa [List.append_nil] at hspan
      · have hletters : ∀ c ∈ name, isBlank c = false ∧ c.isDigit = false :=
          fun c hc => of_isAlpha (hname.isAlpha c hc)
        have hword : Trimmed name := .of_forall fun c hc => (hletters c hc).1
        have htrim : trimChars (before ++ digits ++ gap ++ name ++ after) =
            digits ++ (gap ++ name) := by
          have hwhole : Trimmed (digits ++ gap ++ name) :=
            hnumber.append hsome hword hunnamed
          rw [← List.append_assoc, ← hwhole.trimChars_eq,
            ← trimChars_padded hbefore (digits ++ gap ++ name) hafter]
          simp only [List.append_assoc]
        have hrest : ∀ c ∈ (gap ++ name).head?, c.isDigit = false := by
          intro c hc
          rcases List.mem_append.mp (List.mem_of_mem_head? hc) with hc | hc
          · exact isDigit_of_isBlank (hgap c hc)
          · exact (hletters c hc).2
        refine ⟨digits, gap ++ name, ?_, hdigits, hsome, rfl, ?_⟩
        · rw [htrim, spanDigits_append hdigits hrest]
        · rw [trimChars_append_left hgap, hword.trimChars_eq]
          exact hname

/-- What is written is read, if the number fits 64 bits. -/
theorem WritesDuration.readDuration_eq {text : String} {amount : Nat}
    {unit : DurationUnit} (h : WritesDuration text.toList amount unit)
    (hfits : amount < UInt64.size) :
    readDuration text = .ok (unit.duration amount) := by
  obtain ⟨digits, rest, hspan, hdigits, hsome, hamount, hname⟩ :=
    h.exists_spanDigits
  rw [readDuration_eq_ok_iff, hspan]
  exact ⟨amount,
    (readUnsigned?_ofList_eq_some_iff hdigits).mpr ⟨hsome, hamount, hfits⟩,
    durationOf_eq_ok_iff.mpr ⟨unit, hname, rfl⟩⟩

/-! ### Units written out -/

namespace DurationUnit

theorem namedBy_symbol (unit : DurationUnit) :
    unit.NamedBy unit.symbol.toList :=
  .symbol (by cases unit <;> rfl)

/-- A number and a unit without any blanks. -/
theorem writesDuration (unit : DurationUnit) (amount : Nat) :
    WritesDuration (digitText amount ++ unit.symbol).toList amount unit := by
  have hdigits : ∀ c ∈ Nat.toDigits 10 amount, c.isDigit = true :=
    fun c hc => Nat.isDigit_of_mem_toDigits (by decide) (by decide) hc
  have h := WritesDuration.intro [] (Nat.toDigits 10 amount) []
    unit.symbol.toList [] unit (List.forall_mem_nil _) Nat.toDigits_ne_nil
    hdigits (List.forall_mem_nil _) unit.namedBy_symbol (List.forall_mem_nil _)
  rw [Nat.ofDigitChars_ten_toDigits] at h
  simpa [digitText] using h

/-- Of a number that fits 64 bits nothing is cut off but seconds that do
not. -/
theorem nanos_duration (unit : DurationUnit) {amount : Nat}
    (hfits : amount < UInt64.size) :
    (unit.duration amount).nanos =
      min (amount * unit.inNanos) (Duration.maxSeconds * 1000000000) := by
  have hmost : UInt64.size = Duration.maxSeconds + 1 := rfl
  cases unit <;>
    simp [duration, inNanos, Duration.ofNanos, Duration.ofSeconds] <;> omega

end DurationUnit

/-- What is read as a duration is what writes a number that fits 64 bits with
a unit, and it is read as that many of the unit.  Every such number of every
unit that is written without blanks is read again, exactly except for the
seconds that do not fit. -/
theorem durations_read_as_written :
    (∀ (text : String) (d : Duration), readDuration text = .ok d ↔
      ∃ amount unit, WritesDuration text.toList amount unit ∧
        amount < UInt64.size ∧ d = unit.duration amount) ∧
    ∀ (amount : Nat) (unit : DurationUnit), amount < UInt64.size →
      readDuration (digitText amount ++ unit.symbol) =
        .ok (unit.duration amount) ∧
      (unit.duration amount).nanos =
        min (amount * unit.inNanos) (Duration.maxSeconds * 1000000000) := by
  refine ⟨fun text d => ⟨exists_writes_of_read, ?_⟩,
    fun amount unit hfits => ⟨?_, unit.nanos_duration hfits⟩⟩
  · rintro ⟨amount, unit, hwrites, hfits, rfl⟩
    exact hwrites.readDuration_eq hfits
  · exact (unit.writesDuration amount).readDuration_eq hfits

/-- Leading zeros, an upper case unit and blanks of several kinds; a number
alone; and more days than there are seconds. -/
theorem durations_read_as_written_among_blanks :
    readDuration "\t007\u00a0Ms\u2003" = .ok (.ofMillis 7) ∧
      readDuration " 250" = .ok (.ofMillis 250) ∧
      Duration.maxSeconds < UInt64.size ∧
      readDuration (digitText Duration.maxSeconds ++ "d") =
        .ok (.ofSeconds Duration.maxSeconds) := by
  have hpadded : WritesDuration "\t007\u00a0Ms\u2003".toList 7 .milliseconds :=
    .intro ['\t'] ['0', '0', '7'] ['\u00a0'] ['M', 's'] ['\u2003'] _
      (by decide) (by decide) (List.all_eq_true.mp (by decide)) (by decide)
      (.symbol (by decide)) (by decide)
  have halone : WritesDuration " 250".toList 250 .milliseconds :=
    .intro [' '] ['2', '5', '0'] [] [] [] _ (by decide) (by decide)
      (List.all_eq_true.mp (by decide)) (by decide) .nothing (by decide)
  obtain ⟨hread, hagain⟩ := durations_read_as_written
  exact ⟨(hread _ _).mpr ⟨7, _, hpadded, by decide, by decide⟩,
    (hread _ _).mpr ⟨250, _, halone, by decide, by decide⟩, by decide,
    (hagain Duration.maxSeconds .days (by decide)).1⟩

end WindowedMetrics
