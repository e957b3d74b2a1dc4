/-
Reading an exporter's configuration from named properties, with the common
environment variables behind some of them.  Every supplied text has to be
well formed; a fault names its key and quotes the text.
-/
import WindowedMetrics.Export.Settings
import WindowedMetrics.Number.Reader

namespace WindowedMetrics

/-- A supplied value that cannot be used. -/
structure SettingError where
  key : String
  value : String
  reason : String
deriving Repr, DecidableEq

/-- The wording of an error. -/
def SettingError.message (e : SettingError) : String :=
  "invalid value `" ++ e.value ++ "` for `" ++ e.key ++ "`: " ++ e.reason

/-- Texts by key. -/
abbrev Lookup := String → Option String

/-- A reader of trimmed texts; the error says what was expected. -/
abbrev SettingReader (A : Type) := String → Except String A

/-! ### Readers of single values -/

/-- The duration of an amount of a unit.  No unit means milliseconds; the
seconds of the larger units are cut to 64 bits. -/
def durationOf (amount : Nat) (unit : String) : Except String Duration :=
  let seconds := fun (factor : Nat) =>
    Duration.ofSeconds (min (amount * factor) Duration.maxSeconds)
  match unit with
  | "ns" => .ok (.ofNanos amount)
  | "us" => .ok (.ofMicros amount)
  | "" | "ms" => .ok (.ofMillis amount)
  | "s" => .ok (.ofSeconds amount)
  | "m" => .ok (seconds 60)
  | "h" => .ok (seconds 3600)
  | "d" => .ok (seconds 86400)
  | other => .error s!"unknown duration unit `{other}`"

/-- Reads a whole number followed by a unit of time in any letter case. -/
def readDuration : SettingReader Duration := fun text =>
  let (digits, unit) := spanDigits (trimChars text.toList)
  match readUnsigned? UInt64.size (String.ofList digits) with
  | none => .error "expected a whole number followed by a unit"
  | some amount =>
      durationOf amount (lowerAscii (String.ofList (trimChars unit)))

/-- Splits a text at the first separator. -/
def splitOnce? (separator : Char) (text : List Char) :
    Option (List Char × List Char) :=
  match text.dropWhile (· ≠ separator) with
  | [] => none
  | _ :: rest => some (text.takeWhile (· ≠ separator), rest)

/-- The key and value of a trimmed pair `key=value`; none for a pair without
key or shorter than three bytes. -/
def attributeOf? (pair : List Char) : Option (String × String) :=
  if (String.ofList pair).utf8ByteSize ≤ 2 then none
  else
    match splitOnce? '=' pair with
    | some (first :: key, value) =>
        some (String.ofList (trimChars (first :: key)),
          String.ofList (trimChars value))
    | _ => none

/-- Reads pairs `key=value` between commas.  What is no pair is skipped, and
of two with the same key the last one wins in the place of the first. -/
def readAttributes (text : String) : Attributes :=
  let pieces := (splitChars ',' (trimChars text.toList)).map trimChars
  (pieces.filterMap attributeOf?).foldl
    (fun attributes pair => setAttribute attributes pair.1 pair.2) []

/-- Reads digits of precision. -/
def readPrecision : SettingReader Nat := fun text =>
  match readUnsigned? 256 text with
  | some digits =>
      if digits ≤ 5 then .ok digits
      else .error "expected digits of precision between 0 and 5"
  | none => .error "expected digits of precision between 0 and 5"

/-- Reads a truth value in any letter case. -/
def readBool : SettingReader Bool := fun text =>
  match lowerAscii text with
  | "true" => .ok true
  | "false" => .ok false
  | _ => .error "expected `true` or `false`"

/-- Reads a number other than NaN. -/
def readNumber : SettingReader Float := fun text =>
  match readFloat? text with
  | some number =>
      if number.isNaN then .error "expected a number" else .ok number
  | none => .error "expected a number"

/-- Reads a whole number above zero. -/
def readPositive : SettingReader Nat := fun text =>
  match readUnsigned? UInt64.size text with
  | some (n + 1) => .ok (n + 1)
  | _ => .error "expected a positive whole number"

/-- Reads numbers between commas; empty items are skipped. -/
def readNumbers : SettingReader (List Float) := fun text =>
  let items := (splitChars ',' text.toList).map trimChars
  (items.filter (!·.isEmpty)).mapM fun item =>
    readNumber (String.ofList item)

/-! ### Reading a configuration -/

/-- Reads the value of a key, if one is supplied. -/
def readKey {A : Type} (lookup : Lookup) (key : String)
    (reader : SettingReader A) : Except SettingError (Option A) :=
  match lookup key with
  | none => .ok none
  | some text =>
      match reader (trim text) with
      | .ok value => .ok (some value)
      | .error reason => .error ⟨key, text, reason⟩

/-- Reads the value of a key or else of a second one. -/
def readKeyOr {A : Type} (lookup : Lookup) (key other : String)
    (reader : SettingReader A) : Except SettingError (Option A) :=
  match readKey lookup key reader with
  | .ok none => readKey lookup other reader
  | outcome => outcome

/-- A property's key: its name after the common start and a point. -/
def propertyKey (start name : String) : String := start ++ "." ++ name

/-- The environment variables that stand behind properties. -/
def intervalVariable : String := "OTEL_METRIC_EXPORT_INTERVAL"

def temporalityVariable : String :=
  "OTEL_EXPORTER_OTLP_METRICS_TEMPORALITY_PREFERENCE"

def resourceVariable : String := "OTEL_RESOURCE_ATTRIBUTES"

def serviceVariable : String := "OTEL_SERVICE_NAME"

/-- The resource attributes: from the property or else the environment, and
the service name from the environment if they do not have it. -/
def readResource (lookup : Lookup) (start : String) : Attributes :=
  let text := (lookup (propertyKey start "resourceAttributes")).or
    (lookup resourceVariable)
  let attributes := readAttributes (text.getD "")
  match attributes.lookup "service.name", lookup serviceVariable with
  | none, some service => setAttribute attributes "service.name" service
  | _, _ => attributes

/-- Reads the percentiles, which have to be fractions. -/
def readPercentiles (lookup : Lookup) (start : String) :
    Except SettingError (Option (List Float)) := do
  let key := propertyKey start "percentiles"
  let percentiles ← readKey lookup key readNumbers
  match (percentiles.getD []).find? fun p => !DistributionSettings.isFraction p
      with
  | some bad =>
      throw ⟨key, FloatFormat.plain.write bad,
        "percentiles must be between 0 and 1"⟩
  | none => return percentiles

/-- Reads the expected range, whose ends have to be in order. -/
def readRange (lookup : Lookup) (start : String) :
    Except SettingError (Option Float × Option Float) := do
  let minKey := propertyKey start "minimumExpectedValue"
  let maxKey := propertyKey start "maximumExpectedValue"
  let min ← readKey lookup minKey readNumber
  let max ← readKey lookup maxKey readNumber
  match min, max with
  | some low, some high =>
      if high < low then
        throw ⟨minKey, FloatFormat.plain.write low,
          "exceeds " ++ maxKey ++ " (" ++ FloatFormat.plain.write high ++ ")"⟩
      else return (min, max)
  | _, _ => return (min, max)

/-- Reads the expiry and the number of buffers it is split over, which have
to leave a millisecond for each. -/
def readExpiry (lookup : Lookup) (start : String) :
    Except SettingError (Option Duration × Option Nat) := do
  let expiryKey := propertyKey start "histogramExpiry"
  let expiry ← readKey lookup expiryKey readDuration
  let length ←
    readKey lookup (propertyKey start "histogramBufferLength") readPositive
  let slots := { DistributionSettings.empty with bufferLength := length }.slots
  match expiry with
  | some duration =>
      if duration.millis / slots = 0 then
        throw ⟨expiryKey, duration.text,
          "must leave at least 1ms for each of " ++ toString slots ++
            " buffers"⟩
      else return (expiry, length)
  | none => return (expiry, length)

/-- Reads the settings of distributions. -/
def readDistribution (lookup : Lookup) (start : String) :
    Except SettingError DistributionSettings := do
  let key := propertyKey start
  let percentiles ← readPercentiles lookup start
  let precision ← readKey lookup (key "percentilePrecision") readPrecision
  let ladder ← readKey lookup (key "percentileHistogram") readBool
  let objectives ← readKey lookup (key "serviceLevelObjectives") readNumbers
  let (min, max) ← readRange lookup start
  let (expiry, bufferLength) ← readExpiry lookup start
  return { percentiles := percentiles, precision := precision,
           ladder := ladder, objectives := objectives, min := min, max := max,
           expiry := expiry, bufferLength := bufferLength }

/-- Reads the length of a step, which has to be positive. -/
def readStep (lookup : Lookup) (start : String) :
    Except SettingError Duration := do
  let key := propertyKey start "step"
  let step ← readKeyOr lookup key intervalVariable readDuration
  let step := step.getD ExportSettings.standard.step
  if step.nanos = 0 then throw ⟨key, "0", "step must be positive"⟩
  else return step

/-- Reads a whole configuration.  What is not supplied keeps its standard
value; the first fault wins. -/
def ExportSettings.read (start : String) (lookup : Lookup) :
    Except SettingError ExportSettings := do
  let key := propertyKey start
  let standard := ExportSettings.standard
  let step ← readStep lookup start
  let temporality ← readKeyOr lookup (key "aggregationTemporality")
    temporalityVariable Temporality.read
  let unit ← readKey lookup (key "baseTimeUnit") TimeUnit.read
  let distribution ← readDistribution lookup start
  let exemplars ← readKey lookup (key "exemplars") readBool
  let cells ← readKey lookup (key "exemplarCells") readPositive
  return { step := step
           temporality := temporality.getD standard.temporality
           baseTimeUnit := unit.getD standard.baseTimeUnit
           distribution := distribution
           exemplars := exemplars.getD standard.exemplars
           exemplarCells := cells.getD standard.exemplarCells
           resource := readResource lookup start
           scopeName := standard.scopeName }

end WindowedMetrics
