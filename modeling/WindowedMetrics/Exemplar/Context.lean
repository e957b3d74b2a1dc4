/-
The trace context that a measurement is taken in.
-/

namespace WindowedMetrics

/-- The value of a hexadecimal digit in either case. -/
def hexDigit? (c : Char) : Option Nat :=
  if '0' ≤ c ∧ c ≤ '9' then some (c.toNat - '0'.toNat)
  else if 'a' ≤ c ∧ c ≤ 'f' then some (c.toNat - 'a'.toNat + 10)
  else if 'A' ≤ c ∧ c ≤ 'F' then some (c.toNat - 'A'.toNat + 10)
  else none

/-- Reads pairs of hexadecimal digits as bytes. -/
def hexBytes? : List Char → Option (List UInt8)
  | [] => some []
  | [_] => none
  | high :: low :: rest => do
      let high ← hexDigit? high
      let low ← hexDigit? low
      let bytes ← hexBytes? rest
      return (16 * high + low).toUInt8 :: bytes

/-- Two hexadecimal digits for each byte, in lower case. -/
def hexText (bytes : List UInt8) : String :=
  String.ofList (bytes.flatMap fun byte =>
    [Nat.digitChar (byte.toNat / 16), Nat.digitChar (byte.toNat % 16)])

/-- Identifiers of the trace and span in progress, where known, and further
attributes. -/
structure TraceContext where
  traceId : Option (List UInt8)
  spanId : Option (List UInt8)
  attributes : List (String × String)
deriving DecidableEq

namespace TraceContext

/-- A context without any information. -/
def empty : TraceContext := ⟨none, none, []⟩

/-- A context from hexadecimal identifiers; one that is not well formed is
left unset. -/
def ofHex (traceId spanId : String) : TraceContext :=
  ⟨hexBytes? traceId.toList, hexBytes? spanId.toList, []⟩

/-- Adds an attribute at the end. -/
def withAttribute (c : TraceContext) (key value : String) : TraceContext :=
  { c with attributes := c.attributes ++ [(key, value)] }

end TraceContext

/-- A sampled measurement: its value, its wall time in nanoseconds, and the
context it was taken in. -/
structure Exemplar where
  value : Float
  timeNanos : Int
  context : TraceContext

end WindowedMetrics
