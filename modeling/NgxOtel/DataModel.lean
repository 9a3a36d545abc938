import NgxOtel.Lib.Wire

/-!
# The data model

The types of `data_model/mod.rs`: what the exporter builds from the rings and from shared memory,
and what the encoders turn into export requests.

* `AnyValue`, `KeyValue`, `Resource`, `Scope` — attributes and what they describe.
* `LogRecord`, `Span`, `Metric` — the items of the three signals.
* `Pdata` — a payload of any of them.
* `Decoding` — what the exporter makes of bytes that need not be UTF-8 and of a duration in
  microseconds; neither conversion is looked into.

A floating-point number is a value of an arbitrary type `F`: no result is about its arithmetic.
-/

set_option autoImplicit false

namespace NgxOtel.DataModel

open Word Wire

/-! ## Attributes -/

inductive AnyValue (F : Type) where
  | string (text : String)
  | bool (value : Bool)
  | int (value : Int)
  | double (value : F)
  | bytes (value : Bytes)
  | array (values : List (AnyValue F))

structure KeyValue (F : Type) where
  key : String
  value : AnyValue F

structure Resource (F : Type) where
  attributes : List (KeyValue F)

structure Scope where
  name : String
  version : String

/-! ## Metrics -/

inductive AggregationTemporality where
  | unspecified
  | delta
  | cumulative
  deriving DecidableEq, Repr

/-- The number of a temporality. -/
def AggregationTemporality.code : AggregationTemporality → UInt8
  | unspecified => 0
  | delta => 1
  | cumulative => 2

inductive NumberValue (F : Type) where
  | asInt (value : Int)
  | asDouble (value : F)

structure NumberDataPoint (F : Type) where
  attributes : List (KeyValue F)
  startTimeUnixNano : UInt64
  timeUnixNano : UInt64
  value : NumberValue F

structure HistogramDataPoint (F : Type) where
  attributes : List (KeyValue F)
  startTimeUnixNano : UInt64
  timeUnixNano : UInt64
  count : UInt64
  sum : F
  bucketCounts : List UInt64
  explicitBounds : List F

structure Exemplar (F : Type) where
  value : F
  timeUnixNano : UInt64
  traceId : Octets 16
  spanId : Octets 8
  hasTrace : Bool
  filteredAttributes : List (KeyValue F)

structure ExponentialHistogramDataPoint (F : Type) where
  attributes : List (KeyValue F)
  startTimeUnixNano : UInt64
  timeUnixNano : UInt64
  count : UInt64
  sum : F
  scale : Int32
  zeroCount : UInt64
  positiveOffset : Int32
  positiveBucketCounts : List UInt64
  exemplars : List (Exemplar F)

/-- `MetricData`, with the structures of its four kinds inlined. -/
inductive MetricData (F : Type) where
  | histogram (temporality : AggregationTemporality) (points : List (HistogramDataPoint F))
  | exponentialHistogram (temporality : AggregationTemporality)
      (points : List (ExponentialHistogramDataPoint F))
  | sum (temporality : AggregationTemporality) (isMonotonic : Bool)
      (points : List (NumberDataPoint F))
  | gauge (points : List (NumberDataPoint F))

structure Metric (F : Type) where
  name : String
  description : String
  unit : String
  data : MetricData F

structure Batch (F : Type) where
  resource : Resource F
  scope : Scope
  metrics : List (Metric F)

/-! ## Logs -/

inductive SeverityNumber where
  | unspecified
  | trace | trace2 | trace3 | trace4
  | debug | debug2 | debug3 | debug4
  | info | info2 | info3 | info4
  | warn | warn2 | warn3 | warn4
  | error | error2 | error3 | error4
  | fatal | fatal2 | fatal3 | fatal4
  deriving DecidableEq, Repr

/-- The number of a severity. -/
def SeverityNumber.code : SeverityNumber → UInt8
  | unspecified => 0
  | trace => 1 | trace2 => 2 | trace3 => 3 | trace4 => 4
  | debug => 5 | debug2 => 6 | debug3 => 7 | debug4 => 8
  | info => 9 | info2 => 10 | info3 => 11 | info4 => 12
  | warn => 13 | warn2 => 14 | warn3 => 15 | warn4 => 16
  | error => 17 | error2 => 18 | error3 => 19 | error4 => 20
  | fatal => 21 | fatal2 => 22 | fatal3 => 23 | fatal4 => 24

structure LogRecord (F : Type) where
  timeUnixNano : UInt64
  observedTimeUnixNano : UInt64
  severityNumber : SeverityNumber
  severityText : String
  body : AnyValue F
  attributes : List (KeyValue F)
  eventName : String
  traceId : Bytes
  spanId : Bytes

structure LogsBatch (F : Type) where
  resource : Resource F
  scope : Scope
  logs : List (LogRecord F)

/-! ## Spans -/

inductive SpanKind where
  | unspecified
  | internal
  | server
  | client
  | producer
  | consumer
  deriving DecidableEq, Repr

/-- The number of a span kind. -/
def SpanKind.code : SpanKind → UInt8
  | unspecified => 0
  | internal => 1
  | server => 2
  | client => 3
  | producer => 4
  | consumer => 5

inductive StatusCode where
  | unset
  | ok
  | error
  deriving DecidableEq, Repr

/-- The number of a status code. -/
def StatusCode.code : StatusCode → UInt8
  | unset => 0
  | ok => 1
  | error => 2

structure SpanStatus where
  code : StatusCode
  message : String
  deriving DecidableEq, Repr

structure SpanEvent (F : Type) where
  timeUnixNano : UInt64
  name : String
  attributes : List (KeyValue F)

structure SpanLink (F : Type) where
  traceId : Bytes
  spanId : Bytes
  flags : UInt32
  attributes : List (KeyValue F)

structure Span (F : Type) where
  traceId : Bytes
  spanId : Bytes
  parentSpanId : Bytes
  flags : UInt32
  name : String
  kind : SpanKind
  startTimeUnixNano : UInt64
  endTimeUnixNano : UInt64
  attributes : List (KeyValue F)
  events : List (SpanEvent F)
  links : List (SpanLink F)
  status : SpanStatus

structure SpansBatch (F : Type) where
  resource : Resource F
  scope : Scope
  spans : List (Span F)

/-! ## Payloads -/

inductive Pdata (F : Type) where
  | metrics (batch : Batch F)
  | logs (batch : LogsBatch F)
  | spans (batch : SpansBatch F)

/-! ## Conversions -/

/-- `String::from_utf8_lossy` and the conversion of microseconds to seconds. -/
structure Decoding (F : Type) where
  lossy : Bytes → String
  seconds : UInt64 → F
  lossy_eq_empty : ∀ bytes, lossy bytes = "" ↔ bytes = []

/-- A decoding exists: every byte is taken as a character, microseconds stay as they are. -/
instance : Inhabited (Decoding UInt64) where
  default :=
    { lossy := fun bytes => String.ofList (bytes.map fun b => Char.ofNat b.toNat)
      seconds := id
      lossy_eq_empty := by simp }

end NgxOtel.DataModel
