import Mathlib.Data.List.DropRight
import NgxOtel.Otlp.Common

/-!
# The metrics request

What `OtlpHttpEncoder::encode` builds of a batch, in the messages of `metrics.proto`.

* `Proto.Metric`, `Proto.NumberDataPoint`, … — the generated message types.
* `convertMetric`, `convertHdp`, `convertExpHdp`, …, `metricsRequest` — the encoder.
* `Batch.onWire` — what of a batch is in its request: a histogram point whose counts do not match
  its bounds is left out, an exponential one comes without its trailing empty buckets, and an
  exemplar without trace context comes without identifiers.
* `Proto.Metric.ReadsAs` — what a message says.

## Results

* `readsAs_metricsRequest` — a request reads as what of the batch is `onWire`.
* `getD_trim` — leaving out trailing empty buckets changes no bucket.
* `metricsRequest_eq_iff` — two batches become the same request exactly if they agree `onWire`.
-/

set_option autoImplicit false

namespace NgxOtel.Otlp

open Word DataModel Wire

/-! ## The messages -/

namespace Proto

/-- `number_data_point::Value` and `exemplar::Value`. -/
inductive NumberValue where
  | asDouble (d : F64)
  | asInt (n : Int)

structure Exemplar where
  timeUnixNano : UInt64
  value : Option NumberValue
  spanId : Bytes
  traceId : Bytes
  filteredAttributes : List KeyValue

structure NumberDataPoint where
  startTimeUnixNano : UInt64
  timeUnixNano : UInt64
  value : Option NumberValue
  exemplars : List Exemplar
  attributes : List KeyValue
  flags : UInt32

structure HistogramDataPoint where
  startTimeUnixNano : UInt64
  timeUnixNano : UInt64
  count : UInt64
  sum : Option F64
  bucketCounts : List UInt64
  explicitBounds : List F64
  exemplars : List Exemplar
  attributes : List KeyValue
  flags : UInt32
  min : Option F64
  max : Option F64

/-- `exponential_histogram_data_point::Buckets`. -/
structure Buckets where
  offset : Int32
  bucketCounts : List UInt64

structure ExponentialHistogramDataPoint where
  attributes : List KeyValue
  startTimeUnixNano : UInt64
  timeUnixNano : UInt64
  count : UInt64
  sum : Option F64
  scale : Int32
  zeroCount : UInt64
  positive : Option Buckets
  negative : Option Buckets
  flags : UInt32
  exemplars : List Exemplar
  min : Option F64
  max : Option F64
  zeroThreshold : F64

structure Sum where
  dataPoints : List NumberDataPoint
  aggregationTemporality : Int32
  isMonotonic : Bool

/-- `Histogram` and `ExponentialHistogram`. -/
structure Histogram (α : Type) where
  dataPoints : List α
  aggregationTemporality : Int32

/-- `metric::Data`, with `Gauge` inlined. -/
inductive Data where
  | gauge (points : List NumberDataPoint)
  | sum (s : Proto.Sum)
  | histogram (h : Histogram HistogramDataPoint)
  | exponentialHistogram (h : Histogram ExponentialHistogramDataPoint)

structure Metric where
  name : String
  description : String
  unit : String
  data : Option Data
  metadata : List KeyValue

end Proto

/-! ## The encoder -/

/-- `proto_temporality`. -/
def protoTemporality (t : AggregationTemporality) : Int32 := asI32 t.code

/-- `convert_ndp`. -/
def convertNdp (dp : NumberDataPoint F64) : Proto.NumberDataPoint where
  attributes := dp.attributes.map convertKv
  startTimeUnixNano := dp.startTimeUnixNano
  timeUnixNano := dp.timeUnixNano
  exemplars := []
  flags := 0
  value := some (match dp.value with
    | .asInt n => .asInt n
    | .asDouble d => .asDouble d)

/-- `convert_hdp`: a point that does not have one bucket more than bounds is skipped. -/
def convertHdp (dp : HistogramDataPoint F64) : Option Proto.HistogramDataPoint :=
  if dp.bucketCounts.length ≠ dp.explicitBounds.length + 1 then none
  else some
    { attributes := dp.attributes.map convertKv
      startTimeUnixNano := dp.startTimeUnixNano
      timeUnixNano := dp.timeUnixNano
      count := dp.count
      sum := some dp.sum
      bucketCounts := dp.bucketCounts
      explicitBounds := dp.explicitBounds
      exemplars := []
      flags := 0
      min := none
      max := none }

/-- `convert_exemplar`. -/
def convertExemplar (e : Exemplar F64) : Proto.Exemplar where
  filteredAttributes := e.filteredAttributes.map convertKv
  timeUnixNano := e.timeUnixNano
  value := some (.asDouble e.value)
  spanId := if e.hasTrace then e.spanId.val else []
  traceId := if e.hasTrace then e.traceId.val else []

/-- `while positive_counts.last() == Some(&0) { positive_counts.pop(); }`. -/
def trim (counts : List UInt64) : List UInt64 := counts.rdropWhile (· = 0)

/-- `convert_exp_hdp`. -/
def convertExpHdp (dp : ExponentialHistogramDataPoint F64) :
    Proto.ExponentialHistogramDataPoint where
  attributes := dp.attributes.map convertKv
  startTimeUnixNano := dp.startTimeUnixNano
  timeUnixNano := dp.timeUnixNano
  count := dp.count
  sum := some dp.sum
  scale := dp.scale
  zeroCount := dp.zeroCount
  positive := some ⟨dp.positiveOffset, trim dp.positiveBucketCounts⟩
  negative := some ⟨0, []⟩
  exemplars := dp.exemplars.map convertExemplar
  flags := 0
  min := none
  max := none
  zeroThreshold := 0

/-- The `data` of `convert_metric`. -/
def convertData : MetricData F64 → Proto.Data
  | .histogram temporality points =>
    .histogram ⟨points.filterMap convertHdp, protoTemporality temporality⟩
  | .exponentialHistogram temporality points =>
    .exponentialHistogram ⟨points.map convertExpHdp, protoTemporality temporality⟩
  | .sum temporality isMonotonic points =>
    .sum ⟨points.map convertNdp, protoTemporality temporality, isMonotonic⟩
  | .gauge points => .gauge (points.map convertNdp)

/-- `convert_metric`. -/
def convertMetric (m : Metric F64) : Proto.Metric where
  name := m.name
  description := m.description
  unit := m.unit
  data := some (convertData m.data)
  metadata := []

/-- The request of `OtlpHttpEncoder::encode`. -/
def metricsRequest (batch : Batch F64) : Proto.ExportRequest Proto.Metric :=
  envelope batch.resource batch.scope (batch.metrics.map convertMetric)

end NgxOtel.Otlp

/-! ## What is on the wire -/

namespace NgxOtel.DataModel

variable {F : Type}

/-- One bucket between any two bounds, one below and one above. -/
def HistogramDataPoint.wellFormed (dp : HistogramDataPoint F) : Bool :=
  dp.bucketCounts.length = dp.explicitBounds.length + 1

def Exemplar.onWire (e : Exemplar F) : Exemplar F :=
  if e.hasTrace then e
  else { e with
    traceId := ⟨List.replicate 16 0, List.length_replicate⟩
    spanId := ⟨List.replicate 8 0, List.length_replicate⟩ }

def ExponentialHistogramDataPoint.onWire (dp : ExponentialHistogramDataPoint F) :
    ExponentialHistogramDataPoint F :=
  { dp with
    positiveBucketCounts := dp.positiveBucketCounts.rdropWhile (· = 0)
    exemplars := dp.exemplars.map Exemplar.onWire }

def MetricData.onWire : MetricData F → MetricData F
  | .histogram temporality points => .histogram temporality (points.filter (·.wellFormed))
  | .exponentialHistogram temporality points =>
    .exponentialHistogram temporality (points.map (·.onWire))
  | .sum temporality isMonotonic points => .sum temporality isMonotonic points
  | .gauge points => .gauge points

def Metric.onWire (m : Metric F) : Metric F := { m with data := m.data.onWire }

def Batch.onWire (batch : Batch F) : Batch F :=
  { batch with metrics := batch.metrics.map Metric.onWire }

end NgxOtel.DataModel

namespace NgxOtel.Otlp

open DataModel

/-- Leaving out trailing empty buckets changes no bucket. -/
theorem getD_trim (counts : List UInt64) (i : Nat) : (trim counts).getD i 0 = counts.getD i 0 := by
  induction counts using List.reverseRecOn with
  | nil => rfl
  | append_singleton counts c ih =>
    by_cases hzero : c = 0
    · have htrim : trim (counts ++ [c]) = trim counts :=
        List.rdropWhile_concat_pos _ _ _ (by simpa using hzero)
      rw [htrim, ih, hzero]
      simp only [List.getD_eq_getElem?_getD, List.getElem?_append]
      split
      · rfl
      · next hge =>
        rw [List.getElem?_eq_none (by omega)]
        cases i - counts.length <;> rfl
    · rw [trim, List.rdropWhile_concat_neg _ _ _ (by simpa using hzero)]

/-! ## What a message says -/

namespace Proto

structure NumberDataPoint.ReadsAs (message : NumberDataPoint) (dp : DataModel.NumberDataPoint F64) :
    Prop where
  attributes : List.Forall₂ KeyValue.ReadsAs message.attributes dp.attributes
  startTimeUnixNano : message.startTimeUnixNano = dp.startTimeUnixNano
  timeUnixNano : message.timeUnixNano = dp.timeUnixNano
  int : ∀ n, dp.value = .asInt n → message.value = some (.asInt n)
  double : ∀ d, dp.value = .asDouble d → message.value = some (.asDouble d)
  rest : message.exemplars = [] ∧ message.flags = 0

structure HistogramDataPoint.ReadsAs (message : HistogramDataPoint)
    (dp : DataModel.HistogramDataPoint F64) : Prop where
  attributes : List.Forall₂ KeyValue.ReadsAs message.attributes dp.attributes
  startTimeUnixNano : message.startTimeUnixNano = dp.startTimeUnixNano
  timeUnixNano : message.timeUnixNano = dp.timeUnixNano
  count : message.count = dp.count
  sum : message.sum = some dp.sum
  bucketCounts : message.bucketCounts = dp.bucketCounts
  explicitBounds : message.explicitBounds = dp.explicitBounds
  rest : message.exemplars = [] ∧ message.flags = 0 ∧ message.min = none ∧ message.max = none

structure Exemplar.ReadsAs (message : Exemplar) (e : DataModel.Exemplar F64) : Prop where
  filteredAttributes : List.Forall₂ KeyValue.ReadsAs message.filteredAttributes e.filteredAttributes
  timeUnixNano : message.timeUnixNano = e.timeUnixNano
  value : message.value = some (.asDouble e.value)
  traced : e.hasTrace = true → message.traceId = e.traceId.val ∧ message.spanId = e.spanId.val
  untraced : e.hasTrace = false → message.traceId = [] ∧ message.spanId = []

structure ExponentialHistogramDataPoint.ReadsAs (message : ExponentialHistogramDataPoint)
    (dp : DataModel.ExponentialHistogramDataPoint F64) : Prop where
  attributes : List.Forall₂ KeyValue.ReadsAs message.attributes dp.attributes
  startTimeUnixNano : message.startTimeUnixNano = dp.startTimeUnixNano
  timeUnixNano : message.timeUnixNano = dp.timeUnixNano
  count : message.count = dp.count
  sum : message.sum = some dp.sum
  scale : message.scale = dp.scale
  zeroCount : message.zeroCount = dp.zeroCount
  positive : message.positive = some ⟨dp.positiveOffset, dp.positiveBucketCounts⟩
  negative : message.negative = some ⟨0, []⟩
  exemplars : List.Forall₂ Exemplar.ReadsAs message.exemplars dp.exemplars
  rest : message.flags = 0 ∧ message.min = none ∧ message.max = none ∧ message.zeroThreshold = 0

/-- The points of a metric, and the number of its temporality. -/
inductive Data.ReadsAs : Data → MetricData F64 → Prop where
  | gauge {messages : List NumberDataPoint} {points : List (DataModel.NumberDataPoint F64)}
      (h : List.Forall₂ NumberDataPoint.ReadsAs messages points) :
      ReadsAs (.gauge messages) (.gauge points)
  | sum {messages : List NumberDataPoint} {points : List (DataModel.NumberDataPoint F64)}
      {number : Int32} {temporality : AggregationTemporality} (isMonotonic : Bool)
      (hnumber : number.toInt = temporality.code.toNat)
      (h : List.Forall₂ NumberDataPoint.ReadsAs messages points) :
      ReadsAs (.sum ⟨messages, number, isMonotonic⟩) (.sum temporality isMonotonic points)
  | histogram {messages : List HistogramDataPoint}
      {points : List (DataModel.HistogramDataPoint F64)}
      {number : Int32} {temporality : AggregationTemporality}
      (hnumber : number.toInt = temporality.code.toNat)
      (h : List.Forall₂ HistogramDataPoint.ReadsAs messages points) :
      ReadsAs (.histogram ⟨messages, number⟩) (.histogram temporality points)
  | exponentialHistogram {messages : List ExponentialHistogramDataPoint}
      {points : List (DataModel.ExponentialHistogramDataPoint F64)}
      {number : Int32} {temporality : AggregationTemporality}
      (hnumber : number.toInt = temporality.code.toNat)
      (h : List.Forall₂ ExponentialHistogramDataPoint.ReadsAs messages points) :
      ReadsAs (.exponentialHistogram ⟨messages, number⟩) (.exponentialHistogram temporality points)

structure Metric.ReadsAs (message : Metric) (m : DataModel.Metric F64) : Prop where
  name : message.name = m.name
  description : message.description = m.description
  unit : message.unit = m.unit
  data : ∃ data : Data, message.data = some data ∧ data.ReadsAs m.data
  rest : message.metadata = []

/-- The data points of a message. -/
def Data.points : Data → Nat
  | gauge points => points.length
  | sum s => s.dataPoints.length
  | histogram h => h.dataPoints.length
  | exponentialHistogram h => h.dataPoints.length

end Proto

theorem readsAs_convertNdp (dp : NumberDataPoint F64) : (convertNdp dp).ReadsAs dp where
  attributes := forall₂_map_self readsAs_convertKv dp.attributes
  startTimeUnixNano := rfl
  timeUnixNano := rfl
  int n h := by simp [convertNdp, h]
  double d h := by simp [convertNdp, h]
  rest := ⟨rfl, rfl⟩

theorem readsAs_convertExemplar (e : Exemplar F64) : (convertExemplar e).ReadsAs e.onWire := by
  cases htrace : e.hasTrace with
  | false =>
    have hwire : e.onWire = { e with
        traceId := ⟨List.replicate 16 0, List.length_replicate⟩
        spanId := ⟨List.replicate 8 0, List.length_replicate⟩ } := by
      rw [Exemplar.onWire, if_neg (by simp [htrace])]
    rw [hwire]
    refine ⟨forall₂_map_self readsAs_convertKv e.filteredAttributes, rfl, rfl, fun h => ?_,
      fun _ => ?_⟩
    · exact absurd (htrace.symm.trans h) Bool.false_ne_true
    · simp [convertExemplar, htrace]
  | true =>
    have hwire : e.onWire = e := by rw [Exemplar.onWire, if_pos htrace]
    rw [hwire]
    refine ⟨forall₂_map_self readsAs_convertKv e.filteredAttributes, rfl, rfl, fun _ => ?_,
      fun h => ?_⟩
    · simp [convertExemplar, htrace]
    · exact absurd (h.symm.trans htrace) Bool.false_ne_true

theorem readsAs_convertExpHdp (dp : ExponentialHistogramDataPoint F64) :
    (convertExpHdp dp).ReadsAs dp.onWire where
  attributes := forall₂_map_self readsAs_convertKv dp.attributes
  startTimeUnixNano := rfl
  timeUnixNano := rfl
  count := rfl
  sum := rfl
  scale := rfl
  zeroCount := rfl
  positive := rfl
  negative := rfl
  exemplars := forall₂_map readsAs_convertExemplar dp.exemplars
  rest := ⟨rfl, rfl, rfl, rfl⟩

/-- The message of a point that is not skipped. -/
def writtenHdp (dp : HistogramDataPoint F64) : Proto.HistogramDataPoint :=
  ⟨dp.startTimeUnixNano, dp.timeUnixNano, dp.count, some dp.sum, dp.bucketCounts, dp.explicitBounds,
    [], dp.attributes.map convertKv, 0, none, none⟩

theorem filterMap_convertHdp (points : List (HistogramDataPoint F64)) :
    points.filterMap convertHdp = (points.filter (·.wellFormed)).map writtenHdp := by
  induction points with
  | nil => rfl
  | cons dp points ih =>
    by_cases hformed : dp.bucketCounts.length = dp.explicitBounds.length + 1
    · have hwritten : convertHdp dp = some (writtenHdp dp) := if_neg (not_not.mpr hformed)
      have hkept : dp.wellFormed = true := decide_eq_true hformed
      rw [List.filterMap_cons_some hwritten, List.filter_cons_of_pos hkept, List.map_cons, ih]
    · have hskipped : convertHdp dp = none := if_pos hformed
      have hleft : ¬ dp.wellFormed = true := by simpa [HistogramDataPoint.wellFormed] using hformed
      rw [List.filterMap_cons_none hskipped, List.filter_cons_of_neg hleft, ih]

theorem readsAs_writtenHdp (dp : HistogramDataPoint F64) : (writtenHdp dp).ReadsAs dp :=
  ⟨forall₂_map_self readsAs_convertKv dp.attributes, rfl, rfl, rfl, rfl, rfl, rfl, rfl, rfl, rfl,
    rfl⟩

theorem readsAs_convertData (data : MetricData F64) : (convertData data).ReadsAs data.onWire := by
  cases data with
  | gauge points => exact .gauge (forall₂_map_self readsAs_convertNdp points)
  | sum temporality isMonotonic points =>
    exact .sum isMonotonic (toInt_asI32 _) (forall₂_map_self readsAs_convertNdp points)
  | histogram temporality points =>
    refine .histogram (toInt_asI32 _) ?_
    rw [filterMap_convertHdp]
    exact forall₂_map_self readsAs_writtenHdp _
  | exponentialHistogram temporality points =>
    exact .exponentialHistogram (toInt_asI32 _) (forall₂_map readsAs_convertExpHdp points)

theorem readsAs_metricsRequest (batch : Batch F64) :
    Proto.ExportRequest.ReadsAs Proto.Metric.ReadsAs (metricsRequest batch) batch.onWire.resource
      batch.onWire.scope batch.onWire.metrics := by
  refine readsAs_envelope (forall₂_map (fun m => ?_) batch.metrics) batch.resource batch.scope
  exact ⟨rfl, rfl, rfl, ⟨convertData m.data, rfl, readsAs_convertData m.data⟩, rfl⟩

/-! ## What a request determines -/

/-- Two functions that identify the same items identify the same lists of items. -/
theorem map_eq_map_iff {α β γ : Type} {f : α → β} {g : α → γ}
    (h : ∀ a b, f a = f b ↔ g a = g b) : ∀ xs ys : List α, xs.map f = ys.map f ↔ xs.map g = ys.map g
  | [], [] => by simp
  | [], _ :: _ | _ :: _, [] => by simp
  | x :: xs, y :: ys => by simp [h x y, map_eq_map_iff h xs ys]

theorem protoTemporality_inj {t u : AggregationTemporality} :
    protoTemporality t = protoTemporality u ↔ t = u := by
  refine ⟨fun h => ?_, congrArg _⟩
  have hcode := asI32_injective h
  cases t <;> cases u <;> first | rfl | cases hcode

theorem convertNdp_injective : Function.Injective convertNdp := by
  rintro ⟨attributes, start, time, value⟩ ⟨attributes', start', time', value'⟩ h
  simp only [convertNdp, Proto.NumberDataPoint.mk.injEq, map_convertKv_inj, true_and,
    and_true] at h
  obtain ⟨rfl, rfl, hvalue, rfl⟩ := h
  cases value <;> cases value' <;> simp_all

theorem writtenHdp_injective : Function.Injective writtenHdp := by
  intro a b h
  cases a
  cases b
  simp only [writtenHdp, Proto.HistogramDataPoint.mk.injEq, Option.some.injEq, map_convertKv_inj,
    and_true, true_and] at h
  obtain ⟨rfl, rfl, rfl, rfl, rfl, rfl, rfl⟩ := h
  rfl

theorem convertExemplar_eq_iff (e f : Exemplar F64) :
    convertExemplar e = convertExemplar f ↔ e.onWire = f.onWire := by
  obtain ⟨value, time, ⟨traceId, htrace⟩, ⟨spanId, hspan⟩, hasTrace, attributes⟩ := e
  obtain ⟨value', time', ⟨traceId', htrace'⟩, ⟨spanId', hspan'⟩, hasTrace', attributes'⟩ := f
  -- identifiers that are there are not empty
  have hne : spanId ≠ [] := List.ne_nil_of_length_pos (by omega)
  have hne' : spanId' ≠ [] := List.ne_nil_of_length_pos (by omega)
  cases hasTrace <;> cases hasTrace' <;>
    simp [convertExemplar, Exemplar.onWire, hne, hne'.symm] <;> tauto

theorem convertExpHdp_eq_iff (a b : ExponentialHistogramDataPoint F64) :
    convertExpHdp a = convertExpHdp b ↔ a.onWire = b.onWire := by
  cases a
  cases b
  simp only [convertExpHdp, ExponentialHistogramDataPoint.onWire,
    Proto.ExponentialHistogramDataPoint.mk.injEq, ExponentialHistogramDataPoint.mk.injEq,
    Option.some.injEq, Proto.Buckets.mk.injEq, map_convertKv_inj, true_and, and_true, and_assoc,
    map_eq_map_iff convertExemplar_eq_iff, trim]

theorem convertData_eq_iff (a b : MetricData F64) :
    convertData a = convertData b ↔ a.onWire = b.onWire := by
  cases a <;> cases b <;>
    simp [convertData, MetricData.onWire, filterMap_convertHdp, protoTemporality_inj,
      writtenHdp_injective.list_map.eq_iff, convertNdp_injective.list_map.eq_iff,
      map_eq_map_iff convertExpHdp_eq_iff] <;> tauto

theorem convertMetric_eq_iff (a b : Metric F64) :
    convertMetric a = convertMetric b ↔ a.onWire = b.onWire := by
  cases a
  cases b
  simp [convertMetric, Metric.onWire, convertData_eq_iff]

/-- **The request determines the batch**, up to what is not on the wire. -/
theorem metricsRequest_eq_iff (a b : Batch F64) :
    metricsRequest a = metricsRequest b ↔ a.onWire = b.onWire := by
  cases a
  cases b
  simp [metricsRequest, Batch.onWire, envelope_inj, map_eq_map_iff convertMetric_eq_iff]

end NgxOtel.Otlp
