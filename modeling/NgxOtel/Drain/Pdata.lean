import NgxOtel.Drain.Tick
import NgxOtel.Otlp.Logs
import NgxOtel.Otlp.Metrics
import NgxOtel.Otlp.Traces

/-!
# Payloads and the processing stage

`encode_pdata` and `count_pdata_records` (`drain/mod.rs`), and the processors (`processor/mod.rs`).

* `Prost` — how the generated code writes an export request as a body.  It is not part of this
  repository and stays a parameter; `Prost.Faithful` is what is assumed of it where it matters:
  different requests that the encoders build get different bodies.
* `encodePdata`, `countPdataRecords` — the body of a payload and the records a send accounts for.
* `Pdata.onWire` — the payload without what the metrics encoder leaves out.
* `Carries` — a body and a count are those of one request that reads as a payload.
* `Processor.process`, `Processor.keeps` — the processing stage, and the spans that it is to leave
  in.

## Results

* `encodePdata_exact` — **a body carries its payload and determines it**, and every record that is
  accounted for is in it, but for malformed histogram points.
* `process_metrics`, `process_logs`, `process_spans` — a processor leaves out spans and changes
  nothing else.
-/

set_option autoImplicit false

namespace NgxOtel.DataModel.Pdata

open Drain

variable {F : Type}

def signal : Pdata F → Signal
  | metrics _ => .metrics
  | logs _ => .logs
  | spans _ => .spans

/-- The payload without what the encoder leaves out. -/
def onWire : Pdata F → Pdata F
  | metrics batch => metrics batch.onWire
  | logs batch => logs batch
  | spans batch => spans batch

end NgxOtel.DataModel.Pdata

namespace NgxOtel.Drain

open Word DataModel Otlp

variable {F Body : Type}

/-! ## Payloads -/

/-- The export request of a signal. -/
inductive SignalRequest where
  | metrics (request : Proto.ExportRequest Proto.Metric)
  | logs (request : Proto.ExportRequest Proto.LogRecord)
  | spans (request : Proto.ExportRequest Proto.Span)

/-- The request that the encoder of a payload builds. -/
def requestOf : Pdata F64 → SignalRequest
  | .metrics batch => .metrics (metricsRequest batch)
  | .logs batch => .logs (logsRequest batch)
  | .spans batch => .spans (tracesRequest batch)

/-- `Message::encode`, for the export request of each signal. -/
def Prost (Body : Type) := SignalRequest → Body

/-- Different requests of one signal have different bodies, as far as the encoders build them. -/
def Prost.Faithful (prost : Prost Body) : Prop :=
  ∀ a b : Pdata F64, a.signal = b.signal → prost (requestOf a) = prost (requestOf b) →
    requestOf a = requestOf b

/-- `encode_pdata`. -/
def encodePdata (prost : Prost Body) (data : Pdata F64) : Body := prost (requestOf data)

/-- The data points of one metric. -/
def dataPoints : MetricData F → Nat
  | .histogram _ points => points.length
  | .exponentialHistogram _ points => points.length
  | .sum _ _ points => points.length
  | .gauge points => points.length

/-- `count_data_points`. -/
def countDataPoints (batch : DataModel.Batch F) : Nat :=
  (batch.metrics.map fun m => dataPoints m.data).sum

/-- `count_pdata_records`. -/
def countPdataRecords : Pdata F → Nat
  | .metrics batch => countDataPoints batch
  | .logs batch => batch.logs.length
  | .spans batch => batch.spans.length

/-! ### What is counted and what is written -/

/-- The points whose counts do not go with their bounds. -/
def malformedPoints : MetricData F → Nat
  | .histogram _ points => points.countP fun point => !point.wellFormed
  | _ => 0

/-- The malformed points of a payload. -/
def malformed : Pdata F → Nat
  | .metrics batch => (batch.metrics.map fun m => malformedPoints m.data).sum
  | _ => 0

/-- What a request says. -/
def SignalRequest.ReadsAs : SignalRequest → Pdata F64 → Prop
  | metrics request, .metrics batch =>
    Proto.ExportRequest.ReadsAs Proto.Metric.ReadsAs request batch.resource batch.scope
      batch.metrics
  | logs request, .logs batch =>
    Proto.ExportRequest.ReadsAs Proto.LogRecord.ReadsAs request batch.resource batch.scope
      batch.logs
  | spans request, .spans batch =>
    Proto.ExportRequest.ReadsAs Proto.Span.ReadsAs request batch.resource batch.scope batch.spans
  | _, _ => False

/-- The data points, log records or spans in a request. -/
def SignalRequest.records : SignalRequest → Nat
  | metrics request => (request.items.map fun m => (m.data.map (·.points)).getD 0).sum
  | logs request => request.items.length
  | spans request => request.items.length

/-- The body and the count of records are those of one request, which reads as the payload. -/
def Carries (prost : Prost Body) (body : Body) (records : Nat) (data : Pdata F64) : Prop :=
  ∃ request : SignalRequest, body = prost request ∧ records = request.records ∧ request.ReadsAs data

theorem readsAs_requestOf (data : Pdata F64) : (requestOf data).ReadsAs data.onWire := by
  cases data with
  | metrics batch => exact readsAs_metricsRequest batch
  | logs batch => exact readsAs_logsRequest batch
  | spans batch => exact readsAs_tracesRequest batch

theorem points_convertData (data : MetricData F64) :
    dataPoints data = (convertData data).points + malformedPoints data := by
  cases data with
  | histogram temporality points =>
    show points.length = (points.filterMap convertHdp).length +
      points.countP fun point => !point.wellFormed
    rw [filterMap_convertHdp, List.length_map, ← List.countP_eq_length_filter,
      List.length_eq_countP_add_countP (·.wellFormed)]
    simp
  | exponentialHistogram temporality points => exact (List.length_map convertExpHdp).symm
  | sum temporality isMonotonic points => exact (List.length_map convertNdp).symm
  | gauge points => exact (List.length_map convertNdp).symm

/-- What is counted is in the request, but for the malformed points. -/
theorem countPdataRecords_eq (data : Pdata F64) :
    countPdataRecords data = (requestOf data).records + malformed data := by
  cases data with
  | metrics batch =>
    have hitems : (metricsRequest batch).items = batch.metrics.map convertMetric := by
      simp [metricsRequest, envelope, Proto.ExportRequest.items]
    show (batch.metrics.map fun m => dataPoints m.data).sum =
      ((metricsRequest batch).items.map fun m => (m.data.map (·.points)).getD 0).sum +
        (batch.metrics.map fun m => malformedPoints m.data).sum
    rw [hitems]
    induction batch.metrics with
    | nil => rfl
    | cons m metrics ih =>
      have hpoints := points_convertData m.data
      simp only [List.map_cons, List.sum_cons, convertMetric, Option.map_some,
        Option.getD_some] at ih ⊢
      omega
  | logs batch =>
    simp [countPdataRecords, requestOf, SignalRequest.records, logsRequest, envelope, malformed,
      Proto.ExportRequest.items]
  | spans batch =>
    simp [countPdataRecords, requestOf, SignalRequest.records, tracesRequest, envelope, malformed,
      Proto.ExportRequest.items]

/-- A body carries its payload, and the count goes with it when no point is malformed. -/
theorem carries_encodePdata (prost : Prost Body) {data : Pdata F64} (hformed : malformed data = 0) :
    Carries prost (encodePdata prost data) (countPdataRecords data) data.onWire := by
  refine ⟨requestOf data, rfl, ?_, readsAs_requestOf data⟩
  rw [countPdataRecords_eq, hformed, Nat.add_zero]

/-- The request determines what it says. -/
theorem requestOf_eq_iff (a b : Pdata F64) :
    requestOf a = requestOf b ↔ a.onWire = b.onWire := by
  cases a with
  | metrics batch => cases b <;> simp [requestOf, Pdata.onWire, metricsRequest_eq_iff]
  | logs batch => cases b <;> simp [requestOf, Pdata.onWire, logsRequest_injective.eq_iff]
  | spans batch => cases b <;> simp [requestOf, Pdata.onWire, tracesRequest_injective.eq_iff]

/-- **A body carries its payload and determines it**, up to what the encoder leaves out, and every
record that is counted is in it, but for the malformed points. -/
theorem encodePdata_exact (prost : Prost Body) (hprost : prost.Faithful) (a b : Pdata F64)
    (hsignal : a.signal = b.signal) :
    (∃ records, Carries prost (encodePdata prost a) records a.onWire ∧
      countPdataRecords a = records + malformed a) ∧
    (encodePdata prost a = encodePdata prost b ↔ a.onWire = b.onWire) := by
  refine ⟨⟨_, ⟨requestOf a, rfl, rfl, readsAs_requestOf a⟩, countPdataRecords_eq a⟩, ?_⟩
  rw [← requestOf_eq_iff]
  exact ⟨hprost a b hsignal, congrArg prost⟩

/-- Bodies that are the requests themselves. -/
def unencoded : Prost SignalRequest := id

theorem unencoded_faithful : unencoded.Faithful := fun _ _ _ h => h

/-- A counter, a histogram with a malformed point, and an exponential histogram that ends in an
empty bucket. -/
def threeMetrics : DataModel.Batch F64 where
  resource := ⟨[⟨"service.name", .string "nginx"⟩]⟩
  scope := ⟨"ngx_otel", "1"⟩
  metrics :=
    [⟨"requests", "", "1", .sum .cumulative true [⟨[], 1, 2, .asInt 7⟩]⟩,
      ⟨"bytes", "", "By", .histogram .delta
        [⟨[], 1, 2, 3, 0, [1, 2], [5]⟩, ⟨[], 1, 2, 3, 0, [1], [5]⟩]⟩,
      ⟨"duration", "", "us", .exponentialHistogram .delta
        [⟨[⟨"http.request.method", .string "GET"⟩], 1, 2, 3, 0, 3, 0, -4, [2, 1, 0], []⟩]⟩]

theorem encodePdata_exact_threeMetrics :
    encodePdata unencoded (.metrics threeMetrics) =
        encodePdata unencoded (.metrics threeMetrics.onWire) ∧
      encodePdata unencoded (.metrics threeMetrics) ≠
        encodePdata unencoded (.metrics { threeMetrics with metrics := [] }) ∧
      Carries unencoded (encodePdata unencoded (.metrics threeMetrics)) 3
        (.metrics threeMetrics.onWire) ∧
      countPdataRecords (.metrics threeMetrics) = 4 := by
  obtain ⟨⟨records, hcarries, hcount⟩, hsame⟩ := encodePdata_exact unencoded unencoded_faithful
    (.metrics threeMetrics) (.metrics threeMetrics.onWire) rfl
  obtain ⟨-, hempty⟩ := encodePdata_exact unencoded unencoded_faithful (.metrics threeMetrics)
    (.metrics { threeMetrics with metrics := [] }) rfl
  have hrecords : 3 + 1 = records + 1 := hcount
  obtain rfl := Nat.add_right_cancel hrecords
  refine ⟨hsame.mpr rfl, fun h => ?_, hcarries, rfl⟩
  have hmetrics := congrArg DataModel.Batch.metrics (Pdata.metrics.inj (hempty.mp h))
  cases hmetrics

/-! ## Processors -/

inductive Processor where
  | noop
  | statusFilter (dropErrors : Bool)
  | probeDrop (paths : List String)

namespace Processor

/-- The first `url.path` attribute that is a string. -/
def urlPath (span : Span F) : Option String :=
  span.attributes.findSome? fun kv =>
    if kv.key = "url.path" then
      match kv.value with
      | .string s => some s
      | _ => none
    else none

/-- The `retain` of `StatusFilterProcessor::process`. -/
def retainStatus (span : Span F) : Bool := span.status.code ≠ .error

/-- The `retain` of `ProbeDropProcessor::process`. -/
def retainPath (paths : List String) (span : Span F) : Bool :=
  match urlPath span with
  | some path => !paths.any (· = path)
  | none => true

/-- `Processor::process`. -/
def process : Processor → Pdata F → Pdata F
  | .noop, data => data
  | .statusFilter dropErrors, data =>
    if dropErrors then
      match data with
      | .spans ⟨resource, scope, spans⟩ => .spans ⟨resource, scope, spans.filter retainStatus⟩
      | other => other
    else data
  | .probeDrop paths, data =>
    match data with
    | .spans ⟨resource, scope, spans⟩ => .spans ⟨resource, scope, spans.filter (retainPath paths)⟩
    | other => other

/-- The texts of the `url.path` attributes of a span. -/
def pathTexts (span : Span F) : List String :=
  (span.attributes.filter (·.key = "url.path")).filterMap fun kv =>
    match kv.value with
    | .string s => some s
    | _ => none

/-- The spans that a processor is to leave in: errors go if they are to be dropped, probes go by
their first path. -/
def keeps : Processor → Span F → Bool
  | .noop, _ => true
  | .statusFilter dropErrors, span => !(dropErrors && decide (span.status.code = .error))
  | .probeDrop paths, span => !paths.any fun path => (pathTexts span).head? = some path

theorem urlPath_eq (span : Span F) : urlPath span = (pathTexts span).head? := by
  unfold urlPath pathTexts
  induction span.attributes with
  | nil => rfl
  | cons kv attributes ih =>
    by_cases hkey : kv.key = "url.path"
    · cases hvalue : kv.value <;> simp [hkey, hvalue, ih]
    · simp [hkey, ih]

theorem retainStatus_eq (span : Span F) : retainStatus span = (statusFilter true).keeps span := by
  simp [retainStatus, keeps]

theorem retainPath_eq (paths : List String) (span : Span F) :
    retainPath paths span = (probeDrop paths).keeps span := by
  unfold retainPath keeps
  rw [urlPath_eq]
  cases hfirst : (pathTexts span).head? with
  | none => simp [hfirst]
  | some path => simp [hfirst, eq_comm]

theorem process_metrics (processor : Processor) (batch : DataModel.Batch F) :
    processor.process (.metrics batch) = .metrics batch := by
  obtain _ | (_ | _) | paths := processor <;> rfl

theorem process_logs (processor : Processor) (batch : LogsBatch F) :
    processor.process (.logs batch) = .logs batch := by
  obtain _ | (_ | _) | paths := processor <;> rfl

/-- **A processor leaves out spans and changes nothing else.** -/
theorem process_spans (processor : Processor) (resource : Resource F) (scope : Scope)
    (spans : List (Span F)) : processor.process (.spans ⟨resource, scope, spans⟩) =
      .spans ⟨resource, scope, spans.filter processor.keeps⟩ := by
  cases processor with
  | noop =>
    have hall : spans.filter noop.keeps = spans := List.filter_eq_self.mpr fun _ _ => rfl
    rw [process, hall]
  | statusFilter dropErrors =>
    cases dropErrors with
    | false =>
      have hall : spans.filter (statusFilter false).keeps = spans :=
        List.filter_eq_self.mpr fun _ _ => rfl
      rw [process, if_neg Bool.false_ne_true, hall]
    | true =>
      rw [process, if_pos rfl]
      exact congrArg (fun kept => Pdata.spans ⟨resource, scope, kept⟩)
        (List.filter_congr fun span _ => retainStatus_eq span)
  | probeDrop paths =>
    exact congrArg (fun kept => Pdata.spans ⟨resource, scope, kept⟩)
      (List.filter_congr fun span _ => retainPath_eq paths span)

end Processor

end NgxOtel.Drain
