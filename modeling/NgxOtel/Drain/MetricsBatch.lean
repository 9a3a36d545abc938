import NgxOtel.Drain.Pipeline
import NgxOtel.Metrics.Requests

/-!
# The metrics of a collection

`collect_all_sources` (`drain/mod.rs`) puts a batch together from the connection counters of nginx,
the histograms in shared memory (`InstrumentedSource::collect`), the exporter's own counters
(`drain/self_metrics.rs`), the error counters and the certificates (`metric_source/tls_cert.rs`).

* `Floats` — the conversions to floating point, of which nothing is assumed.
* `instrumentedMetrics` — the ten metrics of the request histograms.
* `stubStatusMetrics`, `selfMetrics`, `errorRateMetric`, `certMetrics`, `collectorCertGauge` — the
  other sources.
* `collectAllSources` — the batch.

## Results

* `map_name_allMetrics`, `metricNames_nodup` — the names of a batch; no two metrics have the same.
* `malformed_collectAllSources` — every histogram has one bucket more than bounds, so the encoder
  leaves no data point out.
-/

set_option autoImplicit false

namespace NgxOtel.Drain

open Word DataModel Otlp Shm Metrics.Requests
open Metrics (Agg EXP_HISTOGRAM_SCALE EXP_HISTOGRAM_BUCKET_OFFSET buildRouteMetric
  buildUpstreamDurationMetric)

/-! ## Metrics with one number -/

/-- `monotonic_sum_metric`. -/
def monotonicSumMetric (name desc unit : String) (value : Int64) (start now : UInt64) :
    Metric F64 :=
  ⟨name, desc, unit, .sum .cumulative true [⟨[], start, now, .asInt value.toInt⟩]⟩

/-- `gauge_metric`. -/
def gaugeMetric (name desc unit : String) (value : Int64) (now : UInt64) : Metric F64 :=
  ⟨name, desc, unit, .gauge [⟨[], 0, now, .asInt value.toInt⟩]⟩

/-- `counter_to_i64`. -/
def counterToI64 (v : UInt64) : Int64 :=
  if v.toNat < 2 ^ 63 then v.toInt64 else Int64.maxValue

/-- `i64::saturating_add` of two numbers that are not negative. -/
def saturatingAddI64 (a b : Int64) : Int64 :=
  if a.toInt + b.toInt < 2 ^ 63 then a + b else Int64.maxValue

def stringAttr (key value : String) : KeyValue F64 := ⟨key, .string value⟩

/-! ## Request histograms -/

/-- `us_to_seconds`, `ms_to_s_hist_sum` and `as f64`. -/
structure Floats where
  usToSeconds : UInt64 → F64
  msToSHistSum : UInt64 → F64
  ofU64 : UInt64 → F64

/-- `DURATION_BOUNDS_S`, as bit patterns. -/
def DURATION_BOUNDS_S : List F64 :=
  [0x3f747ae147ae147b, 0x3f847ae147ae147b, 0x3f9999999999999a, 0x3fa999999999999a,
    0x3fb3333333333333, 0x3fb999999999999a, 0x3fd0000000000000, 0x3fe0000000000000,
    0x3fe8000000000000, 0x3ff0000000000000, 0x4004000000000000, 0x4014000000000000,
    0x401e000000000000, 0x4024000000000000]

/-- An exemplar of `all_exemplars`, with its combination. -/
abbrev ComboExemplar := Nat × Metrics.Exemplars.Exemplar F64

/-- The identifiers of an exemplar have a fixed size. -/
def toOctets (n : Nat) (bytes : Bytes) : Wire.Octets n :=
  ⟨(bytes ++ List.replicate n 0).take n, by simp⟩

def toExemplar (e : Metrics.Exemplars.Exemplar F64) : Exemplar F64 where
  value := e.value
  timeUnixNano := e.timeUnixNano
  traceId := toOctets 16 e.traceId
  spanId := toOctets 8 e.spanId
  hasTrace := e.hasTrace
  filteredAttributes := []

/-- The point of a slot, whatever its attributes. -/
def expPoint (agg : ExpHistogramSlot) (sum : F64) (attrs : List (KeyValue F64))
    (exemplars : List (Exemplar F64)) (start now : UInt64) :
    ExponentialHistogramDataPoint F64 where
  attributes := attrs
  startTimeUnixNano := start
  timeUnixNano := now
  count := agg .count
  sum := sum
  scale := Int32.ofInt EXP_HISTOGRAM_SCALE
  zeroCount := agg (.cell .zero)
  positiveOffset := Int32.ofInt EXP_HISTOGRAM_BUCKET_OFFSET
  positiveBucketCounts := (List.finRange N_EXP_BUCKETS).map fun i => agg (.cell (.bucket i))
  exemplars := exemplars

/-- A point of a combination. -/
def comboPoint (start now : UInt64) (p : Metrics.Exemplars.DataPoint F64) :
    ExponentialHistogramDataPoint F64 :=
  expPoint p.histogram p.sum
    [stringAttr "http.request.method" p.method.asStr,
      stringAttr "http.response.status_class" p.statusClass.asStr,
      stringAttr "network.protocol.version" p.proto.asStr]
    (p.exemplars.map toExemplar) start now

/-- All combinations in one slot. -/
def allCombos (comboAgg : Nat → ExpHistogramSlot) : ExpHistogramSlot :=
  (List.range N_COMBOS).foldl (fun all idx f => all f + comboAgg idx f) fun _ => 0

/-- `build_duration_metric`. -/
def buildDurationMetric (fl : Floats) (statusCodeClass : Bool) (comboAgg : Nat → ExpHistogramSlot)
    (exemplars : List ComboExemplar) (start now : UInt64) : Metric F64 where
  name := "http.server.request.duration"
  description := "HTTP server request duration"
  unit := "s"
  data := .exponentialHistogram .cumulative
    (if statusCodeClass then
      (Metrics.Exemplars.buildDurationMetric fl.usToSeconds comboAgg exemplars).map
        (comboPoint start now)
    else
      [expPoint (allCombos comboAgg) (fl.usToSeconds (allCombos comboAgg .sum)) [] [] start now])

/-- An aggregated slot as `build_route_metric` reads it. -/
def toAgg (slot : ExpHistogramSlot) : Agg :=
  ⟨fun i => slot (.cell (.bucket i)), slot (.cell .zero), slot .sum, slot .count⟩

/-- A point by route or by upstream. -/
def toExpPoint (p : Metrics.DataPoint F64) : ExponentialHistogramDataPoint F64 where
  attributes := p.attributes.map fun kv => stringAttr kv.1 kv.2
  startTimeUnixNano := p.startTimeUnixNano
  timeUnixNano := p.timeUnixNano
  count := p.count
  sum := p.sum
  scale := Int32.ofInt p.scale
  zeroCount := p.zeroCount
  positiveOffset := Int32.ofInt p.positiveOffset
  positiveBucketCounts := (List.finRange N_EXP_BUCKETS).map p.positiveBucketCounts
  exemplars := []

def toMetric (m : Metrics.Metric F64) : Metric F64 :=
  ⟨m.name, m.description, m.unit,
    .exponentialHistogram .cumulative (m.dataPoints.map toExpPoint)⟩

/-- `hist_metric_with_sum`. -/
def histMetricWithSum {n : Nat} (name desc unit : String) (data : Shm.Histogram n) (sum : F64)
    (bounds : List F64) (start now : UInt64) : Metric F64 :=
  ⟨name, desc, unit, .histogram .cumulative
    [⟨[], start, now, data .count, sum, (List.finRange n).map fun i => data (.cell i), bounds⟩]⟩

/-- `hist_metric`. -/
def histMetric {n : Nat} (fl : Floats) (name desc unit : String) (data : Shm.Histogram n)
    (bounds : List F64) (start now : UInt64) : Metric F64 :=
  histMetricWithSum name desc unit data (fl.ofU64 (data .sum)) bounds start now

/-- `InstrumentedSource::collect`, from the sums over the workers. -/
def instrumentedMetrics (fl : Floats) (fromUtf8 : Bytes → Option String) (cfg : MainConfig)
    (agg : WorkerAgg) (exemplars : List ComboExemplar) (start now : UInt64) :
    List (Metric F64) :=
  let byteBounds := BYTES_BOUNDS.map fl.ofU64
  [buildDurationMetric fl cfg.statusCodeClass agg.comboAgg exemplars start now,
    toMetric (buildRouteMetric fl.usToSeconds fromUtf8 (some cfg.routeTable)
      (fun idx => toAgg (agg.routeAgg idx)) start now),
    toMetric (buildUpstreamDurationMetric fl.usToSeconds fromUtf8 (some cfg.upstreamTable)
      (fun idx => toAgg (agg.upstreamAgg idx)) start now),
    histMetric fl "http.server.request.body.size" "HTTP server request body size" "By"
      agg.reqBytes byteBounds start now,
    histMetric fl "http.server.response.body.size" "HTTP server response body size" "By"
      agg.respBytes byteBounds start now,
    histMetricWithSum "nginx.upstream.response.duration" "Upstream response time" "s" agg.upResp
      (fl.msToSHistSum (agg.upResp .sum)) DURATION_BOUNDS_S start now,
    histMetricWithSum "nginx.upstream.header.duration" "Upstream time to first response byte" "s"
      agg.upHdr (fl.msToSHistSum (agg.upHdr .sum)) DURATION_BOUNDS_S start now,
    histMetricWithSum "nginx.upstream.connect.duration" "Upstream connection establishment time" "s"
      agg.upConn (fl.msToSHistSum (agg.upConn .sum)) DURATION_BOUNDS_S start now,
    histMetric fl "nginx.upstream.bytes.received" "Bytes received from upstream" "By" agg.upBytes
      byteBounds start now,
    histMetric fl "nginx.upstream.bytes.sent" "Bytes sent to upstream" "By" agg.upBytesSent
      byteBounds start now]

/-! ## The other sources -/

/-- `ngx_stat_*`. -/
structure StubStatus where
  accepted : UInt64
  handled : UInt64
  requests : UInt64
  active : UInt64
  reading : UInt64
  writing : UInt64
  waiting : UInt64

/-- `StubStatusSource::collect`. -/
def stubStatusMetrics (stats : StubStatus) (start now : UInt64) : List (Metric F64) :=
  [monotonicSumMetric "nginx.connections.accepted" "Total accepted connections" "\x7bconnection\x7d"
      stats.accepted.toInt64 start now,
    monotonicSumMetric "nginx.connections.handled" "Total handled connections" "\x7bconnection\x7d"
      stats.handled.toInt64 start now,
    monotonicSumMetric "nginx.requests.total" "Total HTTP requests processed" "\x7brequest\x7d"
      stats.requests.toInt64 start now,
    gaugeMetric "nginx.connections.active" "Active connections (reading + writing + waiting)"
      "\x7bconnection\x7d" stats.active.toInt64 now,
    gaugeMetric "nginx.connections.reading" "Connections reading request headers"
      "\x7bconnection\x7d" stats.reading.toInt64 now,
    gaugeMetric "nginx.connections.writing" "Connections writing responses" "\x7bconnection\x7d"
      stats.writing.toInt64 now,
    gaugeMetric "nginx.connections.waiting" "Idle keep-alive connections" "\x7bconnection\x7d"
      stats.waiting.toInt64 now]

/-- The atomics of `drain/self_metrics.rs`. -/
structure SelfCounters where
  droppedRecords : UInt64
  sendFailures : UInt64
  bidiBackpressureDrops : UInt64
  accessLogsDropped : UInt64
  errorLogsDropped : UInt64
  errorLogsCoalescedOrphaned : UInt64
  logsSendFailures : UInt64
  tracesDroppedRecords : UInt64
  exporterRestarts : UInt64
  permanentRejected : UInt64
  partialRejected : UInt64
  unauthorizedRejected : UInt64

/-- `SelfMetricsSource::collect`. -/
def selfMetrics (counters : SelfCounters) (intervalMs start now : UInt64) : List (Metric F64) :=
  let counter name desc unit value :=
    monotonicSumMetric name desc unit (counterToI64 value) start now
  [counter "ngx_otel.dropped_records"
      ("Records from any signal (metrics, logs, spans) dropped because the per-signal retry " ++
        "buffer was full or a drain-abort discarded queued batches")
      "\x7brecord\x7d" counters.droppedRecords,
    counter "ngx_otel.send_failures" "Cumulative export send failures since worker startup"
      "\x7bfailure\x7d" counters.sendFailures,
    counter "ngx_otel.bidi_backpressure_drops"
      "Bidi outbound messages dropped due to channel backpressure" "\x7bmessage\x7d"
      counters.bidiBackpressureDrops,
    counter "ngx_otel.logs.access.dropped_records"
      "Access log records dropped because the per-worker ring was full" "\x7brecord\x7d"
      counters.accessLogsDropped,
    counter "ngx_otel.logs.error.dropped_records"
      "Error log records dropped because the per-worker ring was full" "\x7brecord\x7d"
      counters.errorLogsDropped,
    counter "ngx_otel.logs.error.coalesced_orphaned_records"
      ("Error log coalesced-count occurrences orphaned because the verbatim ring sample was " ++
        "dropped (ring full); a synthetic record is emitted per orphaned slot so backends still " ++
        "receive the occurrence count")
      "\x7brecord\x7d" counters.errorLogsCoalescedOrphaned,
    counter "ngx_otel.logs.send_failures"
      "Cumulative logs transport send failures since exporter startup" "\x7bfailure\x7d"
      counters.logsSendFailures,
    counter "ngx_otel.traces.dropped_records"
      "Span records dropped because the per-worker spans ring was full" "\x7brecord\x7d"
      counters.tracesDroppedRecords,
    gaugeMetric "ngx_otel.export_interval" "Configured metric export interval" "s"
      (counterToI64 (intervalMs / 1000)) now,
    gaugeMetric "ngx_otel.exporter.restarts"
      ("Prior exporter crashes in the current crash-loop window at this process start (0 = " ++
        "clean start; nginx request handling is never affected by the exporter crash-loop state)")
      "\x7bcrash\x7d" (counterToI64 counters.exporterRestarts) now,
    counter "ngx_otel.delivery.permanent_rejected"
      ("Batches the peer rejected as permanently unacceptable (e.g. HTTP 400/413, gRPC " ++
        "INVALID_ARGUMENT/INTERNAL/UNIMPLEMENTED); dropped and never retried")
      "\x7bbatch\x7d" counters.permanentRejected,
    counter "ngx_otel.delivery.partial_rejected"
      ("Individual records the peer reported it dropped on an otherwise-accepted batch (OTLP " ++
        "partial_success / gRPC partial-success body); the batch is released, only the reported " ++
        "rejected count is accumulated here")
      "\x7brecord\x7d" counters.partialRejected,
    counter "ngx_otel.delivery.unauthorized"
      ("Batches dropped because the peer reported an authentication or authorization failure " ++
        "(HTTP 401/403, gRPC UNAUTHENTICATED/PERMISSION_DENIED); same drop policy as " ++
        "permanent_rejected (no retry, no backoff, no auto-pause) but kept in a distinct " ++
        "counter for observability — a non-zero value indicates a credential or permission " ++
        "problem on the exporter endpoint")
      "\x7bbatch\x7d" counters.unauthorizedRejected]

def SEVERITY_CLASS_NAMES : List String := ["fatal", "error", "warn", "info", "debug"]

/-- `collect_error_rate_metric`; `counters` gives the counter of a worker for a class. -/
def errorRateMetric (nWorkers : Nat) (counters : Nat → Nat → UInt64) (start now : UInt64) :
    Metric F64 where
  name := "ngx_otel.error_log.events"
  description := "Error log events counted by severity class"
  unit := "\x7berror\x7d"
  data := .sum .cumulative true
    (SEVERITY_CLASS_NAMES.zipIdx.map fun (name, i) =>
      let total := (List.range nWorkers).foldl
        (fun total w => saturatingAddI64 total (counterToI64 (counters w i))) 0
      ⟨[stringAttr "severity_class" name], start, now, .asInt total.toInt⟩)

/-- `CertInfo`. -/
structure CertInfo where
  filePath : String
  serverName : String
  notBeforeUnix : Int64
  notAfterUnix : Int64
  subjectCn : String
  issuerCn : String
  serial : String
  pubkeyAlg : String
  sigAlg : String

/-- `cert_attrs`. -/
def certAttrs (c : CertInfo) : List (KeyValue F64) :=
  [stringAttr "tls.server.certificate.file_path" c.filePath,
    stringAttr "tls.server.subject" c.subjectCn,
    stringAttr "tls.server.issuer" c.issuerCn,
    stringAttr "tls.server.certificate.serial_number" c.serial,
    stringAttr "tls.server.certificate.public_key_algorithm" c.pubkeyAlg,
    stringAttr "tls.server.certificate.signature_algorithm" c.sigAlg,
    stringAttr "server.address" c.serverName]

/-- `cert_gauge` over the certificates. -/
def certGauge (certs : List CertInfo) (name desc : String) (value : CertInfo → Int64)
    (now : UInt64) : Metric F64 :=
  ⟨name, desc, "s", .gauge (certs.map fun c => ⟨certAttrs c, 0, now, .asInt (value c).toInt⟩)⟩

/-- `ServingCertSource::collect_at`. -/
def certMetrics (certs : List CertInfo) (nowWallSecs : Int64) (now : UInt64) : List (Metric F64) :=
  if certs.isEmpty then []
  else
    [certGauge certs "ngx_otel.tls.certificate.not_after"
        ("Serving certificate notAfter (Unix epoch seconds); collected at startup/reload from " ++
          "the live SSL_CTX")
        (·.notAfterUnix) now,
      certGauge certs "ngx_otel.tls.certificate.not_before"
        ("Serving certificate notBefore (Unix epoch seconds); collected at startup/reload from " ++
          "the live SSL_CTX")
        (·.notBeforeUnix) now,
      certGauge certs "ngx_otel.tls.certificate.time_to_expiration"
        ("Seconds until the serving certificate expires (negative after expiry); recomputed " ++
          "against the wall clock each export interval")
        (fun c => c.notAfterUnix - nowWallSecs) now]

/-- `collector_cert_gauge`. -/
def collectorCertGauge (notAfter : Int64) (serverAddress : String) (now : UInt64) : Metric F64 :=
  ⟨"ngx_otel.tls.collector_cert.not_after",
    "Collector TLS certificate notAfter (Unix epoch seconds), captured post-handshake; absent " ++
      "before the first TLS handshake and on plaintext (http://) endpoints",
    "s", .gauge [⟨[stringAttr "server.address" serverAddress], 0, now, .asInt notAfter.toInt⟩]⟩

/-! ## The batch -/

/-- What the other sources read; every source reads the clock for itself. -/
structure Sources where
  /-- none in a build without `stat_stub` -/
  stubStatus : Option StubStatus
  counters : SelfCounters
  intervalMs : UInt64
  errorLogEnabled : Bool
  errorRate : Nat → Nat → UInt64
  certs : List CertInfo
  collectorCertNotAfter : Int64
  collectorHost : String
  nowWallSecs : Int64
  stubNow : UInt64
  instrumentedNow : UInt64
  selfNow : UInt64
  errorRateNow : UInt64
  certNow : UInt64
  collectorCertNow : UInt64

/-- The metrics of `collect_all_sources` with the zone mapped. -/
def allMetrics (fl : Floats) (fromUtf8 : Bytes → Option String) (cfg : MainConfig) (nWorkers : Nat)
    (agg : WorkerAgg) (exemplars : List ComboExemplar) (src : Sources)
    (start : UInt64) : List (Metric F64) :=
  (match src.stubStatus with
    | some stats => stubStatusMetrics stats start src.stubNow
    | none => []) ++
  instrumentedMetrics fl fromUtf8 cfg agg exemplars start src.instrumentedNow ++
  selfMetrics src.counters src.intervalMs start src.selfNow ++
  (if src.errorLogEnabled then [errorRateMetric nWorkers src.errorRate start src.errorRateNow]
    else []) ++
  certMetrics src.certs src.nowWallSecs src.certNow ++
  (if src.collectorCertNotAfter ≠ 0 then
    [collectorCertGauge src.collectorCertNotAfter src.collectorHost src.collectorCertNow]
    else [])

/-- `collect_all_sources`. -/
def collectAllSources (fl : Floats) (codecs : Codecs) (site : Site) (cfg : MainConfig)
    (nWorkers : Nat) (slots : Nat → Metrics.Requests.WorkerSlots) (src : Sources)
    (start : UInt64) : DataModel.Batch F64 where
  resource := site.resource codecs
  scope := site.scope
  metrics := allMetrics fl codecs.fromUtf8 cfg nWorkers (aggregateWorkerSlots nWorkers slots)
    (Metrics.Exemplars.allExemplars fl.usToSeconds nWorkers fun i => (slots i).base) src start

/-! ## Names -/

/-- The names of a batch, by the sources that are there. -/
def metricNames (stub errorRate certs collectorCert : Bool) : List String :=
  (if stub then ["nginx.connections.accepted", "nginx.connections.handled", "nginx.requests.total",
    "nginx.connections.active", "nginx.connections.reading", "nginx.connections.writing",
    "nginx.connections.waiting"] else []) ++
  ["http.server.request.duration", "nginx.http.request.duration.by_route",
    "nginx.http.request.duration.by_upstream", "http.server.request.body.size",
    "http.server.response.body.size", "nginx.upstream.response.duration",
    "nginx.upstream.header.duration", "nginx.upstream.connect.duration",
    "nginx.upstream.bytes.received", "nginx.upstream.bytes.sent"] ++
  ["ngx_otel.dropped_records", "ngx_otel.send_failures", "ngx_otel.bidi_backpressure_drops",
    "ngx_otel.logs.access.dropped_records", "ngx_otel.logs.error.dropped_records",
    "ngx_otel.logs.error.coalesced_orphaned_records", "ngx_otel.logs.send_failures",
    "ngx_otel.traces.dropped_records", "ngx_otel.export_interval", "ngx_otel.exporter.restarts",
    "ngx_otel.delivery.permanent_rejected", "ngx_otel.delivery.partial_rejected",
    "ngx_otel.delivery.unauthorized"] ++
  (if errorRate then ["ngx_otel.error_log.events"] else []) ++
  (if certs then ["ngx_otel.tls.certificate.not_after", "ngx_otel.tls.certificate.not_before",
    "ngx_otel.tls.certificate.time_to_expiration"] else []) ++
  (if collectorCert then ["ngx_otel.tls.collector_cert.not_after"] else [])

theorem metricNames_nodup (stub errorRate certs collectorCert : Bool) :
    (metricNames stub errorRate certs collectorCert).Nodup := by
  have hsub : (metricNames stub errorRate certs collectorCert).Sublist
      (metricNames true true true true) := by
    have hpart : ∀ (b : Bool) (names : List String), (if b then names else []).Sublist names := by
      intro b names
      cases b
      · exact List.nil_sublist _
      · exact List.Sublist.refl _
    unfold metricNames
    exact ((((hpart _ _).append (List.Sublist.refl _)).append (List.Sublist.refl _)).append
      (hpart _ _)).append (hpart _ _) |>.append (hpart _ _)
  exact hsub.nodup (by decide)

section Batch

variable {fl : Floats} {fromUtf8 : Bytes → Option String} {site : Site} {cfg : MainConfig}
  {nWorkers : Nat} {src : Sources} {start : UInt64}

theorem map_name_allMetrics (agg : WorkerAgg) (exemplars : List ComboExemplar) :
    (allMetrics fl fromUtf8 cfg nWorkers agg exemplars src start).map Metric.name =
      metricNames src.stubStatus.isSome src.errorLogEnabled (!src.certs.isEmpty)
        (src.collectorCertNotAfter ≠ 0) := by
  have hstub : (match src.stubStatus with
      | some stats => stubStatusMetrics stats start src.stubNow
      | none => []).map Metric.name =
      if src.stubStatus.isSome then ["nginx.connections.accepted", "nginx.connections.handled",
        "nginx.requests.total", "nginx.connections.active", "nginx.connections.reading",
        "nginx.connections.writing", "nginx.connections.waiting"] else [] := by
    cases src.stubStatus <;> rfl
  have herror : (if src.errorLogEnabled then
      [errorRateMetric nWorkers src.errorRate start src.errorRateNow] else []).map Metric.name =
      if src.errorLogEnabled then ["ngx_otel.error_log.events"] else [] := by
    cases src.errorLogEnabled <;> rfl
  have hcerts : (certMetrics src.certs src.nowWallSecs src.certNow).map Metric.name =
      if (!src.certs.isEmpty) = true then ["ngx_otel.tls.certificate.not_after",
        "ngx_otel.tls.certificate.not_before", "ngx_otel.tls.certificate.time_to_expiration"]
      else [] := by
    cases src.certs <;> rfl
  have hcollector : (if src.collectorCertNotAfter ≠ 0 then
      [collectorCertGauge src.collectorCertNotAfter src.collectorHost src.collectorCertNow]
      else []).map Metric.name =
      if decide (src.collectorCertNotAfter ≠ 0) = true then
        ["ngx_otel.tls.collector_cert.not_after"] else [] := by
    by_cases h : src.collectorCertNotAfter = 0 <;> simp [h, collectorCertGauge]
  simp only [allMetrics, List.map_append, hstub, herror, hcerts, hcollector]
  rfl

/-- The request metrics are a stretch of the batch. -/
theorem allMetrics_split (agg : WorkerAgg) (exemplars : List ComboExemplar) :
    ∃ before after, allMetrics fl fromUtf8 cfg nWorkers agg exemplars src start =
      before ++ instrumentedMetrics fl fromUtf8 cfg agg exemplars start src.instrumentedNow ++
        after := by
  have hassoc : ∀ a b c d e f : List (Metric F64),
      a ++ b ++ c ++ d ++ e ++ f = a ++ b ++ (c ++ d ++ e ++ f) := by simp
  exact ⟨_, _, hassoc _ _ _ _ _ _⟩

/-! ## What the encoder needs -/

theorem formed_histogram {n : Nat} {name desc unit : String} {data : Histogram n} {sum : F64}
    {bounds : List F64} {now : UInt64} (h : n = bounds.length + 1) :
    malformedPoints (histMetricWithSum name desc unit data sum bounds start now).data = 0 := by
  simp [histMetricWithSum, malformedPoints, HistogramDataPoint.wellFormed, h]

/-- A list in which each metric has been looked at. -/
theorem formed_nil : ∀ m ∈ ([] : List (Metric F64)), malformedPoints m.data = 0 :=
  fun _ hm => (List.not_mem_nil hm).elim

theorem formed_instrumented (agg : WorkerAgg)
    (exemplars : List ComboExemplar) (now : UInt64) :
    ∀ m ∈ instrumentedMetrics fl fromUtf8 cfg agg exemplars start now,
      malformedPoints m.data = 0 := by
  have hbytes : BYTES_BOUNDS.length + 1 = (BYTES_BOUNDS.map fl.ofU64).length + 1 := by
    rw [List.length_map]
  have hdurations : DURATION_BOUNDS_MS.length + 1 = DURATION_BOUNDS_S.length + 1 := rfl
  simp only [instrumentedMetrics, histMetric, List.forall_mem_cons]
  exact ⟨rfl, rfl, rfl, formed_histogram hbytes, formed_histogram hbytes,
    formed_histogram hdurations, formed_histogram hdurations, formed_histogram hdurations,
    formed_histogram hbytes, formed_histogram hbytes, formed_nil⟩

/-- Every histogram has one bucket more than bounds; the other metrics have no histograms. -/
theorem formed_allMetrics (agg : WorkerAgg)
    (exemplars : List ComboExemplar) :
    ∀ m ∈ allMetrics fl fromUtf8 cfg nWorkers agg exemplars src start,
      malformedPoints m.data = 0 := by
  simp only [allMetrics, List.forall_mem_append]
  refine ⟨⟨⟨⟨⟨?_, formed_instrumented _ _ _⟩, ?_⟩, ?_⟩, ?_⟩, ?_⟩
  · cases src.stubStatus with
    | none => exact formed_nil
    | some stats =>
      simp only [stubStatusMetrics, List.forall_mem_cons]
      exact ⟨rfl, rfl, rfl, rfl, rfl, rfl, rfl, formed_nil⟩
  · simp only [selfMetrics, List.forall_mem_cons]
    exact ⟨rfl, rfl, rfl, rfl, rfl, rfl, rfl, rfl, rfl, rfl, rfl, rfl, rfl, formed_nil⟩
  · split
    · exact List.forall_mem_singleton.mpr rfl
    · exact formed_nil
  · unfold certMetrics
    split
    · exact formed_nil
    · simp only [List.forall_mem_cons]
      exact ⟨rfl, rfl, rfl, formed_nil⟩
  · split
    · exact List.forall_mem_singleton.mpr rfl
    · exact formed_nil

/-- **The encoder leaves no data point of a collection out.** -/
theorem malformed_collectAllSources (codecs : Codecs) (site : Site)
    (slots : Nat → Metrics.Requests.WorkerSlots) :
    malformed (.metrics (collectAllSources fl codecs site cfg nWorkers slots src start)) = 0 := by
  show (_ : List Nat).sum = 0
  refine List.sum_eq_zero fun n hn => ?_
  obtain ⟨m, hm, rfl⟩ := List.mem_map.mp hn
  exact formed_allMetrics _ _ m hm

end Batch

end NgxOtel.Drain
