import NgxOtel.Drain.MetricsBatch

/-!
# What the request metrics of a collection show

The ten request metrics of a batch, said from the requests that were handled: every data point is
the histogram of one list of values, with no slots, no workers and no combinations of sums.

* `durationsPoint`, `valuesPoint` — the exponential histogram of some durations and the
  explicit-bucket histogram of some values.
* `methodKinds`, `statusKinds`, `versionKinds` — the names under which requests are told apart.
* `timing`, `attemptBytes` — what a request adds to the metrics about upstreams.
* `requestMetrics` — the ten metrics, each with the requests that it is about.
* `bare` — a metric without its exemplars.

## Results

* `instrumentedMetrics_ledger` — the metrics made from a ledger are those of its requests.
* `metrics_of_requests` — **a collection shows the requests that were handled**: after any run of
  requests, collections and reloads, one after the other, the request metrics of the batch are those
  of the requests; every name occurs once and every data point is encoded.
-/

set_option autoImplicit false

namespace NgxOtel.Drain

open Word DataModel Otlp Shm Metrics.Requests
open Metrics (entryName buildRouteMetric buildUpstreamDurationMetric)

/-! ## Histograms of values -/

/-- The exponential histogram of some durations in microseconds. -/
def durationsPoint (fl : Floats) (attrs : List (KeyValue F64)) (start now : UInt64)
    (us : List UInt64) : ExponentialHistogramDataPoint F64 where
  attributes := attrs
  startTimeUnixNano := start
  timeUnixNano := now
  count := UInt64.ofNat us.length
  sum := fl.usToSeconds (UInt64.ofNat (us.map UInt64.toNat).sum)
  scale := 3
  zeroCount := UInt64.ofNat (us.count 0)
  positiveOffset := -160
  positiveBucketCounts :=
    (List.range 192).map fun i => UInt64.ofNat (us.countP fun v => InBucket i v)
  exemplars := []

/-- A point for the durations that there are. -/
def durationsPoint? (fl : Floats) (attrs : List (KeyValue F64)) (start now : UInt64)
    (us : List UInt64) : Option (ExponentialHistogramDataPoint F64) :=
  if us = [] then none else some (durationsPoint fl attrs start now us)

/-- The explicit-bucket histogram of some values; the bounds are shown as numbers. -/
def valuesPoint (bounds : List UInt64) (shown : List F64) (toSum : UInt64 → F64)
    (start now : UInt64) (values : List UInt64) : HistogramDataPoint F64 where
  attributes := []
  startTimeUnixNano := start
  timeUnixNano := now
  count := UInt64.ofNat values.length
  sum := toSum (UInt64.ofNat (values.map UInt64.toNat).sum)
  bucketCounts := (List.range (bounds.length + 1)).map fun i =>
    UInt64.ofNat (values.countP fun v =>
      (bounds.take i).all (fun b => b < v) && (bounds.drop i).all fun b => v ≤ b)
  explicitBounds := shown

/-! ## The metrics as they ought to be -/

def durationsOf (rs : List Handled) : List UInt64 := rs.map fun h => h.2.base.durationUs

/-- The methods with a name of their own. -/
def namedMethods : List (String × Bytes) :=
  [("GET", [71, 69, 84]), ("HEAD", [72, 69, 65, 68]), ("POST", [80, 79, 83, 84]),
    ("PUT", [80, 85, 84]), ("DELETE", [68, 69, 76, 69, 84, 69]), ("PATCH", [80, 65, 84, 67, 72]),
    ("OPTIONS", [79, 80, 84, 73, 79, 78, 83])]

/-- The names by method, each with the methods that go by it. -/
def methodKinds : List (String × (Bytes → Bool)) :=
  namedMethods.map (fun m => (m.1, fun method => decide (method = m.2))) ++
    [("_OTHER", fun method => namedMethods.all fun m => method ≠ m.2)]

/-- The names by status.  What is no status counts as a server error. -/
def statusKinds : List (String × (UInt16 → Bool)) :=
  [("1xx", fun status => status.toNat / 100 = 1), ("2xx", fun status => status.toNat / 100 = 2),
    ("3xx", fun status => status.toNat / 100 = 3), ("4xx", fun status => status.toNat / 100 = 4),
    ("5xx", fun status => status.toNat < 100 ∨ 500 ≤ status.toNat)]

/-- The names by protocol version.  What nginx has no number for counts as 1.1. -/
def versionKinds : List (String × (Nat → Bool)) :=
  [("1.0", fun version => version = 1000),
    ("1.1", fun version => version ≠ 1000 ∧ version ≠ 2000 ∧ version ≠ 3000),
    ("2", fun version => version = 2000), ("3", fun version => version = 3000)]

/-- A point for each combination that was answered. -/
def combinationPoints (fl : Floats) (start now : UInt64) (handled : List Handled) :
    List (ExponentialHistogramDataPoint F64) :=
  methodKinds.flatMap fun m => statusKinds.flatMap fun c => versionKinds.filterMap fun v =>
    durationsPoint? fl
      [stringAttr "http.request.method" m.1, stringAttr "http.response.status_class" c.1,
        stringAttr "network.protocol.version" v.1]
      start now
      (durationsOf (handled.filter fun h => h.2.base.status ≠ 0 ∧ m.2 h.2.base.methodName ∧
        c.2 h.2.base.status ∧ v.2 h.2.base.httpVersion))

/-- The place of a pointer in a table, or the one for all that have none. -/
def placeOf (table : List Metrics.Entry) (otherwise ptr : Nat) : Nat :=
  let ptrs := table.map (·.ptr)
  if ptr ≠ 0 ∧ ptr ∈ ptrs then ptrs.idxOf ptr else otherwise

/-- The name of a place in a table. -/
def placeName (fromUtf8 : Bytes → Option String) (table : List Metrics.Entry) (idx : Nat) :
    String :=
  match table[idx]? with
  | some e => (fromUtf8 e.name).getD "(invalid)"
  | none => "(other)"

/-- Words added up, or the largest word if they are too many. -/
def saturatedSum (values : List UInt64) : UInt64 :=
  UInt64.ofNat (min (values.map UInt64.toNat).sum (2 ^ 64 - 1))

/-- The sum of the times that were reached, if one was. -/
def sumReached (times : List UInt64) : Option UInt64 :=
  let reached := times.filter fun time => time ≠ 0xFFFFFFFFFFFFFFFF
  if reached = [] then none else some (saturatedSum reached)

/-- One of the times of a request that went upstream, over all its attempts. -/
def timing (time : UpstreamState → UInt64) (r : Request) : Option UInt64 :=
  if r.upstream.isSome then sumReached ((r.upstreamStates.filter (·.hasPeer)).map time) else none

/-- The bytes of all attempts of a request that went upstream. -/
def attemptBytes (bytes : UpstreamState → UInt64) (r : Request) : Option UInt64 :=
  if r.upstream.isSome ∧ r.upstreamStates ≠ [] then
    some (saturatedSum ((r.upstreamStates.filter (·.hasPeer)).map bytes))
  else none

/-- **The request metrics**, from the requests handled since the zone was mapped and since the last
reload.  Durations by route and by upstream are those since the last reload, under the numbers of
the configuration that the worker had. -/
def requestMetrics (fl : Floats) (fromUtf8 : Bytes → Option String) (cfg : MainConfig)
    (start now : UInt64) (handled sinceReload : List Handled) : List (Metric F64) :=
  let exponential (name desc : String) points : Metric F64 :=
    ⟨name, desc, "s", .exponentialHistogram .cumulative points⟩
  let sizes (name desc : String) (part : Request → Option UInt64) : Metric F64 :=
    let bounds := [128, 512, 4096, 65536, 524288, 4194304]
    ⟨name, desc, "By", .histogram .cumulative
      [valuesPoint bounds (bounds.map fl.ofU64) fl.ofU64 start now
        (handled.filterMap fun h => part h.2)]⟩
  let timings (name desc : String) (part : Request → Option UInt64) : Metric F64 :=
    let boundsMs := [5, 10, 25, 50, 75, 100, 250, 500, 750, 1000, 2500, 5000, 7500, 10000]
    ⟨name, desc, "s", .histogram .cumulative
      [valuesPoint boundsMs DURATION_BOUNDS_S fl.msToSHistSum start now
        (handled.filterMap fun h => part h.2)]⟩
  [exponential "http.server.request.duration" "HTTP server request duration"
      (if cfg.statusCodeClass then combinationPoints fl start now handled
      else [durationsPoint fl [] start now
        (durationsOf (handled.filter fun h => h.2.base.status ≠ 0))]),
    exponential "nginx.http.request.duration.by_route"
      "HTTP server request duration by matched location (http.route)"
      ((List.range 65).filterMap fun idx =>
        durationsPoint? fl [stringAttr "http.route" (placeName fromUtf8 cfg.routeTable idx)] start
          now
          (durationsOf (sinceReload.filter fun h =>
            placeOf h.1.routeTable 64 h.2.clcfPtr = idx))),
    exponential "nginx.http.request.duration.by_upstream"
      "HTTP server request duration by upstream zone (nginx.upstream.zone)"
      ((List.range 33).filterMap fun idx =>
        durationsPoint? fl
          [stringAttr "nginx.upstream.zone" (placeName fromUtf8 cfg.upstreamTable idx)] start now
          (durationsOf (sinceReload.filter fun h =>
            h.2.upstream.any fun zone => zone ≠ 0 ∧ placeOf h.1.upstreamTable 32 zone = idx))),
    sizes "http.server.request.body.size" "HTTP server request body size"
      fun r => some r.requestLength,
    sizes "http.server.response.body.size" "HTTP server response body size"
      fun r => some r.respBytes,
    timings "nginx.upstream.response.duration" "Upstream response time" (timing (·.responseTime)),
    timings "nginx.upstream.header.duration" "Upstream time to first response byte"
      (timing (·.headerTime)),
    timings "nginx.upstream.connect.duration" "Upstream connection establishment time"
      (timing (·.connectTime)),
    sizes "nginx.upstream.bytes.received" "Bytes received from upstream"
      (attemptBytes (·.bytesReceived)),
    sizes "nginx.upstream.bytes.sent" "Bytes sent to upstream" (attemptBytes (·.bytesSent))]

def stripped (point : ExponentialHistogramDataPoint F64) : ExponentialHistogramDataPoint F64 :=
  { point with exemplars := [] }

/-- A metric without its exemplars. -/
def bare (m : Metric F64) : Metric F64 :=
  { m with
    data := match m.data with
      | .exponentialHistogram temporality points =>
        .exponentialHistogram temporality (points.map stripped)
      | other => other }

/-! ## Requests as the worker tells them apart -/

theorem methodKinds_eq : methodKinds = (List.range N_HTTP_METHODS).map fun i =>
    ((HttpMethod.fromIndex i).asStr,
      fun method => decide (HttpMethod.fromBytes method = HttpMethod.fromIndex i)) := by
  simp only [methodKinds, namedMethods, N_HTTP_METHODS, List.range_succ, HttpMethod.fromIndex,
    HttpMethod.asStr, List.map_cons, List.map_nil, List.range_zero, List.nil_append,
    List.cons_append, List.cons.injEq, Prod.mk.injEq, true_and, and_true, funext_iff]
  refine ⟨?_, ?_, ?_, ?_, ?_, ?_, ?_, ?_⟩
  all_goals
    intro method
    rw [HttpMethod.fromBytes]
    split_ifs <;> simp_all

theorem statusKinds_eq : statusKinds = (List.range N_STATUS_CLASSES).map fun i =>
    ((StatusClass.fromIndex i).asStr,
      fun status => decide (StatusClass.fromStatus status = StatusClass.fromIndex i)) := by
  simp only [statusKinds, N_STATUS_CLASSES, List.range_succ, StatusClass.fromIndex,
    StatusClass.asStr, List.map_cons, List.map_nil, List.range_zero, List.nil_append,
    List.cons_append, List.cons.injEq, Prod.mk.injEq, true_and, and_true, funext_iff]
  refine ⟨?_, ?_, ?_, ?_, ?_⟩
  all_goals
    intro status
    simp only [StatusClass.fromStatus, UInt16.le_iff_toNat_le, UInt16.reduceToNat,
      decide_eq_decide]
    split_ifs <;> simp <;> omega

theorem versionKinds_eq : versionKinds = (List.range N_PROTO_VERSIONS).map fun i =>
    ((ProtoVersion.fromIndex i).asStr,
      fun version => decide (ProtoVersion.fromNgx version = ProtoVersion.fromIndex i)) := by
  simp only [versionKinds, N_PROTO_VERSIONS, List.range_succ, ProtoVersion.fromIndex,
    ProtoVersion.asStr, List.map_cons, List.map_nil, List.range_zero, List.nil_append,
    List.cons_append, List.cons.injEq, Prod.mk.injEq, true_and, and_true, funext_iff]
  refine ⟨?_, ?_, ?_, ?_⟩
  all_goals
    intro version
    rw [ProtoVersion.fromNgx]
    split_ifs <;> simp_all

theorem idxFor_eq (cap : Nat) (table : List Metrics.Entry) (ptr : Nat) :
    idxFor cap table ptr = placeOf table cap ptr := by
  have hfind : table.findIdx? (fun e => e.ptr = ptr) =
      if ptr ∈ table.map (·.ptr) then some ((table.map (·.ptr)).idxOf ptr) else none := by
    induction table with
    | nil => rfl
    | cons e table ih =>
      by_cases hptr : e.ptr = ptr
      · simp [List.findIdx?_cons, hptr]
      · simp only [List.findIdx?_cons, hptr, decide_false, Bool.false_eq_true, if_false, ih,
          List.map_cons, List.mem_cons, Ne.symm hptr, false_or, List.idxOf_cons_ne _ hptr]
        split <;> simp
  rw [idxFor, placeOf, hfind]
  by_cases hnull : ptr = 0
  · simp [hnull]
  · by_cases hmem : ptr ∈ table.map (·.ptr) <;> simp [hnull, hmem]

theorem entryName_eq {fromUtf8 : Bytes → Option String} {cap : Nat} {table : List Metrics.Entry}
    (hcap : table.length ≤ cap) (idx : Nat) :
    entryName fromUtf8 cap table idx = placeName fromUtf8 table idx := by
  rw [entryName, placeName]
  split_ifs with hidx
  · rw [List.getElem?_eq_none (by omega)]
  · rfl

/-! ### Upstream attempts -/

theorem toNat_saturatingAdd (a b : UInt64) :
    (saturatingAdd a b).toNat = min (a.toNat + b.toNat) (2 ^ 64 - 1) := by
  rw [saturatingAdd]
  split
  · rw [UInt64.toNat_add]
    omega
  · show 2 ^ 64 - 1 = _
    omega

theorem toNat_saturatedSum (values : List UInt64) :
    (saturatedSum values).toNat = min (values.map UInt64.toNat).sum (2 ^ 64 - 1) := by
  refine UInt64.toNat_ofNat_of_lt ?_
  rw [UInt64.size]
  omega

theorem saturatingAdd_saturatedSum (values : List UInt64) (v : UInt64) :
    saturatingAdd (saturatedSum values) v = saturatedSum (values ++ [v]) := by
  have hv := v.toNat_lt
  rw [← UInt64.toNat_inj, toNat_saturatingAdd, toNat_saturatedSum, toNat_saturatedSum,
    List.map_append, List.sum_append]
  simp only [List.map_cons, List.map_nil, List.sum_cons, List.sum_nil]
  omega

theorem foldl_saturatingAdd (values : List UInt64) :
    values.foldl saturatingAdd 0 = saturatedSum values := by
  induction values using List.reverseRecOn with
  | nil => rfl
  | append_singleton values v ih =>
    rw [List.foldl_concat, ih, saturatingAdd_saturatedSum]

/-- A time that was not reached is left out. -/
theorem accumulate_sumReached (times : List UInt64) (time : UInt64) :
    accumulate (sumReached times) time = sumReached (times ++ [time]) := by
  have hsum : (sumReached times).getD 0 =
      saturatedSum (times.filter fun time => time ≠ 0xFFFFFFFFFFFFFFFF) := by
    rw [sumReached]
    split_ifs with hnone
    · rw [hnone]
      rfl
    · rfl
  rw [accumulate, hsum, saturatingAdd_saturatedSum, NGX_MSEC_SENTINEL]
  by_cases htime : time = 0xFFFFFFFFFFFFFFFF <;> simp [sumReached, htime]

theorem foldl_accumulate (times : List UInt64) :
    times.foldl accumulate none = sumReached times := by
  induction times using List.reverseRecOn with
  | nil => rfl
  | append_singleton times time ih =>
    rw [List.foldl_concat, ih, accumulate_sumReached]

/-- A component of the sum over the attempts. -/
theorem foldl_add {β : Type} {part : UpstreamSum → β} {read : UpstreamState → UInt64}
    {op : β → UInt64 → β}
    (h : ∀ sum st, st.hasPeer = true → part (sum.add st) = op (part sum) (read st))
    (states : List UpstreamState) (sum : UpstreamSum) :
    part (states.foldl UpstreamSum.add sum) =
      ((states.filter (·.hasPeer)).map read).foldl op (part sum) := by
  induction states generalizing sum with
  | nil => rfl
  | cons st states ih =>
    cases hpeer : st.hasPeer with
    | true =>
      rw [List.foldl_cons, ih, h sum st hpeer, List.filter_cons_of_pos hpeer, List.map_cons,
        List.foldl_cons]
    | false =>
      have hskip : sum.add st = sum := if_neg (by simp [hpeer])
      rw [List.foldl_cons, ih, hskip, List.filter_cons_of_neg (by simp [hpeer])]

theorem upstreamSum_timing {part : UpstreamSum → Option UInt64} {time : UpstreamState → UInt64}
    (hstart : part ⟨none, none, none, 0, 0⟩ = none)
    (h : ∀ sum st, st.hasPeer = true → part (sum.add st) = accumulate (part sum) (time st))
    (r : Request) : r.upstreamSum.bind part = timing time r := by
  rw [Request.upstreamSum, sumUpstreamStates, timing]
  by_cases hupstream : r.upstream.isSome = true
  · cases hstates : r.upstreamStates with
    | nil =>
      rw [if_pos hupstream, if_pos hupstream]
      rfl
    | cons st states =>
      rw [if_pos hupstream, if_neg (by simp), Option.bind_some, foldl_add h, hstart,
        foldl_accumulate, if_pos hupstream]
  · simp [hupstream]

theorem upstreamSum_bytes {part : UpstreamSum → UInt64} {bytes : UpstreamState → UInt64}
    (hstart : part ⟨none, none, none, 0, 0⟩ = 0)
    (h : ∀ sum st, st.hasPeer = true → part (sum.add st) = saturatingAdd (part sum) (bytes st))
    (r : Request) : r.upstreamSum.map part = attemptBytes bytes r := by
  rw [Request.upstreamSum, sumUpstreamStates, attemptBytes]
  by_cases hupstream : r.upstream.isSome = true
  · cases hstates : r.upstreamStates with
    | nil => simp [hupstream]
    | cons st states =>
      rw [if_pos hupstream, if_neg (by simp), Option.map_some, foldl_add h, hstart,
        foldl_saturatingAdd, if_pos ⟨hupstream, by simp⟩]
  · simp [hupstream]

/-! ## The words of a tally -/

section Tally

variable {ι : Type} [DecidableEq ι] (cellOf : UInt64 → ι) (values : List UInt64)

/-- Values as observations. -/
def placed : List (ι × UInt64) := values.map fun v => (cellOf v, v)

theorem tally_placed_cell (i : ι) : tally (placed cellOf values) (.cell i) =
    UInt64.ofNat (values.countP fun v => cellOf v = i) := by
  rw [tally, placed, List.countP_map]
  rfl

theorem tally_placed_sum : tally (placed cellOf values) .sum =
    UInt64.ofNat (values.map UInt64.toNat).sum := by
  rw [tally, placed, List.map_map]
  rfl

theorem tally_placed_count :
    tally (placed cellOf values) .count = UInt64.ofNat values.length := by
  rw [tally, placed, List.length_map]

theorem tally_placed_count_eq_zero_iff {values : List UInt64} (hshort : values.length < 2 ^ 64) :
    tally (placed cellOf values) .count = 0 ↔ values = [] := by
  have hlength : (UInt64.ofNat values.length).toNat = values.length :=
    UInt64.toNat_ofNat_of_lt hshort
  rw [tally_placed_count, ← UInt64.toNat_inj, hlength]
  exact List.length_eq_zero_iff

end Tally

/-- The cells of a slot, listed by number. -/
theorem map_finRange {n : Nat} {β : Type} {f : Fin n → β} {g : Nat → β}
    (h : ∀ i : Fin n, f i = g i) : (List.finRange n).map f = (List.range n).map g := by
  rw [← List.map_coe_finRange_eq_range, List.map_map]
  exact List.map_congr_left fun i _ => h i

theorem observed_durations {p : Handled → Prop} [DecidablePred p] (rs : List Handled) :
    observed (fun h => if p h then some (duration h) else none) rs =
      placed expCell (durationsOf (rs.filter fun h => p h)) := by
  rw [observed, placed, durationsOf, List.map_map, ← List.filterMap_eq_map, List.filterMap_filter]
  refine List.filterMap_congr fun h _ => ?_
  by_cases hp : p h <;> simp [hp, duration]

theorem length_durationsOf_filter {rs : List Handled} (hshort : rs.length < 2 ^ 64)
    (p : Handled → Bool) : (durationsOf (rs.filter p)).length < 2 ^ 64 := by
  rw [durationsOf, List.length_map]
  exact Nat.lt_of_le_of_lt (List.length_filter_le _ _) hshort

/-! ## The data points -/

section Points

variable {fl : Floats} {fromUtf8 : Bytes → Option String} {cfg : MainConfig} {start now : UInt64}

theorem stripped_expPoint (us : List UInt64) (attrs : List (KeyValue F64))
    (exemplars : List (Exemplar F64)) :
    stripped (expPoint (tally (placed expCell us))
      (fl.usToSeconds (tally (placed expCell us) .sum)) attrs exemplars start now) =
      durationsPoint fl attrs start now us := by
  have hzero : us.countP (fun v => expCell v = .zero) = us.count 0 :=
    List.countP_congr fun v _ => by simp [expCell_eq_zero_iff]
  have hbuckets : (List.finRange N_EXP_BUCKETS).map
      (fun i => tally (placed expCell us) (.cell (.bucket i))) =
      (List.range 192).map fun i => UInt64.ofNat (us.countP fun v => InBucket i v) := by
    refine map_finRange fun i => ?_
    rw [tally_placed_cell]
    exact congrArg UInt64.ofNat (List.countP_congr fun v _ => by
      simp only [decide_eq_true_eq]
      exact expCell_eq_bucket_iff i)
  simp only [stripped, expPoint, durationsPoint, tally_placed_count, tally_placed_sum,
    tally_placed_cell, hzero]
  simp only [← tally_placed_cell, hbuckets]
  rfl

theorem comboPoint_placed {us : List UInt64} (hshort : us.length < 2 ^ 64) (m : HttpMethod)
    (c : StatusClass) (p : ProtoVersion) (exemplars : List (Metrics.Exemplars.Exemplar F64)) :
    (Metrics.Exemplars.makeExpDp fl.usToSeconds m c p (tally (placed expCell us)) exemplars).map
      (fun dp => stripped (comboPoint start now dp)) =
      durationsPoint? fl
        [stringAttr "http.request.method" m.asStr,
          stringAttr "http.response.status_class" c.asStr,
          stringAttr "network.protocol.version" p.asStr] start now us := by
  have hnone := tally_placed_count_eq_zero_iff expCell hshort
  unfold Metrics.Exemplars.makeExpDp durationsPoint?
  by_cases hus : us = []
  · rw [if_pos (hnone.mpr hus), if_pos hus]
    rfl
  · rw [if_neg (hus ∘ hnone.mp), if_neg hus]
    exact congrArg some (stripped_expPoint us _ _)

/-- The point of a slot of a table, under the name of the slot. -/
theorem slotPoint_placed {us : List UInt64} (hshort : us.length < 2 ^ 64) (key name : String) :
    (Metrics.makeExpDp fl.usToSeconds (toAgg (tally (placed expCell us))) [(key, name)] start
      now).map (fun dp => stripped (toExpPoint dp)) =
      durationsPoint? fl [stringAttr key name] start now us := by
  have hnone : (toAgg (tally (placed expCell us))).count = 0 ↔ us = [] :=
    tally_placed_count_eq_zero_iff expCell hshort
  unfold Metrics.makeExpDp durationsPoint?
  by_cases hus : us = []
  · rw [if_pos (hnone.mpr hus), if_pos hus]
    rfl
  · rw [if_neg (hus ∘ hnone.mp), if_neg hus]
    exact congrArg some (stripped_expPoint us [stringAttr key name] [])

/-! ## The metrics -/

theorem observed_comboObs (handled : List Handled) (m : HttpMethod) (c : StatusClass)
    (p : ProtoVersion) : observed (comboObs (comboIndex m c p)) handled =
      placed expCell (durationsOf (handled.filter fun h => h.2.base.status ≠ 0 ∧
        HttpMethod.fromBytes h.2.base.methodName = m ∧ StatusClass.fromStatus h.2.base.status = c ∧
        ProtoVersion.fromNgx h.2.base.httpVersion = p)) := by
  refine (observed_durations handled).trans ?_
  refine congrArg (fun rs => placed expCell (durationsOf rs)) (List.filter_congr fun h _ => ?_)
  rw [decide_eq_decide, Metrics.Exemplars.Request.baseIdx, comboIndex_inj]

theorem map_buildDurationMetric {handled : List Handled} (hshort : handled.length < 2 ^ 64)
    (exemplars : List ComboExemplar) :
    ((Metrics.Exemplars.buildDurationMetric fl.usToSeconds
      (fun idx => tally (observed (comboObs idx) handled)) exemplars).map
        (comboPoint start now)).map stripped = combinationPoints fl start now handled := by
  rw [combinationPoints, methodKinds_eq, statusKinds_eq, versionKinds_eq,
    Metrics.Exemplars.buildDurationMetric]
  simp only [List.map_flatMap, List.flatMap_map, List.map_filterMap, List.filterMap_map,
    Option.map_map, observed_comboObs, Function.comp_def, decide_eq_true_eq]
  refine List.flatMap_congr fun i _ => List.flatMap_congr fun j _ =>
    List.filterMap_congr fun k _ => ?_
  exact comboPoint_placed (length_durationsOf_filter hshort _) _ _ _ _

/-- All combinations together are the answered requests. -/
theorem allCombos_tally (handled : List Handled) :
    allCombos (fun idx => tally (observed (comboObs idx) handled)) =
      tally (placed expCell (durationsOf (handled.filter fun h => h.2.base.status ≠ 0))) := by
  rw [← observed_durations]
  funext f
  -- on the requests, the last one first: it counts in one of the combinations, or in none
  induction handled using List.reverseRecOn with
  | nil => exact (Shards.total_zero (fun _ _ => tally_nil) f).trans (tally_nil f).symm
  | append_singleton handled h ih =>
    rw [tally_observed_concat, ← ih]
    by_cases hanswered : h.2.base.status ≠ 0
    · have hslots : (fun idx => tally (observed (comboObs idx) (handled ++ [h]))) =
          Function.update (fun idx => tally (observed (comboObs idx) handled)) h.2.base.baseIdx
            (tally (observed (comboObs h.2.base.baseIdx) (handled ++ [h]))) := by
        funext idx f
        by_cases hidx : idx = h.2.base.baseIdx
        · rw [hidx, Function.update_self]
        · have hother : comboObs idx h = none := if_neg fun hboth => hidx hboth.2.symm
          rw [Function.update_of_ne hidx, tally_observed_concat, hother]
          exact UInt64.add_zero _
      rw [hslots, if_pos hanswered]
      refine Shards.total_bump (baseIdx_lt h.2.base) ?_
      have hobs : comboObs h.2.base.baseIdx h = some (duration h) := if_pos ⟨hanswered, rfl⟩
      rw [tally_observed_concat, hobs]
    · have hslots : (fun idx => tally (observed (comboObs idx) (handled ++ [h]))) =
          fun idx => tally (observed (comboObs idx) handled) := by
        funext idx f
        have hnone : comboObs idx h = none := if_neg fun hboth => hanswered hboth.1
        rw [tally_observed_concat, hnone]
        exact UInt64.add_zero _
      rw [hslots, if_neg hanswered]
      exact (UInt64.add_zero _).symm

theorem map_slotPoints {rs : List Handled} (hshort : rs.length < 2 ^ 64) (slots : Nat)
    (key : String) (name : Nat → String) (p : Nat → Handled → Bool) :
    ((Metrics.slotPoints fl.usToSeconds slots key name
      (fun idx => toAgg (tally (placed expCell (durationsOf (rs.filter (p idx)))))) start
      now).map toExpPoint).map stripped =
      (List.range slots).filterMap fun idx =>
        durationsPoint? fl [stringAttr key (name idx)] start now
          (durationsOf (rs.filter (p idx))) := by
  simp only [Metrics.slotPoints, List.map_filterMap, Option.map_map]
  exact List.filterMap_congr fun idx _ =>
    slotPoint_placed (length_durationsOf_filter hshort _) key (name idx)

theorem observed_values (bounds : List UInt64) (part : Handled → Option UInt64)
    (rs : List Handled) : observed (fun h => (part h).map (sized bounds)) rs =
      placed (histogramCell bounds) (rs.filterMap part) := by
  rw [observed, placed, List.map_filterMap]
  rfl

theorem histMetricWithSum_placed {bounds : List UInt64} (hsorted : bounds.Pairwise (· < ·))
    (name desc unit : String) (shown : List F64) (toSum : UInt64 → F64) (values : List UInt64) :
    histMetricWithSum name desc unit (tally (placed (histogramCell bounds) values))
      (toSum (tally (placed (histogramCell bounds) values) .sum)) shown start now =
      ⟨name, desc, unit,
        .histogram .cumulative [valuesPoint bounds shown toSum start now values]⟩ := by
  have hbuckets : (List.finRange (bounds.length + 1)).map
      (fun i => tally (placed (histogramCell bounds) values) (.cell i)) =
      (List.range (bounds.length + 1)).map fun i => UInt64.ofNat (values.countP fun v =>
        (bounds.take i).all (fun b => b < v) && (bounds.drop i).all fun b => v ≤ b) := by
    refine map_finRange fun i => ?_
    rw [tally_placed_cell]
    exact congrArg UInt64.ofNat (List.countP_congr fun v _ => by
      simp only [decide_eq_true_eq, Bool.and_eq_true, List.all_eq_true]
      exact histogramCell_eq_iff hsorted v i)
  rw [histMetricWithSum, hbuckets, tally_placed_count, tally_placed_sum]
  rfl

theorem bare_sizes (handled : List Handled) (name desc : String)
    (part : Request → Option UInt64) :
    bare (histMetric fl name desc "By" (tally (observed (bytesObs part) handled))
      (BYTES_BOUNDS.map fl.ofU64) start now) = ⟨name, desc, "By", .histogram .cumulative
        [valuesPoint BYTES_BOUNDS (BYTES_BOUNDS.map fl.ofU64) fl.ofU64 start now
          (handled.filterMap fun h => part h.2)]⟩ := by
  have hobs : observed (bytesObs part) handled = placed (histogramCell BYTES_BOUNDS)
      (handled.filterMap fun h => part h.2) := observed_values _ _ handled
  rw [hobs, histMetric, histMetricWithSum_placed (by decide)]
  rfl

theorem bare_timings (handled : List Handled) (name desc : String)
    {part : UpstreamSum → Option UInt64} {time : UpstreamState → UInt64}
    (hpart : ∀ r : Request, r.upstreamSum.bind part = timing time r) :
    bare (histMetricWithSum name desc "s" (tally (observed (timingObs part) handled))
      (fl.msToSHistSum (tally (observed (timingObs part) handled) .sum)) DURATION_BOUNDS_S start
      now) = ⟨name, desc, "s", .histogram .cumulative
        [valuesPoint DURATION_BOUNDS_MS DURATION_BOUNDS_S fl.msToSHistSum start now
          (handled.filterMap fun h => timing time h.2)]⟩ := by
  have hobs : observed (timingObs part) handled = placed (histogramCell DURATION_BOUNDS_MS)
      (handled.filterMap fun h => h.2.upstreamSum.bind part) := observed_values _ _ handled
  rw [hobs, histMetricWithSum_placed (by decide)]
  simp only [hpart]
  rfl

theorem bare_duration {handled : List Handled} (hshort : handled.length < 2 ^ 64)
    (statusCodeClass : Bool) (exemplars : List ComboExemplar) :
    bare (buildDurationMetric fl statusCodeClass
      (fun idx => tally (observed (comboObs idx) handled)) exemplars start now) =
      ⟨"http.server.request.duration", "HTTP server request duration", "s",
        .exponentialHistogram .cumulative
          (if statusCodeClass then combinationPoints fl start now handled
          else [durationsPoint fl [] start now
            (durationsOf (handled.filter fun h => h.2.base.status ≠ 0))])⟩ := by
  cases statusCodeClass with
  | true =>
    simp only [bare, buildDurationMetric, if_true, map_buildDurationMetric hshort]
  | false =>
    simp only [bare, buildDurationMetric, Bool.false_eq_true, if_false, allCombos_tally,
      List.map_cons, List.map_nil, stripped_expPoint]

theorem bare_byRoute {rs : List Handled} (hshort : rs.length < 2 ^ 64) (cfg : MainConfig) :
    bare (toMetric (buildRouteMetric fl.usToSeconds fromUtf8 (some cfg.routeTable)
      (fun idx => toAgg (tally (observed (routeObs idx) rs))) start now)) =
      ⟨"nginx.http.request.duration.by_route",
        "HTTP server request duration by matched location (http.route)", "s",
        .exponentialHistogram .cumulative ((List.range 65).filterMap fun idx =>
          durationsPoint? fl [stringAttr "http.route" (placeName fromUtf8 cfg.routeTable idx)]
            start now
            (durationsOf (rs.filter fun h => placeOf h.1.routeTable 64 h.2.clcfPtr = idx)))⟩ := by
  have hobs : ∀ idx, observed (routeObs idx) rs = placed expCell
      (durationsOf (rs.filter fun h => placeOf h.1.routeTable 64 h.2.clcfPtr = idx)) := by
    intro idx
    refine (observed_durations rs).trans ?_
    simp only [MainConfig.routeIdxForClcf, idxFor_eq, ROUTE_CAP]
  simp only [bare, toMetric, buildRouteMetric, hobs, map_slotPoints hshort,
    entryName_eq cfg.length_routeTable]
  rfl

theorem bare_byUpstream {rs : List Handled} (hshort : rs.length < 2 ^ 64) (cfg : MainConfig) :
    bare (toMetric (buildUpstreamDurationMetric fl.usToSeconds fromUtf8 (some cfg.upstreamTable)
      (fun idx => toAgg (tally (observed (upstreamObs idx) rs))) start now)) =
      ⟨"nginx.http.request.duration.by_upstream",
        "HTTP server request duration by upstream zone (nginx.upstream.zone)", "s",
        .exponentialHistogram .cumulative ((List.range 33).filterMap fun idx =>
          durationsPoint? fl
            [stringAttr "nginx.upstream.zone" (placeName fromUtf8 cfg.upstreamTable idx)] start now
            (durationsOf (rs.filter fun h => h.2.upstream.any fun zone =>
              zone ≠ 0 ∧ placeOf h.1.upstreamTable 32 zone = idx)))⟩ := by
  have hobs : ∀ idx, observed (upstreamObs idx) rs = placed expCell
      (durationsOf (rs.filter fun h => h.2.upstream.any fun zone =>
        zone ≠ 0 ∧ placeOf h.1.upstreamTable 32 zone = idx)) := by
    intro idx
    refine (observed_durations rs).trans ?_
    refine congrArg (fun rs => placed expCell (durationsOf rs)) (List.filter_congr fun h _ => ?_)
    rw [MainConfig.upstreamIdxForZone, idxFor_eq, Request.upstreamZonePtr]
    cases h.2.upstream with
    | none => simp
    | some zone => rfl
  simp only [bare, toMetric, buildUpstreamDurationMetric, hobs, map_slotPoints hshort,
    entryName_eq cfg.length_upstreamTable]
  rfl

/-- **The metrics made from a ledger are those of its requests.** -/
theorem instrumentedMetrics_ledger {handled sinceReload : List Handled}
    (hhandled : handled.length < 2 ^ 64) (hrecent : sinceReload.length < 2 ^ 64)
    (exemplars : List ComboExemplar) :
    (instrumentedMetrics fl fromUtf8 cfg (ledger handled sinceReload) exemplars start now).map
      bare = requestMetrics fl fromUtf8 cfg start now handled sinceReload := by
  have hresponse : ∀ r : Request, r.upstreamSum.bind (·.responseMs) = timing (·.responseTime) r :=
    upstreamSum_timing rfl fun sum _ hpeer => by rw [sum.add_of_hasPeer hpeer]
  have hheader : ∀ r : Request, r.upstreamSum.bind (·.headerMs) = timing (·.headerTime) r :=
    upstreamSum_timing rfl fun sum _ hpeer => by rw [sum.add_of_hasPeer hpeer]
  have hconnect : ∀ r : Request, r.upstreamSum.bind (·.connectMs) = timing (·.connectTime) r :=
    upstreamSum_timing rfl fun sum _ hpeer => by rw [sum.add_of_hasPeer hpeer]
  have hreceived : ∀ r : Request, r.upstreamSum.map (·.bytesReceived) =
      attemptBytes (·.bytesReceived) r :=
    upstreamSum_bytes rfl fun sum _ hpeer => by rw [sum.add_of_hasPeer hpeer]
  have hsent : ∀ r : Request, r.upstreamSum.map (·.bytesSent) = attemptBytes (·.bytesSent) r :=
    upstreamSum_bytes rfl fun sum _ hpeer => by rw [sum.add_of_hasPeer hpeer]
  simp only [instrumentedMetrics, requestMetrics, ledger, List.map_cons, List.map_nil, bare_sizes,
    bare_timings _ _ _ hresponse, bare_timings _ _ _ hheader, bare_timings _ _ _ hconnect,
    hreceived, hsent, bare_duration hhandled, bare_byRoute hrecent, bare_byUpstream hrecent]
  rfl

end Points

/-! ## A collection -/

/-- Names that occur once tell a part of a list from the rest. -/
theorem filter_names {before metrics after : List (Metric F64)}
    (hnodup : ((before ++ metrics ++ after).map Metric.name).Nodup) :
    (before ++ metrics ++ after).filter (fun m => m.name ∈ metrics.map Metric.name) = metrics := by
  rw [List.map_append, List.map_append, List.append_assoc, List.nodup_append,
    List.nodup_append] at hnodup
  obtain ⟨-, ⟨-, -, hafter⟩, hbefore⟩ := hnodup
  rw [List.filter_append, List.filter_append, List.filter_eq_nil_iff.mpr, List.filter_eq_self.mpr,
    List.filter_eq_nil_iff.mpr, List.nil_append, List.append_nil]
  · intro m hm hname
    exact hafter m.name (of_decide_eq_true hname) m.name (List.mem_map_of_mem hm) rfl
  · intro m hm
    exact decide_eq_true (List.mem_map_of_mem hm)
  · intro m hm hname
    exact hbefore m.name (List.mem_map_of_mem hm) m.name
      (List.mem_append_left _ (of_decide_eq_true hname)) rfl

theorem map_name_bare (metrics : List (Metric F64)) :
    (metrics.map bare).map Metric.name = metrics.map Metric.name := by
  rw [List.map_map]
  rfl

/-- **A collection shows the requests that were handled.**  After any run of requests, collections
and reloads, one after the other:

1. the body is that of one request, which says what the batch holds and has as many data points as
   the send accounts for; a processor leaves the batch as it is;
2. every metric name occurs once;
3. the request metrics of the batch are, exemplars aside, those of the requests handled. -/
theorem metrics_of_requests {fl : Floats} {codecs : Codecs} {site : Site} {cfg : MainConfig}
    {nWorkers : Nat} {src : Sources} {start : UInt64} {evs : List Event}
    {s : Metrics.Requests.State} (hn : 0 < nWorkers)
    (hrun : Run.exec (Metrics.Requests.step nWorkers) .start evs = some s)
    (hshort : s.handled.length < 2 ^ 64) :
    let batch := collectAllSources fl codecs site cfg nWorkers s.slots src start
    let payload := site.processor.process (.metrics batch)
    let expected := requestMetrics fl codecs.fromUtf8 cfg start src.instrumentedNow s.handled
      s.sinceReload
    Carries codecs.prost (encodePdata codecs.prost payload) (countPdataRecords payload)
        (.metrics batch.onWire) ∧
      (batch.metrics.map Metric.name).Nodup ∧
      (batch.metrics.filter fun m => m.name ∈ expected.map Metric.name).map bare = expected := by
  intro batch payload expected
  have hpayload : payload = .metrics batch := Processor.process_metrics _ _
  have hrecent : s.sinceReload.length < 2 ^ 64 :=
    Nat.lt_of_le_of_lt (sinceReload_suffix hrun).length_le hshort
  have hnodup : (batch.metrics.map Metric.name).Nodup := by
    show (List.map Metric.name (allMetrics _ _ _ _ _ _ _ _)).Nodup
    rw [map_name_allMetrics]
    exact metricNames_nodup _ _ _ _
  have hexpected : (instrumentedMetrics fl codecs.fromUtf8 cfg
      (aggregateWorkerSlots nWorkers s.slots)
      (Metrics.Exemplars.allExemplars fl.usToSeconds nWorkers fun i => (s.slots i).base) start
      src.instrumentedNow).map bare = expected := by
    rw [aggregate_eq_ledger hn hrun]
    exact instrumentedMetrics_ledger hshort hrecent _
  refine ⟨?_, hnodup, ?_⟩
  · rw [hpayload]
    exact carries_encodePdata codecs.prost (malformed_collectAllSources codecs site s.slots)
  · obtain ⟨before, after, hsplit⟩ : ∃ before after, batch.metrics = before ++ _ ++ after :=
      allMetrics_split _ _
    rw [hsplit, ← hexpected, map_name_bare]
    rw [hsplit] at hnodup
    rw [filter_names hnodup]

/-- Sources of which nothing is configured. -/
def quietSources : Sources where
  stubStatus := none
  counters := ⟨0, 1, 0, 0, 0, 0, 0, 0, 0, 0, 0, 0⟩
  intervalMs := 10000
  errorLogEnabled := false
  errorRate _ _ := 0
  certs := []
  collectorCertNotAfter := 0
  collectorHost := ""
  nowWallSecs := 0
  stubNow := 9
  instrumentedNow := 9
  selfNow := 9
  errorRateNow := 9
  certNow := 9
  collectorCertNow := 9

theorem metrics_of_requests_reloadedRun :
    ∃ s, Run.exec (Metrics.Requests.step 2) .start reloadedRun = some s ∧ s.handled.length = 3 ∧
      let expected := requestMetrics ⟨id, id, id⟩ mute.fromUtf8 smallConfig 1 9 s.handled
        s.sinceReload
      ((collectAllSources ⟨id, id, id⟩ mute plainSite smallConfig 2 s.slots quietSources
        1).metrics.filter fun m => m.name ∈ expected.map Metric.name).map bare = expected := by
  have hend : (Run.exec (Metrics.Requests.step 2) .start reloadedRun).map (·.handled.length) =
      some 3 := by decide
  obtain ⟨s, hrun, hlength⟩ := Option.map_eq_some_iff.mp hend
  exact ⟨s, hrun, hlength,
    (metrics_of_requests (by decide) hrun (by rw [hlength]; decide)).2.2⟩

/-- One request of 1.5 ms. -/
example : (durationsPoint? ⟨id, id, id⟩ [] 1 9 (durationsOf [(smallConfig, proxiedGet)])).map
    (fun dp => (dp.count, dp.sum, dp.positiveBucketCounts.idxOf 1)) = some (1, 1500, 84) := by
  decide +kernel

end NgxOtel.Drain
