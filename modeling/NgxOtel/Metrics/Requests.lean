import Mathlib.Algebra.BigOperators.Group.Finset.Piecewise
import NgxOtel.Lib.Shards
import NgxOtel.Metrics.Exemplars
import NgxOtel.Metrics.Points

/-!
# What the request metrics count

`record_request_metrics` (`metric_source/instrumented.rs`) counts a request in the slots of the
worker that handled it: by method, status class and protocol, by route, by upstream, and in seven
histograms of sizes and upstream timings.  `aggregate_worker_slots` adds the slots of all workers up.
A reload keeps the slots and zeroes those by route and by upstream, whose numbering belongs to the
configuration (`otel_shm_zone_init`).

* `Request`, `sumUpstreamStates` — what the handler reads, and the upstream attempts summed up.
* `WorkerSlots`, `recordRequestMetrics`, `handleRequest` — the slots of a worker and one request.
* `aggregateWorkerSlots` — the sums over the workers.
* `step` — requests of any worker of any generation, collections and reloads, one after the other,
  on one shared memory zone.  Each is one step: no request is being recorded while the exporter
  reads the slots or a reload zeroes them.
* `tally`, `ledger` — the sums as they ought to be: each a histogram of one list of observations,
  which does not know about workers.

## Results

* `aggregate_eq_ledger` — **whatever worker handled which request, and however often the
  configuration was reloaded, the sums over the workers are those of the ledger.**
* `aggregate_consistent` — the metrics agree with each other: every answered request is counted once
  by combination, every request since the last reload once by route, those with an upstream zone once
  by upstream, and the buckets of every histogram add up to its count.
-/

set_option autoImplicit false

namespace NgxOtel.Metrics.Requests

open Word Shm
open Exemplars (recordBaseCombo writeExemplar resetReservoirs)

/-! ## A request -/

/-- `(ngx_msec_t) -1`: the attempt did not get that far. -/
def NGX_MSEC_SENTINEL : UInt64 := 0xFFFFFFFFFFFFFFFF

/-- `ngx_http_upstream_state_t`; an entry without a peer separates attempts. -/
structure UpstreamState where
  hasPeer : Bool
  responseTime : UInt64
  headerTime : UInt64
  connectTime : UInt64
  bytesReceived : UInt64
  bytesSent : UInt64
  deriving DecidableEq, Repr

structure UpstreamSum where
  responseMs : Option UInt64
  headerMs : Option UInt64
  connectMs : Option UInt64
  bytesReceived : UInt64
  bytesSent : UInt64
  deriving DecidableEq, Repr

/-- `u64::saturating_add`. -/
def saturatingAdd (a b : UInt64) : UInt64 :=
  if a.toNat + b.toNat < 2 ^ 64 then a + b else 0xFFFFFFFFFFFFFFFF

/-- `accumulate`. -/
def accumulate (acc : Option UInt64) (raw : UInt64) : Option UInt64 :=
  if raw ≠ NGX_MSEC_SENTINEL then some (saturatingAdd (acc.getD 0) raw) else acc

/-- The loop body of `sum_upstream_states`. -/
def UpstreamSum.add (sum : UpstreamSum) (st : UpstreamState) : UpstreamSum :=
  if st.hasPeer then
    { responseMs := accumulate sum.responseMs st.responseTime
      headerMs := accumulate sum.headerMs st.headerTime
      connectMs := accumulate sum.connectMs st.connectTime
      bytesReceived := saturatingAdd sum.bytesReceived st.bytesReceived
      bytesSent := saturatingAdd sum.bytesSent st.bytesSent }
  else sum

theorem UpstreamSum.add_of_hasPeer {st : UpstreamState} (hpeer : st.hasPeer = true)
    (sum : UpstreamSum) : sum.add st =
      { responseMs := accumulate sum.responseMs st.responseTime
        headerMs := accumulate sum.headerMs st.headerTime
        connectMs := accumulate sum.connectMs st.connectTime
        bytesReceived := saturatingAdd sum.bytesReceived st.bytesReceived
        bytesSent := saturatingAdd sum.bytesSent st.bytesSent } :=
  if_pos hpeer

/-- `sum_upstream_states`; a null array counts as empty. -/
def sumUpstreamStates (states : List UpstreamState) : Option UpstreamSum :=
  if states.isEmpty then none else some (states.foldl UpstreamSum.add ⟨none, none, none, 0, 0⟩)

/-- What the LOG phase reads of a request, beyond what exemplars need. -/
structure Request where
  base : Exemplars.Request
  /-- the location configuration, 0 without one -/
  clcfPtr : Nat
  /-- `r.upstream`, with the zone of its configuration or 0 -/
  upstream : Option Nat
  upstreamStates : List UpstreamState
  requestLength : UInt64
  /-- `connection->sent`, 0 without a connection -/
  respBytes : UInt64
  deriving DecidableEq

def Request.upstreamZonePtr (r : Request) : Nat := r.upstream.getD 0

/-- The sum over the attempts, for a request that went to an upstream. -/
def Request.upstreamSum (r : Request) : Option UpstreamSum :=
  if r.upstream.isSome then sumUpstreamStates r.upstreamStates else none

/-- A zone pointer that is not null. -/
theorem Request.upstreamZonePtr_ne_zero (r : Request) :
    r.upstreamZonePtr ≠ 0 ↔ r.upstream.any (· ≠ 0) = true := by
  rw [Request.upstreamZonePtr]
  cases r.upstream <;> simp

theorem Request.isSome_upstreamSum (r : Request) :
    r.upstreamSum.isSome = true ↔ r.upstream.isSome = true ∧ r.upstreamStates ≠ [] := by
  rw [Request.upstreamSum, sumUpstreamStates]
  by_cases hupstream : r.upstream.isSome = true <;> cases r.upstreamStates <;> simp [hupstream]

/-! ## The configuration -/

/-- The parts of `MainConfig` that the handler and the exporter use. -/
structure MainConfig where
  locationName : Nat → NgxStr
  zoneName : Nat → NgxStr
  servers : List LocationTree
  zones : List Nat
  statusCodeClass : Bool
  /-- `logs_n_workers` and `spans_n_workers` -/
  logsWorkers : Nat
  spansWorkers : Nat

namespace MainConfig

def routeTable (cfg : MainConfig) : List Entry := buildRouteTable cfg.locationName cfg.servers
def upstreamTable (cfg : MainConfig) : List Entry := buildUpstreamTable cfg.zoneName cfg.zones

end MainConfig

/-- The slot of a pointer: its place in the table, or the one behind the table. -/
def idxFor (cap : Nat) (table : List Entry) (ptr : Nat) : Nat :=
  if ptr = 0 then cap else (table.findIdx? fun e => e.ptr = ptr).getD cap

/-- `route_idx_for_clcf`. -/
def MainConfig.routeIdxForClcf (cfg : MainConfig) (clcfPtr : Nat) : Nat :=
  idxFor ROUTE_CAP cfg.routeTable clcfPtr

/-- `upstream_idx_for_zone`. -/
def MainConfig.upstreamIdxForZone (cfg : MainConfig) (shmZonePtr : Nat) : Nat :=
  idxFor UPSTREAM_IDX_OTHER cfg.upstreamTable shmZonePtr

/-- `min_indexed_worker_capacity`. -/
def minIndexedWorkerCapacity (metrics logs spans : Nat) : Nat :=
  let cap := 2 ^ 64 - 1
  let cap := if metrics > 0 then min cap metrics else cap
  let cap := if logs > 0 then min cap logs else cap
  let cap := if spans > 0 then min cap spans else cap
  if cap = 2 ^ 64 - 1 then 0 else cap

/-! ## The slots -/

def BYTES_BOUNDS : List UInt64 := [128, 512, 4096, 65536, 524288, 4194304]
def DURATION_BOUNDS_MS : List UInt64 :=
  [5, 10, 25, 50, 75, 100, 250, 500, 750, 1000, 2500, 5000, 7500, 10000]

abbrev BytesHistogram := Histogram (BYTES_BOUNDS.length + 1)
abbrev DurationHistogram := Histogram (DURATION_BOUNDS_MS.length + 1)

/-- `WorkerSlots`; `base` holds the combinations and their reservoirs. -/
structure WorkerSlots where
  base : Exemplars.WorkerSlots
  routeDurationCombos : Nat → ExpHistogramSlot
  upstreamDurationCombos : Nat → ExpHistogramSlot
  requestBodyBytes : BytesHistogram
  responseBodyBytes : BytesHistogram
  upstreamResponseMs : DurationHistogram
  upstreamHeaderMs : DurationHistogram
  upstreamConnectMs : DurationHistogram
  upstreamBytesReceived : BytesHistogram
  upstreamBytesSent : BytesHistogram

def WorkerSlots.zeroed : WorkerSlots :=
  ⟨.zeroed, fun _ _ => 0, fun _ _ => 0, fun _ => 0, fun _ => 0, fun _ => 0, fun _ => 0, fun _ => 0,
    fun _ => 0, fun _ => 0⟩

/-- One of a table of slots records a duration. -/
def recordAt (combos : Nat → ExpHistogramSlot) (idx : Nat) (durationUs : UInt64) :
    Nat → ExpHistogramSlot :=
  Function.update combos idx ((combos idx).record durationUs)

/-- A value that may be missing is recorded if it is there. -/
def recordOpt (bounds : List UInt64) (h : Histogram (bounds.length + 1)) (value : Option UInt64) :
    Histogram (bounds.length + 1) :=
  match value with
  | some v => Histogram.record bounds h v
  | none => h

/-- The upstream timings and bytes of a request. -/
def recordUpstreamSum (slot : WorkerSlots) (sum : UpstreamSum) : WorkerSlots :=
  { slot with
    upstreamResponseMs := recordOpt DURATION_BOUNDS_MS slot.upstreamResponseMs sum.responseMs
    upstreamHeaderMs := recordOpt DURATION_BOUNDS_MS slot.upstreamHeaderMs sum.headerMs
    upstreamConnectMs := recordOpt DURATION_BOUNDS_MS slot.upstreamConnectMs sum.connectMs
    upstreamBytesReceived :=
      Histogram.record BYTES_BOUNDS slot.upstreamBytesReceived sum.bytesReceived
    upstreamBytesSent := Histogram.record BYTES_BOUNDS slot.upstreamBytesSent sum.bytesSent }

/-- `record_request_metrics` up to the upstream timings: the duration by combination, by route and by
upstream, and the body sizes. -/
def recordDurations (cfg : MainConfig) (slot : WorkerSlots) (r : Request) : WorkerSlots :=
  let durationUs := r.base.durationUs
  let upstreamIdx := cfg.upstreamIdxForZone r.upstreamZonePtr
  { slot with
    base := recordBaseCombo slot.base r.base.status r.base.baseIdx durationUs
    routeDurationCombos :=
      recordAt slot.routeDurationCombos (cfg.routeIdxForClcf r.clcfPtr) durationUs
    upstreamDurationCombos :=
      if r.upstreamZonePtr ≠ 0 ∧ upstreamIdx < UPSTREAM_IDX_OTHER then
        recordAt slot.upstreamDurationCombos upstreamIdx durationUs
      else if r.upstreamZonePtr ≠ 0 then
        recordAt slot.upstreamDurationCombos UPSTREAM_IDX_OTHER durationUs
      else slot.upstreamDurationCombos
    requestBodyBytes := Histogram.record BYTES_BOUNDS slot.requestBodyBytes r.requestLength
    responseBodyBytes := Histogram.record BYTES_BOUNDS slot.responseBodyBytes r.respBytes }

/-- `record_request_metrics`. -/
def recordRequestMetrics (cfg : MainConfig) (slot : WorkerSlots) (r : Request) : WorkerSlots :=
  let slot := recordDurations cfg slot r
  match r.upstreamSum with
  | some sum => recordUpstreamSum slot sum
  | none => slot

/-- The metrics of a request, and then its exemplar. -/
def handleRequest (cfg : MainConfig) (slot : WorkerSlots) (r : Request) : Option WorkerSlots :=
  let slot := recordRequestMetrics cfg slot r
  (writeExemplar slot.base r.base).map fun base => { slot with base := base }

/-- `zero_route_upstream_histograms`, for one worker. -/
def zeroRouteUpstreamHistograms (slot : WorkerSlots) : WorkerSlots :=
  { slot with routeDurationCombos := fun _ _ => 0, upstreamDurationCombos := fun _ _ => 0 }

/-- `WorkerAgg`. -/
structure WorkerAgg where
  comboAgg : Nat → ExpHistogramSlot
  routeAgg : Nat → ExpHistogramSlot
  upstreamAgg : Nat → ExpHistogramSlot
  reqBytes : BytesHistogram
  respBytes : BytesHistogram
  upResp : DurationHistogram
  upHdr : DurationHistogram
  upConn : DurationHistogram
  upBytes : BytesHistogram
  upBytesSent : BytesHistogram

/-- The sums of `aggregate_worker_slots`. -/
def aggregateWorkerSlots (nWorkers : Nat) (slots : Nat → WorkerSlots) : WorkerAgg where
  comboAgg idx := Shards.total nWorkers fun i => (slots i).base.requestDurationCombos idx
  routeAgg idx := Shards.total nWorkers fun i => (slots i).routeDurationCombos idx
  upstreamAgg idx := Shards.total nWorkers fun i => (slots i).upstreamDurationCombos idx
  reqBytes := Shards.total nWorkers fun i => (slots i).requestBodyBytes
  respBytes := Shards.total nWorkers fun i => (slots i).responseBodyBytes
  upResp := Shards.total nWorkers fun i => (slots i).upstreamResponseMs
  upHdr := Shards.total nWorkers fun i => (slots i).upstreamHeaderMs
  upConn := Shards.total nWorkers fun i => (slots i).upstreamConnectMs
  upBytes := Shards.total nWorkers fun i => (slots i).upstreamBytesReceived
  upBytesSent := Shards.total nWorkers fun i => (slots i).upstreamBytesSent

/-! ## Runs -/

/-- A request and the configuration of the worker that handled it. -/
abbrev Handled := MainConfig × Request

/-- The zone and its history: what was handled since it was mapped, and since the last reload. -/
structure State where
  slots : Nat → WorkerSlots
  handled : List Handled
  sinceReload : List Handled

def State.start : State := ⟨fun _ => .zeroed, [], []⟩

inductive Event where
  /-- a worker, possibly of a generation that a reload has replaced, is in the LOG phase -/
  | request (cfg : MainConfig) (worker : Nat) (r : Request)
  | collect
  /-- `otel_shm_zone_init` on a zone that is kept -/
  | reload

/-- One event on a zone for `nWorkers` workers, from its beginning to its end; the guard of the
handler turns away a worker that one of the zones has no room for. -/
def step (nWorkers : Nat) (s : State) : Event → Option State
  | .request cfg worker r =>
    if worker < minIndexedWorkerCapacity nWorkers cfg.logsWorkers cfg.spansWorkers then
      (handleRequest cfg (s.slots worker) r).map fun slot =>
        { slots := Function.update s.slots worker slot
          handled := s.handled ++ [(cfg, r)]
          sinceReload := s.sinceReload ++ [(cfg, r)] }
    else some s
  | .collect =>
    some { s with
      slots := fun i =>
        if i < nWorkers then { s.slots i with base := resetReservoirs (s.slots i).base }
        else s.slots i }
  | .reload =>
    some { s with
      slots := fun i =>
        if i < nWorkers then zeroRouteUpstreamHistograms (s.slots i) else s.slots i
      sinceReload := [] }

/-! ## The ledger -/

section Tally

variable {ι : Type} [DecidableEq ι]

/-- The histogram of a list of observations, each a cell and a value. -/
def tally (obs : List (ι × UInt64)) : Slot ι
  | .cell i => UInt64.ofNat (obs.countP fun o => o.1 = i)
  | .sum => UInt64.ofNat (obs.map fun o => o.2.toNat).sum
  | .count => UInt64.ofNat obs.length

/-- What an observation adds to a word. -/
def added (o : ι × UInt64) : Slot ι
  | .cell i => if o.1 = i then 1 else 0
  | .sum => o.2
  | .count => 1

theorem recordOps_added (s : Slot ι) (o : ι × UInt64) (f : Shm.Field ι) :
    (recordOps o.1 o.2).foldl fetchAdd s f = s f + added o f := by
  rw [recordOps_apply]
  cases f with
  | cell i =>
    by_cases hi : o.1 = i
    · simp [added, hi]
    · have hne : i ≠ o.1 := fun h => hi h.symm
      simp [added, hi, hne]
  | sum => simp [added]
  | count => simp [added]

theorem tally_nil (f : Shm.Field ι) : tally ([] : List (ι × UInt64)) f = 0 := by
  cases f <;> rfl

theorem tally_concat (obs : List (ι × UInt64)) (o : ι × UInt64) (f : Shm.Field ι) :
    tally (obs ++ [o]) f = tally obs f + added o f := by
  cases f with
  | cell i =>
    by_cases hi : o.1 = i <;> simp [tally, added, List.countP_append, hi]
  | sum => simp [tally, added]
  | count => simp [tally, added]

/-- With fewer than `2 ^ 64` observations no cell and no count overflows, and the cells add up to the
count. -/
theorem sum_tally_cells [Fintype ι] {obs : List (ι × UInt64)} (hshort : obs.length < 2 ^ 64) :
    (∑ i, (tally obs (.cell i)).toNat) = obs.length ∧ (tally obs .count).toNat = obs.length := by
  have hcell : ∀ i, (tally obs (.cell i)).toNat = obs.countP fun o => o.1 = i := by
    intro i
    have hle : obs.countP (fun o => o.1 = i) ≤ obs.length := List.countP_le_length
    exact UInt64.toNat_ofNat_of_lt (by rw [UInt64.size]; omega)
  refine ⟨?_, UInt64.toNat_ofNat_of_lt hshort⟩
  rw [Finset.sum_congr rfl fun i _ => hcell i]
  clear hcell hshort
  induction obs with
  | nil => simp
  | cons o obs ih =>
    simp only [List.countP_cons, Finset.sum_add_distrib, ih, List.length_cons,
      Nat.add_left_cancel_iff]
    simp

end Tally

/-- The requests of a list that count in a histogram, with their cells. -/
def observed {ι : Type} (obsOf : Handled → Option (ι × UInt64)) (rs : List Handled) :
    List (ι × UInt64) :=
  rs.filterMap obsOf

/-- A duration as an observation. -/
def duration (h : Handled) : ExpCell × UInt64 := (expCell h.2.base.durationUs, h.2.base.durationUs)

/-- A value as an observation of an explicit histogram. -/
def sized (bounds : List UInt64) (value : UInt64) : Fin (bounds.length + 1) × UInt64 :=
  (histogramCell bounds value, value)

def comboObs (idx : Nat) (h : Handled) : Option (ExpCell × UInt64) :=
  if h.2.base.status ≠ 0 ∧ h.2.base.baseIdx = idx then some (duration h) else none

/-- By the numbering of the worker's own configuration. -/
def routeObs (idx : Nat) (h : Handled) : Option (ExpCell × UInt64) :=
  if h.1.routeIdxForClcf h.2.clcfPtr = idx then some (duration h) else none

def upstreamObs (idx : Nat) (h : Handled) : Option (ExpCell × UInt64) :=
  if h.2.upstreamZonePtr ≠ 0 ∧ h.1.upstreamIdxForZone h.2.upstreamZonePtr = idx then
    some (duration h)
  else none

def timingObs (part : UpstreamSum → Option UInt64) (h : Handled) :
    Option (Fin (DURATION_BOUNDS_MS.length + 1) × UInt64) :=
  (h.2.upstreamSum.bind part).map (sized DURATION_BOUNDS_MS)

def bytesObs (part : Request → Option UInt64) (h : Handled) :
    Option (Fin (BYTES_BOUNDS.length + 1) × UInt64) :=
  (part h.2).map (sized BYTES_BOUNDS)

/-- **The sums as they ought to be**, from the requests since the zone was mapped and since the last
reload. -/
def ledger (handled sinceReload : List Handled) : WorkerAgg where
  comboAgg idx := tally (observed (comboObs idx) handled)
  routeAgg idx := tally (observed (routeObs idx) sinceReload)
  upstreamAgg idx := tally (observed (upstreamObs idx) sinceReload)
  reqBytes := tally (observed (bytesObs fun r => some r.requestLength) handled)
  respBytes := tally (observed (bytesObs fun r => some r.respBytes) handled)
  upResp := tally (observed (timingObs (·.responseMs)) handled)
  upHdr := tally (observed (timingObs (·.headerMs)) handled)
  upConn := tally (observed (timingObs (·.connectMs)) handled)
  upBytes := tally (observed (bytesObs fun r => r.upstreamSum.map (·.bytesReceived)) handled)
  upBytesSent := tally (observed (bytesObs fun r => r.upstreamSum.map (·.bytesSent)) handled)

/-! ## One request -/

/-- A slot after an observation that may be missing. -/
def recordObs {ι : Type} [DecidableEq ι] (s : Slot ι) : Option (ι × UInt64) → Slot ι
  | some o => (recordOps o.1 o.2).foldl fetchAdd s
  | none => s

/-- The handler does to a slot what the observation says, and nothing else. -/
def Observes {ι : Type} [DecidableEq ι] (slotOf : WorkerSlots → Slot ι)
    (obsOf : Handled → Option (ι × UInt64)) : Prop :=
  ∀ cfg slot r slot', handleRequest cfg slot r = some slot' →
    slotOf slot' = recordObs (slotOf slot) (obsOf (cfg, r))

theorem recordAt_apply (combos : Nat → ExpHistogramSlot) (i idx : Nat) (durationUs : UInt64) :
    recordAt combos i durationUs idx =
      recordObs (combos idx) (if i = idx then some (expCell durationUs, durationUs) else none) := by
  rw [recordAt]
  rcases eq_or_ne idx i with rfl | hne
  · rw [Function.update_self, if_pos rfl]
    rfl
  · rw [Function.update_of_ne hne, if_neg hne.symm]
    rfl

theorem recordOpt_eq (bounds : List UInt64) (h : Histogram (bounds.length + 1))
    (value : Option UInt64) : recordOpt bounds h value = recordObs h (value.map (sized bounds)) := by
  cases value <;> rfl

/-- The exemplar leaves the histograms alone. -/
theorem handleRequest_cases {cfg : MainConfig} {slot slot' : WorkerSlots} {r : Request}
    (h : handleRequest cfg slot r = some slot') :
    ∃ base, slot' = { recordRequestMetrics cfg slot r with base := base } ∧
      base.requestDurationCombos =
        (recordRequestMetrics cfg slot r).base.requestDurationCombos := by
  obtain ⟨base, hbase, rfl⟩ := Option.map_eq_some_iff.mp h
  refine ⟨base, rfl, ?_⟩
  rw [writeExemplar] at hbase
  split at hbase
  · cases hbase
    rfl
  · obtain ⟨res, -, hres⟩ := Option.bind_eq_some_iff.mp hbase
    cases hres
    rfl

theorem observes_combo (idx : Nat) :
    Observes (fun slot => slot.base.requestDurationCombos idx) (comboObs idx) := by
  intro cfg slot r slot' h
  obtain ⟨base, rfl, hbase⟩ := handleRequest_cases h
  show base.requestDurationCombos idx = _
  have hrecord : (recordRequestMetrics cfg slot r).base =
      recordBaseCombo slot.base r.base.status r.base.baseIdx r.base.durationUs := by
    rw [recordRequestMetrics]
    split <;> rfl
  rw [hbase, hrecord, recordBaseCombo, comboObs]
  by_cases hstatus : r.base.status = 0
  · rw [if_neg (not_not_intro hstatus), if_neg fun h => h.1 hstatus]
    rfl
  · rw [if_pos hstatus]
    refine (recordAt_apply slot.base.requestDurationCombos r.base.baseIdx idx _).trans ?_
    simp only [hstatus, ne_eq, not_false_eq_true, true_and]
    rfl

theorem idxFor_le {cap ptr : Nat} {table : List Entry} (hcap : table.length ≤ cap) :
    idxFor cap table ptr ≤ cap := by
  rw [idxFor]
  split
  · exact Nat.le_refl _
  · cases hfind : table.findIdx? fun e => e.ptr = ptr with
    | none => exact Nat.le_refl _
    | some i =>
      have hlt : i < table.length := (List.findIdx?_eq_some_iff_findIdx_eq.mp hfind).1
      exact Nat.le_trans (Nat.le_of_lt hlt) hcap

theorem MainConfig.length_routeTable (cfg : MainConfig) : cfg.routeTable.length ≤ ROUTE_CAP := by
  rw [routeTable, buildRouteTable, foldl_walkLocationTree]
  exact length_registerAll_le _ _ _ _

theorem MainConfig.length_upstreamTable (cfg : MainConfig) :
    cfg.upstreamTable.length ≤ UPSTREAM_IDX_OTHER := by
  rw [upstreamTable, buildUpstreamTable, upstreamLoop_eq]
  exact length_registerAll_le _ _ _ _

theorem routeIdxForClcf_le (cfg : MainConfig) (ptr : Nat) : cfg.routeIdxForClcf ptr ≤ ROUTE_CAP :=
  idxFor_le cfg.length_routeTable

theorem upstreamIdxForZone_le (cfg : MainConfig) (ptr : Nat) :
    cfg.upstreamIdxForZone ptr ≤ UPSTREAM_IDX_OTHER :=
  idxFor_le cfg.length_upstreamTable

theorem observes_route (idx : Nat) :
    Observes (fun slot => slot.routeDurationCombos idx) (routeObs idx) := by
  intro cfg slot r slot' h
  obtain ⟨base, rfl, -⟩ := handleRequest_cases h
  have hrecord : (recordRequestMetrics cfg slot r).routeDurationCombos =
      recordAt slot.routeDurationCombos (cfg.routeIdxForClcf r.clcfPtr) r.base.durationUs := by
    rw [recordRequestMetrics]
    split <;> rfl
  show (recordRequestMetrics cfg slot r).routeDurationCombos idx = _
  rw [hrecord, recordAt_apply]
  rfl

theorem observes_upstream (idx : Nat) :
    Observes (fun slot => slot.upstreamDurationCombos idx) (upstreamObs idx) := by
  intro cfg slot r slot' h
  obtain ⟨base, rfl, -⟩ := handleRequest_cases h
  have hle := upstreamIdxForZone_le cfg r.upstreamZonePtr
  -- a zone beyond the table is recorded under the number that the lookup gives it
  have hrecord : (recordRequestMetrics cfg slot r).upstreamDurationCombos =
      if r.upstreamZonePtr ≠ 0 then
        recordAt slot.upstreamDurationCombos (cfg.upstreamIdxForZone r.upstreamZonePtr)
          r.base.durationUs
      else slot.upstreamDurationCombos := by
    have hsame : ∀ upd : Nat → ExpHistogramSlot, (if r.upstreamZonePtr ≠ 0 ∧
          cfg.upstreamIdxForZone r.upstreamZonePtr < UPSTREAM_IDX_OTHER then
        recordAt upd (cfg.upstreamIdxForZone r.upstreamZonePtr) r.base.durationUs
        else if r.upstreamZonePtr ≠ 0 then recordAt upd UPSTREAM_IDX_OTHER r.base.durationUs
        else upd) =
        if r.upstreamZonePtr ≠ 0 then
          recordAt upd (cfg.upstreamIdxForZone r.upstreamZonePtr) r.base.durationUs
        else upd := by
      intro upd
      by_cases hzone : r.upstreamZonePtr = 0
      · simp [hzone]
      · rcases Nat.lt_or_eq_of_le hle with hlt | heq
        · simp [hzone, hlt]
        · simp [hzone, heq]
    rw [recordRequestMetrics]
    split <;> exact hsame _
  show (recordRequestMetrics cfg slot r).upstreamDurationCombos idx = _
  rw [hrecord, upstreamObs]
  by_cases hzone : r.upstreamZonePtr = 0
  · rw [if_neg (not_not_intro hzone), if_neg fun h => h.1 hzone]
    rfl
  · rw [if_pos hzone, recordAt_apply]
    simp only [ne_eq, hzone, not_false_eq_true, true_and]
    rfl

theorem observes_requestBody : Observes (fun slot => slot.requestBodyBytes)
    (bytesObs fun r => some r.requestLength) := by
  intro cfg slot r slot' h
  obtain ⟨base, rfl, -⟩ := handleRequest_cases h
  show (recordRequestMetrics cfg slot r).requestBodyBytes = _
  rw [recordRequestMetrics]
  split <;> rfl

theorem observes_responseBody : Observes (fun slot => slot.responseBodyBytes)
    (bytesObs fun r => some r.respBytes) := by
  intro cfg slot r slot' h
  obtain ⟨base, rfl, -⟩ := handleRequest_cases h
  show (recordRequestMetrics cfg slot r).responseBodyBytes = _
  rw [recordRequestMetrics]
  split <;> rfl

/-- A histogram that is recorded with the sum over the upstream attempts. -/
theorem observes_upstreamSum {bounds : List UInt64}
    {slotOf : WorkerSlots → Histogram (bounds.length + 1)} {part : UpstreamSum → Option UInt64}
    (hsum : ∀ slot sum, slotOf (recordUpstreamSum slot sum) =
      recordOpt bounds (slotOf slot) (part sum))
    (hdurations : ∀ cfg slot r, slotOf (recordDurations cfg slot r) = slotOf slot)
    (hbase : ∀ slot base, slotOf { slot with base := base } = slotOf slot) :
    Observes slotOf fun h => (h.2.upstreamSum.bind part).map (sized bounds) := by
  intro cfg slot r slot' h
  obtain ⟨base, rfl, -⟩ := handleRequest_cases h
  rw [hbase, recordRequestMetrics]
  cases hr : r.upstreamSum with
  | some sum =>
    simp only [hsum, hdurations, recordOpt_eq, hr, Option.bind_some]
  | none =>
    simp only [hdurations, hr, Option.bind_none, Option.map_none]
    rfl

theorem observes_upstreamBytes {slotOf : WorkerSlots → BytesHistogram} {part : UpstreamSum → UInt64}
    (hsum : ∀ slot sum, slotOf (recordUpstreamSum slot sum) =
      Histogram.record BYTES_BOUNDS (slotOf slot) (part sum))
    (hdurations : ∀ cfg slot r, slotOf (recordDurations cfg slot r) = slotOf slot)
    (hbase : ∀ slot base, slotOf { slot with base := base } = slotOf slot) :
    Observes slotOf (bytesObs fun r => r.upstreamSum.map part) := by
  have hobs := @observes_upstreamSum BYTES_BOUNDS slotOf (fun sum => some (part sum)) hsum
    hdurations hbase
  intro cfg slot r slot' h
  rw [hobs cfg slot r slot' h, bytesObs]
  dsimp only
  cases r.upstreamSum <;> rfl

/-! ## Runs and the ledger -/

section Runs

variable {ι : Type} [DecidableEq ι] {nWorkers : Nat} {slotOf : WorkerSlots → Slot ι}
  {obsOf : Handled → Option (ι × UInt64)}

theorem minIndexedWorkerCapacity_le {metrics logs spans : Nat} (hmetrics : 0 < metrics) :
    minIndexedWorkerCapacity metrics logs spans ≤ metrics := by
  simp only [minIndexedWorkerCapacity, hmetrics, gt_iff_lt, if_true]
  split <;> split <;> split <;> omega

theorem tally_observed_concat (rs : List Handled) (h : Handled) (f : Shm.Field ι) :
    tally (observed obsOf (rs ++ [h])) f =
      tally (observed obsOf rs) f + ((obsOf h).map (added · f)).getD 0 := by
  rw [observed, List.filterMap_append]
  cases hobs : obsOf h with
  | none => simp [hobs, observed]
  | some o =>
    rw [List.filterMap_cons_some hobs, List.filterMap_nil, tally_concat]
    rfl

/-- **A request adds its observation to the sum over the workers.** -/
theorem total_request (hobs : Observes slotOf obsOf) {s : State} {cfg : MainConfig} {w : Nat}
    {r : Request} {slot : WorkerSlots} (hw : w < nWorkers)
    (h : handleRequest cfg (s.slots w) r = some slot) (f : Shm.Field ι) :
    Shards.total nWorkers (fun i => slotOf (Function.update s.slots w slot i)) f =
      Shards.total nWorkers (fun i => slotOf (s.slots i)) f +
        ((obsOf (cfg, r)).map (added · f)).getD 0 := by
  have hupdate : (fun i => slotOf (Function.update s.slots w slot i)) =
      Function.update (fun i => slotOf (s.slots i)) w (slotOf slot) := by
    funext i
    rcases eq_or_ne i w with rfl | hne
    · rw [Function.update_self, Function.update_self]
    · rw [Function.update_of_ne hne, Function.update_of_ne hne]
  rw [hupdate]
  refine Shards.total_bump hw ?_
  rw [hobs cfg _ r slot h]
  cases obsOf (cfg, r) with
  | none => exact (UInt64.add_zero _).symm
  | some o => exact recordOps_added _ o f

/-- A collection resets reservoirs only. -/
def Collects (slotOf : WorkerSlots → Slot ι) : Prop :=
  ∀ slot, slotOf { slot with base := resetReservoirs slot.base } = slotOf slot

omit [DecidableEq ι] in
theorem total_ite {slots : Nat → WorkerSlots} {g : WorkerSlots → WorkerSlots}
    (hg : ∀ slot, slotOf (g slot) = slotOf slot) :
    Shards.total nWorkers (fun i => slotOf (if i < nWorkers then g (slots i) else slots i)) =
      Shards.total nWorkers (fun i => slotOf (slots i)) := by
  refine Shards.total_congr fun i hi => ?_
  rw [if_pos hi, hg]

/-- The sum over the workers is the tally of a part of the history. -/
def Tallied (nWorkers : Nat) (slotOf : WorkerSlots → Slot ι) (obsOf : Handled → Option (ι × UInt64))
    (history : State → List Handled) (s : State) : Prop :=
  Shards.total nWorkers (fun i => slotOf (s.slots i)) = tally (observed obsOf (history s))

theorem tallied_start {history : State → List Handled} {s : State} (hempty : history s = [])
    (hzero : ∀ i < nWorkers, slotOf (s.slots i) = fun _ => 0) :
    Tallied nWorkers slotOf obsOf history s := by
  funext f
  rw [hempty, show observed obsOf [] = [] from rfl, tally_nil]
  exact Shards.total_zero (fun i hi f => congrFun (hzero i hi) f) f

/-- Requests and collections keep it; what a reload does is up to the histogram. -/
theorem exec_tallied (history : State → List Handled) (hn : 0 < nWorkers)
    (hobs : Observes slotOf obsOf) (hcollect : Collects slotOf)
    (hgrows : ∀ s slots h, history ⟨slots, s.handled ++ [h], s.sinceReload ++ [h]⟩ =
      history s ++ [h])
    (hkeeps : ∀ s slots, history { s with slots := slots } = history s)
    (hreload : ∀ s t, Tallied nWorkers slotOf obsOf history s → step nWorkers s .reload = some t →
      Tallied nWorkers slotOf obsOf history t)
    (hempty : history .start = []) (hstart : slotOf .zeroed = fun _ => 0)
    {evs : List Event} {s : State} (hrun : Run.exec (step nWorkers) .start evs = some s) :
    Tallied nWorkers slotOf obsOf history s := by
  refine Run.exec_invariant (fun s ev t h hstep => ?_) hrun (tallied_start hempty fun _ _ => hstart)
  cases ev with
  | request cfg w r =>
    simp only [step] at hstep
    split at hstep
    next hw =>
      obtain ⟨slot, hslot, rfl⟩ := Option.map_eq_some_iff.mp hstep
      have hguard := Nat.lt_of_lt_of_le hw (minIndexedWorkerCapacity_le hn)
      funext f
      rw [hgrows, tally_observed_concat, ← h]
      exact total_request hobs hguard hslot f
    next =>
      cases hstep
      exact h
  | collect =>
    cases hstep
    rw [Tallied, hkeeps, ← h]
    exact total_ite hcollect
  | reload => exact hreload s t h hstep

/-- A histogram that reloads keep counts every request since the zone was mapped. -/
theorem total_kept (hn : 0 < nWorkers) (hobs : Observes slotOf obsOf) (hcollect : Collects slotOf)
    (hkept : ∀ slot, slotOf (zeroRouteUpstreamHistograms slot) = slotOf slot)
    (hstart : slotOf .zeroed = fun _ => 0) {evs : List Event} {s : State}
    (hrun : Run.exec (step nWorkers) .start evs = some s) :
    Shards.total nWorkers (fun i => slotOf (s.slots i)) = tally (observed obsOf s.handled) := by
  refine exec_tallied State.handled hn hobs hcollect (fun _ _ _ => rfl)
    (fun _ _ => rfl) ?_ rfl hstart hrun
  rintro s - h ⟨⟩
  exact (total_ite hkept).trans h

/-- A histogram that reloads zero counts every request since the last one. -/
theorem total_zeroed (hn : 0 < nWorkers) (hobs : Observes slotOf obsOf) (hcollect : Collects slotOf)
    (hzeroed : ∀ slot, slotOf (zeroRouteUpstreamHistograms slot) = fun _ => 0)
    (hstart : slotOf .zeroed = fun _ => 0) {evs : List Event} {s : State}
    (hrun : Run.exec (step nWorkers) .start evs = some s) :
    Shards.total nWorkers (fun i => slotOf (s.slots i)) = tally (observed obsOf s.sinceReload) := by
  refine exec_tallied State.sinceReload hn hobs hcollect (fun _ _ _ => rfl)
    (fun _ _ => rfl) ?_ rfl hstart hrun
  rintro s - - ⟨⟩
  refine tallied_start rfl fun i hi => ?_
  dsimp only
  rw [if_pos hi]
  exact hzeroed _

end Runs

/-- **The sums over the workers are those of the ledger**, whatever worker handled which request and
however often the configuration was reloaded. -/
theorem aggregate_eq_ledger {nWorkers : Nat} {evs : List Event} {s : State} (hn : 0 < nWorkers)
    (hrun : Run.exec (step nWorkers) .start evs = some s) :
    aggregateWorkerSlots nWorkers s.slots = ledger s.handled s.sinceReload := by
  have hkept : ∀ {n} {slotOf : WorkerSlots → Histogram n} {obsOf}, Observes slotOf obsOf →
      (∀ slot base, slotOf { slot with base := base } = slotOf slot) →
      (∀ slot, slotOf (zeroRouteUpstreamHistograms slot) = slotOf slot) →
      slotOf .zeroed = (fun _ => 0) →
      Shards.total nWorkers (fun i => slotOf (s.slots i)) = tally (observed obsOf s.handled) :=
    fun hobs hbase hreload hstart =>
      total_kept hn hobs (fun slot => hbase slot _) hreload hstart hrun
  unfold aggregateWorkerSlots ledger
  congr 1
  · funext idx
    exact total_kept hn (observes_combo idx) (fun _ => rfl) (fun _ => rfl) rfl hrun
  · funext idx
    exact total_zeroed hn (observes_route idx) (fun _ => rfl) (fun _ => rfl) rfl hrun
  · funext idx
    exact total_zeroed hn (observes_upstream idx) (fun _ => rfl) (fun _ => rfl) rfl hrun
  · exact hkept observes_requestBody (fun _ _ => rfl) (fun _ => rfl) rfl
  · exact hkept observes_responseBody (fun _ _ => rfl) (fun _ => rfl) rfl
  · exact hkept (observes_upstreamSum (fun _ _ => rfl) (fun _ _ _ => rfl) (fun _ _ => rfl))
      (fun _ _ => rfl) (fun _ => rfl) rfl
  · exact hkept (observes_upstreamSum (fun _ _ => rfl) (fun _ _ _ => rfl) (fun _ _ => rfl))
      (fun _ _ => rfl) (fun _ => rfl) rfl
  · exact hkept (observes_upstreamSum (fun _ _ => rfl) (fun _ _ _ => rfl) (fun _ _ => rfl))
      (fun _ _ => rfl) (fun _ => rfl) rfl
  · exact hkept (observes_upstreamBytes (fun _ _ => rfl) (fun _ _ _ => rfl) (fun _ _ => rfl))
      (fun _ _ => rfl) (fun _ => rfl) rfl
  · exact hkept (observes_upstreamBytes (fun _ _ => rfl) (fun _ _ _ => rfl) (fun _ _ => rfl))
      (fun _ _ => rfl) (fun _ => rfl) rfl

/-! ## The metrics agree -/

/-- The buckets of a histogram add up to its count. -/
def AddsUp {ι : Type} [Fintype ι] (slot : Slot ι) : Prop :=
  (∑ i, (slot (.cell i)).toNat) = (slot .count).toNat

theorem length_observed_le {ι : Type} (obsOf : Handled → Option (ι × UInt64)) (rs : List Handled) :
    (observed obsOf rs).length ≤ rs.length :=
  List.length_filterMap_le _ _

theorem toNat_tally_count {ι : Type} [DecidableEq ι] {obsOf : Handled → Option (ι × UInt64)}
    {rs : List Handled} (hshort : rs.length < 2 ^ 64) :
    (tally (observed obsOf rs) .count).toNat = (observed obsOf rs).length :=
  UInt64.toNat_ofNat_of_lt (Nat.lt_of_le_of_lt (length_observed_le obsOf rs) hshort)

theorem addsUp_tally {ι : Type} [DecidableEq ι] [Fintype ι] {obsOf : Handled → Option (ι × UInt64)}
    {rs : List Handled} (hshort : rs.length < 2 ^ 64) : AddsUp (tally (observed obsOf rs)) := by
  obtain ⟨hcells, hcount⟩ :=
    sum_tally_cells (Nat.lt_of_le_of_lt (length_observed_le obsOf rs) hshort)
  exact hcells.trans hcount.symm

theorem length_observed {ι : Type} (obsOf : Handled → Option (ι × UInt64)) (rs : List Handled) :
    (observed obsOf rs).length = rs.countP fun h => (obsOf h).isSome :=
  List.length_filterMap_eq_countP

/-- The slots of a table share the requests that count in it among them. -/
theorem sum_observed {ι : Type} {p : Handled → Prop} [DecidablePred p] {n : Nat}
    {obsOf : Nat → Handled → Option (ι × UInt64)} (key : Handled → Nat) (hkey : ∀ h, key h < n)
    (hobs : ∀ idx h, (obsOf idx h).isSome = decide (p h ∧ key h = idx)) (rs : List Handled) :
    (∑ idx ∈ Finset.range n, (observed (obsOf idx) rs).length) = rs.countP fun h => p h := by
  simp only [length_observed, hobs]
  induction rs with
  | nil => simp
  | cons h rs ih =>
    simp only [List.countP_cons, Finset.sum_add_distrib, ih, Nat.add_left_cancel_iff]
    by_cases hp : p h
    · simp [hp, hkey h]
    · simp [hp]

theorem baseIdx_lt (r : Exemplars.Request) : r.baseIdx < N_COMBOS := comboIndex_lt _ _ _

theorem sinceReload_suffix {nWorkers : Nat} {evs : List Event} {s : State}
    (hrun : Run.exec (step nWorkers) .start evs = some s) : s.sinceReload <:+ s.handled := by
  refine Run.exec_invariant (I := fun s => s.sinceReload <:+ s.handled) (fun s ev t h hstep => ?_)
    hrun (List.suffix_refl _)
  cases ev with
  | request cfg w r =>
    simp only [step] at hstep
    split at hstep
    · obtain ⟨slot, -, rfl⟩ := Option.map_eq_some_iff.mp hstep
      obtain ⟨older, holder⟩ := h
      exact ⟨older, by rw [← List.append_assoc, holder]⟩
    · cases hstep
      exact h
  | collect =>
    cases hstep
    exact h
  | reload =>
    cases hstep
    exact List.nil_suffix

section Counts

variable {rs : List Handled} (hshort : rs.length < 2 ^ 64)

include hshort

theorem sum_combo_counts :
    (∑ idx ∈ Finset.range N_COMBOS, (tally (observed (comboObs idx) rs) .count).toNat) =
      rs.countP fun h => h.2.base.status ≠ 0 := by
  rw [Finset.sum_congr rfl fun idx _ => toNat_tally_count hshort]
  refine sum_observed (fun h => h.2.base.baseIdx) (fun h => baseIdx_lt h.2.base) ?_ rs
  intro idx h
  rw [comboObs]
  split <;> simp_all

theorem sum_route_counts :
    (∑ idx ∈ Finset.range N_ROUTE_SLOTS, (tally (observed (routeObs idx) rs) .count).toNat) =
      rs.length := by
  have hall : rs.length = rs.countP fun _ => True := by simp
  rw [Finset.sum_congr rfl fun idx _ => toNat_tally_count hshort, hall]
  refine sum_observed (fun h => h.1.routeIdxForClcf h.2.clcfPtr)
    (fun h => Nat.lt_succ_of_le (routeIdxForClcf_le h.1 h.2.clcfPtr)) ?_ rs
  intro idx h
  rw [routeObs]
  split
  next heq => simp [heq]
  next hne => simp [hne]

theorem sum_upstream_counts :
    (∑ idx ∈ Finset.range N_UPSTREAM_SLOTS, (tally (observed (upstreamObs idx) rs) .count).toNat) =
      rs.countP fun h => h.2.upstream.any (· ≠ 0) := by
  have hzones : rs.countP (fun h => h.2.upstream.any (· ≠ 0)) =
      rs.countP fun h => h.2.upstreamZonePtr ≠ 0 :=
    List.countP_congr fun h _ => by rw [← h.2.upstreamZonePtr_ne_zero, decide_eq_true_eq]
  rw [Finset.sum_congr rfl fun idx _ => toNat_tally_count hshort, hzones]
  refine sum_observed (fun h => h.1.upstreamIdxForZone h.2.upstreamZonePtr)
    (fun h => Nat.lt_succ_of_le (upstreamIdxForZone_le h.1 h.2.upstreamZonePtr)) ?_ rs
  intro idx h
  rw [upstreamObs]
  split <;> simp_all

/-- A histogram of sizes counts the requests that have the size. -/
theorem bytes_count (part : Request → Option UInt64) :
    (tally (observed (bytesObs part) rs) .count).toNat = rs.countP fun h => (part h.2).isSome := by
  rw [toNat_tally_count hshort, length_observed]
  refine List.countP_congr fun h _ => ?_
  rw [bytesObs, Option.isSome_map]

/-- A histogram of timings counts no request without upstream attempts. -/
theorem timing_count_le (part : UpstreamSum → Option UInt64) :
    (tally (observed (timingObs part) rs) .count).toNat ≤
      rs.countP fun h => h.2.upstream.isSome ∧ h.2.upstreamStates ≠ [] := by
  rw [toNat_tally_count hshort, length_observed]
  refine List.countP_mono_left fun h _ hsome => ?_
  rw [timingObs, Option.isSome_map] at hsome
  exact decide_eq_true (h.2.isSome_upstreamSum.mp (Option.isSome_of_isSome_bind hsome))

end Counts

/-- **The metrics agree with each other** between two events.  Every answered request is counted
once by combination, every request since the last reload once by route and, if it went to an
upstream zone, once by upstream; every request has its sizes counted, every one with upstream
attempts its bytes, and timings only then; and the buckets of every histogram add up to its
count. -/
theorem aggregate_consistent {nWorkers : Nat} {evs : List Event} {s : State} (hn : 0 < nWorkers)
    (hrun : Run.exec (step nWorkers) .start evs = some s) (hshort : s.handled.length < 2 ^ 64) :
    let agg := aggregateWorkerSlots nWorkers s.slots
    let attempted := s.handled.countP fun h => h.2.upstream.isSome ∧ h.2.upstreamStates ≠ []
    ((∑ idx ∈ Finset.range 160, (agg.comboAgg idx .count).toNat) =
        s.handled.countP fun h => h.2.base.status ≠ 0) ∧
    ((∑ idx ∈ Finset.range 65, (agg.routeAgg idx .count).toNat) = s.sinceReload.length) ∧
    ((∑ idx ∈ Finset.range 33, (agg.upstreamAgg idx .count).toNat) =
        s.sinceReload.countP fun h => h.2.upstream.any (· ≠ 0)) ∧
    (agg.reqBytes .count).toNat = s.handled.length ∧
    (agg.respBytes .count).toNat = s.handled.length ∧
    (agg.upBytes .count).toNat = attempted ∧ (agg.upBytesSent .count).toNat = attempted ∧
    (agg.upResp .count).toNat ≤ attempted ∧ (agg.upHdr .count).toNat ≤ attempted ∧
    (agg.upConn .count).toNat ≤ attempted ∧
    (∀ idx, AddsUp (agg.comboAgg idx) ∧ AddsUp (agg.routeAgg idx) ∧ AddsUp (agg.upstreamAgg idx)) ∧
    AddsUp agg.reqBytes ∧ AddsUp agg.respBytes ∧ AddsUp agg.upResp ∧ AddsUp agg.upHdr ∧
    AddsUp agg.upConn ∧ AddsUp agg.upBytes ∧ AddsUp agg.upBytesSent := by
  intro agg attempted
  have hagg : agg = ledger s.handled s.sinceReload := aggregate_eq_ledger hn hrun
  have hrecent : s.sinceReload.length < 2 ^ 64 :=
    Nat.lt_of_le_of_lt (sinceReload_suffix hrun).length_le hshort
  have hsize : ∀ part : Request → UInt64,
      (tally (observed (bytesObs fun r => some (part r)) s.handled) .count).toNat =
        s.handled.length := by
    intro part
    rw [bytes_count hshort]
    exact List.countP_eq_length.mpr fun _ _ => rfl
  have hbytes : ∀ part : UpstreamSum → UInt64,
      (tally (observed (bytesObs fun r => r.upstreamSum.map part) s.handled) .count).toNat =
        attempted := by
    intro part
    rw [bytes_count hshort]
    exact List.countP_congr fun h _ => by
      rw [Option.isSome_map, h.2.isSome_upstreamSum, decide_eq_true_eq]
  rw [hagg]
  exact ⟨sum_combo_counts hshort, sum_route_counts hrecent, sum_upstream_counts hrecent,
    hsize _, hsize _, hbytes _, hbytes _, timing_count_le hshort _, timing_count_le hshort _,
    timing_count_le hshort _,
    fun idx => ⟨addsUp_tally hshort, addsUp_tally hrecent, addsUp_tally hrecent⟩,
    addsUp_tally hshort, addsUp_tally hshort, addsUp_tally hshort, addsUp_tally hshort,
    addsUp_tally hshort, addsUp_tally hshort, addsUp_tally hshort⟩

/-- One location and one upstream zone. -/
def smallConfig : MainConfig where
  locationName _ := ⟨[0x2f], false⟩
  zoneName _ := ⟨[0x62], false⟩
  servers := [.node 0x1000 0 .null .null .null]
  zones := [0x3000]
  statusCodeClass := true
  logsWorkers := 2
  spansWorkers := 0

/-- A proxied request with a failed attempt, and one that was aborted. -/
def proxiedGet : Request where
  base := ⟨[71, 69, 84], 200, 1001, 0, 1500, none⟩
  clcfPtr := 0x1000
  upstream := some 0x3000
  upstreamStates :=
    [⟨true, 4, NGX_MSEC_SENTINEL, NGX_MSEC_SENTINEL, 0, 90⟩, ⟨true, 7, 6, 1, 512, 90⟩]
  requestLength := 90
  respBytes := 700

def abortedGet : Request where
  base := ⟨[71, 69, 84], 0, 1001, 0, 20, none⟩
  clcfPtr := 0
  upstream := none
  upstreamStates := []
  requestLength := 90
  respBytes := 0

/-- Both workers before a reload, and one after it. -/
def reloadedRun : List Event :=
  [.request smallConfig 0 proxiedGet, .request smallConfig 1 abortedGet, .collect, .reload,
    .request smallConfig 1 proxiedGet, .request smallConfig 2 abortedGet]

theorem aggregate_consistent_reloadedRun :
    ∃ s, Run.exec (step 2) .start reloadedRun = some s ∧ s.handled.length = 3 ∧
      (∑ idx ∈ Finset.range 65,
        ((aggregateWorkerSlots 2 s.slots).routeAgg idx .count).toNat) = 1 ∧
      ((aggregateWorkerSlots 2 s.slots).reqBytes .count).toNat = 3 := by
  have hend : (Run.exec (step 2) .start reloadedRun).map (fun s =>
      (s.handled.length, s.sinceReload.length)) = some (3, 1) := by decide
  obtain ⟨s, hs, hlengths⟩ := Option.map_eq_some_iff.mp hend
  obtain ⟨hhandled, hrecent⟩ := Prod.mk.inj hlengths
  obtain ⟨-, hroutes, -, hsizes, -⟩ :=
    aggregate_consistent (by decide) hs (by rw [hhandled]; decide)
  exact ⟨s, hs, hhandled, hroutes.trans hrecent, hsizes.trans hhandled⟩

/-- The attempts of a request are summed, without the times that were not reached. -/
example : proxiedGet.upstreamSum = some ⟨some 11, some 6, some 1, 512, 180⟩ := by decide

end NgxOtel.Metrics.Requests
