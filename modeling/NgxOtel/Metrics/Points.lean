import NgxOtel.Metrics.Tables
import NgxOtel.Shm.Histogram

/-!
# Data points by route and by upstream

`build_route_metric` and `build_upstream_duration_metric` (`metric_source/instrumented.rs`) export
one data point for every slot that has counted something, with the name of the slot as its only
attribute.  Points of one metric have to differ in their attributes.

* `Agg`, `DataPoint`, `makeExpDp` — an aggregated slot and its data point, none for an empty slot.
* `buildRouteMetric`, `buildUpstreamDurationMetric` — the two metrics.
* `Separated` — when slots that have counted something can be told apart.

## Results

* `attributeValues_slotPoints` — the attribute values of a metric are the names of the slots in use.
* `nodup_slotNames_iff` — they are pairwise different precisely for separated slots.
* `metric_identities_iff` — **the points of both metrics have pairwise different attributes precisely
  if the locations and the zones are separated**; two servers with a location of the same name are
  not.
-/

set_option autoImplicit false

namespace NgxOtel.Metrics

open Word Shm

variable {D : Type}

/-! ## The metrics -/

def EXP_HISTOGRAM_SCALE : Int := 3
def EXP_HISTOGRAM_BUCKET_OFFSET : Int := -160

/-- A slot summed over the workers. -/
structure Agg where
  buckets : Fin N_EXP_BUCKETS → UInt64
  zeroCount : UInt64
  sumUs : UInt64
  count : UInt64

/-- `ExponentialHistogramDataPoint`; these metrics have no exemplars. -/
structure DataPoint (D : Type) where
  attributes : List (String × String)
  startTimeUnixNano : UInt64
  timeUnixNano : UInt64
  count : UInt64
  sum : D
  scale : Int
  zeroCount : UInt64
  positiveOffset : Int
  positiveBucketCounts : Fin N_EXP_BUCKETS → UInt64

/-- `make_exp_dp`; `seconds` converts the sum. -/
def makeExpDp (seconds : UInt64 → D) (agg : Agg) (attrs : List (String × String))
    (start now : UInt64) : Option (DataPoint D) :=
  if agg.count = 0 then none
  else some
    { attributes := attrs
      startTimeUnixNano := start
      timeUnixNano := now
      count := agg.count
      sum := seconds agg.sumUs
      scale := EXP_HISTOGRAM_SCALE
      zeroCount := agg.zeroCount
      positiveOffset := EXP_HISTOGRAM_BUCKET_OFFSET
      positiveBucketCounts := agg.buckets }

/-- A cumulative metric of exponential histograms. -/
structure Metric (D : Type) where
  name : String
  description : String
  unit : String
  dataPoints : List (DataPoint D)

/-- The loop over the slots: each data point has the name of its slot under the given key. -/
def slotPoints (seconds : UInt64 → D) (slots : Nat) (key : String) (name : Nat → String)
    (agg : Nat → Agg) (start now : UInt64) : List (DataPoint D) :=
  (List.range slots).filterMap fun idx =>
    makeExpDp seconds (agg idx) [(key, name idx)] start now

/-- `build_route_metric`; without a configuration slots are named by number. -/
def buildRouteMetric (seconds : UInt64 → D) (fromUtf8 : Bytes → Option String)
    (table : Option (List Entry)) (agg : Nat → Agg) (start now : UInt64) : Metric D where
  name := "nginx.http.request.duration.by_route"
  description := "HTTP server request duration by matched location (http.route)"
  unit := "s"
  dataPoints := slotPoints seconds N_ROUTE_SLOTS "http.route"
    (fun idx => match table with
      | some table => entryName fromUtf8 ROUTE_CAP table idx
      | none => "route_" ++ toString idx)
    agg start now

/-- `build_upstream_duration_metric`. -/
def buildUpstreamDurationMetric (seconds : UInt64 → D) (fromUtf8 : Bytes → Option String)
    (table : Option (List Entry)) (agg : Nat → Agg) (start now : UInt64) : Metric D where
  name := "nginx.http.request.duration.by_upstream"
  description := "HTTP server request duration by upstream zone (nginx.upstream.zone)"
  unit := "s"
  dataPoints := slotPoints seconds N_UPSTREAM_SLOTS "nginx.upstream.zone"
    (fun idx => match table with
      | some table => entryName fromUtf8 UPSTREAM_IDX_OTHER table idx
      | none => "upstream_" ++ toString idx)
    agg start now

/-- The values of an attribute over the points of a metric. -/
def Metric.attributeValues (metric : Metric D) (key : String) : List (Option String) :=
  metric.dataPoints.map fun dp => dp.attributes.lookup key

/-! ## Identities -/

/-- The slots that have counted something. -/
def used (slots : Nat) (agg : Nat → Agg) : List Nat :=
  (List.range slots).filter fun idx => (agg idx).count ≠ 0

theorem attributeValues_slotPoints (seconds : UInt64 → D) (slots : Nat) (key : String)
    (name : Nat → String) (agg : Nat → Agg) (start now : UInt64) :
    (slotPoints seconds slots key name agg start now).map (fun dp => dp.attributes.lookup key) =
      (used slots agg).map fun idx => some (name idx) := by
  unfold slotPoints used
  induction List.range slots with
  | nil => rfl
  | cons idx idxs ih =>
    by_cases hzero : (agg idx).count = 0
    · have hnone : makeExpDp seconds (agg idx) [(key, name idx)] start now = none := if_pos hzero
      rw [List.filter_cons_of_neg (by simpa using hzero), ← ih]
      simp only [List.filterMap_cons, hnone]
    · have hsome : ∃ dp, makeExpDp seconds (agg idx) [(key, name idx)] start now = some dp ∧
          dp.attributes = [(key, name idx)] := ⟨_, if_neg hzero, rfl⟩
      obtain ⟨dp, hdp, hattrs⟩ := hsome
      have hvalue : dp.attributes.lookup key = some (name idx) := by simp [hattrs]
      rw [List.filter_cons_of_pos (by simpa using hzero), List.map_cons, ← ih]
      simp only [List.filterMap_cons, hdp, List.map_cons, hvalue]

/-- Names over the used slots are pairwise different. -/
theorem nodup_map_used_iff {slots : Nat} {agg : Nat → Agg} (name : Nat → String) :
    ((used slots agg).map fun idx => some (name idx)).Nodup ↔
      ∀ i j, i < j → j < slots → (agg i).count ≠ 0 → (agg j).count ≠ 0 → name i ≠ name j := by
  unfold used
  rw [List.Nodup, List.pairwise_map, List.pairwise_filter]
  constructor
  · intro h i j hij hj hi' hj' heq
    have hpair := List.pairwise_iff_getElem.mp h i j (by simp; omega) (by simpa using hj) hij
    simp only [List.getElem_range] at hpair
    exact hpair (by simpa using hi') (by simpa using hj') (congrArg some heq)
  · intro h
    apply List.pairwise_iff_getElem.mpr
    intro i j hi hj hij hi' hj' heq
    simp only [List.getElem_range, List.length_range] at hi hj hi' hj' heq
    exact h i j hij hj (by simpa using hi') (by simpa using hj') (Option.some.inj heq)

/-- When slots can be told apart: those of registered pointers that have counted something show
different names, at most one other slot has counted something, and if one has, no registered pointer
shows its name. -/
structure Separated (cap : Nat) (ptrs : List Nat) (shown : Nat → String) (agg : Nat → Agg) :
    Prop where
  named : ∀ i j p q, i < j → ptrs[i]? = some p → ptrs[j]? = some q → (agg i).count ≠ 0 →
    (agg j).count ≠ 0 → shown p ≠ shown q
  others : ∀ i j, ptrs.length ≤ i → i < j → j ≤ cap → (agg i).count ≠ 0 → (agg j).count = 0
  free : ∀ i j p, ptrs[i]? = some p → ptrs.length ≤ j → j ≤ cap → (agg i).count ≠ 0 →
    (agg j).count ≠ 0 → shown p ≠ "(other)"

/-- The name that a location or a zone shows in its slot. -/
def shownName (fromUtf8 : Bytes → Option String) (max : Nat) (name : Nat → NgxStr) (ptr : Nat) :
    String :=
  (fromUtf8 ((name ptr).cut max)).getD "(invalid)"

section Table

variable (fromUtf8 : Bytes → Option String) {cap max : Nat} {name : Nat → NgxStr}
  {table : List Entry}

/-- The name of a slot in terms of its pointer. -/
theorem entryName_eq (hnamed : Named max name table) (hcap : table.length ≤ cap) (idx : Nat) :
    entryName fromUtf8 cap table idx =
      match (table.map Entry.ptr)[idx]? with
      | some ptr => shownName fromUtf8 max name ptr
      | none => "(other)" := by
  unfold entryName
  rw [List.getElem?_map]
  by_cases hidx : idx = cap
  · rw [if_pos hidx, List.getElem?_eq_none (by omega)]
    rfl
  · rw [if_neg hidx]
    cases hentry : table[idx]? with
    | none => rfl
    | some e =>
      show e.nameStr fromUtf8 = shownName fromUtf8 max name e.ptr
      rw [Entry.nameStr, hnamed e (List.mem_of_getElem? hentry)]
      rfl

/-- **Slot names over the used slots are pairwise different precisely for separated slots.** -/
theorem nodup_slotNames_iff {agg : Nat → Agg} (hnamed : Named max name table)
    (hcap : table.length ≤ cap) :
    ((used (cap + 1) agg).map fun idx => some (entryName fromUtf8 cap table idx)).Nodup ↔
      Separated cap (table.map Entry.ptr) (shownName fromUtf8 max name) agg := by
  have hslot := entryName_eq fromUtf8 hnamed hcap
  have hsome : ∀ {idx ptr}, (table.map Entry.ptr)[idx]? = some ptr →
      entryName fromUtf8 cap table idx = shownName fromUtf8 max name ptr := by
    intro idx ptr h
    rw [hslot, h]
  have hnone : ∀ {idx}, (table.map Entry.ptr).length ≤ idx →
      entryName fromUtf8 cap table idx = "(other)" := by
    intro idx h
    rw [hslot, List.getElem?_eq_none h]
  have hlen : (table.map Entry.ptr).length ≤ cap := by rwa [List.length_map]
  rw [nodup_map_used_iff]
  constructor
  · intro h
    refine ⟨?_, ?_, ?_⟩
    · intro i j p q hij hp hq hi hj heq
      obtain ⟨hjlt, -⟩ := List.getElem?_eq_some_iff.mp hq
      exact h i j hij (by omega) hi hj ((hsome hp).trans (heq.trans (hsome hq).symm))
    · intro i j hlow hij hj hi
      by_contra hcount
      exact h i j hij (by omega) hi hcount ((hnone hlow).trans (hnone (by omega)).symm)
    · intro i j p hp hlow hj hi hcount heq
      obtain ⟨hilt, -⟩ := List.getElem?_eq_some_iff.mp hp
      exact h i j (by omega) (by omega) hi hcount ((hsome hp).trans (heq.trans (hnone hlow).symm))
  · intro h i j hij hj hi hcount heq
    by_cases hjlt : j < (table.map Entry.ptr).length
    · have hp := List.getElem?_eq_getElem (Nat.lt_trans hij hjlt)
      have hq := List.getElem?_eq_getElem hjlt
      rw [hsome hp, hsome hq] at heq
      exact h.named i j _ _ hij hp hq hi hcount heq
    · by_cases hilt : i < (table.map Entry.ptr).length
      · have hp := List.getElem?_eq_getElem hilt
        rw [hsome hp, hnone (by omega)] at heq
        exact h.free i j _ hp (by omega) (by omega) hi hcount heq
      · exact hcount (h.others i j (by omega) hij (by omega) hi)

end Table

/-! ## Both metrics -/

/-- The locations that get a route slot. -/
def routes (servers : List LocationTree) : List Nat :=
  (servers.flatMap LocationTree.visits).eraseDups.take ROUTE_CAP

/-- The zones that get an upstream slot. -/
def zonesOf (upstreams : List Nat) : List Nat :=
  (upstreams.filter (· ≠ 0)).eraseDups.take UPSTREAM_CAP

theorem length_registerAll_le (cap max : Nat) (name : Nat → NgxStr) (ptrs : List Nat) :
    (registerAll cap max name [] ptrs).length ≤ cap := by
  have hlen := congrArg List.length (registerAll_ptrs cap max name ptrs)
  rw [List.length_map, List.length_take] at hlen
  omega

/-- Names over a table built by registration. -/
theorem nodup_registerAll_iff (fromUtf8 : Bytes → Option String) (cap max : Nat)
    (name : Nat → NgxStr) (ptrs : List Nat) (agg : Nat → Agg) :
    ((used (cap + 1) agg).map fun idx =>
        some (entryName fromUtf8 cap (registerAll cap max name [] ptrs) idx)).Nodup ↔
      Separated cap (ptrs.eraseDups.take cap) (shownName fromUtf8 max name) agg := by
  have hempty : Named max name [] := fun _ he => by cases he
  rw [← registerAll_ptrs cap max name ptrs]
  exact nodup_slotNames_iff fromUtf8 (registerAll_named ptrs hempty)
    (length_registerAll_le cap max name ptrs)

/-- **The points of both metrics can be told apart precisely if locations and zones are separated.** -/
theorem metric_identities_iff (seconds : UInt64 → D) (fromUtf8 : Bytes → Option String)
    (locationName zoneName : Nat → NgxStr) (servers : List LocationTree) (upstreams : List Nat)
    (routeAgg upstreamAgg : Nat → Agg) (start now : UInt64) :
    (((buildRouteMetric seconds fromUtf8 (some (buildRouteTable locationName servers)) routeAgg
          start now).attributeValues "http.route").Nodup ∧
      ((buildUpstreamDurationMetric seconds fromUtf8 (some (buildUpstreamTable zoneName upstreams))
          upstreamAgg start now).attributeValues "nginx.upstream.zone").Nodup) ↔
    Separated ROUTE_CAP (routes servers) (shownName fromUtf8 ROUTE_NAME_MAX locationName) routeAgg ∧
      Separated UPSTREAM_CAP (zonesOf upstreams) (shownName fromUtf8 UPSTREAM_NAME_MAX zoneName)
        upstreamAgg := by
  have hroutes := foldl_walkLocationTree locationName servers []
  have hzones := upstreamLoop_eq zoneName upstreams []
  unfold Metric.attributeValues buildRouteMetric buildUpstreamDurationMetric buildRouteTable
    buildUpstreamTable
  rw [attributeValues_slotPoints, attributeValues_slotPoints, hroutes, hzones]
  exact and_congr (nodup_registerAll_iff fromUtf8 ROUTE_CAP ROUTE_NAME_MAX locationName _ routeAgg)
    (nodup_registerAll_iff fromUtf8 UPSTREAM_CAP UPSTREAM_NAME_MAX zoneName _ upstreamAgg)

/-- A slot with one request, and one with none. -/
def countedOnce : Agg := ⟨fun _ => 0, 1, 0, 1⟩
def neverCounted : Agg := ⟨fun _ => 0, 0, 0, 0⟩

/-- Two servers, each with its own location. -/
def twoServers : List LocationTree :=
  [.node 0 0x1000 .null .null .null, .node 0 0x2000 .null .null .null]

/-- ASCII text. -/
def fromAscii (bytes : Bytes) : Option String :=
  if bytes.all (· < 0x80) then some (String.ofList (bytes.map fun b => Char.ofNat b.toNat)) else none

/-- Two servers, each with a `location /`, that have both served a request: two points with one
`http.route`. -/
theorem same_location_in_two_servers :
    ¬ (((buildRouteMetric id fromAscii
        (some (buildRouteTable (fun _ => ⟨[0x2f], false⟩) twoServers))
        (fun idx => if idx < 2 then countedOnce else neverCounted) 0 0).attributeValues
          "http.route").Nodup ∧
      ((buildUpstreamDurationMetric id fromAscii
        (some (buildUpstreamTable (fun _ => ⟨[], false⟩) [])) (fun _ => neverCounted) 0
          0).attributeValues "nginx.upstream.zone").Nodup) := by
  unfold Metric.attributeValues buildRouteMetric
  rw [attributeValues_slotPoints, nodup_map_used_iff]
  rintro ⟨h, -⟩
  exact h 0 1 (by decide) (by decide) (by decide) (by decide) rfl

end NgxOtel.Metrics
