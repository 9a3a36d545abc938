import NgxOtel.ErrorLog.Record
import NgxOtel.Lib.Run
import NgxOtel.Shm.Dimensions
import NgxOtel.Shm.Histogram
import NgxOtel.Traces.SpanStart

/-!
# Exemplars of the request duration

`LogPhaseHandler` (`metric_source/instrumented.rs`) counts a request in the duration histogram of its
`{method, status class, protocol}` combination and, when its span is sampled, offers it to the
exemplar reservoir of the same combination (`shm/mod.rs`).  A collection reads both, resets the
reservoirs and attaches the exemplars to the data points.

* `ExemplarReservoir` — `write`, `snapshot` and `reset`; a write that panics has no result.
* `handleRequest` — the part of the handler that touches the two stores.
* `collectPoints` — `aggregate_worker_slots` and `build_duration_metric`.
* `step` — requests of all workers and collections, one after the other.

`State.recorded` remembers the requests whose handling moved the count of their histogram since the
previous collection, and `State.collections` what each collection exported; nothing reads them.

## Results

* `ExemplarReservoir.write_holds` — what is true of every entry written is true of every entry that
  a snapshot shows.
* `aborted_request_attached` — **a request that no histogram counted is attached as an exemplar.**
* `exemplars_attributed` — when every sampled request was answered, every exemplar is that of a
  request counted in its data point since the previous collection.
-/

set_option autoImplicit false

namespace NgxOtel.Metrics.Exemplars

open Word Wire Shm Traces
open ErrorLog (u64FromBe)

/-! ## The reservoir -/

def EXEMPLAR_RESERVOIR_SIZE : Nat := 2

structure ExemplarEntry where
  valueUs : UInt64
  traceIdLo : UInt64
  traceIdHi : UInt64
  spanId : UInt64
  tsUnixNano : UInt64
  comboIdx : Nat
  hasTrace : Bool
  deriving DecidableEq, Repr

structure ExemplarReservoir where
  seen : UInt64
  entries : Nat → ExemplarEntry

/-- What `write` reads of a `SampledRequest`. -/
structure SampledRequest where
  tsUnixNano : UInt64
  trace : Option (Octets 16 × Octets 8)
  durationUs : UInt64
  comboIdx : Nat

/-- `rand_index`. -/
def randIndex (n : UInt64) : UInt64 :=
  let z := n + 0x9E3779B97F4A7C15
  let z := (z ^^^ (z >>> 30)) * 0xBF58476D1CE4E5B9
  let z := (z ^^^ (z >>> 27)) * 0x94D049BB133111EB
  z ^^^ (z >>> 31)

/-- The bucket of the `n`-th measurement; the remainder by 0, when `n + 1` overflows, panics. -/
def chooseBucket (n : UInt64) : Option UInt64 :=
  if n < UInt64.ofNat EXEMPLAR_RESERVOIR_SIZE then some n
  else if n + 1 = 0 then none
  else some (randIndex n % (n + 1))

/-- The stores into an entry. -/
def ExemplarEntry.fill (e : ExemplarEntry) (req : SampledRequest) : ExemplarEntry :=
  let e := { e with
    valueUs := req.durationUs, tsUnixNano := req.tsUnixNano, comboIdx := req.comboIdx }
  match req.trace with
  | some (tid, sid) =>
    { e with
      traceIdLo := u64FromBe (tid.1.take 8)
      traceIdHi := u64FromBe (tid.1.drop 8)
      spanId := u64FromBe sid.1
      hasTrace := true }
  | none => { e with hasTrace := false }

/-- `ExemplarReservoir::write`. -/
def ExemplarReservoir.write (res : ExemplarReservoir) (req : SampledRequest) :
    Option ExemplarReservoir := do
  let n := res.seen
  let bucket ← chooseBucket n
  let res := { res with seen := n + 1 }
  if bucket ≥ UInt64.ofNat EXEMPLAR_RESERVOIR_SIZE then some res
  else
    let i := bucket.toNat
    some { res with entries := Function.update res.entries i ((res.entries i).fill req) }

structure ExemplarSnapshot where
  valueUs : UInt64
  comboIdx : Nat
  hasTrace : Bool
  traceId : Bytes
  spanId : Bytes
  tsUnixNano : UInt64
  deriving DecidableEq, Repr

/-- `u64::to_be_bytes`. -/
def toBeBytes (v : UInt64) : Bytes := toBe 8 v.toNat

def ExemplarEntry.snapshot (e : ExemplarEntry) : ExemplarSnapshot :=
  ⟨e.valueUs, e.comboIdx, e.hasTrace, toBeBytes e.traceIdLo ++ toBeBytes e.traceIdHi,
    toBeBytes e.spanId, e.tsUnixNano⟩

/-- The entries in use. -/
def ExemplarReservoir.filled (res : ExemplarReservoir) : Nat :=
  min res.seen.toNat EXEMPLAR_RESERVOIR_SIZE

/-- `ExemplarReservoir::snapshot`. -/
def ExemplarReservoir.snapshot (res : ExemplarReservoir) : List ExemplarSnapshot :=
  (List.range res.filled).map fun i => (res.entries i).snapshot

/-- `ExemplarReservoir::reset`. -/
def ExemplarReservoir.reset (res : ExemplarReservoir) : ExemplarReservoir := { res with seen := 0 }

/-! ## A request -/

/-- What the LOG phase reads of a request. -/
structure Request where
  methodName : Bytes
  /-- `headers_out.status`, 0 when no response was sent -/
  status : UInt16
  httpVersion : Nat
  startUnixNano : UInt64
  durationUs : UInt64
  spanCtx : Option SpanCtx
  deriving DecidableEq

/-- `base_idx` of `read_request_meta`. -/
def Request.baseIdx (r : Request) : Nat :=
  comboIndex (.fromBytes r.methodName) (.fromStatus r.status) (.fromNgx r.httpVersion)

/-- The parts of `WorkerSlots` that this module is about. -/
structure WorkerSlots where
  requestDurationCombos : Nat → ExpHistogramSlot
  exemplarReservoirs : Nat → ExemplarReservoir

/-- The observations counted in a combination. -/
def WorkerSlots.observations (slot : WorkerSlots) (idx : Nat) : UInt64 :=
  slot.requestDurationCombos idx .count

def WorkerSlots.zeroed : WorkerSlots :=
  ⟨fun _ _ => 0, fun _ => ⟨0, fun _ => ⟨0, 0, 0, 0, 0, 0, false⟩⟩⟩

/-- `record_base_combo`: a request without a response is not counted. -/
def recordBaseCombo (slot : WorkerSlots) (status : UInt16) (baseIdx : Nat) (durationUs : UInt64) :
    WorkerSlots :=
  if status ≠ 0 then
    { slot with
      requestDurationCombos := Function.update slot.requestDurationCombos baseIdx
        ((slot.requestDurationCombos baseIdx).record durationUs) }
  else slot

/-- The exemplar write of `maybe_emit_span`. -/
def writeExemplar (slot : WorkerSlots) (r : Request) : Option WorkerSlots :=
  match r.spanCtx.filter (·.sampled) with
  | none => some slot
  | some ctx => do
    let res ← (slot.exemplarReservoirs r.baseIdx).write
      ⟨r.startUnixNano, some (ctx.traceId, ctx.spanId), r.durationUs, r.baseIdx⟩
    some { slot with exemplarReservoirs := Function.update slot.exemplarReservoirs r.baseIdx res }

/-- `LogPhaseHandler::handler` with metrics and spans on. -/
def handleRequest (slot : WorkerSlots) (r : Request) : Option WorkerSlots :=
  writeExemplar (recordBaseCombo slot r.status r.baseIdx r.durationUs) r

/-! ## A collection -/

section Collection

variable {S : Type} (usToSeconds : UInt64 → S)

structure Exemplar (S : Type) where
  value : S
  timeUnixNano : UInt64
  traceId : Bytes
  spanId : Bytes
  hasTrace : Bool

/-- An `ExponentialHistogramDataPoint`, its combination and what it is built from. -/
structure DataPoint (S : Type) where
  method : HttpMethod
  statusClass : StatusClass
  proto : ProtoVersion
  histogram : ExpHistogramSlot
  sum : S
  exemplars : List (Exemplar S)

/-- `combo_agg[idx]`. -/
def comboAgg (nWorkers : Nat) (slots : Nat → WorkerSlots) (idx : Nat) : ExpHistogramSlot :=
  (List.range nWorkers).foldl
    (fun agg i => fun f => agg f + (slots i).requestDurationCombos idx f) fun _ => 0

def exemplarOf (snap : ExemplarSnapshot) : Exemplar S :=
  ⟨usToSeconds snap.valueUs, snap.tsUnixNano, snap.traceId, snap.spanId, snap.hasTrace⟩

/-- `all_exemplars`, each with the combination stored in it. -/
def allExemplars (nWorkers : Nat) (slots : Nat → WorkerSlots) : List (Nat × Exemplar S) :=
  (List.range nWorkers).flatMap fun i => (List.range N_COMBOS).flatMap fun combo =>
    ((slots i).exemplarReservoirs combo).snapshot.map fun snap =>
      (snap.comboIdx, exemplarOf usToSeconds snap)

/-- `make_exp_dp`: a combination without observations has no data point. -/
def makeExpDp (method : HttpMethod) (statusClass : StatusClass) (proto : ProtoVersion)
    (agg : ExpHistogramSlot) (exemplars : List (Exemplar S)) : Option (DataPoint S) :=
  if agg .count = 0 then none
  else some ⟨method, statusClass, proto, agg, usToSeconds (agg .sum), exemplars⟩

/-- `build_duration_metric` with `status_code_class` on. -/
def buildDurationMetric (comboAgg : Nat → ExpHistogramSlot) (allExemplars : List (Nat × Exemplar S)) :
    List (DataPoint S) :=
  (List.range N_HTTP_METHODS).flatMap fun mIdx =>
    (List.range N_STATUS_CLASSES).flatMap fun scIdx =>
      (List.range N_PROTO_VERSIONS).filterMap fun pIdx =>
        let method := HttpMethod.fromIndex mIdx
        let statusClass := StatusClass.fromIndex scIdx
        let proto := ProtoVersion.fromIndex pIdx
        let combo := comboIndex method statusClass proto
        let comboExemplars := (allExemplars.filter fun e => e.1 = combo).map Prod.snd
        makeExpDp usToSeconds method statusClass proto (comboAgg combo) comboExemplars

/-- The data points of one collection. -/
def collectPoints (nWorkers : Nat) (slots : Nat → WorkerSlots) : List (DataPoint S) :=
  buildDurationMetric usToSeconds (comboAgg nWorkers slots) (allExemplars usToSeconds nWorkers slots)

/-- The reservoirs that `aggregate_worker_slots` leaves behind. -/
def resetReservoirs (slot : WorkerSlots) : WorkerSlots :=
  { slot with exemplarReservoirs := fun combo =>
      if combo < N_COMBOS then (slot.exemplarReservoirs combo).reset
      else slot.exemplarReservoirs combo }

/-! ## Runs -/

/-- What a collection exported, and the requests counted since the one before, with their
combination. -/
structure Collected (S : Type) where
  recorded : List (Nat × Request)
  points : List (DataPoint S)

structure State (S : Type) where
  slots : Nat → WorkerSlots
  recorded : List (Nat × Request)
  collections : List (Collected S)

def State.start : State S := ⟨fun _ => .zeroed, [], []⟩

inductive Event where
  | request (worker : Nat) (r : Request)
  | collect

/-- One request or one collection; a worker beyond the zone handles nothing. -/
def step (nWorkers : Nat) (s : State S) : Event → Option (State S)
  | .request worker r =>
    if worker < nWorkers then do
      let slot ← handleRequest (s.slots worker) r
      some { s with
        slots := Function.update s.slots worker slot
        recorded :=
          if slot.observations r.baseIdx ≠ (s.slots worker).observations r.baseIdx then
            s.recorded ++ [(r.baseIdx, r)]
          else s.recorded }
    else some s
  | .collect =>
    some {
      slots := fun i => if i < nWorkers then resetReservoirs (s.slots i) else s.slots i
      recorded := []
      collections := s.collections ++
        [⟨s.recorded, collectPoints usToSeconds nWorkers s.slots⟩] }

/-- An exemplar shows the duration and the ids of a request. -/
def Exemplar.Shows (e : Exemplar S) (r : Request) : Prop :=
  e.value = usToSeconds r.durationUs ∧
    ∃ ctx, r.spanCtx = some ctx ∧ e.traceId = ctx.traceId.1 ∧ e.spanId = ctx.spanId.1

/-- **What a collection promises**: every exemplar is that of a request counted, since the previous
collection, in the histogram of its data point. -/
def Collected.Attributed (c : Collected S) : Prop :=
  ∀ p ∈ c.points, ∀ e ∈ p.exemplars, ∃ r,
    (comboIndex p.method p.statusClass p.proto, r) ∈ c.recorded ∧ e.Shows usToSeconds r

/-- The condition on a request: if its span is sampled, a response was sent. -/
def SampledAnswered (_ : State S) (ev : Event) : Prop :=
  ∀ worker r ctx, ev = .request worker r → r.spanCtx = some ctx → ctx.sampled = true → r.status ≠ 0

end Collection

/-! ## What a reservoir holds -/

/-- A property of the entries that a snapshot shows. -/
def ExemplarReservoir.Holds (res : ExemplarReservoir) (P : ExemplarEntry → Prop) : Prop :=
  ∀ i < res.filled, P (res.entries i)

theorem ExemplarReservoir.Holds.mono {res : ExemplarReservoir} {P Q : ExemplarEntry → Prop}
    (h : res.Holds P) (himp : ∀ e, P e → Q e) : res.Holds Q :=
  fun i hi => himp _ (h i hi)

theorem ExemplarReservoir.reset_holds (res : ExemplarReservoir) (P : ExemplarEntry → Prop) :
    res.reset.Holds P := by
  intro i hi
  have hnone : res.reset.filled = 0 := rfl
  rw [hnone] at hi
  exact absurd hi (Nat.not_lt_zero i)

/-- The bucket of a measurement: the next free one while there is one, and any after that. -/
theorem chooseBucket_cases {n bucket : UInt64} (h : chooseBucket n = some bucket) :
    (n + 1).toNat = n.toNat + 1 ∧ (n.toNat < 2 → bucket = n) := by
  have hsucc : n + 1 ≠ 0 → (n + 1).toNat = n.toNat + 1 := by
    intro hne
    have hlt := n.toNat_lt
    have hsum : (n + 1).toNat = (n.toNat + 1) % 2 ^ 64 := UInt64.toNat_add n 1
    by_contra hwrap
    apply hne
    apply UInt64.toNat_inj.mp
    rw [hsum]
    show (n.toNat + 1) % 2 ^ 64 = 0
    omega
  unfold chooseBucket at h
  split_ifs at h with hfree hzero
  · have hsmall : n.toNat < 2 := UInt64.lt_iff_toNat_lt.mp hfree
    refine ⟨hsucc ?_, fun _ => (Option.some.inj h).symm⟩
    intro hzero
    have hsum : (n + 1).toNat = (n.toNat + 1) % 2 ^ 64 := UInt64.toNat_add n 1
    rw [hzero] at hsum
    have hzero' : (0 : UInt64).toNat = 0 := rfl
    omega
  · refine ⟨hsucc hzero, fun hsmall => absurd ?_ hfree⟩
    exact UInt64.lt_iff_toNat_lt.mpr hsmall

/-- **What is true of every entry written is true of every entry shown**: the fill phase leaves no
gap, and afterwards an entry stays or is overwritten. -/
theorem ExemplarReservoir.write_holds {res res' : ExemplarReservoir} {req : SampledRequest}
    {P : ExemplarEntry → Prop} (hold : res.Holds P) (hnew : ∀ e : ExemplarEntry, P (e.fill req))
    (h : res.write req = some res') : res'.Holds P := by
  obtain ⟨bucket, hbucket, h⟩ := Option.bind_eq_some_iff.mp h
  obtain ⟨hsucc, hfree⟩ := chooseBucket_cases hbucket
  intro i hi
  split_ifs at h with hbeyond
  · -- not retained: the reservoir was full
    obtain rfl := (Option.some.inj h).symm
    have hfull : ¬res.seen.toNat < 2 := by
      intro hsmall
      rw [hfree hsmall] at hbeyond
      have hge : 2 ≤ res.seen.toNat := UInt64.le_iff_toNat_le.mp hbeyond
      omega
    exact hold i (by simp only [filled, EXEMPLAR_RESERVOIR_SIZE] at hi ⊢; omega)
  · obtain rfl := (Option.some.inj h).symm
    dsimp only
    by_cases hwritten : i = bucket.toNat
    · rw [hwritten, Function.update_self]
      exact hnew _
    · rw [Function.update_of_ne hwritten]
      apply hold
      simp only [filled, EXEMPLAR_RESERVOIR_SIZE] at hi ⊢
      by_cases hsmall : res.seen.toNat < 2
      · rw [hfree hsmall] at hwritten
        omega
      · omega

/-! ## Entries and their requests -/

theorem toBeBytes_u64FromBe {bs : Bytes} (h : bs.length = 8) : toBeBytes (u64FromBe bs) = bs := by
  have hlt : ofBe bs < 2 ^ 64 := by
    have hbound := ofBe_lt bs
    rw [h] at hbound
    omega
  have hround := toBe_ofBe bs
  rw [h] at hround
  rw [toBeBytes, u64FromBe, UInt64.toNat_ofNat', Nat.mod_eq_of_lt hlt, hround]

/-- The ids come back as they were stored. -/
theorem snapshot_fill (e : ExemplarEntry) (ts duration : UInt64) (tid : Octets 16) (sid : Octets 8)
    (combo : Nat) :
    (e.fill ⟨ts, some (tid, sid), duration, combo⟩).snapshot =
      ⟨duration, combo, true, tid.1, sid.1, ts⟩ := by
  have hlow : (tid.1.take 8).length = 8 := by simp [tid.2]
  have hhigh : (tid.1.drop 8).length = 8 := by simp [tid.2]
  unfold ExemplarEntry.fill ExemplarEntry.snapshot
  dsimp only
  rw [toBeBytes_u64FromBe hlow, toBeBytes_u64FromBe hhigh, toBeBytes_u64FromBe sid.2,
    List.take_append_drop]

/-- An entry that a sampled request of a combination left. -/
def Stored (combo : Nat) (r : Request) (e : ExemplarEntry) : Prop :=
  ∃ ctx, r.spanCtx = some ctx ∧
    e.snapshot = ⟨r.durationUs, combo, true, ctx.traceId.1, ctx.spanId.1, r.startUnixNano⟩

/-! ## One request -/

theorem succ_ne (v : UInt64) : v + 1 ≠ v := by
  intro heq
  have hlt := v.toNat_lt
  have hsum : (v + 1).toNat = (v.toNat + 1) % 2 ^ 64 := UInt64.toNat_add v 1
  rw [heq] at hsum
  omega

theorem recordBaseCombo_reservoirs (slot : WorkerSlots) (status : UInt16) (idx : Nat) (d : UInt64) :
    (recordBaseCombo slot status idx d).exemplarReservoirs = slot.exemplarReservoirs := by
  unfold recordBaseCombo
  split_ifs <;> rfl

/-- A request with a response moves the count of its combination. -/
theorem recordBaseCombo_observations (slot : WorkerSlots) {status : UInt16} (hstatus : status ≠ 0)
    (idx : Nat) (d : UInt64) :
    (recordBaseCombo slot status idx d).observations idx = slot.observations idx + 1 := by
  unfold recordBaseCombo WorkerSlots.observations
  rw [if_pos hstatus]
  dsimp only
  rw [Function.update_self, ExpHistogramSlot.record, recordOps_apply]
  exact if_pos (Or.inr rfl)

theorem writeExemplar_combos {slot slot' : WorkerSlots} {r : Request}
    (h : writeExemplar slot r = some slot') :
    slot'.requestDurationCombos = slot.requestDurationCombos := by
  unfold writeExemplar at h
  split at h
  · rw [← Option.some.inj h]
  · obtain ⟨res, -, hres⟩ := Option.bind_eq_some_iff.mp h
    rw [← Option.some.inj hres]

/-- The reservoirs after the exemplar write. -/
theorem writeExemplar_cases {slot slot' : WorkerSlots} {r : Request}
    (h : writeExemplar slot r = some slot') :
    slot'.exemplarReservoirs = slot.exemplarReservoirs ∨
      ∃ ctx res, r.spanCtx = some ctx ∧ ctx.sampled = true ∧
        (slot.exemplarReservoirs r.baseIdx).write
          ⟨r.startUnixNano, some (ctx.traceId, ctx.spanId), r.durationUs, r.baseIdx⟩ = some res ∧
        slot'.exemplarReservoirs = Function.update slot.exemplarReservoirs r.baseIdx res := by
  unfold writeExemplar at h
  split at h
  · exact .inl (by rw [← Option.some.inj h])
  · rename_i ctx hctx
    obtain ⟨hspan, hsampled⟩ := Option.filter_eq_some_iff.mp hctx
    obtain ⟨res, hwrite, hres⟩ := Option.bind_eq_some_iff.mp h
    exact .inr ⟨ctx, res, hspan, hsampled, hwrite, by rw [← Option.some.inj hres]⟩

/-! ## Runs -/

section Runs

variable {S : Type} {usToSeconds : UInt64 → S} {nWorkers : Nat}

/-- Every entry in use is that of a request counted in the combination of its reservoir. -/
def Backed (nWorkers : Nat) (slots : Nat → WorkerSlots) (recorded : List (Nat × Request)) : Prop :=
  ∀ w < nWorkers, ∀ combo < N_COMBOS, ((slots w).exemplarReservoirs combo).Holds fun e =>
    ∃ r, (combo, r) ∈ recorded ∧ Stored combo r e

/-- What a move does. -/
theorem step_cases {s t : State S} {ev : Event} (h : step usToSeconds nWorkers s ev = some t) :
    t = s ∨
    (∃ worker r slot, ev = .request worker r ∧ worker < nWorkers ∧
      handleRequest (s.slots worker) r = some slot ∧
      t.slots = Function.update s.slots worker slot ∧
      t.recorded = (if slot.observations r.baseIdx ≠ (s.slots worker).observations r.baseIdx then
        s.recorded ++ [(r.baseIdx, r)] else s.recorded) ∧
      t.collections = s.collections) ∨
    (t.slots = (fun i => if i < nWorkers then resetReservoirs (s.slots i) else s.slots i) ∧
      t.recorded = [] ∧ t.collections = s.collections ++
        [⟨s.recorded, collectPoints usToSeconds nWorkers s.slots⟩]) := by
  cases ev with
  | request worker r =>
    simp only [step] at h
    split_ifs at h with hworker
    · obtain ⟨slot, hslot, ht⟩ := Option.bind_eq_some_iff.mp h
      obtain rfl := (Option.some.inj ht).symm
      exact .inr (.inl ⟨worker, r, slot, rfl, hworker, hslot, rfl, rfl, rfl⟩)
    · exact .inl (Option.some.inj h).symm
  | collect =>
    obtain rfl := (Option.some.inj h).symm
    exact .inr (.inr ⟨rfl, rfl, rfl⟩)

/-- A sampled request that was answered is counted before it is offered to the reservoir. -/
theorem Backed.request {slots : Nat → WorkerSlots} {recorded : List (Nat × Request)}
    (hbacked : Backed nWorkers slots recorded) {worker : Nat} {r : Request} {slot : WorkerSlots}
    (hanswered : ∀ ctx, r.spanCtx = some ctx → ctx.sampled = true → r.status ≠ 0)
    (hslot : handleRequest (slots worker) r = some slot) :
    Backed nWorkers (Function.update slots worker slot)
      (if slot.observations r.baseIdx ≠ (slots worker).observations r.baseIdx then
        recorded ++ [(r.baseIdx, r)] else recorded) := by
  have hgrows : ∀ q ∈ recorded, q ∈
      (if slot.observations r.baseIdx ≠ (slots worker).observations r.baseIdx then
        recorded ++ [(r.baseIdx, r)] else recorded) := by
    intro q hq
    split_ifs
    · exact List.mem_append_left _ hq
    · exact hq
  have hkept : ∀ combo e, (∃ q, (combo, q) ∈ recorded ∧ Stored combo q e) → ∃ q, (combo, q) ∈
      (if slot.observations r.baseIdx ≠ (slots worker).observations r.baseIdx then
        recorded ++ [(r.baseIdx, r)] else recorded) ∧ Stored combo q e :=
    fun combo e ⟨q, hq, hstored⟩ => ⟨q, hgrows _ hq, hstored⟩
  intro w hw combo hcombo
  have hold := hbacked w hw combo hcombo
  by_cases hworker : w = worker
  · subst hworker
    rw [Function.update_self]
    have hreservoirs := recordBaseCombo_reservoirs (slots w) r.status r.baseIdx r.durationUs
    obtain hsame | ⟨ctx, res, hspan, hsampled, hwrite, hres⟩ := writeExemplar_cases hslot
    · rw [hsame, hreservoirs]
      exact hold.mono (hkept combo)
    · rw [hres, hreservoirs]
      rw [hreservoirs] at hwrite
      by_cases hidx : combo = r.baseIdx
      · subst hidx
        rw [Function.update_self]
        -- the histogram was bumped first
        have hcounted : slot.observations r.baseIdx ≠ (slots w).observations r.baseIdx := by
          have hcount := recordBaseCombo_observations (slots w) (hanswered ctx hspan hsampled)
            r.baseIdx r.durationUs
          rw [WorkerSlots.observations, writeExemplar_combos hslot]
          rw [WorkerSlots.observations] at hcount
          rw [hcount]
          exact succ_ne _
        refine ExemplarReservoir.write_holds (hold.mono (hkept _)) (fun e => ?_) hwrite
        refine ⟨r, ?_, ctx, hspan, snapshot_fill e _ _ _ _ _⟩
        rw [if_pos hcounted]
        exact List.mem_append_right _ (List.mem_singleton_self _)
      · rw [Function.update_of_ne hidx]
        exact hold.mono (hkept combo)
  · rw [Function.update_of_ne hworker]
    exact hold.mono (hkept combo)

theorem backed_reset (slots : Nat → WorkerSlots) :
    Backed nWorkers (fun i => if i < nWorkers then resetReservoirs (slots i) else slots i) [] := by
  intro w hw combo hcombo
  dsimp only
  rw [if_pos hw]
  unfold resetReservoirs
  dsimp only
  rw [if_pos hcombo]
  exact ExemplarReservoir.reset_holds _ _

/-- The exemplars of a data point come from the reservoirs of its combination. -/
theorem attributed_of_backed {slots : Nat → WorkerSlots} {recorded : List (Nat × Request)}
    (hbacked : Backed nWorkers slots recorded) :
    Collected.Attributed usToSeconds ⟨recorded, collectPoints usToSeconds nWorkers slots⟩ := by
  intro p hp e he
  obtain ⟨mIdx, -, hp⟩ := List.mem_flatMap.mp hp
  obtain ⟨scIdx, -, hp⟩ := List.mem_flatMap.mp hp
  obtain ⟨pIdx, -, hp⟩ := List.mem_filterMap.mp hp
  dsimp only [makeExpDp] at hp
  split_ifs at hp
  obtain rfl := (Option.some.inj hp).symm
  obtain ⟨⟨combo, e'⟩, hmem, rfl⟩ := List.mem_map.mp he
  obtain ⟨hall, hcombo⟩ := List.mem_filter.mp hmem
  have hidx : combo = _ := of_decide_eq_true hcombo
  obtain ⟨w, hw, hall⟩ := List.mem_flatMap.mp hall
  obtain ⟨c, hc, hall⟩ := List.mem_flatMap.mp hall
  obtain ⟨snap, hsnap, heq⟩ := List.mem_map.mp hall
  obtain ⟨i, hi, rfl⟩ := List.mem_map.mp hsnap
  obtain ⟨r, hr, ctx, hspan, hstored⟩ :=
    hbacked w (List.mem_range.mp hw) c (List.mem_range.mp hc) i (List.mem_range.mp hi)
  rw [hstored] at heq
  obtain ⟨rfl, rfl⟩ := Prod.mk.inj heq
  refine ⟨r, ?_, rfl, ctx, hspan, rfl, rfl⟩
  rw [← hidx]
  exact hr

/-- What is in the reservoirs was counted since the last collection, and the collections made so far
are right. -/
structure Inv (usToSeconds : UInt64 → S) (nWorkers : Nat) (s : State S) : Prop where
  backed : Backed nWorkers s.slots s.recorded
  attributed : ∀ c ∈ s.collections, c.Attributed usToSeconds

theorem Inv.start : Inv usToSeconds nWorkers .start where
  backed := fun _ _ combo _ =>
    ExemplarReservoir.reset_holds (WorkerSlots.zeroed.exemplarReservoirs combo) _
  attributed := fun _ hc => absurd hc List.not_mem_nil

theorem Inv.step {s t : State S} {ev : Event} (hs : Inv usToSeconds nWorkers s)
    (hanswered : SampledAnswered s ev) (h : step usToSeconds nWorkers s ev = some t) :
    Inv usToSeconds nWorkers t := by
  obtain rfl | ⟨worker, r, slot, hev, -, hslot, hslots, hrecorded, hcollections⟩ |
    ⟨hslots, hrecorded, hcollections⟩ := step_cases h
  · exact hs
  · constructor
    · rw [hslots, hrecorded]
      exact hs.backed.request (fun ctx => hanswered worker r ctx hev) hslot
    · rw [hcollections]
      exact hs.attributed
  · constructor
    · rw [hslots, hrecorded]
      exact backed_reset s.slots
    · rw [hcollections]
      intro c hc
      rcases List.mem_append.mp hc with hold | hnew
      · exact hs.attributed c hold
      · rw [List.mem_singleton.mp hnew]
        exact attributed_of_backed hs.backed

/-- **Exemplars and histograms.**  For any number of workers and any requests and collections, one
after the other: when every request with a sampled span was answered (status not 0), every exemplar
that a collection attaches to a data point shows the duration, the trace id and the span id of a
request that the histogram of that combination counted since the previous collection. -/
theorem exemplars_attributed {evs : List Event} {t : State S}
    (h : Run.exec (step usToSeconds nWorkers) .start evs = some t)
    (hanswered : Run.Along (step usToSeconds nWorkers) SampledAnswered .start evs) :
    ∀ c ∈ t.collections, c.Attributed usToSeconds := by
  exact (Run.exec_invariant_along (fun _ _ _ hs hC hstep => Inv.step hs hC hstep) hanswered h
    Inv.start).attributed

/-! ## Two requests -/

/-- A `GET` over HTTP/1.1 that was answered with 500 and not sampled. -/
def failedGet : Request := ⟨[71, 69, 84], 500, 1001, 0, 7, none⟩

/-- A sampled `GET` over HTTP/1.1 whose client went away before a response was sent. -/
def abortedGet : Request :=
  ⟨[71, 69, 84], 0, 1001, 0, 9, some {
    traceId := ⟨List.replicate 16 3, rfl⟩
    spanId := ⟨List.replicate 8 4, rfl⟩
    parentSpanId := zeros 8
    flags := 1
    startTimeUnixNano := 0
    startMono := 0
    sampled := true }⟩

/-- The combination, the count, and the values and ids of the exemplars of a data point. -/
structure Summary (S : Type) where
  method : HttpMethod
  statusClass : StatusClass
  proto : ProtoVersion
  count : UInt64
  exemplars : List (S × Bytes × Bytes)
  deriving DecidableEq

def DataPoint.summary (p : DataPoint S) : Summary S :=
  ⟨p.method, p.statusClass, p.proto, p.histogram .count,
    p.exemplars.map fun e => (e.value, e.traceId, e.spanId)⟩

/-- **The exemplar of a request that no histogram counted**: both requests belong to
`{GET, 5xx, 1.1}`; the data point counts the first and shows the second. -/
theorem aborted_request_attached :
    ∃ t, Run.exec (step (id : UInt64 → UInt64) 1) .start
        [.request 0 failedGet, .request 0 abortedGet, .collect] = some t ∧
      (t.collections.map fun c => (c.recorded, c.points.map DataPoint.summary)) =
        [([(comboIndex .get .s5xx .http11, failedGet)],
          [⟨.get, .s5xx, .http11, 1, [(9, List.replicate 16 3, List.replicate 8 4)]⟩])] ∧
      ∃ c ∈ t.collections, ¬c.Attributed id := by
  have hrun : (Run.exec (step (id : UInt64 → UInt64) 1) .start
      [.request 0 failedGet, .request 0 abortedGet, .collect]).map
        (fun t => t.collections.map fun c => (c.recorded, c.points.map DataPoint.summary)) =
      some [([(comboIndex .get .s5xx .http11, failedGet)],
        [⟨.get, .s5xx, .http11, 1, [(9, List.replicate 16 3, List.replicate 8 4)]⟩])] := by
    decide +kernel
  obtain ⟨t, ht, hsummary⟩ := Option.map_eq_some_iff.mp hrun
  refine ⟨t, ht, hsummary, ?_⟩
  obtain ⟨c, hc, hproj⟩ := List.mem_map.mp (hsummary ▸ List.mem_singleton_self _)
  obtain ⟨hrecorded, hpoints⟩ := Prod.mk.inj hproj
  refine ⟨c, hc, fun hattributed => ?_⟩
  obtain ⟨p, hp, hpoint⟩ := List.mem_map.mp (hpoints ▸ List.mem_singleton_self _)
  have hexemplars : (p.exemplars.map fun e => (e.value, e.traceId, e.spanId)) =
    [(9, List.replicate 16 3, List.replicate 8 4)] := congrArg Summary.exemplars hpoint
  obtain ⟨e, he, hvalues⟩ := List.mem_map.mp (hexemplars ▸ List.mem_singleton_self _)
  -- the only request counted took 7 µs
  obtain ⟨r, hr, hvalue, -⟩ := hattributed p hp e he
  rw [hrecorded] at hr
  have hfailed : r = failedGet := congrArg Prod.snd (List.mem_singleton.mp hr)
  rw [(Prod.mk.inj hvalues).1, hfailed] at hvalue
  exact absurd hvalue (by decide)

/-- The same request with a response. -/
def answeredGet : Request := { abortedGet with status := 200 }

theorem exemplars_attributed_answeredGet :
    ∃ t, Run.exec (step (id : UInt64 → UInt64) 1) .start [.request 0 answeredGet, .collect] = some t ∧
      (t.collections.map fun c => c.points.map DataPoint.summary) =
        [[⟨.get, .s2xx, .http11, 1, [(9, List.replicate 16 3, List.replicate 8 4)]⟩]] ∧
      ∀ c ∈ t.collections, c.Attributed id := by
  have hrun : (Run.exec (step (id : UInt64 → UInt64) 1) .start
      [.request 0 answeredGet, .collect]).map
        (fun t => t.collections.map fun c => c.points.map DataPoint.summary) =
      some [[⟨.get, .s2xx, .http11, 1, [(9, List.replicate 16 3, List.replicate 8 4)]⟩]] := by
    decide +kernel
  obtain ⟨t, ht, hsummary⟩ := Option.map_eq_some_iff.mp hrun
  have hmet : ∀ ev ∈ [Event.request 0 answeredGet, .collect],
      SampledAnswered (State.start : State UInt64) ev := by
    rw [List.forall_mem_cons, List.forall_mem_singleton]
    constructor
    · intro worker r ctx hev _ _
      cases hev
      decide
    · intro worker r ctx hev
      cases hev
  have hanswered : Run.Along (step (id : UInt64 → UInt64) 1) SampledAnswered .start
      [.request 0 answeredGet, .collect] := Run.along_of_forall_mem hmet
  exact ⟨t, ht, hsummary, exemplars_attributed ht hanswered⟩

end Runs

end NgxOtel.Metrics.Exemplars
