import NgxOtel.Drain.Pdata
import NgxOtel.Drain.RingDrain
import NgxOtel.Records.Access
import NgxOtel.Records.Span
import NgxOtel.Reload.Zones

/-!
# From the workers' rings to the peer

The periodic path of a signal, `drain → process → encode → send`: workers push records into their
rings, a pass of the exporter drains them into a batch, the processor and the encoder make a body of
it, and the body is sent and retried from the bounded queue of the lane.

* `Pipeline` — the rings' lane, the depth of the retry queue, the payload made of a pass, and how
  generated code writes a request.
* `Pipeline.step` — workers move at any time; the one exporter drains, sends and retries, one after
  the other.
* `spanPipeline`, `accessPipeline` — the two signals that go this way.
* `Codecs` — the conversions that the exporter takes from its libraries.
* `buildResourceAttrs` — the resource of every batch.

## Results

* `Pipeline.step_inv`, `Pipeline.exec_inv` — what every step and every run of the composed system
  keep.
* `spans_sent_as_recorded`, `access_logs_sent_as_recorded` — **what workers record is what is
  sent**: every body is that of a request that says so, and the fresh requests hold one item for
  each record popped, in order.
* `spans_accounted` — **the spans recorded are all counted in one place**.
-/

set_option autoImplicit false

namespace NgxOtel.Drain

open Word DataModel Otlp

/-! ## The composed system -/

structure Pipeline (α ε : Type) where
  tail : TailLane α
  depth : Nat
  /-- what is sent for the items of a pass, and for what else the batch holds -/
  payload : ε → List α → Pdata F64
  prost : Prost Bytes

namespace Pipeline

variable {α ε : Type}

/-- The body and the count of a payload, as `send_fresh_batch` takes them. -/
def batch (pl : Pipeline α ε) (sent : ε × TailLane.Pass α) : Batch where
  bytes := encodePdata pl.prost (pl.payload sent.1 sent.2.items)
  nRecords := countPdataRecords (pl.payload sent.1 sent.2.items)

/-- `sent` are the passes handed to `send_fresh_batch`, with the rest of their batches. -/
structure State (α ε : Type) where
  tail : TailLane.State α
  lane : Lane
  sent : List (ε × TailLane.Pass α)

def State.start : State α ε := ⟨.start, .empty, []⟩

inductive Act (ε : Type) where
  | tail (a : TailLane.Act)
  | send (other : ε) (reply : Reply)
  | retry (nowMsec : Nat) (replies : Nat → Reply)

/-- No pass runs, and every finished one was sent. -/
def State.idle (s : State α ε) : Bool :=
  s.tail.pass.isNone && s.tail.batches.length == s.sent.length

def step (pl : Pipeline α ε) (s : State α ε) : Act ε → Option (State α ε)
  | .tail (.begin now) =>
    if s.idle then (TailLane.step pl.tail s.tail (.begin now)).map ({ s with tail := · }) else none
  | .tail a => (TailLane.step pl.tail s.tail a).map ({ s with tail := · })
  | .send other reply =>
    match s.tail.batches.drop s.sent.length with
    | p :: _ =>
      some { s with
        lane := sendFreshBatch pl.depth (pl.batch (other, p)) reply s.lane
        sent := s.sent ++ [(other, p)] }
    | [] => none
  | .retry nowMsec replies =>
    if s.idle then some { s with lane := drainRetryQueueOnce pl.depth nowMsec replies s.lane }
    else none

/-- The items that the exporter holds and has not sent. -/
def State.inHand (s : State α ε) : List α :=
  (s.tail.batches.drop s.sent.length).flatMap (·.items) ++ (s.tail.pass.map (·.2.items)).getD []

/-! ### What every step keeps -/

/-- What holds of the lane and of the passes that were handed to it; what the rings keep is a matter
of `TailLane.Inv`. -/
structure Inv (pl : Pipeline α ε) (s : State α ε) : Prop where
  lane : LaneInv pl.depth s.lane
  handed : s.sent.map (·.2) <+: s.tail.batches
  fresh : s.lane.freshBatches = (s.sent.map pl.batch).filter fun b => b.nRecords ≠ 0
  sends : ∀ x ∈ s.lane.sends, x.batch ∈ s.lane.freshBatches

section Invariant

variable {pl : Pipeline α ε} {s t : State α ε}

theorem inv_start : Inv pl (State.start : State α ε) where
  lane := laneInv_empty pl.depth
  handed := List.nil_prefix
  fresh := rfl
  sends := by simp [State.start, Lane.empty]

/-- The passes that are still to be sent. -/
theorem Inv.unsent (hs : Inv pl s) :
    s.tail.batches = s.sent.map (·.2) ++ s.tail.batches.drop s.sent.length := by
  obtain ⟨later, hlater⟩ := hs.handed
  have hlength : (s.sent.map (·.2)).length = s.sent.length := List.length_map _
  rw [← hlater, ← hlength, List.drop_left]

theorem inv_tail {tail : TailLane.State α} {a : TailLane.Act} (hs : Inv pl s)
    (h : TailLane.step pl.tail s.tail a = some tail) : Inv pl { s with tail := tail } :=
  ⟨hs.lane, hs.handed.trans (TailLane.step_batches h), hs.fresh, hs.sends⟩

/-- The retried batches were in the queue, and what is queued was sent before. -/
theorem inv_retry (hs : Inv pl s) (nowMsec : Nat) (replies : Nat → Reply) :
    Inv pl { s with lane := drainRetryQueueOnce pl.depth nowMsec replies s.lane } := by
  obtain ⟨made, hpass⟩ := drainRetryQueueOnce_spec pl.depth nowMsec replies hs.lane.bounded
  have hfresh : (drainRetryQueueOnce pl.depth nowMsec replies s.lane).freshBatches =
      s.lane.freshBatches :=
    freshBatches_retries hpass.sends_eq fun x hx => (hpass.retries x hx).1
  refine ⟨hs.lane.retry nowMsec replies, hs.handed, hfresh.trans hs.fresh, ?_⟩
  intro x hx
  show x.batch ∈ (drainRetryQueueOnce pl.depth nowMsec replies s.lane).freshBatches
  rw [hfresh]
  rw [hpass.sends_eq] at hx
  rcases List.mem_append.mp hx with hx | hx
  · exact hs.sends x hx
  · exact hs.lane.ordered.subset (hpass.in_order.subset (List.mem_map_of_mem hx))

/-- A fresh batch with records in it is sent; an empty one is not. -/
theorem freshBatches_sendFreshBatch (depth : Nat) (b : Batch) (reply : Reply) (l : Lane) :
    (sendFreshBatch depth b reply l).freshBatches =
      l.freshBatches ++ [b].filter fun b => b.nRecords ≠ 0 := by
  by_cases hn : b.nRecords = 0
  · rw [sendFreshBatch_zero hn]
    simp [hn]
  · obtain ⟨hsends, -⟩ := sendFreshBatch_spec depth hn reply l
    simp [Lane.freshBatches, hsends, List.filter_append, freshSend, hn]

theorem inv_send {p : TailLane.Pass α} {rest : List (TailLane.Pass α)} (hs : Inv pl s)
    (hnext : s.tail.batches.drop s.sent.length = p :: rest) (other : ε) (reply : Reply) :
    Inv pl { s with
      lane := sendFreshBatch pl.depth (pl.batch (other, p)) reply s.lane
      sent := s.sent ++ [(other, p)] } := by
  have hfresh := freshBatches_sendFreshBatch pl.depth (pl.batch (other, p)) reply s.lane
  refine ⟨hs.lane.fresh _ reply, ?_, ?_, ?_⟩
  · refine ⟨rest, ?_⟩
    show (s.sent ++ [(other, p)]).map (·.2) ++ rest = s.tail.batches
    rw [hs.unsent, hnext]
    simp
  · rw [List.map_append, List.filter_append, ← hs.fresh]
    exact hfresh
  · intro x hx
    show x.batch ∈ (sendFreshBatch pl.depth (pl.batch (other, p)) reply s.lane).freshBatches
    by_cases hn : (pl.batch (other, p)).nRecords = 0
    · rw [sendFreshBatch_zero hn] at hx ⊢
      exact hs.sends x hx
    · obtain ⟨hsends, -⟩ := sendFreshBatch_spec pl.depth hn reply s.lane
      rw [hsends] at hx
      rw [hfresh, List.mem_append]
      rcases List.mem_append.mp hx with hx | hx
      · exact .inl (hs.sends x hx)
      · obtain rfl := List.mem_singleton.mp hx
        exact .inr (by simpa [freshSend] using hn)

/-- A move on the rings leaves the lane alone. -/
theorem step_tail {a : TailLane.Act} (h : step pl s (.tail a) = some t) :
    ∃ tail, TailLane.step pl.tail s.tail a = some tail ∧ { s with tail := tail } = t := by
  cases a with
  | begin now =>
    simp only [step] at h
    split at h
    · exact Option.map_eq_some_iff.mp h
    · cases h
  | push w record | producer w => exact Option.map_eq_some_iff.mp h
  | advance => exact Option.map_eq_some_iff.mp h

theorem step_inv {a : Act ε} (hs : Inv pl s) (h : step pl s a = some t) : Inv pl t := by
  cases a with
  | tail a =>
    obtain ⟨tail, htail, rfl⟩ := step_tail h
    exact inv_tail hs htail
  | send other reply =>
    simp only [step] at h
    split at h
    · next p rest hnext =>
      cases h
      exact inv_send hs hnext other reply
    · cases h
  | retry nowMsec replies =>
    simp only [step] at h
    split at h
    · cases h
      exact inv_retry hs nowMsec replies
    · cases h

/-- What was sent, and what is in hand, is what was popped. -/
theorem Inv.exported (hs : Inv pl s) (htail : TailLane.Inv pl.tail s.tail) :
    s.sent.flatMap (·.2.items) ++ s.inHand =
      s.tail.pops.filterMap fun p => pl.tail.parse p.now p.record := by
  have hitems : s.tail.batches.flatMap (·.items) = s.sent.flatMap (·.2.items) ++
      (s.tail.batches.drop s.sent.length).flatMap (·.items) := by
    refine (congrArg (List.flatMap (·.items)) hs.unsent).trans ?_
    rw [List.flatMap_append, List.flatMap_map]
  rw [← htail.content, TailLane.State.exported, State.inHand, hitems, List.append_assoc]

/-- The records of the fresh batches are those of the payloads. -/
theorem Inv.records (hs : Inv pl s) :
    Drain.records s.lane.freshBatches = (s.sent.map fun x => (pl.batch x).nRecords).sum := by
  rw [hs.fresh]
  induction s.sent with
  | nil => rfl
  | cons x sent ih =>
    by_cases hn : (pl.batch x).nRecords = 0 <;> simp_all

/-- **What is sent**, when the batch of a pass is made of a list of items and carries them: the
fresh batches are those of the lists that are not empty, every send is of one of them, and together
they hold the items. -/
theorem Inv.bodies {β : Type} {body : List β → Batch} {items : ε × TailLane.Pass α → List β}
    {holds : Batch → List β → Prop} (hs : Inv pl s) (hbatch : ∀ x, pl.batch x = body (items x))
    (hcount : ∀ xs, (body xs).nRecords = xs.length) (hholds : ∀ xs, holds (body xs) xs) :
    ∃ bodies : List (List β),
      List.Forall₂ holds s.lane.freshBatches bodies ∧
      (∀ x ∈ s.lane.sends, ∃ xs ∈ bodies, holds x.batch xs) ∧
      bodies.flatten = s.sent.flatMap items := by
  let bodies := (s.sent.map items).filter fun xs => !xs.isEmpty
  have hfresh : s.lane.freshBatches = bodies.map body := by
    have hsent : s.sent.map pl.batch = (s.sent.map items).map body := by
      rw [List.map_map]
      exact List.map_congr_left fun x _ => hbatch x
    rw [hs.fresh, hsent, List.filter_map]
    refine congrArg (List.map body) (List.filter_congr fun xs _ => ?_)
    cases xs <;> simp [hcount]
  refine ⟨bodies, hfresh ▸ forall₂_map_self hholds bodies, fun x hx => ?_, ?_⟩
  · obtain ⟨xs, hxs, heq⟩ := List.mem_map.mp (hfresh ▸ hs.sends x hx)
    exact ⟨xs, hxs, heq ▸ hholds xs⟩
  · rw [List.flatMap_def]
    exact List.flatten_filter_not_isEmpty

/-- The moves on the rings. -/
def Act.tail? : Act ε → Option TailLane.Act
  | .tail a => some a
  | _ => none

/-- **The rings see a run of the drain**, whatever is sent and retried between its steps. -/
theorem tail_run : ∀ {acts : List (Act ε)} {s : State α ε},
    Run.exec (step pl) s acts = some t →
      Run.exec (TailLane.step pl.tail) s.tail (acts.filterMap Act.tail?) = some t.tail
  | [], s, h => by
    cases h
    rfl
  | a :: acts, s, h => by
    obtain ⟨u, hu, hrest⟩ := Run.exec_cons.mp h
    have ih := tail_run hrest
    cases a with
    | tail a =>
      obtain ⟨tail, htail, rfl⟩ := step_tail hu
      exact Run.exec_cons.mpr ⟨tail, htail, ih⟩
    | send other reply =>
      simp only [step] at hu
      split at hu
      · cases hu
        exact ih
      · cases hu
    | retry nowMsec replies =>
      simp only [step] at hu
      split at hu
      · cases hu
        exact ih
      · cases hu

/-- A push of the pipeline is one of the rings. -/
theorem push_of_tail {acts : List (Act ε)} {w : Nat} {record : Bytes}
    (h : .push w record ∈ acts.filterMap Act.tail?) : .tail (.push w record) ∈ acts := by
  obtain ⟨a, ha, heq⟩ := List.mem_filterMap.mp h
  cases a with
  | tail a =>
    cases heq
    exact ha
  | send other reply => cases heq
  | retry nowMsec replies => cases heq

/-- **Every run keeps the accounts of the lane and of the rings.** -/
theorem exec_inv (hcap : 0 < pl.tail.cap) {acts : List (Act ε)}
    (hshort : ∀ w record, .tail (.push w record) ∈ acts → record.length < 2 ^ 32)
    (h : Run.exec (step pl) .start acts = some s) (hcounted : s.tail.Counted pl.tail.workers) :
    Inv pl s ∧ TailLane.Inv pl.tail s.tail :=
  ⟨Run.exec_invariant (fun _ _ _ => step_inv) h inv_start,
    TailLane.exec_inv hcap (fun w record hmem => hshort w record (push_of_tail hmem)) (tail_run h)
      hcounted⟩

/-- When every record pushed parses, every record popped is an item. -/
theorem pops_of_emitted {ρ : Type} (emit : ρ → Bytes) (item : UInt64 → ρ → α)
    (hparse : ∀ now r, pl.tail.parse now (emit r) = some (item now r)) {acts : List (Act ε)}
    (hacts : ∀ w record, .tail (.push w record) ∈ acts → ∃ r, record = emit r)
    (h : Run.exec (step pl) .start acts = some s) (htail : TailLane.Inv pl.tail s.tail) :
    ∀ p ∈ s.tail.pops, ∃ r, p.record = emit r ∧
      pl.tail.parse p.now p.record = some (item p.now r) :=
  TailLane.pops_of_emitted hparse (fun w record hmem => hacts w record (push_of_tail hmem))
    (tail_run h) htail

end Invariant

end Pipeline

/-! ## The resource of a batch -/

/-- What the exporter takes from its libraries: `String::from_utf8_lossy` and the conversion to
seconds, `str::from_utf8`, and the generated code that writes requests. -/
structure Codecs where
  dec : Decoding F64
  fromUtf8 : Bytes → Option String
  prost : Prost Bytes

/-- Steps 1 and 2 of `build_resource_attrs`: what the configuration names.  A text that is not UTF-8
is left out. -/
def configuredAttrs (codecs : Codecs) (serviceName : Bytes) (resourceAttrs : List (Bytes × Bytes)) :
    List (KeyValue F64) :=
  let svcName :=
    if serviceName.isEmpty then some "unknown_service:nginx" else codecs.fromUtf8 serviceName
  svcName.toList.map (fun name => ⟨"service.name", .string name⟩) ++
    resourceAttrs.filterMap fun kv =>
      (codecs.fromUtf8 kv.1).bind fun k => (codecs.fromUtf8 kv.2).map fun v => ⟨k, .string v⟩

/-- `build_resource_attrs`. -/
def buildResourceAttrs (codecs : Codecs) (serviceName : Bytes)
    (resourceAttrs : List (Bytes × Bytes)) (masterPid : Int) : List (KeyValue F64) :=
  let attrs := configuredAttrs codecs serviceName resourceAttrs
  if attrs.any (·.key = "service.instance.id") then attrs
  else attrs ++ [⟨"service.instance.id", .string (toString masterPid)⟩]

/-- What the batches of a signal have in common. -/
structure Site where
  serviceName : Bytes
  resourceAttrs : List (Bytes × Bytes)
  masterPid : Int
  scope : Scope
  processor : Processor

def Site.resource (codecs : Codecs) (site : Site) : Resource F64 :=
  ⟨buildResourceAttrs codecs site.serviceName site.resourceAttrs site.masterPid⟩

/-! ## Spans -/

def MAX_SPAN_RECORDS_PER_WORKER_PER_DRAIN : Nat := 2500

/-- `collect_span_records`. -/
def spanLane (dec : Decoding F64) (workers : Nat) : TailLane (Span F64) where
  cap := Reload.DEFAULT_SPAN_RING_CAP
  workers := workers
  limit := MAX_SPAN_RECORDS_PER_WORKER_PER_DRAIN
  parse now buf := (Records.parseSpanRecord dec buf now).toOption

def spanPipeline (codecs : Codecs) (site : Site) (workers depth : Nat) :
    Pipeline (Span F64) Unit where
  tail := spanLane codecs.dec workers
  depth := depth
  payload _ spans := site.processor.process (.spans ⟨site.resource codecs, site.scope, spans⟩)
  prost := codecs.prost

/-- The batch is that of one request, which holds these spans. -/
def CarriesSpans (codecs : Codecs) (site : Site) (batch : Batch) (spans : List (Span F64)) : Prop :=
  Carries codecs.prost batch.bytes batch.nRecords
    (.spans ⟨site.resource codecs, site.scope, spans⟩)

/-- The batch of some spans. -/
def spanBatch (codecs : Codecs) (site : Site) (spans : List (Span F64)) : Batch where
  bytes := encodePdata codecs.prost (.spans ⟨site.resource codecs, site.scope, spans⟩)
  nRecords := spans.length

theorem spanBatch_carries (codecs : Codecs) (site : Site) (spans : List (Span F64)) :
    CarriesSpans codecs site (spanBatch codecs site spans) spans :=
  carries_encodePdata codecs.prost rfl

section Spans

variable {codecs : Codecs} {site : Site} {workers depth : Nat}
  {s : Pipeline.State (Span F64) Unit}

theorem spanPipeline_batch (sent : Unit × TailLane.Pass (Span F64)) :
    (spanPipeline codecs site workers depth).batch sent =
      spanBatch codecs site (sent.2.items.filter site.processor.keeps) := by
  simp only [Pipeline.batch, spanPipeline, Processor.process_spans, countPdataRecords, spanBatch]

theorem parse_emitted_span {dec : Decoding F64} (now : UInt64) (rec : Records.SpanRecord) :
    (spanLane dec workers).parse now (Records.spanChunks rec).flatten =
      some (Records.spanOf dec rec.cut) := by
  have hread := (Records.decodes_span rec).alone
  have hparse : Records.parseSpanRecord dec (Records.spanChunks rec).flatten now =
      .ok (Records.spanOf dec rec.cut) := by
    unfold Records.parseSpanRecord
    cases hbuf : Records.spanReader (Records.spanChunks rec).flatten with
    | error fault =>
      rw [hbuf] at hread
      cases hread
    | ok decoded =>
      rw [hbuf] at hread
      exact congrArg (Except.map (Records.spanOf dec)) hread
  simp only [spanLane, hparse]
  rfl

section Run

variable {acts : List (Pipeline.Act Unit)}
  (hacts : ∀ w record, .tail (.push w record) ∈ acts →
    ∃ rec, Records.emitSpanRecord rec = some record)
  (hrun : Run.exec (Pipeline.step (spanPipeline codecs site workers depth)) .start acts = some s)
  (hcounted : s.tail.Counted workers)

include hacts in
theorem spans_emitted : ∀ w record, .tail (.push w record) ∈ acts →
    ∃ rec, record = (Records.spanChunks rec).flatten := by
  intro w record hmem
  obtain ⟨rec, hrec⟩ := hacts w record hmem
  rw [Records.emitSpanRecord_eq] at hrec
  exact ⟨rec, (Option.some.inj hrec).symm⟩

include hacts hrun hcounted

/-- The invariants of a run whose records are spans. -/
theorem spans_inv : Pipeline.Inv (spanPipeline codecs site workers depth) s ∧
    TailLane.Inv (spanLane codecs.dec workers) s.tail := by
  refine Pipeline.exec_inv (by decide : 0 < Reload.DEFAULT_SPAN_RING_CAP)
    (fun w record hmem => ?_) hrun hcounted
  obtain ⟨rec, rfl⟩ := spans_emitted hacts w record hmem
  exact Nat.lt_of_le_of_lt (Records.length_spanChunks rec) (by decide)

/-- Every record popped is a span that was recorded. -/
theorem spans_of_pops : ∀ p ∈ s.tail.pops, ∃ rec, p.record = (Records.spanChunks rec).flatten ∧
    (spanLane codecs.dec workers).parse p.now p.record =
      some (Records.spanOf codecs.dec rec.cut) := by
  -- stated for the pipeline, so that the parser is not unfolded to find it
  have hparse : ∀ now rec, (spanPipeline codecs site workers depth).tail.parse now
      (Records.spanChunks rec).flatten = some (Records.spanOf codecs.dec rec.cut) :=
    parse_emitted_span
  exact Pipeline.pops_of_emitted (fun rec => (Records.spanChunks rec).flatten)
    (fun _ rec => Records.spanOf codecs.dec rec.cut) hparse (spans_emitted hacts) hrun
    (spans_inv hacts hrun hcounted).2

end Run

/-- **What workers record as spans is what is sent.**  Over every run of workers and exporter:

1. each worker's records leave its ring in the order in which the ring took them;
2. every record popped is a span that was recorded, and is parsed as what it is to be exported as;
3. every body, sent or sent again, is that of one request, which says of its spans what they are and
   holds as many as the send accounts for;
4. the fresh requests hold one span for each record popped, in order, without those that the
   processor leaves out and those that are in hand. -/
theorem spans_sent_as_recorded {acts : List (Pipeline.Act Unit)}
    (hacts : ∀ w record, .tail (.push w record) ∈ acts →
      ∃ rec, Records.emitSpanRecord rec = some record)
    (hrun : Run.exec (Pipeline.step (spanPipeline codecs site workers depth)) .start acts = some s)
    (hcounted : s.tail.Counted workers) :
    (∀ w < workers, (s.tail.rings w).published = s.tail.popped w ++ (s.tail.rings w).queue) ∧
    (∀ p ∈ s.tail.pops, ∃ rec span, Records.emitSpanRecord rec = some p.record ∧
      (spanLane codecs.dec workers).parse p.now p.record = some span ∧
      Records.Exports codecs.dec rec span) ∧
    ∃ bodies : List (List (Span F64)),
      List.Forall₂ (CarriesSpans codecs site) s.lane.freshBatches bodies ∧
      (∀ x ∈ s.lane.sends, ∃ spans ∈ bodies, CarriesSpans codecs site x.batch spans) ∧
      bodies.flatten ++ s.inHand.filter site.processor.keeps =
        (s.tail.pops.filterMap fun p => (spanLane codecs.dec workers).parse p.now p.record).filter
          site.processor.keeps := by
  obtain ⟨hs, htail⟩ := spans_inv hacts hrun hcounted
  obtain ⟨bodies, hfresh, hsends, hitems⟩ :=
    hs.bodies spanPipeline_batch (fun _ => rfl) (spanBatch_carries codecs site)
  refine ⟨fun w hw => htail.published_eq hw, fun p hp => ?_, bodies, hfresh, hsends, ?_⟩
  · obtain ⟨rec, hrecord, hparse⟩ := spans_of_pops hacts hrun hcounted p hp
    exact ⟨rec, _, hrecord ▸ Records.emitSpanRecord_eq rec, hparse,
      Records.exports_cut codecs.dec rec⟩
  · rw [hitems, ← List.filter_flatMap, ← List.filter_append, hs.exported htail]
    rfl

def sameOctets (n : Nat) (b : UInt8) : Wire.Octets n := ⟨List.replicate n b, List.length_replicate⟩

/-- A failed request for `/healthz`. -/
def probeSpan : Records.SpanRecord where
  traceId := sameOctets 16 7
  spanId := sameOctets 8 9
  parentSpanId := sameOctets 8 0
  flags := 1
  startTimeUnixNano := 1
  endTimeUnixNano := 2
  statusCode := 2
  kind := 2
  name := [71, 69, 84]
  method := [71, 69, 84]
  httpStatus := 500
  urlPath := [47, 104, 101, 97, 108, 116, 104, 122]
  durationUs := 1
  proto := 0
  schemeHttps := false
  serverPort := 80
  clientPort := 0
  peerPort := 0
  reqBodySize := 0
  respBodySize := 0
  urlQuery := []
  route := []
  userAgent := []
  serverAddress := []
  clientAddress := []
  peerAddress := []
  extraAttrs := []

def plainSite : Site := ⟨[], [], 1, ⟨"ngx-otel-rust", "1"⟩, .noop⟩

/-- Libraries that write nothing and read nothing. -/
def mute : Codecs := ⟨default, fun _ => none, fun _ => []⟩

def probeRecord : Bytes := (Records.spanChunks probeSpan).flatten

/-- A pass over one record; the second push is under way while it runs.  A byte copied is a step of
either side. -/
def overlappedPass : List TailLane.Act :=
  TailLane.wholePush 0 probeRecord 129 ++ .begin 5 :: List.replicate 40 .advance ++
    TailLane.wholePush 0 probeRecord 50 ++ List.replicate 95 .advance ++
    List.replicate 79 (.producer 0)

/-- The batch of that pass is retried once. -/
def retriedRun : List (Pipeline.Act Unit) :=
  overlappedPass.map .tail ++
    [.send () ⟨0, 1, .outcome (.retryable none)⟩,
      .retry 300 fun _ => ⟨300, 301, .outcome .accepted⟩]

theorem retriedRun_emitted : ∀ w record, .tail (.push w record) ∈ retriedRun →
    ∃ rec, Records.emitSpanRecord rec = some record := by
  intro w record hmem
  simp [retriedRun, overlappedPass, TailLane.wholePush, -List.reduceReplicate] at hmem
  exact ⟨probeSpan, hmem.2 ▸ Records.emitSpanRecord_eq probeSpan⟩

theorem retriedRun_ends :
    (Run.exec (Pipeline.step (spanPipeline mute plainSite 1 4)) .start retriedRun).map (fun s =>
      (s.lane.sends.map (·.batch.nRecords), s.tail.pushed 1, s.inHand.length,
        decide (s.tail.Counted 1))) =
      some ([1, 1], 2, 0, true) := by
  decide +kernel

theorem spans_sent_as_recorded_retriedRun :
    ∃ s, Run.exec (Pipeline.step (spanPipeline mute plainSite 1 4)) .start retriedRun = some s ∧
      s.lane.sends.map (·.batch.nRecords) = [1, 1] ∧
      (s.tail.rings 0).published = s.tail.popped 0 ++ (s.tail.rings 0).queue ∧
      ∃ bodies : List (List (Span F64)),
        List.Forall₂ (CarriesSpans mute plainSite) s.lane.freshBatches bodies := by
  obtain ⟨s, hrun, hends⟩ := Option.map_eq_some_iff.mp retriedRun_ends
  simp only [Prod.mk.injEq] at hends
  obtain ⟨hsends, -, -, hcounted⟩ := hends
  obtain ⟨horder, -, bodies, hfresh, -⟩ :=
    spans_sent_as_recorded retriedRun_emitted hrun (of_decide_eq_true hcounted)
  exact ⟨s, hrun, hsends, horder 0 Nat.one_pos, bodies, hfresh⟩

/-- The spans sent that the processor had left out. -/
def leftOut (processor : Processor) (s : Pipeline.State (Span F64) Unit) : Nat :=
  (s.sent.flatMap (·.2.items)).countP fun span => !processor.keeps span

/-- The records of the fresh batches, and the spans that are in none of them. -/
theorem length_sent (hs : Pipeline.Inv (spanPipeline codecs site workers depth) s) :
    (s.sent.flatMap (·.2.items)).length =
      leftOut site.processor s + records s.lane.freshBatches := by
  rw [hs.records, leftOut]
  induction s.sent with
  | nil => rfl
  | cons x sent ih =>
    have hsplit := List.length_eq_countP_add_countP site.processor.keeps (l := x.2.items)
    simp only [List.flatMap_cons, List.length_append, List.countP_append, List.map_cons,
      List.sum_cons, spanPipeline_batch, spanBatch, ← List.countP_eq_length_filter] at ih ⊢
    simp only [Bool.not_eq_true, Bool.decide_eq_false] at hsplit
    omega

/-- **The spans recorded are all counted in one place**: as many calls of `push` have returned as
there are spans refused by a full ring, waiting in a ring, in the exporter's hands, left out by the
processor, settled by a send (taken by the peer or dropped on its verdict), evicted from the retry
queue and queued there. -/
theorem spans_accounted {acts : List (Pipeline.Act Unit)}
    (hacts : ∀ w record, .tail (.push w record) ∈ acts →
      ∃ rec, Records.emitSpanRecord rec = some record)
    (hrun : Run.exec (Pipeline.step (spanPipeline codecs site workers depth)) .start acts = some s)
    (hcounted : s.tail.Counted workers) :
    s.tail.pushed workers =
      s.tail.refusals 0 workers + s.tail.waiting workers + s.inHand.length +
        leftOut site.processor s +
        ((s.lane.sends.map Send.settled).sum + s.lane.evicted + records s.lane.queue) := by
  obtain ⟨hs, htail⟩ := spans_inv hacts hrun hcounted
  have hpops : s.tail.pops.length = (s.sent.flatMap (·.2.items)).length + s.inHand.length := by
    rw [← List.length_append, hs.exported htail]
    refine (List.filterMap_length_eq_length.mpr fun p hp => ?_).symm
    obtain ⟨rec, -, hparse⟩ := spans_of_pops hacts hrun hcounted p hp
    exact Option.isSome_of_mem hparse
  have hsent := length_sent hs
  have hpushed : s.tail.pushed workers = s.tail.refusals 0 workers + s.tail.pops.length +
      s.tail.waiting workers := htail.pushed_eq
  have hlane := hs.lane.conserved
  omega

theorem spans_accounted_retriedRun :
    ∃ s, Run.exec (Pipeline.step (spanPipeline mute plainSite 1 4)) .start retriedRun = some s ∧
      2 = s.tail.refusals 0 1 + s.tail.waiting 1 + leftOut .noop s +
        ((s.lane.sends.map Send.settled).sum + s.lane.evicted + records s.lane.queue) := by
  obtain ⟨s, hrun, hends⟩ := Option.map_eq_some_iff.mp retriedRun_ends
  simp only [Prod.mk.injEq] at hends
  obtain ⟨-, hpushed, hhand, hcounted⟩ := hends
  have h := spans_accounted retriedRun_emitted hrun (of_decide_eq_true hcounted)
  rw [hpushed, hhand] at h
  exact ⟨s, hrun, h⟩

end Spans

/-! ## Access logs -/

def MAX_ACCESS_RECORDS_PER_WORKER_PER_DRAIN : Nat := 2500

/-- The access half of `collect_log_records`. -/
def accessLane (dec : Decoding F64) (workers : Nat) : TailLane (LogRecord F64) where
  cap := Reload.DEFAULT_LOG_RING_CAP
  workers := workers
  limit := MAX_ACCESS_RECORDS_PER_WORKER_PER_DRAIN
  parse now buf := (Records.parseAccessRecord dec buf now).toOption

/-- The batch of a pass holds its access records and then the error records of that collection. -/
def accessPipeline (codecs : Codecs) (site : Site) (workers depth : Nat) :
    Pipeline (LogRecord F64) (List (LogRecord F64)) where
  tail := accessLane codecs.dec workers
  depth := depth
  payload errors logs :=
    site.processor.process (.logs ⟨site.resource codecs, site.scope, logs ++ errors⟩)
  prost := codecs.prost

/-- The batch is that of one request, which holds these log records. -/
def CarriesLogs (codecs : Codecs) (site : Site) (batch : Batch) (logs : List (LogRecord F64)) :
    Prop :=
  Carries codecs.prost batch.bytes batch.nRecords (.logs ⟨site.resource codecs, site.scope, logs⟩)

/-- The batch of some log records. -/
def logBatch (codecs : Codecs) (site : Site) (logs : List (LogRecord F64)) : Batch where
  bytes := encodePdata codecs.prost (.logs ⟨site.resource codecs, site.scope, logs⟩)
  nRecords := logs.length

theorem logBatch_carries (codecs : Codecs) (site : Site) (logs : List (LogRecord F64)) :
    CarriesLogs codecs site (logBatch codecs site logs) logs :=
  carries_encodePdata codecs.prost rfl

section Access

variable {codecs : Codecs} {site : Site} {workers depth : Nat}
  {s : Pipeline.State (LogRecord F64) (List (LogRecord F64))}

theorem accessPipeline_batch (sent : List (LogRecord F64) × TailLane.Pass (LogRecord F64)) :
    (accessPipeline codecs site workers depth).batch sent =
      logBatch codecs site (sent.2.items ++ sent.1) := by
  simp only [Pipeline.batch, accessPipeline, Processor.process_logs, countPdataRecords, logBatch]

theorem parse_emitted_access {dec : Decoding F64} (now : UInt64) (req : Records.SampledRequest) :
    (accessLane dec workers).parse now (Records.accessChunks req).flatten =
      some (req.logRecord dec now) := by
  have hparse : Records.parseAccessRecord dec (Records.accessChunks req).flatten now =
      .ok (req.logRecord dec now) := (Records.decodes_access dec now req).alone
  simp only [accessLane, hparse]
  rfl

section Run

variable {acts : List (Pipeline.Act (List (LogRecord F64)))}
  (hacts : ∀ w record, .tail (.push w record) ∈ acts →
    ∃ req, Records.emitAccessRecord req = some record)
  (hrun : Run.exec (Pipeline.step (accessPipeline codecs site workers depth)) .start acts = some s)
  (hcounted : s.tail.Counted workers)

include hacts in
theorem requests_emitted : ∀ w record, .tail (.push w record) ∈ acts →
    ∃ req, record = (Records.accessChunks req).flatten := by
  intro w record hmem
  obtain ⟨req, hreq⟩ := hacts w record hmem
  rw [Records.emitAccessRecord_eq] at hreq
  exact ⟨req, (Option.some.inj hreq).symm⟩

include hacts hrun hcounted

/-- The invariants of a run whose records are sampled requests. -/
theorem access_inv : Pipeline.Inv (accessPipeline codecs site workers depth) s ∧
    TailLane.Inv (accessLane codecs.dec workers) s.tail := by
  refine Pipeline.exec_inv (by decide : 0 < Reload.DEFAULT_LOG_RING_CAP)
    (fun w record hmem => ?_) hrun hcounted
  obtain ⟨req, rfl⟩ := requests_emitted hacts w record hmem
  exact Nat.lt_of_le_of_lt (Records.length_accessChunks req) (by decide)

/-- Every record popped is a request that was sampled. -/
theorem requests_of_pops : ∀ p ∈ s.tail.pops,
    ∃ req, p.record = (Records.accessChunks req).flatten ∧
      (accessLane codecs.dec workers).parse p.now p.record =
        some (req.logRecord codecs.dec p.now) := by
  have hparse : ∀ now req, (accessPipeline codecs site workers depth).tail.parse now
      (Records.accessChunks req).flatten = some (req.logRecord codecs.dec now) :=
    parse_emitted_access
  exact Pipeline.pops_of_emitted (fun req => (Records.accessChunks req).flatten)
    (fun now req => req.logRecord codecs.dec now) hparse (requests_emitted hacts) hrun
    (access_inv hacts hrun hcounted).2

end Run

/-- **What workers sample as access records is what is sent.**  As for spans; a request holds the
access records of its pass, then the error records collected with them. -/
theorem access_logs_sent_as_recorded {acts : List (Pipeline.Act (List (LogRecord F64)))}
    (hacts : ∀ w record, .tail (.push w record) ∈ acts →
      ∃ req, Records.emitAccessRecord req = some record)
    (hrun : Run.exec (Pipeline.step (accessPipeline codecs site workers depth)) .start acts =
      some s)
    (hcounted : s.tail.Counted workers) :
    (∀ w < workers, (s.tail.rings w).published = s.tail.popped w ++ (s.tail.rings w).queue) ∧
    (∀ p ∈ s.tail.pops, ∃ req, Records.emitAccessRecord req = some p.record ∧
      (accessLane codecs.dec workers).parse p.now p.record =
        some (req.logRecord codecs.dec p.now)) ∧
    (∃ bodies : List (List (LogRecord F64)),
      List.Forall₂ (CarriesLogs codecs site) s.lane.freshBatches bodies ∧
      (∀ x ∈ s.lane.sends, ∃ logs ∈ bodies, CarriesLogs codecs site x.batch logs) ∧
      bodies.flatten = s.sent.flatMap fun x => x.2.items ++ x.1) ∧
    s.sent.flatMap (·.2.items) ++ s.inHand =
      s.tail.pops.filterMap fun p => (accessLane codecs.dec workers).parse p.now p.record := by
  obtain ⟨hs, htail⟩ := access_inv hacts hrun hcounted
  refine ⟨fun w hw => htail.published_eq hw, fun p hp => ?_,
    hs.bodies accessPipeline_batch (fun _ => rfl) (logBatch_carries codecs site),
    hs.exported htail⟩
  obtain ⟨req, hrecord, hparse⟩ := requests_of_pops hacts hrun hcounted p hp
  exact ⟨req, hrecord ▸ Records.emitAccessRecord_eq req, hparse⟩

/-- A sampled request. -/
def oneRequest : Records.SampledRequest where
  tsUnixNano := 1
  trace := none
  urlPath := [47]
  userAgent := []
  durationUs := 3
  method := [71, 69, 84]
  status := 502
  requestLength := 10
  responseBytes := 20
  clientAddr := [49]

def requestRecord : Bytes := (Records.accessChunks oneRequest).flatten

def requestPass : List TailLane.Act :=
  TailLane.wholePush 0 requestRecord (requestRecord.length + 7) ++
    .begin 5 :: List.replicate (requestRecord.length + 13) .advance

/-- An access record and an error record in one body. -/
def mixedRun : List (Pipeline.Act (List (LogRecord F64))) :=
  requestPass.map .tail ++
    [.send [ErrorLog.errorLogRecord default 1 4 0 [120] 2 []] ⟨0, 1, .outcome .accepted⟩]

theorem mixedRun_emitted : ∀ w record, .tail (.push w record) ∈ mixedRun →
    ∃ req, Records.emitAccessRecord req = some record := by
  intro w record hmem
  simp [mixedRun, requestPass, TailLane.wholePush] at hmem
  exact ⟨oneRequest, hmem.2 ▸ Records.emitAccessRecord_eq oneRequest⟩

theorem mixedRun_ends :
    (Run.exec (Pipeline.step (accessPipeline mute plainSite 1 4)) .start mixedRun).map (fun s =>
      (s.lane.sends.map (·.batch.nRecords), decide (s.tail.Counted 1))) =
      some ([2], true) := by
  decide +kernel

theorem access_logs_sent_as_recorded_mixedRun :
    ∃ s, Run.exec (Pipeline.step (accessPipeline mute plainSite 1 4)) .start mixedRun = some s ∧
      s.lane.sends.map (·.batch.nRecords) = [2] ∧
      ∃ bodies : List (List (LogRecord F64)),
        List.Forall₂ (CarriesLogs mute plainSite) s.lane.freshBatches bodies := by
  obtain ⟨s, hrun, hends⟩ := Option.map_eq_some_iff.mp mixedRun_ends
  obtain ⟨hsends, hcounted⟩ := Prod.mk.inj hends
  obtain ⟨-, -, ⟨bodies, hfresh, -⟩, -⟩ :=
    access_logs_sent_as_recorded mixedRun_emitted hrun (of_decide_eq_true hcounted)
  exact ⟨s, hrun, hsends, bodies, hfresh⟩

end Access

end NgxOtel.Drain
