import NgxOtel.Config.LocationConf
import NgxOtel.Records.Span
import NgxOtel.Traces.Headers

/-!
# Starting a span, and emitting it

`SpanStartHandler::handler` (`metric_source/span_start.rs`) runs in the REWRITE phase and leaves a
`SpanCtx` in the module slot of the request and, as the payload of a pool-cleanup node, in the
request pool.  `LogPhaseHandler` (`metric_source/instrumented.rs`) reads it back in the LOG phase,
through `recover_span_ctx` (`traces/ctx.rs`) when the slot is empty, and pushes the span record.

* `Pass` — what a REWRITE pass meets: the location, the gate variable, the allocator, the generator
  of ids and the clocks.
* `spanStartHandler` — the handler on the slot, the cleanup list and the request headers.
* `recoverSpanCtx`, `maybeEmitSpan` — the LOG phase.

## Results

* `genSpanId_ne_zero` — a generated span id is never all zero.
* `spanStart_internal` — a redirected request or a subrequest is left alone.
* `spanStart_cases` — a pass starts a span, with slot and anchor alike, or leaves no new one.
-/

set_option autoImplicit false

namespace NgxOtel.Traces

open Word Wire Memory Records
open Config (LocationConf TraceContextMode)

/-! ## The span context -/

structure SpanCtx where
  traceId : Octets 16
  spanId : Octets 8
  parentSpanId : Octets 8
  flags : UInt32
  startTimeUnixNano : UInt64
  startMono : Nat
  sampled : Bool
  deriving DecidableEq

def zeros (n : Nat) : Octets n := ⟨List.replicate n 0, List.length_replicate⟩

/-- A node of the pool's cleanup list: an anchor of this module, or another handler. -/
inductive Cleanup where
  | anchor (ctx : SpanCtx)
  | other
  deriving DecidableEq

/-- The first anchor of the cleanup list, newest node first. -/
def firstAnchor : List Cleanup → Option SpanCtx
  | [] => none
  | .anchor ctx :: _ => some ctx
  | .other :: cleanup => firstAnchor cleanup

/-! ## Ids -/

def MAX_ID_RETRIES : Nat := 3

/-- `u64::to_le_bytes`. -/
def toLe (v : UInt64) : Octets 8 :=
  ⟨(toBe 8 v.toNat).reverse, by rw [List.length_reverse, length_toBe]⟩

/-- `gen_span_id`, from what the generator draws. -/
def genSpanId (draws : Fin MAX_ID_RETRIES → UInt64) : Option (Octets 8) :=
  ((List.ofFn draws).find? fun v => v ≠ 0).map toLe

/-- `gen_trace_id`. -/
def genTraceId (draws : Fin MAX_ID_RETRIES → UInt64 × UInt64) : Option (Octets 16) :=
  ((List.ofFn draws).find? fun v => v.1 ≠ 0 ∨ v.2 ≠ 0).map fun v =>
    ⟨(toLe v.1).val ++ (toLe v.2).val, by
      rw [List.length_append, (toLe v.1).property, (toLe v.2).property]⟩

theorem toLe_ne_zero {v : UInt64} (hv : v ≠ 0) : (toLe v).val ≠ List.replicate 8 0 := by
  intro h
  have hbytes : toBe 8 v.toNat = List.replicate 8 0 := by
    have hrev := congrArg List.reverse h
    rwa [toLe, List.reverse_reverse, List.reverse_replicate] at hrev
  have hvalue : ofBe (toBe 8 v.toNat) = v.toNat := ofBe_toBe v.toNat_lt
  rw [hbytes] at hvalue
  exact hv (UInt64.toNat_inj.mp hvalue.symm)

theorem genSpanId_ne_zero {draws : Fin MAX_ID_RETRIES → UInt64} {id : Octets 8}
    (h : genSpanId draws = some id) : id.val ≠ List.replicate 8 0 := by
  obtain ⟨v, hfind, rfl⟩ := Option.map_eq_some_iff.mp h
  have hv := List.find?_some hfind
  exact toLe_ne_zero (of_decide_eq_true hv)

/-! ## The REWRITE phase -/

/-- The circumstances of a pass.  The gate variable may depend on the context in the slot. -/
structure Pass where
  configured : Bool
  location : Option LocationConf
  gate : Option SpanCtx → Option Bytes
  preAlloc : Bool
  ctxAlloc : Bool
  headerAlloc : Bool
  tracingDisabled : Bool
  traceDraws : Fin MAX_ID_RETRIES → UInt64 × UInt64
  spanDraws : Fin MAX_ID_RETRIES → UInt64
  startTimeUnixNano : UInt64
  startMono : Nat

/-- What the handler reads and writes of the request. -/
structure Started where
  slot : Option SpanCtx
  cleanup : List Cleanup
  headers : List Header

/-- The first gates: module and location are configured. -/
def Pass.mode (pass : Pass) : Option TraceContextMode :=
  if pass.configured then
    pass.location.bind fun lc => if lc.otelTrace ≠ none then some lc.traceContext else none
  else none

/-- The inbound context: the first `traceparent` decides, whether or not it can be parsed. -/
def inbound (headers : List Header) : Option (Octets 16 × Octets 8 × UInt32) :=
  (headers.find? fun h => h.Named TRACEPARENT).bind fun h =>
    parseTraceparentFull (h.value.getD [])

/-- The inbound context as far as the mode reads it. -/
def extractParent (mode : TraceContextMode) (headers : List Header) :
    Option (Octets 16 × Octets 8 × UInt32) :=
  if mode = .extract ∨ mode = .propagate then inbound headers else none

/-- The context that the gate variable can read: zeroed but for the flags. -/
def preGateCtx (flags : UInt32) : SpanCtx :=
  ⟨zeros 16, zeros 8, zeros 8, flags, 0, 0, false⟩

/-- Not empty, not `0`, not `off`. -/
def Truthy (value : Bytes) : Prop := ¬ (value = [] ∨ value = [0x30] ∨ value = [0x6f, 0x66, 0x66])

instance (value : Bytes) : Decidable (Truthy value) := by
  unfold Truthy
  infer_instance

/-- The gate, evaluated with the pre-gate context in the slot. -/
def Pass.gatePasses (pass : Pass) (slot : Option SpanCtx)
    (parent : Option (Octets 16 × Octets 8 × UInt32)) : Bool :=
  match pass.gate (parent.elim slot fun p => some (preGateCtx p.2.2)) with
  | none => false
  | some value => Truthy value

/-- Injection into a list of headers when the pool may be exhausted: a value of the right length is
still overwritten in place. -/
def injectHeaderIf (alloc : Bool) (value : Bytes) : List Header → List Header
  | [] => if alloc then [pushedHeader value] else []
  | h :: hs =>
    if h.Active TRACEPARENT then
      if alloc ∨ h.value.any fun v => v.length = 55 then { h with value := some value } :: hs
      else h :: hs
    else h :: injectHeaderIf alloc value hs

/-- The context of the span: the inbound trace is continued, a root span is always sampled. -/
def Pass.ctx (pass : Pass) (parent : Option (Octets 16 × Octets 8 × UInt32)) (traceId : Octets 16)
    (spanId : Octets 8) : SpanCtx :=
  match parent with
  | some (_, parentSpanId, flags) =>
    ⟨traceId, spanId, parentSpanId, flags, pass.startTimeUnixNano, pass.startMono,
      flags &&& 0x01 ≠ 0⟩
  | none =>
    ⟨traceId, spanId, zeros 8, 0x01, pass.startTimeUnixNano, pass.startMono, true⟩

/-- Behind the gate: the ids, the context and its anchor, and the outbound header. -/
def startSpan (pass : Pass) (mode : TraceContextMode)
    (parent : Option (Octets 16 × Octets 8 × UInt32)) (s : Started) : Started :=
  if pass.tracingDisabled then { s with slot := none }
  else
    match parent.elim (genTraceId pass.traceDraws) (fun p => some p.1), genSpanId pass.spanDraws with
    | some traceId, some spanId =>
      if pass.ctxAlloc then
        let ctx := pass.ctx parent traceId spanId
        { slot := some ctx
          cleanup := .anchor ctx :: s.cleanup
          headers :=
            if mode = .inject ∨ mode = .propagate then
              injectHeaderIf pass.headerAlloc
                (buildTraceparentValue traceId spanId ctx.flags.toUInt8) s.headers
            else s.headers }
      else { s with slot := none }
    | _, _ => { s with slot := none }

/-- `SpanStartHandler::handler`. -/
def spanStartHandler (pass : Pass) (internal : Bool) (s : Started) : Started :=
  if internal then s
  else
    match pass.mode with
    | none => s
    | some mode =>
      let parent := extractParent mode s.headers
      -- without memory for the pre-gate context the handler declines at once
      if parent.isSome ∧ pass.preAlloc = false then s
      else if pass.gatePasses s.slot parent then startSpan pass mode parent s
      else { s with slot := none }

@[simp] theorem spanStart_internal (pass : Pass) (s : Started) : spanStartHandler pass true s = s :=
  rfl

/-- What a pass does to slot and anchors: it starts a span, or leaves the anchors as they were and
the slot as it was or empty. -/
theorem spanStart_cases (pass : Pass) (internal : Bool) (s : Started) :
    (∃ ctx, (spanStartHandler pass internal s).slot = some ctx ∧
      (spanStartHandler pass internal s).cleanup = .anchor ctx :: s.cleanup) ∨
    ((spanStartHandler pass internal s).cleanup = s.cleanup ∧
      ((spanStartHandler pass internal s).slot = s.slot ∨
        (spanStartHandler pass internal s).slot = none)) := by
  unfold spanStartHandler startSpan
  split
  · exact .inr ⟨rfl, .inl rfl⟩
  · split
    · exact .inr ⟨rfl, .inl rfl⟩
    · dsimp only
      split
      · exact .inr ⟨rfl, .inl rfl⟩
      · split
        · split
          · exact .inr ⟨rfl, .inr rfl⟩
          · split
            · split
              · exact .inl ⟨_, rfl, rfl⟩
              · exact .inr ⟨rfl, .inr rfl⟩
            · exact .inr ⟨rfl, .inr rfl⟩
        · exact .inr ⟨rfl, .inr rfl⟩

/-! ## The LOG phase -/

/-- `recover_span_ctx`: the slot, or the newest anchor of a redirected request. -/
def recoverSpanCtx (slot : Option SpanCtx) (isRedirect : Bool) (cleanup : List Cleanup) :
    Option SpanCtx :=
  match slot with
  | some ctx => some ctx
  | none => if isRedirect then firstAnchor cleanup else none

/-- The end of the span, with saturating arithmetic. -/
def endTimeUnixNano (start durationUs : UInt64) : UInt64 :=
  UInt64.ofNat (min (start.toNat + min (durationUs.toNat * 1000) (2 ^ 64 - 1)) (2 ^ 64 - 1))

/-- The record that `maybe_emit_span` builds; the fields that do not come from the context are read
off the request. -/
def spanRecord (ctx : SpanCtx) (request : SpanRecord) : SpanRecord :=
  { request with
    traceId := ctx.traceId
    spanId := ctx.spanId
    parentSpanId := ctx.parentSpanId
    flags := ctx.flags
    startTimeUnixNano := ctx.startTimeUnixNano
    endTimeUnixNano := endTimeUnixNano ctx.startTimeUnixNano request.durationUs
    statusCode := if request.httpStatus ≥ 500 then 2 else 0
    kind := 2 }

/-- `maybe_emit_span`: the records pushed, `spans` says that the zone is there and its ring has
room. -/
def maybeEmitSpan (spans : Bool) (request : SpanRecord) (ctx : Option SpanCtx) : List SpanRecord :=
  match ctx with
  | none => []
  | some ctx => if ctx.sampled ∧ spans then [spanRecord ctx request] else []

end NgxOtel.Traces
