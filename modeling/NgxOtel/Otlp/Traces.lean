import NgxOtel.Otlp.Common

/-!
# The traces request

What `OtlpTracesEncoder::encode` builds of a batch, in the messages of `trace.proto`.

* `Proto.Span`, `Proto.Event`, `Proto.Link`, `Proto.Status` — the generated message types.
* `convertSpan`, `convertSpanEvent`, `convertSpanLink`, `convertSpanStatus`, `tracesRequest` — the
  encoder.
* `Proto.Span.ReadsAs` — what a message says.

## Results

* `readsAs_tracesRequest` — a request reads as the batch it was built of.
* `tracesRequest_injective` — different batches become different requests.
-/

set_option autoImplicit false

namespace NgxOtel.Otlp

open Word DataModel

/-! ## The messages -/

namespace Proto

/-- `span::Event`. -/
structure Event where
  timeUnixNano : UInt64
  name : String
  attributes : List KeyValue
  droppedAttributesCount : UInt32

/-- `span::Link`. -/
structure Link where
  traceId : Bytes
  spanId : Bytes
  traceState : String
  attributes : List KeyValue
  droppedAttributesCount : UInt32
  flags : UInt32

structure Status where
  message : String
  code : Int32

structure Span where
  traceId : Bytes
  spanId : Bytes
  traceState : String
  parentSpanId : Bytes
  name : String
  kind : Int32
  startTimeUnixNano : UInt64
  endTimeUnixNano : UInt64
  attributes : List KeyValue
  droppedAttributesCount : UInt32
  events : List Event
  droppedEventsCount : UInt32
  links : List Link
  droppedLinksCount : UInt32
  status : Option Status
  flags : UInt32

end Proto

/-! ## The encoder -/

/-- `convert_span_event`. -/
def convertSpanEvent (ev : SpanEvent F64) : Proto.Event where
  timeUnixNano := ev.timeUnixNano
  name := ev.name
  attributes := ev.attributes.map convertKv
  droppedAttributesCount := 0

/-- `convert_span_link`. -/
def convertSpanLink (link : SpanLink F64) : Proto.Link where
  traceId := link.traceId
  spanId := link.spanId
  traceState := ""
  attributes := link.attributes.map convertKv
  droppedAttributesCount := 0
  flags := link.flags

/-- `convert_span_status`. -/
def convertSpanStatus (status : SpanStatus) : Proto.Status where
  code := asI32 status.code.code
  message := status.message

/-- `convert_span`. -/
def convertSpan (span : Span F64) : Proto.Span where
  traceId := span.traceId
  spanId := span.spanId
  traceState := ""
  parentSpanId := span.parentSpanId
  flags := span.flags
  name := span.name
  kind := asI32 span.kind.code
  startTimeUnixNano := span.startTimeUnixNano
  endTimeUnixNano := span.endTimeUnixNano
  attributes := span.attributes.map convertKv
  droppedAttributesCount := 0
  events := span.events.map convertSpanEvent
  droppedEventsCount := 0
  links := span.links.map convertSpanLink
  droppedLinksCount := 0
  status := some (convertSpanStatus span.status)

/-- The request of `OtlpTracesEncoder::encode`. -/
def tracesRequest (batch : SpansBatch F64) : Proto.ExportRequest Proto.Span :=
  envelope batch.resource batch.scope (batch.spans.map convertSpan)

/-! ## What a message says -/

structure Proto.Event.ReadsAs (message : Proto.Event) (ev : SpanEvent F64) : Prop where
  timeUnixNano : message.timeUnixNano = ev.timeUnixNano
  name : message.name = ev.name
  attributes : List.Forall₂ Proto.KeyValue.ReadsAs message.attributes ev.attributes
  rest : message.droppedAttributesCount = 0

structure Proto.Link.ReadsAs (message : Proto.Link) (link : SpanLink F64) : Prop where
  traceId : message.traceId = link.traceId
  spanId : message.spanId = link.spanId
  flags : message.flags = link.flags
  attributes : List.Forall₂ Proto.KeyValue.ReadsAs message.attributes link.attributes
  rest : message.droppedAttributesCount = 0 ∧ message.traceState = ""

structure Proto.Span.ReadsAs (message : Proto.Span) (span : DataModel.Span F64) : Prop where
  traceId : message.traceId = span.traceId
  spanId : message.spanId = span.spanId
  parentSpanId : message.parentSpanId = span.parentSpanId
  flags : message.flags = span.flags
  name : message.name = span.name
  kind : message.kind.toInt = span.kind.code.toNat
  startTimeUnixNano : message.startTimeUnixNano = span.startTimeUnixNano
  endTimeUnixNano : message.endTimeUnixNano = span.endTimeUnixNano
  attributes : List.Forall₂ Proto.KeyValue.ReadsAs message.attributes span.attributes
  events : List.Forall₂ Proto.Event.ReadsAs message.events span.events
  links : List.Forall₂ Proto.Link.ReadsAs message.links span.links
  status : ∃ status : Proto.Status, message.status = some status ∧
    status.code.toInt = span.status.code.code.toNat ∧ status.message = span.status.message
  rest : message.droppedAttributesCount = 0 ∧ message.droppedEventsCount = 0 ∧
    message.droppedLinksCount = 0 ∧ message.traceState = ""

theorem readsAs_convertSpanEvent (ev : SpanEvent F64) : (convertSpanEvent ev).ReadsAs ev :=
  ⟨rfl, rfl, forall₂_map_self readsAs_convertKv ev.attributes, rfl⟩

theorem readsAs_convertSpanLink (link : SpanLink F64) : (convertSpanLink link).ReadsAs link :=
  ⟨rfl, rfl, rfl, forall₂_map_self readsAs_convertKv link.attributes, rfl, rfl⟩

theorem readsAs_convertSpan (span : Span F64) : (convertSpan span).ReadsAs span where
  traceId := rfl
  spanId := rfl
  parentSpanId := rfl
  flags := rfl
  name := rfl
  kind := toInt_asI32 span.kind.code
  startTimeUnixNano := rfl
  endTimeUnixNano := rfl
  attributes := forall₂_map_self readsAs_convertKv span.attributes
  events := forall₂_map_self readsAs_convertSpanEvent span.events
  links := forall₂_map_self readsAs_convertSpanLink span.links
  status := ⟨convertSpanStatus span.status, rfl, toInt_asI32 span.status.code.code, rfl⟩
  rest := ⟨rfl, rfl, rfl, rfl⟩

theorem readsAs_tracesRequest (batch : SpansBatch F64) :
    Proto.ExportRequest.ReadsAs Proto.Span.ReadsAs (tracesRequest batch) batch.resource batch.scope
      batch.spans :=
  readsAs_envelope (forall₂_map_self readsAs_convertSpan batch.spans) batch.resource batch.scope

/-! ## Nothing is merged -/

theorem convertSpanEvent_injective : Function.Injective convertSpanEvent := by
  rintro ⟨time, name, attributes⟩ ⟨time', name', attributes'⟩ h
  simpa [convertSpanEvent] using h

theorem convertSpanLink_injective : Function.Injective convertSpanLink := by
  rintro ⟨traceId, spanId, flags, attributes⟩ ⟨traceId', spanId', flags', attributes'⟩ h
  simp only [convertSpanLink, Proto.Link.mk.injEq, map_convertKv_inj, true_and] at h
  obtain ⟨rfl, rfl, rfl, rfl⟩ := h
  rfl

theorem kind_code_injective : Function.Injective SpanKind.code := by
  intro k l h
  cases k <;> cases l <;> first | rfl | cases h

theorem convertSpanStatus_injective : Function.Injective convertSpanStatus := by
  rintro ⟨code, message⟩ ⟨code', message'⟩ h
  simp only [convertSpanStatus, Proto.Status.mk.injEq] at h
  have hcode := asI32_injective h.2
  rw [h.1]
  cases code <;> cases code' <;> first | rfl | cases hcode

theorem convertSpan_injective : Function.Injective convertSpan := by
  intro a b h
  cases a
  cases b
  simp only [convertSpan, Proto.Span.mk.injEq, Option.some.injEq, map_convertKv_inj, true_and,
    convertSpanEvent_injective.list_map.eq_iff, convertSpanLink_injective.list_map.eq_iff,
    convertSpanStatus_injective.eq_iff, asI32_injective.eq_iff, kind_code_injective.eq_iff] at h
  obtain ⟨rfl, rfl, rfl, rfl, rfl, rfl, rfl, rfl, rfl, rfl, rfl, rfl⟩ := h
  rfl

/-- **No span of a batch is lost, changed or moved**: the request determines the batch. -/
theorem tracesRequest_injective : Function.Injective tracesRequest := by
  rintro ⟨resource, scope, spans⟩ ⟨resource', scope', spans'⟩ h
  obtain ⟨hresource, hscope, hspans⟩ := envelope_inj.mp h
  rw [SpansBatch.mk.injEq]
  exact ⟨hresource, hscope, convertSpan_injective.list_map hspans⟩

end NgxOtel.Otlp
