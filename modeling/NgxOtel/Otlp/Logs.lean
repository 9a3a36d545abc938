import NgxOtel.Otlp.Common

/-!
# The logs request

What `OtlpLogsEncoder::encode` builds of a batch, in the messages of `logs.proto`.

* `Proto.LogRecord` — the generated message type.
* `convertLogRecord`, `logsRequest` — the encoder.
* `Proto.LogRecord.ReadsAs` — what a message says.

## Results

* `readsAs_logsRequest` — a request reads as the batch it was built of.
* `logsRequest_injective` — different batches become different requests.
-/

set_option autoImplicit false

namespace NgxOtel.Otlp

open Word DataModel

namespace Proto

structure LogRecord where
  timeUnixNano : UInt64
  severityNumber : Int32
  severityText : String
  body : Option AnyValue
  attributes : List KeyValue
  droppedAttributesCount : UInt32
  flags : UInt32
  traceId : Bytes
  spanId : Bytes
  observedTimeUnixNano : UInt64
  eventName : String

end Proto

/-! ## The encoder -/

/-- `convert_log_record`. -/
def convertLogRecord (lr : LogRecord F64) : Proto.LogRecord where
  timeUnixNano := lr.timeUnixNano
  observedTimeUnixNano := lr.observedTimeUnixNano
  severityNumber := asI32 lr.severityNumber.code
  severityText := lr.severityText
  body := some (convertAnyValue lr.body)
  attributes := lr.attributes.map convertKv
  droppedAttributesCount := 0
  flags := 0
  traceId := lr.traceId
  spanId := lr.spanId
  eventName := lr.eventName

/-- The request of `OtlpLogsEncoder::encode`. -/
def logsRequest (batch : LogsBatch F64) : Proto.ExportRequest Proto.LogRecord :=
  envelope batch.resource batch.scope (batch.logs.map convertLogRecord)

/-! ## What a message says -/

structure Proto.LogRecord.ReadsAs (message : Proto.LogRecord) (lr : DataModel.LogRecord F64) :
    Prop where
  timeUnixNano : message.timeUnixNano = lr.timeUnixNano
  observedTimeUnixNano : message.observedTimeUnixNano = lr.observedTimeUnixNano
  severityNumber : message.severityNumber.toInt = lr.severityNumber.code.toNat
  severityText : message.severityText = lr.severityText
  body : ∃ body : Proto.AnyValue, message.body = some body ∧ body.ReadsAs lr.body
  attributes : List.Forall₂ Proto.KeyValue.ReadsAs message.attributes lr.attributes
  traceId : message.traceId = lr.traceId
  spanId : message.spanId = lr.spanId
  eventName : message.eventName = lr.eventName
  rest : message.droppedAttributesCount = 0 ∧ message.flags = 0

theorem readsAs_convertLogRecord (lr : LogRecord F64) : (convertLogRecord lr).ReadsAs lr where
  timeUnixNano := rfl
  observedTimeUnixNano := rfl
  severityNumber := toInt_asI32 lr.severityNumber.code
  severityText := rfl
  body := ⟨convertAnyValue lr.body, rfl, readsAs_convertAnyValue lr.body⟩
  attributes := forall₂_map_self readsAs_convertKv lr.attributes
  traceId := rfl
  spanId := rfl
  eventName := rfl
  rest := ⟨rfl, rfl⟩

theorem readsAs_logsRequest (batch : LogsBatch F64) :
    Proto.ExportRequest.ReadsAs Proto.LogRecord.ReadsAs (logsRequest batch) batch.resource
      batch.scope batch.logs :=
  readsAs_envelope (forall₂_map_self readsAs_convertLogRecord batch.logs) batch.resource batch.scope

/-! ## Nothing is merged -/

/-- The severities in the order of their numbers. -/
def severities : List SeverityNumber :=
  [.unspecified, .trace, .trace2, .trace3, .trace4, .debug, .debug2, .debug3, .debug4, .info,
    .info2, .info3, .info4, .warn, .warn2, .warn3, .warn4, .error, .error2, .error3, .error4,
    .fatal, .fatal2, .fatal3, .fatal4]

theorem severity_code_injective : Function.Injective SeverityNumber.code := by
  have hinv : ∀ s : SeverityNumber, severities[s.code.toNat]? = some s := by
    intro s
    cases s <;> rfl
  intro s t h
  exact Option.some.inj ((hinv s).symm.trans ((congrArg (severities[·.toNat]?) h).trans (hinv t)))

theorem convertLogRecord_injective : Function.Injective convertLogRecord := by
  rintro ⟨time, observed, severity, text, body, attributes, event, traceId, spanId⟩
    ⟨time', observed', severity', text', body', attributes', event', traceId', spanId'⟩ h
  simp only [convertLogRecord, Proto.LogRecord.mk.injEq, Option.some.injEq, map_convertKv_inj,
    true_and] at h
  obtain ⟨rfl, hseverity, rfl, hbody, rfl, rfl, rfl, rfl, rfl⟩ := h
  rw [severity_code_injective (asI32_injective hseverity), convertAnyValue_inj _ _ hbody]

/-- **No record of a batch is lost, changed or moved**: the request determines the batch. -/
theorem logsRequest_injective : Function.Injective logsRequest := by
  rintro ⟨resource, scope, logs⟩ ⟨resource', scope', logs'⟩ h
  obtain ⟨hresource, hscope, hlogs⟩ := envelope_inj.mp h
  rw [LogsBatch.mk.injEq]
  exact ⟨hresource, hscope, convertLogRecord_injective.list_map hlogs⟩

end NgxOtel.Otlp
