import NgxOtel.ErrorLog.Record
import NgxOtel.Lib.Wire

/-!
# Access records

`emit_access_record` (`logs/access.rs`) writes a sampled request into the ring,
`parse_access_record` (`drain/mod.rs`) turns it into a log record.

* `emitAccessRecord` — the bytes pushed, `none` if a field did not fit the stack buffer.
* `accessReader` — the decoder, strict up to the client address and lenient behind it.

## Results

* `emitAccessRecord_eq` — the record always fits its buffer.
* `decodes_access` — the decoder undoes the encoder, field by field.
* `log_records_round_trip` — **access and error records arrive as they were emitted**, cut to their
  caps.
-/

set_option autoImplicit false

namespace NgxOtel.Records

open Word Wire DataModel ErrorLog

variable {D : Type}

/-- An attribute that is left out when its text is empty. -/
def textAttribute (key text : String) : List (KeyValue D) :=
  if text = "" then [] else [⟨key, .string text⟩]

/-! ## The wire format -/

def MAX_ACCESS_RECORD : Nat := 336
def MAX_URL_PATH : Nat := 64
def MAX_USER_AGENT : Nat := 128
def MAX_CLIENT_ADDR : Nat := 46
def MAX_METHOD : Nat := 16

def KIND_ACCESS : UInt8 := 0x00
def NGX_LEVEL_INFO : UInt8 := 7

/-- `SampledRequest`; the combination index is only used by the exemplars. -/
structure SampledRequest where
  tsUnixNano : UInt64
  trace : Option (Octets 16 × Octets 8)
  urlPath : Bytes
  userAgent : Bytes
  durationUs : UInt64
  method : Bytes
  status : UInt16
  requestLength : UInt64
  responseBytes : UInt64
  clientAddr : Bytes

/-- The trace context behind its presence byte. -/
def traceChunks : Option (Octets 16 × Octets 8) → List Bytes
  | some (traceId, spanId) => [[1], traceId, spanId]
  | none => [[0]]

/-- What `emit_access_record` copies into its buffer, in order. -/
def accessChunks (req : SampledRequest) : List Bytes :=
  [[KIND_ACCESS], toBe 8 req.tsUnixNano.toNat, [NGX_LEVEL_INFO]] ++
    capped MAX_METHOD req.method ++
    [toBe 2 req.status.toNat, toBe 8 req.requestLength.toNat, toBe 8 req.responseBytes.toNat] ++
    capped MAX_CLIENT_ADDR req.clientAddr ++
    traceChunks req.trace ++
    capped MAX_URL_PATH req.urlPath ++
    capped MAX_USER_AGENT req.userAgent ++
    [toBe 8 req.durationUs.toNat]

/-- `emit_access_record`: the bytes that are pushed. -/
def emitAccessRecord (req : SampledRequest) : Option Bytes :=
  writeAll MAX_ACCESS_RECORD (accessChunks req)

/-- The trace context, absent when the record ends before it. -/
def traceReader : Reader (Bytes × Bytes) := do
  if ← has 1 then
    let hasTrace ← byte
    if hasTrace = 1 then
      if ← has 24 then
        let traceId ← take 16
        let spanId ← take 8
        pure (traceId, spanId)
      else pure ([], [])
    else pure ([], [])
  else pure ([], [])

/-- `read_u16_prefixed`: empty on truncation. -/
def readU16Prefixed : Reader Bytes := do
  if ← has 2 then
    let len ← word 2
    if ← has len then take len else pure []
  else pure []

/-- The client address, empty when the record ends before it. -/
def clientAddrReader : Reader Bytes := do
  need 2
  let addrLen ← word 2
  if ← has addrLen then take addrLen else pure []

/-- The duration, absent when the record ends before it. -/
def durationReader : Reader (Option UInt64) := do
  if ← has 8 then
    let durationUs ← u64
    pure (some durationUs)
  else pure none

/-- The method behind its length, which the first check has covered. -/
def methodReader : Reader Bytes := do
  let methodLen ← word 2
  need methodLen
  take methodLen

/-- The log record of the decoded fields. -/
def accessLogRecord (dec : Decoding D) (observedNowNs ts : UInt64) (ngxLevel : UInt8)
    (method : Bytes) (status : UInt16) (reqLen respBytes : UInt64) (clientAddr : Bytes)
    (trace : Bytes × Bytes) (urlPath userAgent : Bytes) (durationUs : Option UInt64) :
    LogRecord D :=
  { timeUnixNano := ts
    observedTimeUnixNano := observedNowNs
    severityNumber := (nginxToOtel ngxLevel.toNat).1
    severityText := (nginxToOtel ngxLevel.toNat).2
    body := .string ""
    attributes :=
      [⟨"http.request.method", .string (dec.lossy method)⟩,
        ⟨"http.response.status_code", .int status.toNat⟩,
        ⟨"http.server.request.body.size", .int (asI64 reqLen)⟩,
        ⟨"http.server.response.body.size", .int (asI64 respBytes)⟩,
        ⟨"client.address", .string (dec.lossy clientAddr)⟩] ++
      (if urlPath.isEmpty then [] else [⟨"url.path", .string (dec.lossy urlPath)⟩]) ++
      (if userAgent.isEmpty then [] else [⟨"user_agent.original", .string (dec.lossy userAgent)⟩]) ++
      (match durationUs with
        | some durUs => [⟨"http.server.request.duration", .double (dec.seconds durUs)⟩]
        | none => [])
    eventName := "http.access"
    traceId := trace.1
    spanId := trace.2 }

/-- The decoder of `parse_access_record`. -/
def accessReader (dec : Decoding D) (observedNowNs : UInt64) : Reader (LogRecord D) := do
  need 32
  let kind ← byte
  if kind ≠ KIND_ACCESS then reject
  else
    let ts ← u64
    let ngxLevel ← byte
    let method ← methodReader
    need 2
    let status ← u16
    need 8
    let reqLen ← u64
    need 8
    let respBytes ← u64
    let clientAddr ← clientAddrReader
    let trace ← traceReader
    let urlPath ← readU16Prefixed
    let userAgent ← readU16Prefixed
    let durationUs ← durationReader
    pure (accessLogRecord dec observedNowNs ts ngxLevel method status reqLen respBytes clientAddr
      trace urlPath userAgent durationUs)

/-- `parse_access_record`. -/
def parseAccessRecord (dec : Decoding D) (buf : Bytes) (observedNowNs : UInt64) :
    Except Fault (LogRecord D) :=
  (accessReader dec observedNowNs buf).map Prod.fst

/-! ## The encoder stays in its buffer -/

theorem length_traceChunks (trace : Option (Octets 16 × Octets 8)) :
    (traceChunks trace).flatten.length ≤ 25 := by
  cases trace with
  | none => simp [traceChunks]
  | some ids =>
    obtain ⟨⟨traceId, htrace⟩, ⟨spanId, hspan⟩⟩ := ids
    simp [traceChunks, htrace, hspan]

theorem length_accessChunks (req : SampledRequest) :
    (accessChunks req).flatten.length ≤ MAX_ACCESS_RECORD := by
  have htrace := length_traceChunks req.trace
  simp only [accessChunks, List.flatten_append, List.length_append, length_flatten_capped,
    List.flatten_cons, List.flatten_nil, List.length_cons, List.length_nil, length_toBe,
    MAX_METHOD, MAX_CLIENT_ADDR, MAX_URL_PATH, MAX_USER_AGENT, MAX_ACCESS_RECORD]
  omega

/-- The encoder copies all its chunks. -/
theorem emitAccessRecord_eq (req : SampledRequest) :
    emitAccessRecord req = some (accessChunks req).flatten :=
  writeAll_of_le (length_accessChunks req)

/-! ## The decoder undoes the encoder -/

theorem decodes_method (method : Bytes) :
    Decodes methodReader (capped MAX_METHOD method).flatten (method.take MAX_METHOD) := by
  have hlen : (method.take MAX_METHOD).length < 256 ^ 2 := by
    simp only [List.length_take, MAX_METHOD]
    omega
  unfold methodReader
  rw [capped, List.flatten_cons, List.flatten_singleton]
  refine (Decodes.word hlen).bind ?_
  refine Decodes.need (Nat.le_refl _) ?_
  exact Decodes.take rfl

/-- A lenient reader takes a byte string that is there. -/
theorem decodes_ifHas (bytes : Bytes) :
    Decodes (do if ← has bytes.length then take bytes.length else pure []) bytes bytes :=
  Decodes.has (Nat.le_refl _) (Decodes.take rfl)

theorem decodes_clientAddr (clientAddr : Bytes) :
    Decodes clientAddrReader (capped MAX_CLIENT_ADDR clientAddr).flatten
      (clientAddr.take MAX_CLIENT_ADDR) := by
  have hlen : (clientAddr.take MAX_CLIENT_ADDR).length < 256 ^ 2 := by
    simp only [List.length_take, MAX_CLIENT_ADDR]
    omega
  unfold clientAddrReader
  refine Decodes.need (le_length_flatten_capped _ clientAddr) ?_
  rw [capped, List.flatten_cons, List.flatten_singleton]
  exact (Decodes.word hlen).bind (decodes_ifHas _)

theorem decodes_u16Prefixed {max : Nat} (hmax : max < 2 ^ 16) (data : Bytes) :
    Decodes readU16Prefixed (capped max data).flatten (data.take max) := by
  have hlen : (data.take max).length < 256 ^ 2 := by
    rw [List.length_take]
    omega
  unfold readU16Prefixed
  refine Decodes.has (le_length_flatten_capped max data) ?_
  rw [capped, List.flatten_cons, List.flatten_singleton]
  exact (Decodes.word hlen).bind (decodes_ifHas _)

/-- The trace context of a request as bytes, empty when it has none. -/
def traceIds : Option (Octets 16 × Octets 8) → Bytes × Bytes
  | some (traceId, spanId) => (traceId, spanId)
  | none => ([], [])

theorem decodes_trace (trace : Option (Octets 16 × Octets 8)) :
    Decodes traceReader (traceChunks trace).flatten (traceIds trace) := by
  unfold traceReader
  cases trace with
  | none => exact Decodes.has (Nat.le_refl _) ((Decodes.byte 0).bind (Decodes.pure _))
  | some ids =>
    obtain ⟨⟨traceId, htrace⟩, ⟨spanId, hspan⟩⟩ := ids
    show Decodes _ ([1] ++ (traceId ++ (spanId ++ []))) (traceId, spanId)
    rw [List.append_nil]
    refine Decodes.has (by simp) ?_
    refine (Decodes.byte 1).bind ?_
    refine Decodes.has (by simp [htrace, hspan]) ?_
    exact (Decodes.take htrace).bind (Decodes.take hspan).last

theorem decodes_duration (durationUs : UInt64) :
    Decodes durationReader (toBe 8 durationUs.toNat) (some durationUs) := by
  unfold durationReader
  exact Decodes.has (by rw [length_toBe]) (Decodes.u64 durationUs).last

/-- The log record that a request prescribes. -/
def SampledRequest.logRecord (req : SampledRequest) (dec : Decoding D) (observedNowNs : UInt64) :
    LogRecord D :=
  { timeUnixNano := req.tsUnixNano
    observedTimeUnixNano := observedNowNs
    severityNumber := .info
    severityText := "info"
    body := .string ""
    attributes :=
      [⟨"http.request.method", .string (dec.lossy (req.method.take 16))⟩,
        ⟨"http.response.status_code", .int req.status.toNat⟩,
        ⟨"http.server.request.body.size", .int req.requestLength.toInt64.toInt⟩,
        ⟨"http.server.response.body.size", .int req.responseBytes.toInt64.toInt⟩,
        ⟨"client.address", .string (dec.lossy (req.clientAddr.take 46))⟩] ++
      textAttribute "url.path" (dec.lossy (req.urlPath.take 64)) ++
      textAttribute "user_agent.original" (dec.lossy (req.userAgent.take 128)) ++
      [⟨"http.server.request.duration", .double (dec.seconds req.durationUs)⟩]
    eventName := "http.access"
    traceId := (traceIds req.trace).1
    spanId := (traceIds req.trace).2 }

/-- The decoder tests the bytes for emptiness, the attribute its text. -/
theorem textAttribute_lossy (dec : Decoding D) (key : String) (bytes : Bytes) :
    textAttribute key (dec.lossy bytes) =
      if bytes.isEmpty then [] else [(⟨key, .string (dec.lossy bytes)⟩ : KeyValue D)] := by
  unfold textAttribute
  by_cases hempty : bytes = []
  · rw [if_pos ((dec.lossy_eq_empty bytes).mpr hempty), hempty]
    rfl
  · rw [if_neg (fun h => hempty ((dec.lossy_eq_empty bytes).mp h)),
      List.isEmpty_eq_false_iff.mpr hempty]
    rfl

theorem decodes_access (dec : Decoding D) (observedNowNs : UInt64) (req : SampledRequest) :
    Decodes (accessReader dec observedNowNs) (accessChunks req).flatten
      (req.logRecord dec observedNowNs) := by
  have hrecord : req.logRecord dec observedNowNs = accessLogRecord dec observedNowNs
      req.tsUnixNano NGX_LEVEL_INFO (req.method.take MAX_METHOD) req.status req.requestLength
      req.responseBytes (req.clientAddr.take MAX_CLIENT_ADDR) (traceIds req.trace)
      (req.urlPath.take MAX_URL_PATH) (req.userAgent.take MAX_USER_AGENT)
      (some req.durationUs) := by
    simp only [SampledRequest.logRecord, textAttribute_lossy]
    rfl
  unfold accessReader
  refine Decodes.need ?_ ?_
  · have hmethod := le_length_flatten_capped MAX_METHOD req.method
    have hclient := le_length_flatten_capped MAX_CLIENT_ADDR req.clientAddr
    simp only [accessChunks, List.flatten_append, List.length_append, List.flatten_cons,
      List.flatten_nil, List.length_cons, List.length_nil, length_toBe]
    omega
  rw [hrecord]
  simp only [accessChunks, List.flatten_append, List.flatten_cons, List.flatten_nil,
    List.append_nil, List.append_assoc]
  refine (Decodes.byte KIND_ACCESS).bind ?_
  rw [if_neg (by simp)]
  refine (Decodes.u64 req.tsUnixNano).bind ?_
  refine (Decodes.byte NGX_LEVEL_INFO).bind ?_
  refine (decodes_method req.method).bind ?_
  refine Decodes.need (by simp) ((Decodes.u16 req.status).bind ?_)
  refine Decodes.need (by simp) ((Decodes.u64 req.requestLength).bind ?_)
  refine Decodes.need (by simp) ((Decodes.u64 req.responseBytes).bind ?_)
  refine (decodes_clientAddr req.clientAddr).bind ?_
  refine (decodes_trace req.trace).bind ?_
  refine (decodes_u16Prefixed (by decide) req.urlPath).bind ?_
  refine (decodes_u16Prefixed (by decide) req.userAgent).bind ?_
  exact (decodes_duration req.durationUs).last

/-! ## Both kinds of log record -/

section ErrorAttributes

variable (templateHash : UInt64) (counts : Counts) (v : AnyValue D)

theorem mem_errorAttributes_hash :
    (⟨TEMPLATE_HASH, v⟩ : KeyValue D) ∈ errorAttributes templateHash counts ↔
      templateHash ≠ 0 ∧ v = .int (asI64 templateHash) := by
  have hkeys : TEMPLATE_HASH ≠ COALESCED_COUNT := by decide
  unfold errorAttributes
  by_cases hzero : templateHash = 0
  · simp [hzero]
  · rw [if_pos hzero, List.mem_cons]
    -- the count attribute has another key
    have hcount : ¬ (⟨TEMPLATE_HASH, v⟩ : KeyValue D) ∈
        if (counts.get templateHash).getD 0 > 1 then
          [⟨COALESCED_COUNT, .int ((counts.get templateHash).getD 0)⟩] else [] := by
      split <;> simp [hkeys]
    simp [hzero, hcount]

theorem mem_errorAttributes_count :
    (⟨COALESCED_COUNT, v⟩ : KeyValue D) ∈ errorAttributes templateHash counts ↔
      templateHash ≠ 0 ∧ ∃ n, counts.get templateHash = some n ∧ 1 < n ∧ v = .int n := by
  have hkeys : COALESCED_COUNT ≠ TEMPLATE_HASH := by decide
  unfold errorAttributes
  by_cases hzero : templateHash = 0
  · simp [hzero]
  · rw [if_pos hzero, List.mem_cons]
    cases hget : counts.get templateHash with
    | none => simp [hkeys]
    | some n =>
      by_cases hn : 1 < n
      · simp [hkeys, hzero, hn]
      · simp [hkeys, hn]

end ErrorAttributes

/-- **Log records arrive as they were emitted.**  An access record never overruns its buffer and
comes back with the fields of the request; an error record comes back with its body cut to 512
bytes, its hash unless that is 0, and the count of its template when the map holds more than 1. -/
theorem log_records_round_trip :
    (∀ (dec : Decoding D) (req : SampledRequest) (now : UInt64),
      ∃ buf, emitAccessRecord req = some buf ∧ buf.length ≤ MAX_ACCESS_RECORD ∧
        parseAccessRecord dec buf now = .ok (req.logRecord dec now)) ∧
    (∀ (dec : Decoding D) (tsNs : UInt64) (ngxLevel : UInt8) (templateHash : UInt64)
      (body : Bytes) (now : UInt64) (counts : Counts),
      ∃ lr, parseErrorRecord dec (errorRecord tsNs ngxLevel templateHash body) now counts =
          some lr ∧
        lr.timeUnixNano = tsNs ∧ lr.body = .string (dec.lossy (body.take 512)) ∧
        (∀ v, ⟨"nginx.error.template_hash", v⟩ ∈ lr.attributes ↔
          templateHash ≠ 0 ∧ v = .int templateHash.toInt64.toInt) ∧
        (∀ v, ⟨"nginx.error.coalesced_count", v⟩ ∈ lr.attributes ↔
          templateHash ≠ 0 ∧ ∃ n, counts.get templateHash = some n ∧ 1 < n ∧ v = .int n)) := by
  constructor
  · intro dec req now
    exact ⟨_, emitAccessRecord_eq req, length_accessChunks req,
      (decodes_access dec now req).alone⟩
  · intro dec tsNs ngxLevel templateHash body now counts
    exact ⟨_, parseErrorRecord_errorRecord tsNs ngxLevel templateHash body dec now counts, rfl, rfl,
      mem_errorAttributes_hash templateHash counts, mem_errorAttributes_count templateHash counts⟩

end NgxOtel.Records
