import NgxOtel.Records.Access
import NgxOtel.Shm.Dimensions

/-!
# Span records

`emit_span_record` (`traces/mod.rs`) writes a finished span into the ring, `parse_span_record` turns
it into the span that is exported.

* `SpanRecord` — the span as the LOG phase describes it; `SpanRecord.cut` is what of it is written.
* `spanReader` — the decoder, strict up to the peer address; the counted list of extra attributes
  ends where the record does.
* `spanOf` — the exported span of the decoded fields.
* `SpanRecord.httpAttributes` — what the attributes are meant to be, as a table.

## Results

* `emitSpanRecord_eq` — the record always fits its buffer.
* `decodes_span` — the decoder returns the record with every field cut to its cap.
* `spanAttributes_cut` — the attributes pushed one after the other are those of the table.
* `span_round_trip` — **a span is exported as it was recorded**.
-/

set_option autoImplicit false

namespace NgxOtel.Records

open Word Wire DataModel ErrorLog
open Shm (ProtoVersion)

/-! ## The record -/

def MAX_SPAN_NAME : Nat := 64
def MAX_URL_QUERY : Nat := 128
def MAX_SPAN_ROUTE : Nat := 64
def MAX_SERVER_ADDR : Nat := 64
def MAX_SPAN_EXTRA_ATTRS : Nat := 4
def MAX_SPAN_ATTR_KEY : Nat := 32
def MAX_SPAN_ATTR_VAL : Nat := 64

def SPAN_RECORD_FIXED_HDR : Nat := 16 + 8 + 8 + 4 + 8 + 8 + 1 + 1

def SPAN_RECORD_WORST_CASE : Nat :=
  SPAN_RECORD_FIXED_HDR + (2 + MAX_SPAN_NAME) + (2 + MAX_METHOD) + 2 + (2 + MAX_URL_PATH) + 8 +
    1 + 1 + 2 + 2 + 2 + 8 + 8 +
    (2 + MAX_URL_QUERY) + (2 + MAX_SPAN_ROUTE) + (2 + MAX_USER_AGENT) + (2 + MAX_SERVER_ADDR) +
    (2 + MAX_CLIENT_ADDR) + (2 + MAX_CLIENT_ADDR) + 2 +
    MAX_SPAN_EXTRA_ATTRS * (1 + MAX_SPAN_ATTR_KEY + 2 + MAX_SPAN_ATTR_VAL)

/-- `(SPAN_RECORD_WORST_CASE + 15) & !15`. -/
def MAX_SPAN_RECORD : Nat := (SPAN_RECORD_WORST_CASE + 15) / 16 * 16

structure SpanRecord where
  traceId : Octets 16
  spanId : Octets 8
  parentSpanId : Octets 8
  flags : UInt32
  startTimeUnixNano : UInt64
  endTimeUnixNano : UInt64
  statusCode : UInt8
  kind : UInt8
  name : Bytes
  method : Bytes
  httpStatus : UInt16
  urlPath : Bytes
  durationUs : UInt64
  proto : UInt8
  schemeHttps : Bool
  serverPort : UInt16
  clientPort : UInt16
  peerPort : UInt16
  reqBodySize : UInt64
  respBodySize : UInt64
  urlQuery : Bytes
  route : Bytes
  userAgent : Bytes
  serverAddress : Bytes
  clientAddress : Bytes
  peerAddress : Bytes
  extraAttrs : List (Bytes × Bytes)

/-- The attributes that are written: a few, with key and value cut. -/
def cutAttrs (attrs : List (Bytes × Bytes)) : List (Bytes × Bytes) :=
  (attrs.take MAX_SPAN_EXTRA_ATTRS).map fun kv =>
    (kv.1.take MAX_SPAN_ATTR_KEY, kv.2.take MAX_SPAN_ATTR_VAL)

/-- The record with every field cut to its cap. -/
def SpanRecord.cut (rec : SpanRecord) : SpanRecord :=
  { rec with
    name := rec.name.take MAX_SPAN_NAME
    method := rec.method.take MAX_METHOD
    urlPath := rec.urlPath.take MAX_URL_PATH
    urlQuery := rec.urlQuery.take MAX_URL_QUERY
    route := rec.route.take MAX_SPAN_ROUTE
    userAgent := rec.userAgent.take MAX_USER_AGENT
    serverAddress := rec.serverAddress.take MAX_SERVER_ADDR
    clientAddress := rec.clientAddress.take MAX_CLIENT_ADDR
    peerAddress := rec.peerAddress.take MAX_CLIENT_ADDR
    extraAttrs := cutAttrs rec.extraAttrs }

/-! ## The encoder -/

/-- One extra attribute: the key behind a one-byte length, the value behind two bytes. -/
def attrChunks (kv : Bytes × Bytes) : List Bytes :=
  [[UInt8.ofNat (kv.1.take MAX_SPAN_ATTR_KEY).length], kv.1.take MAX_SPAN_ATTR_KEY] ++
    capped MAX_SPAN_ATTR_VAL kv.2

/-- The counted list of extra attributes. -/
def extraChunks (attrs : List (Bytes × Bytes)) : List Bytes :=
  toBe 2 (min attrs.length MAX_SPAN_EXTRA_ATTRS) ::
    (attrs.take (min attrs.length MAX_SPAN_EXTRA_ATTRS)).flatMap attrChunks

/-- What `emit_span_record` copies into its buffer, in order. -/
def spanChunks (rec : SpanRecord) : List Bytes :=
  [rec.traceId.val, rec.spanId.val, rec.parentSpanId.val, toBe 4 rec.flags.toNat,
      toBe 8 rec.startTimeUnixNano.toNat, toBe 8 rec.endTimeUnixNano.toNat,
      [rec.statusCode], [rec.kind]] ++
    capped MAX_SPAN_NAME rec.name ++
    capped MAX_METHOD rec.method ++
    [toBe 2 rec.httpStatus.toNat] ++
    capped MAX_URL_PATH rec.urlPath ++
    [toBe 8 rec.durationUs.toNat, [rec.proto], [if rec.schemeHttps then 1 else 0],
      toBe 2 rec.serverPort.toNat, toBe 2 rec.clientPort.toNat, toBe 2 rec.peerPort.toNat,
      toBe 8 rec.reqBodySize.toNat, toBe 8 rec.respBodySize.toNat] ++
    capped MAX_URL_QUERY rec.urlQuery ++
    capped MAX_SPAN_ROUTE rec.route ++
    capped MAX_USER_AGENT rec.userAgent ++
    capped MAX_SERVER_ADDR rec.serverAddress ++
    capped MAX_CLIENT_ADDR rec.clientAddress ++
    capped MAX_CLIENT_ADDR rec.peerAddress ++
    extraChunks rec.extraAttrs

/-- `emit_span_record`: the bytes that are pushed. -/
def emitSpanRecord (rec : SpanRecord) : Option Bytes :=
  writeAll MAX_SPAN_RECORD (spanChunks rec)

/-! ## The decoder -/

/-- The loop over the extra attributes; it ends early where the record does. -/
def attrsReader : Nat → Reader (List (Bytes × Bytes))
  | 0 => pure []
  | n + 1 => do
    if ← has 1 then
      let kLen ← byte
      if ← has kLen.toNat then
        let key ← take kLen.toNat
        if ← has 2 then
          let vLen ← word 2
          if ← has vLen then
            let val ← take vLen
            let attrs ← attrsReader n
            pure ((key, val) :: attrs)
          else pure []
        else pure []
      else pure []
    else pure []

/-- The count of the extra attributes, 0 in a record that ends before it. -/
def extraReader : Reader (List (Bytes × Bytes)) := do
  if ← has 2 then
    let n ← word 2
    attrsReader (min n MAX_SPAN_EXTRA_ATTRS)
  else attrsReader 0

/-- The fields that `parse_span_record` decodes. -/
def spanReader : Reader SpanRecord := do
  need (SPAN_RECORD_FIXED_HDR + 2)
  let traceId ← octets 16
  let spanId ← octets 8
  let parentSpanId ← octets 8
  let flags ← u32
  let startTimeUnixNano ← u64
  let endTimeUnixNano ← u64
  let statusCode ← byte
  let kind ← byte
  let name ← cappedBytes
  let method ← cappedBytes
  need 2
  let httpStatus ← u16
  let urlPath ← cappedBytes
  need 8
  let durationUs ← u64
  need 2
  let proto ← byte
  let scheme ← byte
  need 6
  let serverPort ← u16
  let clientPort ← u16
  let peerPort ← u16
  need 16
  let reqBodySize ← u64
  let respBodySize ← u64
  let urlQuery ← cappedBytes
  let route ← cappedBytes
  let userAgent ← cappedBytes
  let serverAddress ← cappedBytes
  let clientAddress ← cappedBytes
  let peerAddress ← cappedBytes
  let extraAttrs ← extraReader
  pure
    { traceId, spanId, parentSpanId, flags, startTimeUnixNano, endTimeUnixNano, statusCode, kind,
      name, method, httpStatus, urlPath, durationUs, proto, schemeHttps := scheme != 0, serverPort,
      clientPort, peerPort, reqBodySize, respBodySize, urlQuery, route, userAgent, serverAddress,
      clientAddress, peerAddress, extraAttrs }

/-! ## The exported span -/

variable {D : Type}

/-- The status that a decoded byte stands for. -/
def statusOf (raw : UInt8) : StatusCode :=
  if raw = 1 then .ok else if raw = 2 then .error else .unset

/-- The kind that a decoded byte stands for. -/
def kindOf (raw : UInt8) : SpanKind :=
  if raw = 1 then .internal
  else if raw = 2 then .server
  else if raw = 3 then .client
  else if raw = 4 then .producer
  else if raw = 5 then .consumer
  else .unspecified

/-- An attribute that is left out when its number is 0. -/
def countAttribute (key : String) (n : Nat) : List (KeyValue D) :=
  if n > 0 then [⟨key, .int n⟩] else []

/-- The attributes in the order in which they are pushed. -/
def spanAttributes (dec : Decoding D) (rec : SpanRecord) : List (KeyValue D) :=
  rec.extraAttrs.map (fun kv => ⟨dec.lossy kv.1, .string (dec.lossy kv.2)⟩) ++
    textAttribute "http.request.method" (dec.lossy rec.method) ++
    countAttribute "http.response.status_code" rec.httpStatus.toNat ++
    textAttribute "url.path" (dec.lossy rec.urlPath) ++
    (if rec.durationUs > 0 then
      [⟨"http.server.request.duration", .double (dec.seconds rec.durationUs)⟩] else []) ++
    textAttribute "url.query" (dec.lossy rec.urlQuery) ++
    textAttribute "http.route" (dec.lossy rec.route) ++
    [⟨"url.scheme", .string (if rec.schemeHttps then "https" else "http")⟩,
      ⟨"network.protocol.version", .string (ProtoVersion.fromIndex rec.proto.toNat).asStr⟩] ++
    textAttribute "user_agent.original" (dec.lossy rec.userAgent) ++
    [⟨"http.request.body.size", .int (asI64 rec.reqBodySize)⟩,
      ⟨"http.response.body.size", .int (asI64 rec.respBodySize)⟩] ++
    textAttribute "server.address" (dec.lossy rec.serverAddress) ++
    countAttribute "server.port" rec.serverPort.toNat ++
    textAttribute "client.address" (dec.lossy rec.clientAddress) ++
    countAttribute "client.port" rec.clientPort.toNat ++
    textAttribute "network.peer.address" (dec.lossy rec.peerAddress) ++
    countAttribute "network.peer.port" rec.peerPort.toNat ++
    (if rec.httpStatus ≥ 500 then
      [⟨"error.type", .string (toString rec.httpStatus.toNat)⟩] else [])

/-- The span of the decoded fields. -/
def spanOf (dec : Decoding D) (rec : SpanRecord) : Span D :=
  { traceId := rec.traceId
    spanId := rec.spanId
    parentSpanId :=
      if rec.parentSpanId.val = List.replicate 8 0 then [] else rec.parentSpanId
    flags := rec.flags
    name := dec.lossy rec.name
    kind := kindOf rec.kind
    startTimeUnixNano := rec.startTimeUnixNano
    endTimeUnixNano := rec.endTimeUnixNano
    attributes := spanAttributes dec rec
    events := []
    links := []
    status := ⟨statusOf rec.statusCode, ""⟩ }

/-- `parse_span_record`; the time of observation is not used. -/
def parseSpanRecord (dec : Decoding D) (buf : Bytes) (_observedNs : UInt64) :
    Except Fault (Span D) :=
  (spanReader buf).map fun decoded => spanOf dec decoded.1

/-! ## The encoder stays in its buffer -/

theorem length_attrChunks (kv : Bytes × Bytes) :
    (attrChunks kv).flatten.length ≤ 1 + MAX_SPAN_ATTR_KEY + 2 + MAX_SPAN_ATTR_VAL := by
  simp only [attrChunks, List.flatten_append, List.flatten_cons, List.flatten_nil,
    List.length_append, List.length_singleton, List.length_nil, List.length_take,
    length_flatten_capped]
  omega

theorem length_flatMap_attrChunks (attrs : List (Bytes × Bytes)) :
    (attrs.flatMap attrChunks).flatten.length ≤
      attrs.length * (1 + MAX_SPAN_ATTR_KEY + 2 + MAX_SPAN_ATTR_VAL) := by
  induction attrs with
  | nil => simp
  | cons kv attrs ih =>
    have hkv := length_attrChunks kv
    rw [List.flatMap_cons, List.flatten_append, List.length_append, List.length_cons,
      Nat.succ_mul]
    omega

theorem length_extraChunks (attrs : List (Bytes × Bytes)) :
    (extraChunks attrs).flatten.length ≤
      2 + MAX_SPAN_EXTRA_ATTRS * (1 + MAX_SPAN_ATTR_KEY + 2 + MAX_SPAN_ATTR_VAL) := by
  have hattrs := length_flatMap_attrChunks (attrs.take (min attrs.length MAX_SPAN_EXTRA_ATTRS))
  have hcount : (attrs.take (min attrs.length MAX_SPAN_EXTRA_ATTRS)).length ≤
      MAX_SPAN_EXTRA_ATTRS := by
    rw [List.length_take]
    omega
  have hmul := Nat.mul_le_mul_right (1 + MAX_SPAN_ATTR_KEY + 2 + MAX_SPAN_ATTR_VAL) hcount
  unfold extraChunks
  rw [List.flatten_cons, List.length_append, length_toBe]
  omega

theorem length_spanChunks (rec : SpanRecord) :
    (spanChunks rec).flatten.length ≤ MAX_SPAN_RECORD := by
  have hname := length_flatten_capped_le MAX_SPAN_NAME rec.name
  have hmethod := length_flatten_capped_le MAX_METHOD rec.method
  have hpath := length_flatten_capped_le MAX_URL_PATH rec.urlPath
  have hquery := length_flatten_capped_le MAX_URL_QUERY rec.urlQuery
  have hroute := length_flatten_capped_le MAX_SPAN_ROUTE rec.route
  have hagent := length_flatten_capped_le MAX_USER_AGENT rec.userAgent
  have hserver := length_flatten_capped_le MAX_SERVER_ADDR rec.serverAddress
  have hclient := length_flatten_capped_le MAX_CLIENT_ADDR rec.clientAddress
  have hpeer := length_flatten_capped_le MAX_CLIENT_ADDR rec.peerAddress
  have hextra := length_extraChunks rec.extraAttrs
  have hworst : SPAN_RECORD_WORST_CASE ≤ MAX_SPAN_RECORD := by decide
  refine Nat.le_trans ?_ hworst
  unfold SPAN_RECORD_WORST_CASE SPAN_RECORD_FIXED_HDR
  simp only [spanChunks, List.flatten_append, List.flatten_cons, List.flatten_nil,
    List.length_append, List.length_cons, List.length_nil, length_toBe, rec.traceId.property,
    rec.spanId.property, rec.parentSpanId.property]
  omega

/-- The encoder copies all its chunks. -/
theorem emitSpanRecord_eq (rec : SpanRecord) :
    emitSpanRecord rec = some (spanChunks rec).flatten :=
  writeAll_of_le (length_spanChunks rec)

/-! ## The decoder undoes the encoder -/

/-- The loop reads back a list of attributes, each cut to its caps. -/
theorem decodes_attrs (attrs : List (Bytes × Bytes)) :
    Decodes (attrsReader attrs.length) (attrs.flatMap attrChunks).flatten
      (attrs.map fun kv => (kv.1.take MAX_SPAN_ATTR_KEY, kv.2.take MAX_SPAN_ATTR_VAL)) := by
  induction attrs with
  | nil => exact Decodes.pure []
  | cons kv attrs ih =>
    have hkey : (UInt8.ofNat (kv.1.take MAX_SPAN_ATTR_KEY).length).toNat =
        (kv.1.take MAX_SPAN_ATTR_KEY).length := by
      rw [UInt8.toNat_ofNat', List.length_take, MAX_SPAN_ATTR_KEY]
      omega
    have hval : (kv.2.take MAX_SPAN_ATTR_VAL).length < 256 ^ 2 := by
      rw [List.length_take, MAX_SPAN_ATTR_VAL]
      omega
    show Decodes (attrsReader (attrs.length + 1)) _ _
    unfold attrsReader
    simp only [List.flatMap_cons, attrChunks, capped, List.flatten_append, List.flatten_cons,
      List.flatten_nil, List.append_nil, List.append_assoc, List.map_cons]
    refine Decodes.has (by simp) ((Decodes.byte _).bind ?_)
    rw [hkey]
    refine Decodes.has (by simp) ((Decodes.take rfl).bind ?_)
    refine Decodes.has (by simp) ((Decodes.word hval).bind ?_)
    refine Decodes.has (by simp) ((Decodes.take rfl).bind ?_)
    exact ih.last

theorem decodes_extra (attrs : List (Bytes × Bytes)) :
    Decodes extraReader (extraChunks attrs).flatten (cutAttrs attrs) := by
  have hcount : min attrs.length MAX_SPAN_EXTRA_ATTRS < 256 ^ 2 := by
    rw [MAX_SPAN_EXTRA_ATTRS]
    omega
  have htake : attrs.take (min attrs.length MAX_SPAN_EXTRA_ATTRS) =
      attrs.take MAX_SPAN_EXTRA_ATTRS := by
    rw [List.take_eq_take_iff]
    omega
  have hlen : min (min attrs.length MAX_SPAN_EXTRA_ATTRS) MAX_SPAN_EXTRA_ATTRS =
      (attrs.take MAX_SPAN_EXTRA_ATTRS).length := by
    rw [List.length_take]
    omega
  unfold extraReader extraChunks cutAttrs
  rw [htake, List.flatten_cons]
  refine Decodes.has (by simp) ((Decodes.word hcount).bind ?_)
  rw [hlen]
  exact decodes_attrs _

/-- **The decoder returns the record with every field cut to its cap.** -/
theorem decodes_span (rec : SpanRecord) :
    Decodes spanReader (spanChunks rec).flatten rec.cut := by
  unfold spanReader
  refine Decodes.need ?_ ?_
  · have hname := le_length_flatten_capped MAX_SPAN_NAME rec.name
    simp only [spanChunks, List.flatten_append, List.flatten_cons, List.flatten_nil,
      List.length_append, List.length_cons, List.length_nil, length_toBe, rec.traceId.property,
      rec.spanId.property, rec.parentSpanId.property, SPAN_RECORD_FIXED_HDR]
    omega
  simp only [spanChunks, List.flatten_append, List.flatten_cons, List.flatten_nil,
    List.append_nil, List.append_assoc]
  refine (Decodes.octets rec.traceId).bind ?_
  refine (Decodes.octets rec.spanId).bind ?_
  refine (Decodes.octets rec.parentSpanId).bind ?_
  refine (Decodes.u32 rec.flags).bind ?_
  refine (Decodes.u64 rec.startTimeUnixNano).bind ?_
  refine (Decodes.u64 rec.endTimeUnixNano).bind ?_
  refine (Decodes.byte rec.statusCode).bind ?_
  refine (Decodes.byte rec.kind).bind ?_
  refine (Decodes.capped (by decide) rec.name).bind ?_
  refine (Decodes.capped (by decide) rec.method).bind ?_
  refine Decodes.need (by simp) ((Decodes.u16 rec.httpStatus).bind ?_)
  refine (Decodes.capped (by decide) rec.urlPath).bind ?_
  refine Decodes.need (by simp) ((Decodes.u64 rec.durationUs).bind ?_)
  refine Decodes.need (by simp) ((Decodes.byte rec.proto).bind ?_)
  refine (Decodes.byte _).bind ?_
  refine Decodes.need (by simp; omega) ((Decodes.u16 rec.serverPort).bind ?_)
  refine (Decodes.u16 rec.clientPort).bind ?_
  refine (Decodes.u16 rec.peerPort).bind ?_
  refine Decodes.need (by simp; omega) ((Decodes.u64 rec.reqBodySize).bind ?_)
  refine (Decodes.u64 rec.respBodySize).bind ?_
  refine (Decodes.capped (by decide) rec.urlQuery).bind ?_
  refine (Decodes.capped (by decide) rec.route).bind ?_
  refine (Decodes.capped (by decide) rec.userAgent).bind ?_
  refine (Decodes.capped (by decide) rec.serverAddress).bind ?_
  refine (Decodes.capped (by decide) rec.clientAddress).bind ?_
  refine (Decodes.capped (by decide) rec.peerAddress).bind ?_
  have hscheme : ((if rec.schemeHttps then 1 else 0 : UInt8) != 0) = rec.schemeHttps := by
    cases rec.schemeHttps <;> rfl
  rw [hscheme]
  exact (decodes_extra rec.extraAttrs).last

/-! ## What the span is meant to be -/

/-- Text that is left out when there is none. -/
def textValue (dec : Decoding D) (bytes : Bytes) : Option (AnyValue D) :=
  if bytes = [] then none else some (.string (dec.lossy bytes))

/-- A number that is left out when it is 0. -/
def countValue (n : Nat) : Option (AnyValue D) :=
  if n = 0 then none else some (.int n)

/-- The entries of a table that have a value. -/
def present (table : List (String × Option (AnyValue D))) : List (KeyValue D) :=
  table.filterMap fun entry => entry.2.map (KeyValue.mk entry.1)

/-- The extra attributes of a record. -/
def SpanRecord.extraAttributes (rec : SpanRecord) (dec : Decoding D) : List (KeyValue D) :=
  (rec.extraAttrs.take 4).map fun kv =>
    ⟨dec.lossy (kv.1.take 32), .string (dec.lossy (kv.2.take 64))⟩

/-- The protocol version that a record stands for. -/
def SpanRecord.protocolVersion (rec : SpanRecord) : String :=
  if rec.proto = 0 then "1.0" else if rec.proto = 1 then "1.1"
  else if rec.proto = 2 then "2" else "3"

/-- The HTTP attributes of a record. -/
def SpanRecord.httpAttributes (rec : SpanRecord) (dec : Decoding D) : List (KeyValue D) :=
  present
    [("http.request.method", textValue dec (rec.method.take 16)),
      ("http.response.status_code", countValue rec.httpStatus.toNat),
      ("url.path", textValue dec (rec.urlPath.take 64)),
      ("http.server.request.duration",
        if rec.durationUs = 0 then none else some (.double (dec.seconds rec.durationUs))),
      ("url.query", textValue dec (rec.urlQuery.take 128)),
      ("http.route", textValue dec (rec.route.take 64)),
      ("url.scheme", some (.string (if rec.schemeHttps then "https" else "http"))),
      ("network.protocol.version", some (.string rec.protocolVersion)),
      ("user_agent.original", textValue dec (rec.userAgent.take 128)),
      ("http.request.body.size", some (.int rec.reqBodySize.toInt64.toInt)),
      ("http.response.body.size", some (.int rec.respBodySize.toInt64.toInt)),
      ("server.address", textValue dec (rec.serverAddress.take 64)),
      ("server.port", countValue rec.serverPort.toNat),
      ("client.address", textValue dec (rec.clientAddress.take 46)),
      ("client.port", countValue rec.clientPort.toNat),
      ("network.peer.address", textValue dec (rec.peerAddress.take 46)),
      ("network.peer.port", countValue rec.peerPort.toNat),
      ("error.type",
        if 500 ≤ rec.httpStatus.toNat then some (.string (toString rec.httpStatus.toNat))
        else none)]

/-- The span that is exported for a record. -/
structure Exports (dec : Decoding D) (rec : SpanRecord) (span : Span D) : Prop where
  traceId : span.traceId = rec.traceId
  spanId : span.spanId = rec.spanId
  flags : span.flags = rec.flags
  startTime : span.startTimeUnixNano = rec.startTimeUnixNano
  endTime : span.endTimeUnixNano = rec.endTimeUnixNano
  status : ∀ c : StatusCode, c.code = rec.statusCode → span.status = ⟨c, ""⟩
  status_unknown : (∀ c : StatusCode, c.code ≠ rec.statusCode) → span.status = ⟨.unset, ""⟩
  kind : ∀ k : SpanKind, k.code = rec.kind → span.kind = k
  kind_unknown : (∀ k : SpanKind, k.code ≠ rec.kind) → span.kind = .unspecified
  parent_zero : (∀ b ∈ rec.parentSpanId.val, b = 0) → span.parentSpanId = []
  parent : ¬ (∀ b ∈ rec.parentSpanId.val, b = 0) → span.parentSpanId = rec.parentSpanId
  name : span.name = dec.lossy (rec.name.take 64)
  attributes : span.attributes = rec.extraAttributes dec ++ rec.httpAttributes dec
  events : span.events = []
  links : span.links = []

section Present

variable (dec : Decoding D) (key : String) (table : List (String × Option (AnyValue D)))

theorem present_cons_some (v : AnyValue D) :
    present ((key, some v) :: table) = ⟨key, v⟩ :: present table := rfl

theorem present_nil : present ([] : List (String × Option (AnyValue D))) = [] := rfl

theorem present_cons_text (bytes : Bytes) :
    present ((key, textValue dec bytes) :: table) =
      textAttribute key (dec.lossy bytes) ++ present table := by
  unfold textValue textAttribute
  by_cases hempty : bytes = []
  · rw [if_pos hempty, if_pos ((dec.lossy_eq_empty bytes).mpr hempty)]
    rfl
  · rw [if_neg hempty, if_neg (fun h => hempty ((dec.lossy_eq_empty bytes).mp h))]
    rfl

theorem present_cons_count (n : Nat) :
    present ((key, countValue n) :: table) = countAttribute key n ++ present table := by
  unfold countValue countAttribute
  by_cases hzero : n = 0
  · rw [if_pos hzero, if_neg (by omega)]
    rfl
  · rw [if_neg hzero, if_pos (by omega)]
    rfl

/-- An entry under a condition. -/
theorem present_cons_ite {p : Prop} [Decidable p] (v : AnyValue D) :
    present ((key, if p then some v else none) :: table) =
      (if p then [⟨key, v⟩] else []) ++ present table := by
  by_cases hp : p
  · rw [if_pos hp, if_pos hp]
    rfl
  · rw [if_neg hp, if_neg hp]
    rfl

end Present

theorem asStr_fromIndex (rec : SpanRecord) :
    (ProtoVersion.fromIndex rec.proto.toNat).asStr = rec.protocolVersion := by
  have heq (n : UInt8) : rec.proto = n ↔ rec.proto.toNat = n.toNat := UInt8.toNat_inj.symm
  simp only [SpanRecord.protocolVersion, heq]
  generalize rec.proto.toNat = idx
  match idx with
  | 0 | 1 | 2 => rfl
  | n + 3 => simp [ProtoVersion.fromIndex, ProtoVersion.asStr]

/-- The attributes of the cut record are those of the table. -/
theorem spanAttributes_cut (dec : Decoding D) (rec : SpanRecord) :
    spanAttributes dec rec.cut = rec.extraAttributes dec ++ rec.httpAttributes dec := by
  have hextra : rec.cut.extraAttrs.map
      (fun kv => (⟨dec.lossy kv.1, .string (dec.lossy kv.2)⟩ : KeyValue D)) =
        rec.extraAttributes dec := by
    show (cutAttrs rec.extraAttrs).map _ = _
    unfold cutAttrs SpanRecord.extraAttributes
    rw [List.map_map]
    rfl
  have hduration : (if rec.durationUs = 0 then none
      else some (AnyValue.double (dec.seconds rec.durationUs))) =
        if rec.durationUs > 0 then some (AnyValue.double (dec.seconds rec.durationUs))
        else none := by
    by_cases hzero : rec.durationUs = 0
    · rw [if_pos hzero, hzero]
      rfl
    · rw [if_neg hzero, if_pos (UInt64.pos_iff_ne_zero.mpr hzero)]
  have herror : 500 ≤ rec.httpStatus.toNat ↔ rec.httpStatus ≥ 500 :=
    (UInt16.le_iff_toNat_le (a := 500)).symm
  unfold spanAttributes SpanRecord.httpAttributes
  rw [hextra, hduration, ← asStr_fromIndex]
  simp only [herror, present_cons_text, present_cons_count, present_cons_some, present_cons_ite,
    present_nil, List.append_assoc, List.cons_append, List.nil_append, List.append_nil]
  rfl

theorem statusOf_code (c : StatusCode) : statusOf c.code = c := by
  cases c <;> rfl

theorem kindOf_code (k : SpanKind) : kindOf k.code = k := by
  cases k <;> rfl

theorem statusOf_unknown {raw : UInt8} (h : ∀ c : StatusCode, c.code ≠ raw) :
    statusOf raw = .unset := by
  unfold statusOf
  rw [if_neg (fun hraw => h .ok hraw.symm), if_neg (fun hraw => h .error hraw.symm)]

theorem kindOf_unknown {raw : UInt8} (h : ∀ k : SpanKind, k.code ≠ raw) :
    kindOf raw = .unspecified := by
  unfold kindOf
  rw [if_neg (fun hraw => h .internal hraw.symm), if_neg (fun hraw => h .server hraw.symm),
    if_neg (fun hraw => h .client hraw.symm), if_neg (fun hraw => h .producer hraw.symm),
    if_neg (fun hraw => h .consumer hraw.symm)]

/-- The comparison with `[0u8; 8]` finds the parents that are all zero. -/
theorem eq_replicate_zero (parent : Octets 8) :
    parent.val = List.replicate 8 0 ↔ ∀ b ∈ parent.val, b = 0 := by
  rw [List.eq_replicate_iff]
  exact and_iff_right parent.property

theorem exports_cut (dec : Decoding D) (rec : SpanRecord) : Exports dec rec (spanOf dec rec.cut) where
  traceId := rfl
  spanId := rfl
  flags := rfl
  startTime := rfl
  endTime := rfl
  status c hc := by
    show (⟨statusOf rec.statusCode, ""⟩ : SpanStatus) = ⟨c, ""⟩
    rw [← hc, statusOf_code]
  status_unknown hc := by
    show (⟨statusOf rec.statusCode, ""⟩ : SpanStatus) = ⟨.unset, ""⟩
    rw [statusOf_unknown hc]
  kind k hk := by
    show kindOf rec.kind = k
    rw [← hk, kindOf_code]
  kind_unknown := kindOf_unknown
  parent_zero hzero := if_pos ((eq_replicate_zero rec.parentSpanId).mpr hzero)
  parent hparent := if_neg (fun h => hparent ((eq_replicate_zero rec.parentSpanId).mp h))
  name := rfl
  attributes := spanAttributes_cut dec rec
  events := rfl
  links := rfl

/-- **A span is exported as it was recorded.**  The encoder never leaves its buffer, and the decoder
makes of the bytes the span that the fields of the record, each cut to its cap, stand for. -/
theorem span_round_trip (dec : Decoding D) (rec : SpanRecord) (observedNs : UInt64) :
    ∃ buf span, emitSpanRecord rec = some buf ∧ buf.length ≤ MAX_SPAN_RECORD ∧
      parseSpanRecord dec buf observedNs = .ok span ∧ Exports dec rec span := by
  have hparse : parseSpanRecord dec (spanChunks rec).flatten observedNs =
      .ok (spanOf dec rec.cut) := by
    have hread := decodes_span rec []
    rw [List.append_nil] at hread
    unfold parseSpanRecord
    rw [hread]
    rfl
  exact ⟨_, _, emitSpanRecord_eq rec, length_spanChunks rec, hparse, exports_cut dec rec⟩

end NgxOtel.Records
