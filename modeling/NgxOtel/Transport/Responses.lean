import NgxOtel.Drain.RetryQueue
import NgxOtel.Drain.Tick
import NgxOtel.Lib.Decimal
import NgxOtel.Transport.FixDate

/-!
# What a collector answers

`transport/hyper_http.rs` and `transport/grpc/status_adapter.rs`: the answer of a collector becomes
a delivery outcome, which the policy of the lane acts on.

* `Decoders` — how the libraries read the messages that come back; nothing is assumed of them.
* `HttpResponse`, `httpResponseToOutcome` — status, `Retry-After` header and body.
* `GrpcStatus`, `grpcStatusToOutcome` — code, `grpc-retry-pushback-ms` trailer and details.
* `Answer` — either, or the message of a call that went well.
* `Asks` — the four ways in which a collector can name a delay: seconds or a date in a header,
  milliseconds in a trailer, a `RetryInfo` among the details of a status.

## Results

* `outcome_of_asks` — each of the four is understood, as that delay.
* `asked_delay_honoured` — **after a fresh send the lane keeps the batch and stays silent exactly as
  long as it was asked to**.
* `partial_success_counted` — **a collector that took a part of a fresh batch is not sent it
  again**, and what it rejected is counted, over both transports.
-/

set_option autoImplicit false

namespace NgxOtel.Transport

open Word Drain Calendar

/-! ## Messages -/

/-- `Export*PartialSuccess`; the three differ in the name of the count only. -/
structure PartialSuccess where
  rejected : Int64

structure ProtoAny where
  typeUrl : String
  value : Bytes

/-- `prost_types::Duration`. -/
structure ProtoDuration where
  seconds : Int64
  nanos : Int32
  deriving DecidableEq

/-- `Message::decode` for the messages that come back, `none` when it fails: the `partial_success`
of the response to a signal, the `details` of an `RpcStatus` and the `retry_delay` of a
`RetryInfo`. -/
structure Decoders where
  response : Signal → Bytes → Option (Option PartialSuccess)
  rpcStatus : Bytes → Option (List ProtoAny)
  retryInfo : Bytes → Option (Option ProtoDuration)

variable (decoders : Decoders)

/-! ## HTTP -/

/-- `decode_partial_success_rejected`: a body that cannot be read rejects nothing. -/
def decodePartialSuccessRejected (signal : Signal) (body : Bytes) : Nat :=
  let rejected : Int64 :=
    match decoders.response signal body with
    | some response => (response.map (·.rejected)).getD 0
    | none => 0
  if rejected < 0 then 0 else rejected.toInt.toNat

/-- `HeaderValue::to_str`: visible ASCII, blanks and tabs. -/
def toStr (value : Bytes) : Option Bytes :=
  if value.all fun c => (32 ≤ c && c < 127) || c = 9 then some value else none

/-- A `Duration` of nanoseconds. -/
def durationOfNanos (n : Nat) : Duration := ⟨n / 1000000000, n % 1000000000⟩

/-- `parse_retry_after`, with the clock in nanoseconds since the epoch. -/
def parseRetryAfter (nowNs : Nat) (value : Bytes) : Option Duration :=
  let v := Decimal.trim value
  match Decimal.parseUnsigned U64_MAX v with
  | some secs => some ⟨secs, 0⟩
  | none =>
    match parseImfFixdate v with
    | some t =>
      if nowNs ≤ t * 1000000000 then some (durationOfNanos (t * 1000000000 - nowNs)) else none
    | none => none

/-- `map_http_status_to_outcome`. -/
def mapHttpStatusToOutcome (status : Nat) (retryAfter : Option Duration) : DeliveryOutcome :=
  if status = 429 ∨ status = 502 ∨ status = 503 ∨ status = 504 then .retryable retryAfter
  else if status = 401 ∨ status = 403 then .unauthorized
  else .permanent

structure HttpResponse where
  status : Nat
  retryAfter : Option Bytes
  body : Bytes

/-- `http_response_to_outcome`. -/
def httpResponseToOutcome (signal : Signal) (nowNs : Nat) (r : HttpResponse) : DeliveryOutcome :=
  if 200 ≤ r.status ∧ r.status < 300 then
    let rejected := decodePartialSuccessRejected decoders signal r.body
    if rejected > 0 then .partialReject rejected else .accepted
  else
    mapHttpStatusToOutcome r.status ((r.retryAfter.bind toStr).bind (parseRetryAfter nowNs))

/-! ## gRPC -/

/-- `tonic::Code`. -/
inductive Code where
  | ok
  | cancelled
  | unknown
  | invalidArgument
  | deadlineExceeded
  | notFound
  | alreadyExists
  | permissionDenied
  | resourceExhausted
  | failedPrecondition
  | aborted
  | outOfRange
  | unimplemented
  | internal
  | unavailable
  | dataLoss
  | unauthenticated
  deriving DecidableEq, Repr

structure GrpcStatus where
  code : Code
  pushback : Option Bytes
  details : Bytes

/-- `Duration::from_millis`. -/
def durationOfMillis (ms : Nat) : Duration := ⟨ms / 1000, ms % 1000 * 1000000⟩

/-- `proto_duration_to_std`. -/
def protoDurationToStd (d : ProtoDuration) : Option Duration :=
  let totalNanos := d.seconds.toInt * 1000000000 + d.nanos.toInt
  if totalNanos ≤ 0 then none else some (durationOfNanos totalNanos.toNat)

def RETRY_INFO_TYPE_SUFFIX : String := "google.rpc.RetryInfo"

def ProtoAny.isRetryInfo (any : ProtoAny) : Bool :=
  RETRY_INFO_TYPE_SUFFIX.toList.isSuffixOf any.typeUrl.toList

/-- The loop over the details; a `RetryInfo` that cannot be read ends it. -/
def firstRetryDelay : List ProtoAny → Option Duration
  | [] => none
  | any :: details =>
    if any.isRetryInfo then
      match decoders.retryInfo any.value with
      | none => none
      | some (some d) => protoDurationToStd d
      | some none => firstRetryDelay details
    else firstRetryDelay details

/-- `extract_retry_info_from_details`. -/
def extractRetryInfoFromDetails (raw : Bytes) : Option Duration :=
  if raw.isEmpty then none
  else (decoders.rpcStatus raw).bind (firstRetryDelay decoders)

/-- The `grpc-retry-pushback-ms` trailer. -/
def pushbackHint (value : Bytes) : Option Duration :=
  (toStr value).bind fun s =>
    (Decimal.parseSigned 63 (Decimal.trim s)).bind fun ms =>
      if ms > 0 then some (durationOfMillis ms.toNat) else none

/-- `extract_grpc_retry_hint`. -/
def extractGrpcRetryHint (status : GrpcStatus) : Option Duration :=
  match status.pushback.bind pushbackHint with
  | some hint => some hint
  | none => extractRetryInfoFromDetails decoders status.details

/-- `grpc_code_to_outcome`. -/
def grpcCodeToOutcome (code : Code) (hint : Option Duration) : DeliveryOutcome :=
  match code with
  | .ok => .accepted
  | .cancelled | .deadlineExceeded | .aborted | .outOfRange | .unavailable | .dataLoss =>
    .retryable hint
  | .resourceExhausted => if hint.isSome then .retryable hint else .permanent
  | .invalidArgument | .internal | .unimplemented => .permanent
  | .unauthenticated | .permissionDenied => .unauthorized
  | _ => .permanent

/-- `grpc_status_to_outcome`. -/
def grpcStatusToOutcome (status : GrpcStatus) : DeliveryOutcome :=
  grpcCodeToOutcome status.code (extractGrpcRetryHint decoders status)

/-- A call that went well, with the message that came back. -/
def grpcResponseToOutcome (response : Option PartialSuccess) : DeliveryOutcome :=
  let rejected :=
    (response.map fun ps => if ps.rejected > 0 then ps.rejected.toInt.toNat else 0).getD 0
  if rejected > 0 then .partialReject rejected else .accepted

/-! ## Answers -/

inductive Answer where
  | http (response : HttpResponse)
  | grpcStatus (status : GrpcStatus)
  | grpcOk (response : Option PartialSuccess)

def Answer.outcome (signal : Signal) (nowNs : Nat) : Answer → DeliveryOutcome
  | .http response => httpResponseToOutcome decoders signal nowNs response
  | .grpcStatus status => grpcStatusToOutcome decoders status
  | .grpcOk response => grpcResponseToOutcome response

/-! ## Delays that are asked for -/

variable {decoders}

/-- A text between blanks and tabs. -/
structure Padded (text header : Bytes) (before after : Bytes) : Prop where
  eq : header = before ++ (text ++ after)
  before : ∀ c ∈ before, c = 32 ∨ c = 9
  after : ∀ c ∈ after, c = 32 ∨ c = 9

/-- The codes after which a delay is taken. -/
def Code.mayRetry (code : Code) : Bool :=
  code ∈ [.cancelled, .deadlineExceeded, .aborted, .outOfRange, .unavailable, .dataLoss,
    .resourceExhausted]

/-- A detail of the type `RetryInfo`. -/
def ProtoAny.NamesRetryInfo (any : ProtoAny) : Prop :=
  "google.rpc.RetryInfo".toList <:+ any.typeUrl.toList

instance (any : ProtoAny) : Decidable any.NamesRetryInfo := inferInstanceAs (Decidable (_ <:+ _))

/-- A collector answers that it wants to be left alone for some nanoseconds. -/
inductive Asks (decoders : Decoders) (nowNs : Nat) : Answer → Nat → Prop
  /-- `Retry-After: 120` -/
  | seconds {status : Nat} {digits header before after body : Bytes}
      (hstatus : status = 429 ∨ status = 502 ∨ status = 503 ∨ status = 504)
      (hheader : Padded digits header before after) (hne : digits ≠ [])
      (hdigits : ∀ c ∈ digits, Decimal.isDigit c = true)
      (hlimit : Decimal.value 0 digits < 2 ^ 64) :
      Asks decoders nowNs (.http ⟨status, some header, body⟩)
        (Decimal.value 0 digits * 1000000000)
  /-- `Retry-After: Mon, 15 Jun 2026 12:00:00 GMT`, that many days and a time after the epoch -/
  | date {status day month year hour min sec days t : Nat} {a b c : UInt8}
      {header before after body : Bytes}
      (hstatus : status = 429 ∨ status = 502 ∨ status = 503 ∨ status = 504)
      (hheader : Padded (imfFixdate [a, b, c] day month year hour min sec) header before after)
      (hvisible : ∀ x ∈ [a, b, c], 32 ≤ x ∧ x < 127) (hfirst : a ≠ 32)
      (hdate : (⟨year, month, day⟩ : Date).Valid) (hyear : year < 10000) (hhour : hour ≤ 23)
      (hmin : min ≤ 59) (hsec : sec ≤ 60) (hdays : Date.next^[days] EPOCH = ⟨year, month, day⟩)
      (htime : t = 86400 * days + 3600 * hour + 60 * min + sec)
      (hfuture : nowNs ≤ t * 1000000000) :
      Asks decoders nowNs (.http ⟨status, some header, body⟩) (t * 1000000000 - nowNs)
  /-- `grpc-retry-pushback-ms: 500` -/
  | pushback {code : Code} {digits header before after details : Bytes}
      (hcode : code.mayRetry = true) (hheader : Padded digits header before after)
      (hne : digits ≠ []) (hdigits : ∀ c ∈ digits, Decimal.isDigit c = true)
      (hpos : 0 < Decimal.value 0 digits) (hlimit : Decimal.value 0 digits < 2 ^ 63) :
      Asks decoders nowNs (.grpcStatus ⟨code, some header, details⟩)
        (Decimal.value 0 digits * 1000000)
  /-- a `RetryInfo` with a delay, behind details of other types and `RetryInfo`s without one -/
  | retryInfo {code : Code} {details : Bytes} {others later : List ProtoAny} {any : ProtoAny}
      {d : ProtoDuration} (hcode : code.mayRetry = true) (hne : details ≠ [])
      (hstatus : decoders.rpcStatus details = some (others ++ any :: later))
      (hothers : ∀ x ∈ others, x.NamesRetryInfo → decoders.retryInfo x.value = some none)
      (htype : any.NamesRetryInfo) (hinfo : decoders.retryInfo any.value = some (some d))
      (hpos : 0 < d.seconds.toInt * 1000000000 + d.nanos.toInt) :
      Asks decoders nowNs (.grpcStatus ⟨code, none, details⟩)
        (d.seconds.toInt * 1000000000 + d.nanos.toInt).toNat

section Headers

variable {text header before after : Bytes}

theorem isBlank_of_padding {c : UInt8} (h : c = 32 ∨ c = 9) : Decimal.isBlank c = true := by
  rcases h with rfl | rfl <;> decide

theorem Padded.trim (h : Padded text header before after) (hne : text ≠ [])
    (hhead : ∀ c ∈ text.head?, Decimal.isBlank c = false)
    (hlast : ∀ c ∈ text.getLast?, Decimal.isBlank c = false) : Decimal.trim header = text := by
  rw [h.eq]
  exact Decimal.trim_between (fun c hc => isBlank_of_padding (h.before c hc))
    (fun c hc => isBlank_of_padding (h.after c hc)) hne hhead hlast

theorem Padded.trim_digits (h : Padded text header before after) (hne : text ≠ [])
    (hdigits : ∀ c ∈ text, Decimal.isDigit c = true) : Decimal.trim header = text :=
  h.trim hne
    (fun c hc => Decimal.not_isBlank_of_isDigit (hdigits c (List.mem_of_head? hc)))
    (fun c hc => Decimal.not_isBlank_of_isDigit (hdigits c (List.mem_of_getLast? hc)))

theorem Padded.toStr (h : Padded text header before after)
    (hvisible : ∀ c ∈ text, 32 ≤ c ∧ c < 127) : Transport.toStr header = some header := by
  have hpadding : ∀ c : UInt8, c = 32 ∨ c = 9 →
      ((32 ≤ c && c < 127) || (c = 9 : Bool)) = true := by
    rintro c (rfl | rfl) <;> decide
  have hall : header.all (fun c => (32 ≤ c && c < 127) || c = 9) = true := by
    rw [List.all_eq_true, h.eq]
    intro c hc
    rcases List.mem_append.mp hc with hc | hc
    · exact hpadding c (h.before c hc)
    rcases List.mem_append.mp hc with hc | hc
    · simp [hvisible c hc]
    · exact hpadding c (h.after c hc)
  rw [Transport.toStr, if_pos hall]

theorem visible_of_isDigit {c : UInt8} (h : Decimal.isDigit c = true) : 32 ≤ c ∧ c < 127 := by
  simp only [Decimal.isDigit, Bool.and_eq_true, decide_eq_true_eq, UInt8.le_iff_toNat_le,
    UInt8.lt_iff_toNat_lt, UInt8.reduceToNat] at h ⊢
  omega

theorem isBlank_of_visible {c : UInt8} (hvisible : 32 ≤ c ∧ c < 127) (h : c ≠ 32) :
    Decimal.isBlank c = false := by
  have hlow : 32 ≤ c.toNat := UInt8.le_iff_toNat_le.mp hvisible.1
  have hhigh : ¬ c ≤ 13 := fun h13 => by
    have h13' : c.toNat ≤ 13 := UInt8.le_iff_toNat_le.mp h13
    omega
  simp [Decimal.isBlank, h, hhigh]

theorem visible_digits : ∀ k n, ∀ c ∈ digits k n, 32 ≤ c ∧ c < 127
  | 0, _, c, hc => by cases hc
  | k + 1, n, c, hc => by
    rw [digits, List.mem_append, List.mem_singleton] at hc
    rcases hc with hc | rfl
    · exact visible_digits k (n / 10) c hc
    · have hdigit := (isDigit_iff (UInt8.ofNat (48 + n % 10))).mpr ⟨n % 10, by omega, rfl⟩
      exact visible_of_isDigit (by simpa [Decimal.isDigit] using hdigit)

theorem visible_imfFixdate {dow : Bytes} {month : Nat} (hdow : ∀ c ∈ dow, 32 ≤ c ∧ c < 127)
    (hlow : 1 ≤ month) (hhigh : month ≤ 12) (day year hour min sec : Nat) :
    ∀ c ∈ imfFixdate dow day month year hour min sec, 32 ≤ c ∧ c < 127 := by
  have hfixed : ∀ {text : Bytes}, (text.all fun c => 32 ≤ c && c < 127) = true →
      ∀ c ∈ text, 32 ≤ c ∧ c < 127 := by
    intro text h
    simpa using h
  have hmonth : (monthName month).all (fun c => 32 ≤ c && c < 127) = true := by
    interval_cases month <;> rfl
  simp only [imfFixdate, layout, List.forall_mem_append]
  exact ⟨hdow, hfixed rfl, visible_digits 2 day, hfixed rfl, hfixed hmonth, hfixed rfl,
    visible_digits 4 year, hfixed rfl, visible_digits 2 hour, hfixed rfl, visible_digits 2 min,
    hfixed rfl, visible_digits 2 sec, hfixed rfl⟩

end Headers

theorem parseRetryAfter_seconds {digits header before after : Bytes} (nowNs : Nat)
    (hheader : Padded digits header before after) (hne : digits ≠ [])
    (hdigits : ∀ c ∈ digits, Decimal.isDigit c = true)
    (hlimit : Decimal.value 0 digits < 2 ^ 64) :
    parseRetryAfter nowNs header = some ⟨Decimal.value 0 digits, 0⟩ := by
  have hle : Decimal.value 0 digits ≤ U64_MAX := Nat.le_pred_of_lt hlimit
  simp only [parseRetryAfter, hheader.trim_digits hne hdigits,
    Decimal.parseUnsigned_digits hne hdigits hle]

theorem parseRetryAfter_date {a b c : UInt8} {day month year hour min sec t nowNs : Nat}
    {header before after : Bytes}
    (hheader : Padded (imfFixdate [a, b, c] day month year hour min sec) header before after)
    (hfirst : Decimal.isBlank a = false)
    (hdate : parseImfFixdate (imfFixdate [a, b, c] day month year hour min sec) = some t)
    (hfuture : nowNs ≤ t * 1000000000) :
    parseRetryAfter nowNs header = some (durationOfNanos (t * 1000000000 - nowNs)) := by
  have htext : imfFixdate [a, b, c] day month year hour min sec =
      a :: (imfFixdate [a, b, c] day month year hour min sec).tail := rfl
  have htrim : Decimal.trim header = imfFixdate [a, b, c] day month year hour min sec := by
    refine hheader.trim (by rw [htext]; exact List.cons_ne_nil _ _) ?_ ?_
    · rw [htext]
      rintro x ⟨⟩
      exact hfirst
    · intro x hx
      have hlast : (imfFixdate [a, b, c] day month year hour min sec).getLast? = some 84 := by
        simp only [imfFixdate, layout, List.getLast?_append]
        rfl
      rw [hlast] at hx
      cases hx
      decide
  -- the comma is no digit
  have hnumber : Decimal.parseUnsigned U64_MAX
      (imfFixdate [a, b, c] day month year hour min sec) = none := by
    rw [htext]
    exact Decimal.parseUnsigned_none (c := 44) (by simp [imfFixdate, layout]) (by decide)
  simp only [parseRetryAfter, htrim, hnumber, hdate, if_pos hfuture]

theorem pushbackHint_digits {digits header before after : Bytes}
    (hheader : Padded digits header before after) (hne : digits ≠ [])
    (hdigits : ∀ c ∈ digits, Decimal.isDigit c = true) (hpos : 0 < Decimal.value 0 digits)
    (hlimit : Decimal.value 0 digits < 2 ^ 63) :
    pushbackHint header = some (durationOfMillis (Decimal.value 0 digits)) := by
  have hstr := hheader.toStr fun c hc => visible_of_isDigit (hdigits c hc)
  have hms : (Decimal.value 0 digits : Int) > 0 := by exact_mod_cast hpos
  simp only [pushbackHint, hstr, Option.bind_some, hheader.trim_digits hne hdigits,
    Decimal.parseSigned_digits hne hdigits hlimit, if_pos hms, Int.toNat_natCast]

theorem ProtoAny.isRetryInfo_iff (any : ProtoAny) :
    any.isRetryInfo = true ↔ any.NamesRetryInfo :=
  List.isSuffixOf_iff_suffix

/-- The loop takes the delay of the first `RetryInfo` that has one. -/
theorem firstRetryDelay_append {any : ProtoAny} {d : ProtoDuration} {later : List ProtoAny}
    (htype : any.NamesRetryInfo) (hinfo : decoders.retryInfo any.value = some (some d)) :
    ∀ {others : List ProtoAny},
      (∀ x ∈ others, x.NamesRetryInfo → decoders.retryInfo x.value = some none) →
      firstRetryDelay decoders (others ++ any :: later) = protoDurationToStd d
  | [], _ => by
    rw [List.nil_append, firstRetryDelay, if_pos (any.isRetryInfo_iff.mpr htype), hinfo]
  | x :: others, hothers => by
    rw [List.forall_mem_cons] at hothers
    have hrest : firstRetryDelay decoders (others ++ any :: later) = protoDurationToStd d :=
      firstRetryDelay_append htype hinfo hothers.2
    rw [List.cons_append, firstRetryDelay]
    split
    · next hx =>
      rw [hothers.1 (x.isRetryInfo_iff.mp hx)]
      exact hrest
    · exact hrest

theorem grpcCodeToOutcome_hint {code : Code} (h : code.mayRetry = true) (hint : Duration) :
    grpcCodeToOutcome code (some hint) = .retryable (some hint) := by
  cases code <;> first | rfl | exact absurd h (by decide)

theorem asMillis_durationOfNanos (n : Nat) : (durationOfNanos n).asMillis = n / 1000000 := by
  simp only [Duration.asMillis, durationOfNanos]
  omega

theorem asMillis_durationOfMillis (ms : Nat) :
    (durationOfMillis ms).asMillis = ms * 1000000 / 1000000 := by
  simp only [Duration.asMillis, durationOfMillis]
  omega

/-- **Each way of asking for a delay is understood.** -/
theorem outcome_of_asks {nowNs ns : Nat} {answer : Answer} (signal : Signal)
    (h : Asks decoders nowNs answer ns) : ∃ delay : Duration,
      answer.outcome decoders signal nowNs = .retryable (some delay) ∧
        delay.asMillis = ns / 1000000 := by
  have hhttp : ∀ {status : Nat} {header body : Bytes} {hint : Duration},
      (status = 429 ∨ status = 502 ∨ status = 503 ∨ status = 504) →
      toStr header = some header → parseRetryAfter nowNs header = some hint →
      httpResponseToOutcome decoders signal nowNs ⟨status, some header, body⟩ =
        .retryable (some hint) := by
    intro status header body hint hstatus hstr hparse
    rw [httpResponseToOutcome, if_neg (by dsimp only; omega)]
    simp only [Option.bind_some, hstr, hparse, mapHttpStatusToOutcome, if_pos hstatus]
  cases h with
  | @seconds status digits header before after body hstatus hheader hne hdigits hlimit =>
    refine ⟨⟨Decimal.value 0 digits, 0⟩, ?_, ?_⟩
    · exact hhttp hstatus (hheader.toStr fun c hc => visible_of_isDigit (hdigits c hc))
        (parseRetryAfter_seconds nowNs hheader hne hdigits hlimit)
    · simp only [Duration.asMillis]
      omega
  | @date status day month year hour min sec days t a b c header before after body hstatus hheader
      hvisible hfirst hdate hyear hhour hmin hsec hdays htime hfuture =>
    have hparse : parseImfFixdate (imfFixdate [a, b, c] day month year hour min sec) = some t :=
      (parseImfFixdate_iff _ t).mpr ⟨[a, b, c], day, month, year, hour, min, sec, days, rfl, rfl,
        hdate, hyear, hhour, hmin, hsec, hdays, htime⟩
    have hblank := isBlank_of_visible (hvisible a List.mem_cons_self) hfirst
    refine ⟨durationOfNanos (t * 1000000000 - nowNs), ?_, asMillis_durationOfNanos _⟩
    exact hhttp hstatus (hheader.toStr (visible_imfFixdate hvisible hdate.month_pos hdate.month_le
      _ _ _ _ _))
      (parseRetryAfter_date hheader hblank hparse hfuture)
  | pushback hcode hheader hne hdigits hpos hlimit =>
    have hhint := pushbackHint_digits hheader hne hdigits hpos hlimit
    refine ⟨_, ?_, asMillis_durationOfMillis _⟩
    simp only [Answer.outcome, grpcStatusToOutcome, extractGrpcRetryHint, Option.bind_some, hhint]
    exact grpcCodeToOutcome_hint hcode _
  | @retryInfo code details others later any d hcode hne hstatus hothers htype hinfo hpos =>
    have hdelay : extractRetryInfoFromDetails decoders details = protoDurationToStd d := by
      rw [extractRetryInfoFromDetails, if_neg (by simpa using hne), hstatus, Option.bind_some]
      exact firstRetryDelay_append htype hinfo hothers
    rw [protoDurationToStd, if_neg (by omega)] at hdelay
    refine ⟨_, ?_, asMillis_durationOfNanos _⟩
    simp only [Answer.outcome, grpcStatusToOutcome, extractGrpcRetryHint, Option.bind_none, hdelay]
    exact grpcCodeToOutcome_hint hcode _

theorem getLast?_enqueueWithEviction (queue : List Batch) (batch : Batch) (depth : Nat) :
    (enqueueWithEviction queue batch depth).1.getLast? = some batch := by
  unfold enqueueWithEviction
  split
  · cases queue <;> simp
  · simp

/-- **After a fresh send the lane keeps the batch and stays silent exactly as long as it was asked
to.**  Whatever the lane went through before, the batch is the newest in its queue, and a clock
reading finds the lane deferred exactly before the end of the delay, in whole milliseconds and at
least one. -/
theorem asked_delay_honoured {nowNs ns : Nat} {answer : Answer} (signal : Signal)
    (hasks : Asks decoders nowNs answer ns) (depth : Nat) (batch : Batch)
    (hn : batch.nRecords ≠ 0) (start finish : Nat) (l : Lane) :
    let l' := sendFreshBatch depth batch
      ⟨start, finish, .outcome (answer.outcome decoders signal nowNs)⟩ l
    l'.queue.getLast? = some batch ∧
      ∀ t, t < 2 ^ 64 - 1 →
        (l'.backoff.isDeferred t = true ↔ t < finish + max (ns / 1000000) 1) := by
  intro l'
  obtain ⟨delay, hreply, hmillis⟩ := outcome_of_asks signal hasks
  obtain ⟨-, hdefer, hqueue⟩ := sendFreshBatch_spec depth hn
    ⟨start, finish, .outcome (answer.outcome decoders signal nowNs)⟩ l
  have hsettled : (freshSend l batch
      ⟨start, finish, .outcome (answer.outcome decoders signal nowNs)⟩).settled = 0 := by
    rw [hreply]
    rfl
  constructor
  · rcases hqueue with ⟨-, -, hset⟩ | ⟨hq, -, -⟩
    · exact absurd (hset.symm.trans hsettled) hn
    · rw [hq]
      exact getLast?_enqueueWithEviction l.queue batch depth
  · intro t hmax
    have hnot := hdefer (l.backoff.deferral (some delay)) (by rw [freshSend, hreply]; rfl)
    have hdelay : l.backoff.deferral (some delay) = max (min (ns / 1000000) U64_MAX) 1 := by
      rw [← hmillis]
      rfl
    rw [hdelay] at hnot
    rw [SignalBackoff.isDeferred, hnot, Bool.and_eq_true, decide_eq_true_eq, decide_eq_true_eq]
    simp only [U64_MAX]
    omega

/-- A response that rejects three records, and a status that asks for a second and a half behind
another detail. -/
def cannedDecoders : Decoders where
  response _ _ := some (some ⟨3⟩)
  rpcStatus _ := some ([⟨"type.googleapis.com/google.rpc.DebugInfo", [1]⟩] ++
    ⟨"type.googleapis.com/google.rpc.RetryInfo", [2]⟩ :: [])
  retryInfo _ := some (some ⟨1, 500000000⟩)

def busyStatus : GrpcStatus := ⟨.unavailable, none, [3]⟩

theorem asked_delay_honoured_busyStatus :
    let l' := sendFreshBatch 4 ⟨[1], 3⟩
      ⟨0, 1000, .outcome ((Answer.grpcStatus busyStatus).outcome cannedDecoders .logs 0)⟩
      Lane.empty
    l'.backoff.isDeferred 2499 = true ∧ l'.backoff.isDeferred 2500 = false := by
  have hasks : Asks cannedDecoders 0 (.grpcStatus busyStatus)
      ((1 : Int64).toInt * 1000000000 + (500000000 : Int32).toInt).toNat :=
    .retryInfo (d := ⟨1, 500000000⟩) rfl (List.cons_ne_nil _ _) rfl (by decide) (by decide) rfl
      (by decide)
  have hdeferred :=
    (asked_delay_honoured .logs hasks 4 ⟨[1], 3⟩ (by decide) 0 1000 Lane.empty).2
  refine ⟨(hdeferred 2499 (by decide)).mpr (by decide), ?_⟩
  rw [← Bool.not_eq_true, hdeferred 2500 (by decide)]
  decide

/-! ## Parts that are rejected -/

/-- A collector took the batch, but for what it says that it rejects.  A body over HTTP that cannot
be read says nothing. -/
inductive Took (decoders : Decoders) (signal : Signal) : Option PartialSuccess → Answer → Prop
  | http {response : Option PartialSuccess} {status : Nat} {retryAfter : Option Bytes}
      {body : Bytes} (hstatus : 200 ≤ status ∧ status < 300)
      (hbody : decoders.response signal body = some response) :
      Took decoders signal response (.http ⟨status, retryAfter, body⟩)
  | unread {status : Nat} {retryAfter : Option Bytes} {body : Bytes}
      (hstatus : 200 ≤ status ∧ status < 300) (hbody : decoders.response signal body = none) :
      Took decoders signal none (.http ⟨status, retryAfter, body⟩)
  | grpc (response : Option PartialSuccess) : Took decoders signal response (.grpcOk response)

/-- The count in a response; one below zero is none. -/
def rejectedCount (response : Option PartialSuccess) : Nat :=
  (response.map fun ps => ps.rejected.toInt.toNat).getD 0

theorem rejected_nonneg (n : Int64) : (if n < 0 then 0 else n.toInt.toNat) = n.toInt.toNat := by
  split
  · next h =>
    have hneg : n.toInt < 0 := Int64.lt_iff_toInt_lt.mp h
    omega
  · rfl

theorem decodePartialSuccessRejected_eq (signal : Signal) (body : Bytes) :
    decodePartialSuccessRejected decoders signal body =
      rejectedCount ((decoders.response signal body).getD none) := by
  rw [decodePartialSuccessRejected]
  rcases decoders.response signal body with - | - | ps
  · rfl
  · rfl
  · exact rejected_nonneg ps.rejected

theorem grpcResponseToOutcome_eq (response : Option PartialSuccess) :
    grpcResponseToOutcome response =
      if rejectedCount response > 0 then .partialReject (rejectedCount response)
      else .accepted := by
  have hcount : (response.map fun ps =>
      if ps.rejected > 0 then ps.rejected.toInt.toNat else 0).getD 0 = rejectedCount response := by
    cases response with
    | none => rfl
    | some ps =>
      show (if ps.rejected > 0 then ps.rejected.toInt.toNat else 0) = ps.rejected.toInt.toNat
      split
      · rfl
      · next h =>
        have hle : ¬ (0 : Int64).toInt < ps.rejected.toInt := fun hlt =>
          h (Int64.lt_iff_toInt_lt.mpr hlt)
        have hzero : (0 : Int64).toInt = 0 := by decide
        omega
  rw [grpcResponseToOutcome, hcount]

theorem outcome_of_took {response : Option PartialSuccess} {answer : Answer} {signal : Signal}
    (nowNs : Nat) (h : Took decoders signal response answer) :
    answer.outcome decoders signal nowNs =
      if rejectedCount response > 0 then .partialReject (rejectedCount response)
      else .accepted := by
  cases h with
  | http hstatus hbody | unread hstatus hbody =>
    rw [Answer.outcome, httpResponseToOutcome, if_pos hstatus]
    simp only [decodePartialSuccessRejected_eq, hbody, Option.getD_some, Option.getD_none]
  | grpc => exact grpcResponseToOutcome_eq response

/-- **A collector that took a part of a fresh batch is not sent it again**, and what it rejects is
counted: the same for every signal and over both transports. -/
theorem partial_success_counted {response : Option PartialSuccess} {answer : Answer}
    {signal : Signal} (htook : Took decoders signal response answer)
    (nowNs depth start finish : Nat) (batch : Batch) (hn : batch.nRecords ≠ 0) (l : Lane) :
    let l' := sendFreshBatch depth batch
      ⟨start, finish, .outcome (answer.outcome decoders signal nowNs)⟩ l
    l'.queue = l.queue ∧ l'.evicted = l.evicted ∧ l'.backoff = ⟨0, 0⟩ ∧
      l'.metrics = if rejectedCount response = 0 then l.metrics else
        { l.metrics with
          partialRejected := addW 64 l.metrics.partialRejected (rejectedCount response) } := by
  have houtcome := outcome_of_took nowNs htook
  by_cases hzero : rejectedCount response = 0
  · rw [if_neg (by omega)] at houtcome
    simp [sendFreshBatch, hn, houtcome, handleFreshSendOutcome, applyDeliveryOutcome, Lane.record,
      hzero, SignalBackoff.default]
  · rw [if_pos (by omega)] at houtcome
    simp [sendFreshBatch, hn, houtcome, handleFreshSendOutcome, applyDeliveryOutcome, Lane.record,
      hzero, SignalBackoff.default]

theorem partial_success_counted_three :
    (sendFreshBatch 4 ⟨[1], 5⟩
      ⟨0, 1, .outcome ((Answer.http ⟨200, none, [8]⟩).outcome cannedDecoders .spans 0)⟩
      Lane.empty).metrics.partialRejected = 3 := by
  have htook : Took cannedDecoders .spans (some ⟨3⟩) (.http ⟨200, none, [8]⟩) :=
    .http (by decide) rfl
  rw [(partial_success_counted htook 0 4 0 1 ⟨[1], 5⟩ (by decide) Lane.empty).2.2.2]
  rfl

end NgxOtel.Transport
