import NgxOtel.Coalesce.Table
import NgxOtel.DataModel

/-!
# Error records: the ring format and the exported form

`push_error_record` (`logs/error_writer.rs`) writes a line into the ring, `parse_error_record` and
`parse_error_record_consuming` (`drain/mod.rs`) turn it into a log record and say which coalescer
count it has used up; counts whose line never reached the ring become synthetic records.

* `errorRecord`, `parseErrorRecord` — the two sides of the wire format.
* `orphanPass` — the synthetic records of a collection.
* `weight` — how many lines a record stands for.

## Results

* `parseErrorRecord_errorRecord` — **round trip**: the exporter reads back what the writer wrote, the
  body cut to its limit; `parseErrorRecordConsuming_errorRecord` adds the hash that it consumes.
* `weight_errorLogRecord`, `weight_syntheticRecord` — what the two kinds of record stand for.
-/

set_option autoImplicit false

namespace NgxOtel.ErrorLog

open Word DataModel

variable {F : Type}

/-! ## The wire format -/

def KIND_ERROR : UInt8 := 0x01
def ERROR_RECORD_HDR : Nat := 20
def MAX_ERROR_BODY_LEN : Nat := 512

/-- The record that `push_error_record` pushes. -/
def errorRecord (tsNs : UInt64) (ngxLevel : UInt8) (templateHash : UInt64) (body : Bytes) : Bytes :=
  let bodyLen := min body.length MAX_ERROR_BODY_LEN
  [KIND_ERROR] ++ toBe 8 tsNs.toNat ++ [ngxLevel] ++ toBe 8 templateHash.toNat ++ toBe 2 bodyLen ++
    body.take bodyLen

/-- `buf[lo..hi]`. -/
def slice (buf : Bytes) (lo hi : Nat) : Bytes := (buf.drop lo).take (hi - lo)

/-- `u64::from_be_bytes`. -/
def u64FromBe (bytes : Bytes) : UInt64 := UInt64.ofNat (ofBe bytes)

/-! ## Log records -/

/-- `nginx_to_otel`. -/
def nginxToOtel : Nat → SeverityNumber × String
  | 1 => (.fatal4, "emerg")
  | 2 => (.fatal2, "alert")
  | 3 => (.fatal, "crit")
  | 4 => (.error, "error")
  | 5 => (.warn, "warn")
  | 6 => (.info2, "notice")
  | 7 => (.info, "info")
  | 8 => (.debug, "debug")
  | _ => (.unspecified, "")

def TEMPLATE_HASH : String := "nginx.error.template_hash"
def COALESCED_COUNT : String := "nginx.error.coalesced_count"

/-- `hash as i64`. -/
def asI64 (hash : UInt64) : Int := hash.toInt64.toInt

/-- What `drain_coalesce_table` returned: key, severity and count. -/
abbrev Counts := List (UInt64 × UInt8 × Nat)

/-- `counts_map.get`: the map is collected from the tuples in order, a later one replaces an
earlier one. -/
def Counts.get (counts : Counts) (hash : UInt64) : Option Nat :=
  (counts.reverse.find? fun x => x.1 = hash).map fun x => x.2.2

/-- The attributes of a verbatim record: nothing for an untracked line, a count above 1 only. -/
def errorAttributes (templateHash : UInt64) (counts : Counts) : List (KeyValue F) :=
  if templateHash ≠ 0 then
    let count := (counts.get templateHash).getD 0
    ⟨TEMPLATE_HASH, .int (asI64 templateHash)⟩ ::
      if count > 1 then [⟨COALESCED_COUNT, .int count⟩] else []
  else []

/-- The record that `parse_error_record` builds from the fields; it has no trace context. -/
def errorLogRecord (dec : Decoding F) (ts : UInt64) (ngxLevel : UInt8) (templateHash : UInt64)
    (body : Bytes) (observedNowNs : UInt64) (counts : Counts) : LogRecord F :=
  { timeUnixNano := ts
    observedTimeUnixNano := observedNowNs
    severityNumber := (nginxToOtel ngxLevel.toNat).1
    severityText := (nginxToOtel ngxLevel.toNat).2
    body := .string (dec.lossy body)
    attributes := errorAttributes templateHash counts
    eventName := "nginx.error"
    traceId := []
    spanId := [] }

/-- `parse_error_record`. -/
def parseErrorRecord (dec : Decoding F) (buf : Bytes) (observedNowNs : UInt64) (counts : Counts) :
    Option (LogRecord F) :=
  if buf.length < ERROR_RECORD_HDR then none
  else if buf.getD 0 0 ≠ KIND_ERROR then none
  else
    let bodyLen := ofBe (slice buf 18 20)
    if ERROR_RECORD_HDR + bodyLen > buf.length then none
    else some (errorLogRecord dec (u64FromBe (slice buf 1 9)) (buf.getD 9 0)
      (u64FromBe (slice buf 10 18)) (slice buf ERROR_RECORD_HDR (ERROR_RECORD_HDR + bodyLen))
      observedNowNs counts)

/-- `parse_error_record_consuming`: a rejected record consumes no hash. -/
def parseErrorRecordConsuming (dec : Decoding F) (buf : Bytes) (observedNowNs : UInt64)
    (counts : Counts) : Option (LogRecord F) × Option UInt64 :=
  match parseErrorRecord dec buf observedNowNs counts with
  | some lr =>
    let th := u64FromBe (slice buf 10 18)
    (some lr, if th ≠ 0 then some th else none)
  | none => (none, none)

/-- The record of a count whose line did not reach the ring. -/
def syntheticRecord (now hash : UInt64) (severity : UInt8) (count : Nat) : LogRecord F :=
  { timeUnixNano := now
    observedTimeUnixNano := now
    severityNumber := (nginxToOtel severity.toNat).1
    severityText := (nginxToOtel severity.toNat).2
    body := .string "(ring-full: verbatim sample dropped — occurrence count preserved)"
    attributes := [⟨TEMPLATE_HASH, .int (asI64 hash)⟩, ⟨COALESCED_COUNT, .int count⟩]
    eventName := "nginx.error"
    traceId := []
    spanId := [] }

/-- The tuples that the orphan pass emits. -/
def orphans (counts : Counts) (consumed : List UInt64) : Counts :=
  counts.filter fun x => x.2.2 > 0 ∧ x.1 ∉ consumed

/-- The orphan pass: the synthetic records, and `total_orphaned`. -/
def orphanPass (now : UInt64) (counts : Counts) (consumed : List UInt64) :
    List (LogRecord F) × Nat :=
  ((orphans counts consumed).map fun x => syntheticRecord now x.1 x.2.1 x.2.2,
    ((orphans counts consumed).map fun x => x.2.2).sum)

/-! ## How many lines a record stands for -/

/-- The `nginx.error.coalesced_count` attribute. -/
def coalescedCount (lr : LogRecord F) : Option Int :=
  lr.attributes.findSome? fun kv =>
    match kv.value with
    | .int n => if kv.key = COALESCED_COUNT then some n else none
    | _ => none

/-- The coalesced count when present, otherwise 1. -/
def weight (lr : LogRecord F) : Nat := (coalescedCount lr).elim 1 Int.toNat

theorem weight_errorLogRecord (dec : Decoding F) (ts : UInt64) (ngxLevel : UInt8)
    (templateHash : UInt64) (body : Bytes) (now : UInt64) (counts : Counts) :
    weight (errorLogRecord dec ts ngxLevel templateHash body now counts) =
      if templateHash = 0 then 1 else max 1 ((counts.get templateHash).getD 0) := by
  unfold weight coalescedCount errorLogRecord errorAttributes
  by_cases hzero : templateHash = 0
  · simp [hzero]
  · by_cases hcount : (counts.get templateHash).getD 0 > 1
    · simp only [hzero, hcount, ne_eq, not_false_eq_true, if_true, if_false]
      simp [TEMPLATE_HASH, COALESCED_COUNT]
      omega
    · simp only [hzero, hcount, ne_eq, not_false_eq_true, if_true, if_false]
      simp [TEMPLATE_HASH, COALESCED_COUNT]
      omega

theorem weight_syntheticRecord (now hash : UInt64) (severity : UInt8) (count : Nat) :
    weight (syntheticRecord now hash severity count : LogRecord F) = count := by
  simp [weight, coalescedCount, syntheticRecord, TEMPLATE_HASH, COALESCED_COUNT]

/-! ## Round trip -/

section RoundTrip

variable (tsNs : UInt64) (ngxLevel : UInt8) (templateHash : UInt64) (body : Bytes)

theorem length_errorRecord : (errorRecord tsNs ngxLevel templateHash body).length =
    ERROR_RECORD_HDR + min body.length MAX_ERROR_BODY_LEN := by
  simp only [errorRecord, ERROR_RECORD_HDR, List.length_append, List.length_singleton,
    length_toBe, List.length_take]
  omega

theorem u64FromBe_toBe (n : UInt64) : u64FromBe (toBe 8 n.toNat) = n := by
  have hlt : n.toNat < 256 ^ 8 := n.toNat_lt
  rw [u64FromBe, ofBe_toBe hlt, UInt64.ofNat_toNat]

/-- A slice of a concatenation is the middle part. -/
theorem slice_middle (front part back : Bytes) {lo hi : Nat} (hlo : front.length = lo)
    (hhi : lo + part.length = hi) : slice (front ++ part ++ back) lo hi = part := by
  subst hlo hhi
  simp [slice]

theorem slice_hash : slice (errorRecord tsNs ngxLevel templateHash body) 10 18 =
    toBe 8 templateHash.toNat := by
  unfold errorRecord
  rw [List.append_assoc _ (toBe 2 _)]
  exact slice_middle _ _ _ (by simp) (by simp)

theorem slice_ts : slice (errorRecord tsNs ngxLevel templateHash body) 1 9 = toBe 8 tsNs.toNat := by
  unfold errorRecord
  simp only [List.append_assoc]
  rw [← List.append_assoc]
  exact slice_middle _ _ _ (by simp) (by simp)

theorem slice_bodyLen : slice (errorRecord tsNs ngxLevel templateHash body) 18 20 =
    toBe 2 (min body.length MAX_ERROR_BODY_LEN) := by
  unfold errorRecord
  exact slice_middle _ _ _ (by simp) (by simp)

theorem slice_body : slice (errorRecord tsNs ngxLevel templateHash body) ERROR_RECORD_HDR
    (ERROR_RECORD_HDR + min body.length MAX_ERROR_BODY_LEN) = body.take MAX_ERROR_BODY_LEN := by
  have htake : body.take (min body.length MAX_ERROR_BODY_LEN) = body.take MAX_ERROR_BODY_LEN := by
    rw [List.take_eq_take_iff]; omega
  unfold errorRecord
  simp only [htake]
  rw [← List.append_nil (_ ++ body.take MAX_ERROR_BODY_LEN)]
  exact slice_middle _ _ _ (by simp [ERROR_RECORD_HDR]) (by rw [List.length_take, Nat.min_comm])

/-- **Round trip of an error record.** -/
theorem parseErrorRecord_errorRecord (dec : Decoding F) (now : UInt64) (counts : Counts) :
    parseErrorRecord dec (errorRecord tsNs ngxLevel templateHash body) now counts =
      some (errorLogRecord dec tsNs ngxLevel templateHash (body.take MAX_ERROR_BODY_LEN) now
        counts) := by
  have hlen := length_errorRecord tsNs ngxLevel templateHash body
  have hkind : (errorRecord tsNs ngxLevel templateHash body).getD 0 0 = KIND_ERROR := rfl
  have hlevel : (errorRecord tsNs ngxLevel templateHash body).getD 9 0 = ngxLevel := by
    simp [errorRecord, toBe]
  have hbody : ofBe (slice (errorRecord tsNs ngxLevel templateHash body) 18 20) =
      min body.length MAX_ERROR_BODY_LEN := by
    rw [slice_bodyLen, ofBe_toBe]
    simp only [MAX_ERROR_BODY_LEN]
    omega
  simp only [parseErrorRecord, hkind, hlevel, hbody, slice_ts, slice_hash, slice_body,
    u64FromBe_toBe]
  rw [if_neg (by omega), if_neg (by simp), if_neg (by omega)]

/-- A record that was read back consumes the hash that the writer put in. -/
theorem parseErrorRecordConsuming_errorRecord (dec : Decoding F) (now : UInt64)
    (counts : Counts) :
    parseErrorRecordConsuming dec (errorRecord tsNs ngxLevel templateHash body) now counts =
      (some (errorLogRecord dec tsNs ngxLevel templateHash (body.take MAX_ERROR_BODY_LEN) now
          counts),
        if templateHash ≠ 0 then some templateHash else none) := by
  simp only [parseErrorRecordConsuming, parseErrorRecord_errorRecord, slice_hash, u64FromBe_toBe]

end RoundTrip

end NgxOtel.ErrorLog
