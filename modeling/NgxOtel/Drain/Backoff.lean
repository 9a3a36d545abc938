import NgxOtel.Lib.Word

/-!
# Delivery outcomes and the deferral of a signal lane

`transport/mod.rs` and `drain/backoff.rs`: what a send can come back with, and what the policy makes
of it for one signal lane (metrics, logs or spans).

* `DeliveryOutcome`, `TransportError`, `SendResult` — a verdict of the peer, a transport error, or
  the expiry of the send's deadline.
* `SignalBackoff` — the lane may not send again before `notBeforeMsec`; 0 means no deferral.
* `backoffMs`, `deferMs` — how long a retryable verdict defers the lane.
* `applyDeliveryOutcome` — the policy: release, re-queue and defer, or drop.

Clock readings and counters are 64-bit words.  The rate-limited log line of `Unauthorized` changes
nothing that is modelled here.
-/

set_option autoImplicit false

namespace NgxOtel.Drain

open Word

/-- `core::time::Duration`. -/
structure Duration where
  secs : Nat
  nanos : Nat
  deriving DecidableEq, Repr

/-- `Duration::as_millis`. -/
def Duration.asMillis (d : Duration) : Nat := d.secs * 1000 + d.nanos / 1000000

inductive DeliveryOutcome where
  | accepted
  | partialReject (rejected : Nat)
  | retryable (retryAfter : Option Duration)
  | permanent
  | unauthorized
  deriving DecidableEq, Repr

inductive TransportError where
  | invalidEndpoint (input reason : String)
  | connection (cause : String)
  | httpStatus (code : Nat) (message : String)
  | bodyRead (cause : String)
  | timeout
  | tlsConfig (cause : String)
  deriving DecidableEq, Repr

/-- What a send raced against its deadline resolves to. -/
inductive SendResult where
  | outcome (verdict : DeliveryOutcome)
  | error (cause : TransportError)
  | deadlineExceeded
  deriving DecidableEq, Repr

/-- `is_permanent_rejection`: a 4xx status. -/
def isPermanentRejection : TransportError → Bool
  | .httpStatus code _ => 400 ≤ code && code < 500
  | _ => false

/-- One value for each signal lane. -/
structure PerLane (α : Type) where
  metrics : α
  logs : α
  spans : α
  deriving DecidableEq, Repr

/-! ## The policy -/

/-- Per-lane backoff state; both fields start at 0. -/
structure SignalBackoff where
  notBeforeMsec : Nat
  consecutiveRetryable : Nat
  deriving DecidableEq, Repr

def SignalBackoff.default : SignalBackoff := ⟨0, 0⟩

/-- `SignalBackoff::is_deferred`. -/
def SignalBackoff.isDeferred (b : SignalBackoff) (nowMsec : Nat) : Bool :=
  b.notBeforeMsec ≠ 0 && nowMsec < b.notBeforeMsec

def U64_MAX : Nat := 2 ^ 64 - 1
def U32_MAX : Nat := 2 ^ 32 - 1

def BACKOFF_BASE_MS : Nat := 250
def BACKOFF_CAP_MS : Nat := 30000

/-- `u64::leading_zeros`. -/
def leadingZeros (n : Nat) : Nat := if n = 0 then 64 else 63 - Nat.log2 n

/-- `backoff_ms`: `base << (n - 1)`, saturating at `cap`. -/
def backoffMs (consecutiveRetryable baseMs capMs : Nat) : Nat :=
  if baseMs = 0 then 0
  else
    let shift := consecutiveRetryable - 1
    if shift ≥ leadingZeros baseMs then capMs else min (baseMs <<< shift) capMs

/-- The deferral that a retryable verdict prescribes: the peer's hint, at least 1 ms, or the
exponential backoff of the failures so far. -/
def deferMs (retryAfter : Option Duration) (consecutiveRetryable : Nat) : Nat :=
  match retryAfter with
  | some hint => max (min hint.asMillis U64_MAX) 1
  | none => backoffMs consecutiveRetryable BACKOFF_BASE_MS BACKOFF_CAP_MS

inductive OutcomeAction where
  | release
  | requeue
  | drop
  deriving DecidableEq, Repr

/-- The deferral that a retryable verdict prescribes in this state. -/
def SignalBackoff.deferral (b : SignalBackoff) (retryAfter : Option Duration) : Nat :=
  deferMs retryAfter (min (b.consecutiveRetryable + 1) U32_MAX)

/-- The backoff state after a retryable verdict, with `nowMsec` as the clock. -/
def SignalBackoff.defer (b : SignalBackoff) (retryAfter : Option Duration) (nowMsec : Nat) :
    SignalBackoff :=
  { notBeforeMsec := max (min (nowMsec + b.deferral retryAfter) U64_MAX) 1,
    consecutiveRetryable := min (b.consecutiveRetryable + 1) U32_MAX }

/-- The self-metric counters that one lane touches: `DROPPED_RECORDS`, the lane's own
`failure_counter`, and the three delivery-outcome counters. -/
structure SelfMetrics where
  droppedRecords : Nat
  failureCounter : Nat
  partialRejected : Nat
  permanentRejected : Nat
  unauthorizedRejected : Nat
  deriving DecidableEq, Repr

def SelfMetrics.zero : SelfMetrics := ⟨0, 0, 0, 0, 0⟩

/-- One more failed send of the lane. -/
def SelfMetrics.fail (m : SelfMetrics) : SelfMetrics :=
  { m with failureCounter := addW 64 m.failureCounter 1 }

/-- `apply_delivery_outcome`: the action of the caller, the lane's backoff state, the counters. -/
def applyDeliveryOutcome (verdict : DeliveryOutcome) (b : SignalBackoff) (nowMsec : Nat)
    (m : SelfMetrics) : OutcomeAction × SignalBackoff × SelfMetrics :=
  match verdict with
  | .accepted => (.release, .default, m)
  | .partialReject rejected =>
      (.release, .default, { m with partialRejected := addW 64 m.partialRejected rejected })
  | .retryable retryAfter => (.requeue, b.defer retryAfter nowMsec, m)
  | .permanent => (.drop, b, { m with permanentRejected := addW 64 m.permanentRejected 1 })
  | .unauthorized => (.drop, b, { m with unauthorizedRejected := addW 64 m.unauthorizedRejected 1 })

end NgxOtel.Drain
