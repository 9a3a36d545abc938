import NgxOtel.Drain.Backoff
import NgxOtel.Lib.Run

/-!
# The bounded retry queue of a signal lane

`drain/graceful.rs` (`enqueue_with_eviction`), `drain/mod.rs` (`send_fresh_batch`,
`drain_retry_queue_once_with_timer`) and `drain/backoff.rs` (`handle_fresh_send_outcome`): a batch
whose send fails waits in a bounded queue that drops its oldest batch when it is full, and each
retry pass takes the queue out, sends it batch by batch and puts back what is left.

* `Lane` — the queue, the backoff state and the counters of one lane, with the sends made so far.
* `sendFreshBatch`, `drainRetryQueueOnce` — the two events of a lane.
* `Pass` — a retry pass in progress.

## Results

* `drainRetryQueueOnce_spec` — a pass sends a first part of the queue, in order, stops at the first
  send that fails, evicts nothing and leaves a final part of the queue.
* `lane_conserves` — **bounded, ordered, and every record accounted for**, over any run of events.
-/

set_option autoImplicit false

namespace NgxOtel.Drain

open Word

/-- An encoded batch and its record count. -/
structure Batch where
  bytes : Bytes
  nRecords : Nat
  deriving DecidableEq, Repr

/-- The clock when a send starts and when it returns, and what it returns. -/
structure Reply where
  start : Nat
  finish : Nat
  result : SendResult
  deriving DecidableEq, Repr

/-- A send of a fresh batch or of a queued one. -/
inductive SendKind where
  | fresh
  | retry
  deriving DecidableEq, Repr

/-- A send that was made, and the deferral that a retryable verdict prescribed. -/
structure Send where
  kind : SendKind
  batch : Batch
  reply : Reply
  deferral : Option Nat
  deriving DecidableEq, Repr

/-- `enqueue_with_eviction`: the queue, and the records dropped. -/
def enqueueWithEviction (queue : List Batch) (batch : Batch) (maxDepth : Nat) :
    List Batch × Nat :=
  if queue.length ≥ maxDepth then
    match queue with
    | oldest :: rest => (rest ++ [batch], oldest.nRecords)
    | [] => ([batch], 0)
  else (queue ++ [batch], 0)

/-- One lane: its retry queue, backoff and counters; `sends` and `evicted` record what it did. -/
structure Lane where
  queue : List Batch
  backoff : SignalBackoff
  metrics : SelfMetrics
  sends : List Send
  evicted : Nat
  deriving DecidableEq, Repr

def Lane.empty : Lane := ⟨[], .default, .zero, [], 0⟩

/-- Queue a batch; what it displaces is added to `DROPPED_RECORDS`. -/
def Lane.enqueue (l : Lane) (batch : Batch) (depth : Nat) : Lane :=
  let r := enqueueWithEviction l.queue batch depth
  { l with queue := r.1, evicted := l.evicted + r.2,
           metrics := { l.metrics with droppedRecords := addW 64 l.metrics.droppedRecords r.2 } }

/-- A failed send: queue its batch and count the failure. -/
def Lane.enqueueFailed (l : Lane) (batch : Batch) (depth : Nat) : Lane :=
  let l := l.enqueue batch depth
  { l with metrics := l.metrics.fail }

/-- The deferral that a send result prescribes. -/
def SignalBackoff.prescribed (b : SignalBackoff) : SendResult → Option Nat
  | .outcome (.retryable retryAfter) => some (b.deferral retryAfter)
  | _ => none

/-- Record a send. -/
def Lane.record (l : Lane) (kind : SendKind) (batch : Batch) (reply : Reply) : Lane :=
  { l with sends := l.sends ++ [⟨kind, batch, reply, l.backoff.prescribed reply.result⟩] }

/-! ## Fresh batches -/

/-- `handle_fresh_send_outcome`. -/
def handleFreshSendOutcome (verdict : DeliveryOutcome) (nowMsec : Nat) (batch : Batch)
    (depth : Nat) (l : Lane) : Lane :=
  let (action, backoff, metrics) := applyDeliveryOutcome verdict l.backoff nowMsec l.metrics
  let l := { l with backoff := backoff, metrics := metrics }
  match action with
  | .release => l
  | .requeue => l.enqueueFailed batch depth
  | .drop => l

/-- `send_fresh_batch`: an empty batch is not sent; the policy reads the clock when the send has
returned (`post_send_backoff_basis`). -/
def sendFreshBatch (depth : Nat) (batch : Batch) (reply : Reply) (l : Lane) : Lane :=
  if batch.nRecords = 0 then l
  else
    let l := l.record .fresh batch reply
    match reply.result with
    | .outcome verdict => handleFreshSendOutcome verdict reply.finish batch depth l
    | .error _ => l.enqueueFailed batch depth
    | .deadlineExceeded => l.enqueueFailed batch depth

/-! ## Retry passes -/

/-- A retry pass in progress: the lane with its queue being rebuilt, and `drain_failed`. -/
structure Pass where
  lane : Lane
  drainFailed : Bool

/-- One turn of the pass, for the next batch of the snapshot and what its send would return. -/
def retryOne (depth nowMsec : Nat) (p : Pass) (batch : Batch) (reply : Reply) : Pass :=
  if p.drainFailed then { p with lane := p.lane.enqueue batch depth }
  else
    let l := p.lane.record .retry batch reply
    match reply.result with
    | .outcome verdict =>
        let (action, backoff, metrics) := applyDeliveryOutcome verdict l.backoff nowMsec l.metrics
        let l := { l with backoff := backoff, metrics := metrics }
        match action with
        | .release => ⟨l, false⟩
        | .requeue => ⟨l.enqueueFailed batch depth, true⟩
        | .drop => ⟨l, false⟩
    | .error e =>
        if isPermanentRejection e then ⟨{ l with metrics := l.metrics.fail }, true⟩
        else ⟨l.enqueueFailed batch depth, true⟩
    | .deadlineExceeded => ⟨l.enqueueFailed batch depth, true⟩

/-- The loop over the snapshot; the reply of a send is given by its position in the snapshot. -/
def drainSnapshot (depth nowMsec : Nat) (replies : Nat → Reply) :
    List Batch → Nat → Pass → Pass
  | [], _, p => p
  | batch :: rest, i, p =>
      drainSnapshot depth nowMsec replies rest (i + 1) (retryOne depth nowMsec p batch (replies i))

/-- `drain_retry_queue_once_with_timer`: `nowMsec` is the clock when the pass starts. -/
def drainRetryQueueOnce (depth nowMsec : Nat) (replies : Nat → Reply) (l : Lane) : Lane :=
  (drainSnapshot depth nowMsec replies l.queue 0 ⟨{ l with queue := [] }, false⟩).lane

/-- An event of a lane, with what the peer and the clock do during it. -/
inductive LaneEvent where
  | fresh (batch : Batch) (reply : Reply)
  | retry (nowMsec : Nat) (replies : Nat → Reply)

/-- One event. -/
def laneStep (depth : Nat) (l : Lane) : LaneEvent → Option Lane
  | .fresh batch reply => some (sendFreshBatch depth batch reply l)
  | .retry nowMsec replies => some (drainRetryQueueOnce depth nowMsec replies l)

/-! ## What a send settles -/

/-- The results after which a retry pass sends nothing more. -/
def SendResult.stops : SendResult → Bool
  | .outcome (.retryable _) => true
  | .outcome _ => false
  | .error _ => true
  | .deadlineExceeded => true

/-- The records of a batch that the peer took. -/
def Send.released (s : Send) : Nat :=
  match s.reply.result with
  | .outcome .accepted | .outcome (.partialReject _) => s.batch.nRecords
  | _ => 0

/-- The records of a batch dropped on a final verdict. -/
def Send.refused (s : Send) : Nat :=
  match s.reply.result with
  | .outcome .permanent | .outcome .unauthorized => s.batch.nRecords
  | _ => 0

/-- The records of a queued batch dropped on a 4xx transport error. -/
def Send.rejected (s : Send) : Nat :=
  match s.kind, s.reply.result with
  | .retry, .error e => if isPermanentRejection e then s.batch.nRecords else 0
  | _, _ => 0

/-- The records that leave the lane with a send. -/
def Send.settled (s : Send) : Nat := s.released + s.refused + s.rejected

/-- The records of a list of batches. -/
def records (batches : List Batch) : Nat := (batches.map Batch.nRecords).sum

@[simp] theorem records_nil : records [] = 0 := rfl

@[simp] theorem records_cons (b : Batch) (bs : List Batch) :
    records (b :: bs) = b.nRecords + records bs := by
  simp [records]

@[simp] theorem records_append (xs ys : List Batch) :
    records (xs ++ ys) = records xs + records ys := by
  simp [records]

/-! ## The queue -/

theorem enqueueWithEviction_of_room {queue : List Batch} {depth : Nat} (batch : Batch)
    (h : queue.length < max depth 1) :
    enqueueWithEviction queue batch depth = (queue ++ [batch], 0) := by
  unfold enqueueWithEviction
  split
  · -- a full queue with room left: depth 0, and nothing to evict
    cases queue with
    | nil => rfl
    | cons b bs =>
      simp only [List.length_cons] at *
      omega
  · rfl

theorem enqueueWithEviction_spec (queue : List Batch) (batch : Batch) (depth : Nat) :
    (enqueueWithEviction queue batch depth).1.Sublist (queue ++ [batch]) ∧
    records (enqueueWithEviction queue batch depth).1 + (enqueueWithEviction queue batch depth).2
      = records queue + batch.nRecords ∧
    (queue.length ≤ max depth 1 →
      (enqueueWithEviction queue batch depth).1.length ≤ max depth 1) := by
  unfold enqueueWithEviction
  split
  · cases queue with
    | nil => exact ⟨List.Sublist.refl _, by simp, fun _ => by simp⟩
    | cons b bs =>
      refine ⟨List.sublist_cons_self b _, ?_, ?_⟩
      · simp only [records_append, records_cons, records_nil]
        omega
      · simp only [List.length_append, List.length_cons, List.length_nil]
        omega
  · rename_i hroom
    refine ⟨List.Sublist.refl _, by simp, fun _ => ?_⟩
    simp only [List.length_append, List.length_cons, List.length_nil]
    omega

theorem enqueue_of_room {l : Lane} {depth : Nat} (batch : Batch)
    (h : l.queue.length < max depth 1) :
    (l.enqueue batch depth).queue = l.queue ++ [batch] ∧
      (l.enqueue batch depth).evicted = l.evicted := by
  simp [Lane.enqueue, enqueueWithEviction_of_room batch h]

/-! ## A retry pass -/

section RetryPass

variable (depth nowMsec : Nat) (replies : Nat → Reply)

/-- The rest of the pass after a failed send: the remaining batches go back in order. -/
theorem drainSnapshot_failed {rest : List Batch} {i : Nat} {p : Pass} (hf : p.drainFailed = true)
    (hroom : p.lane.queue.length + rest.length ≤ max depth 1) :
    (drainSnapshot depth nowMsec replies rest i p).lane.queue = p.lane.queue ++ rest ∧
    (drainSnapshot depth nowMsec replies rest i p).lane.sends = p.lane.sends ∧
    (drainSnapshot depth nowMsec replies rest i p).lane.backoff = p.lane.backoff ∧
    (drainSnapshot depth nowMsec replies rest i p).lane.evicted = p.lane.evicted := by
  induction rest generalizing i p with
  | nil => simp [drainSnapshot]
  | cons batch rest ih =>
    rw [List.length_cons] at hroom
    obtain ⟨hqueue, hevicted⟩ := enqueue_of_room (l := p.lane) batch
      (show p.lane.queue.length < max depth 1 by omega)
    have hone : retryOne depth nowMsec p batch (replies i)
        = ⟨p.lane.enqueue batch depth, true⟩ := by simp [retryOne, hf]
    simp only [drainSnapshot, hone]
    obtain ⟨h1, h2, h3, h4⟩ := ih (i := i + 1) (p := ⟨p.lane.enqueue batch depth, true⟩) rfl
      (by simp only [hqueue, List.length_append, List.length_singleton]; omega)
    exact ⟨by rw [h1, hqueue]; simp, h2, h3, h4.trans hevicted⟩

/-- The send that a turn of the pass makes. -/
def retrySend (l : Lane) (batch : Batch) (reply : Reply) : Send :=
  ⟨.retry, batch, reply, l.backoff.prescribed reply.result⟩

/-- What one send of the pass leaves: its batch is settled, or it is back in the queue and the pass
has failed. -/
theorem retryOne_spec {p : Pass} (hf : p.drainFailed = false) (hq : p.lane.queue = [])
    (batch : Batch) (reply : Reply) :
    let q := retryOne depth nowMsec p batch reply
    let s := retrySend p.lane batch reply
    q.lane.sends = p.lane.sends ++ [s] ∧ q.lane.evicted = p.lane.evicted ∧
      q.drainFailed = reply.result.stops ∧
      (∀ d, s.deferral = some d →
        q.lane.backoff.notBeforeMsec = max (min (nowMsec + d) U64_MAX) 1) ∧
      (q.lane.queue = [] ∧ s.settled = batch.nRecords ∨
        q.lane.queue = [batch] ∧ s.settled = 0 ∧ reply.result.stops = true) := by
  have hroom : ([] : List Batch).length < max depth 1 := by simp
  have henqueue := enqueueWithEviction_of_room batch hroom
  cases hres : reply.result with
  | outcome verdict =>
    cases verdict <;>
      simp [retryOne, hf, hq, hres, Lane.record, retrySend, applyDeliveryOutcome, Lane.enqueueFailed,
        Lane.enqueue, henqueue, SendResult.stops, Send.settled, Send.released, Send.refused,
        Send.rejected, SignalBackoff.prescribed, SignalBackoff.defer]
  | error e =>
    by_cases hperm : isPermanentRejection e = true <;>
      simp [retryOne, hf, hq, hres, hperm, Lane.record, retrySend, Lane.enqueueFailed, Lane.enqueue,
        henqueue, SendResult.stops, Send.settled, Send.released, Send.refused, Send.rejected,
        SignalBackoff.prescribed]
  | deadlineExceeded =>
    simp [retryOne, hf, hq, hres, Lane.record, retrySend, Lane.enqueueFailed, Lane.enqueue, henqueue,
      SendResult.stops, Send.settled, Send.released, Send.refused, Send.rejected,
      SignalBackoff.prescribed]

theorem prescribed_of_not_stops {b : SignalBackoff} {r : SendResult} (h : r.stops = false) :
    b.prescribed r = none := by
  unfold SignalBackoff.prescribed
  split
  · cases h
  · rfl

/-- A deferral is prescribed by a retryable verdict only. -/
def Send.Judged (s : Send) : Prop :=
  ∀ d, s.deferral = some d → ∃ hint n, s.reply.result = .outcome (.retryable hint) ∧
    d = deferMs hint n

/-- A back-off prescribes deferrals for retryable verdicts only. -/
theorem Send.judged_of_prescribed {s : Send} {backoff : SignalBackoff}
    (h : s.deferral = backoff.prescribed s.reply.result) : s.Judged := by
  intro d hd
  rw [h] at hd
  unfold SignalBackoff.prescribed at hd
  split at hd
  · rename_i hint hres
    cases hd
    exact ⟨hint, _, hres, rfl⟩
  · cases hd

theorem retrySend_judged (l : Lane) (batch : Batch) (reply : Reply) :
    (retrySend l batch reply).Judged :=
  Send.judged_of_prescribed (s := retrySend l batch reply) rfl

/-- What a pass over a snapshot does, from the lane `l` at its start to the lane `l'` at its end,
with the sends `made`; `i` is the position of the snapshot in the queue. -/
structure PassSpec (snapshot : List Batch) (nowMsec i : Nat) (replies : Nat → Reply)
    (l l' : Lane) (made : List Send) : Prop where
  sends_eq : l'.sends = l.sends ++ made
  retries : ∀ s ∈ made, s.kind = .retry ∧ s.Judged ∧
    ∃ j, i ≤ j ∧ j < i + snapshot.length ∧ s.reply = replies j
  in_order : made.map Send.batch <+: snapshot
  stops : ∀ s ∈ made.dropLast, s.reply.result.stops = false
  undeferred : ∀ s ∈ made.dropLast, s.deferral = none
  deferred : ∀ s d, made.getLast? = some s → s.deferral = some d →
    l'.backoff.notBeforeMsec = max (min (nowMsec + d) U64_MAX) 1
  idle : made = [] → l'.backoff = l.backoff
  evicted_eq : l'.evicted = l.evicted
  remains : l'.queue <:+ snapshot
  conserved : records snapshot = (made.map Send.settled).sum + records l'.queue

theorem drainSnapshot_spec {snapshot : List Batch} {i : Nat} {p : Pass}
    (hf : p.drainFailed = false) (hq : p.lane.queue = [])
    (hroom : snapshot.length ≤ max depth 1) :
    ∃ made, PassSpec snapshot nowMsec i replies p.lane
      (drainSnapshot depth nowMsec replies snapshot i p).lane made := by
  induction snapshot generalizing i p with
  | nil =>
    refine ⟨[], ?_⟩
    constructor <;> simp [drainSnapshot, hq]
  | cons batch rest ih =>
    have hone := retryOne_spec depth nowMsec hf hq batch (replies i)
    rw [List.length_cons] at hroom
    simp only [drainSnapshot]
    generalize retryOne depth nowMsec p batch (replies i) = q at hone ⊢
    generalize hs : retrySend p.lane batch (replies i) = s at hone
    obtain ⟨hsends, hevicted, hfailed, hdefer, hqueue⟩ := hone
    have hretry : s.kind = .retry ∧ s.Judged ∧
        ∃ j, i ≤ j ∧ j < i + (batch :: rest).length ∧ s.reply = replies j := by
      rw [← hs]
      exact ⟨rfl, retrySend_judged _ _ _, i, Nat.le_refl i, by simp, rfl⟩
    have hbatch : s.batch = batch := by simp [← hs, retrySend]
    cases hstops : (replies i).result.stops with
    | true =>
      -- the pass has failed: nothing more is sent
      rw [hstops] at hfailed
      have hlen : q.lane.queue.length + rest.length ≤ max depth 1 := by
        rcases hqueue with ⟨hq', -⟩ | ⟨hq', -⟩ <;> simp only [hq', List.length_nil,
          List.length_singleton] <;> omega
      obtain ⟨h1, h2, h3, h4⟩ := drainSnapshot_failed depth nowMsec replies
        (i := i + 1) hfailed hlen
      refine ⟨[s], ?_, ?_, ?_, ?_, ?_, ?_, ?_, ?_, ?_, ?_⟩
      · rw [h2, hsends]
      · simpa using hretry
      · simp [hbatch]
      · simp
      · simp
      · intro s' d hlast hd
        cases hlast
        rw [h3]
        exact hdefer d hd
      · simp
      · rw [h4, hevicted]
      · rw [h1]
        rcases hqueue with ⟨hq', -⟩ | ⟨hq', -⟩
        · rw [hq']; exact List.suffix_cons batch rest
        · rw [hq']; exact List.suffix_refl _
      · rw [h1]
        rcases hqueue with ⟨hq', hset⟩ | ⟨hq', hset, -⟩ <;> simp [hq', hset]
    | false =>
      rw [hstops] at hfailed hqueue
      obtain ⟨hq', hset⟩ : q.lane.queue = [] ∧ s.settled = batch.nRecords := by
        rcases hqueue with h | ⟨-, -, h⟩
        · exact h
        · cases h
      obtain ⟨made, hmade⟩ := ih (i := i + 1) hfailed hq' (by omega)
      have hnone : s.deferral = none := by
        rw [← hs]
        exact prescribed_of_not_stops hstops
      have hreply : s.reply.result.stops = false := by
        rw [← hs]
        exact hstops
      refine ⟨s :: made, ?_, ?_, ?_, ?_, ?_, ?_, ?_, ?_, ?_, ?_⟩
      · rw [hmade.sends_eq, hsends, List.append_assoc, List.singleton_append]
      · intro s' hs'
        rcases List.mem_cons.mp hs' with rfl | hs'
        · exact hretry
        · obtain ⟨hkind, hjudged, j, hle, hlt, hreply'⟩ := hmade.retries s' hs'
          exact ⟨hkind, hjudged, j, by omega, by rw [List.length_cons]; omega, hreply'⟩
      · simpa [hbatch] using hmade.in_order
      · cases made with
        | nil => simp
        | cons s' made => simpa using ⟨hreply, hmade.stops⟩
      · cases made with
        | nil => simp
        | cons s' made => simpa using ⟨hnone, hmade.undeferred⟩
      · intro s' d hlast hd
        cases made with
        | nil =>
          rw [List.getLast?_singleton, Option.some.injEq] at hlast
          rw [← hlast, hnone] at hd
          cases hd
        | cons s'' made => exact hmade.deferred s' d (by simpa using hlast) hd
      · simp
      · rw [hmade.evicted_eq, hevicted]
      · exact hmade.remains.trans (List.suffix_cons batch rest)
      · simp only [records_cons, List.map_cons, List.sum_cons, hset, hmade.conserved]
        omega

/-- **A retry pass** sends a first part of the queue in order, stops at the first send that fails,
evicts nothing, and leaves a last part of the queue. -/
theorem drainRetryQueueOnce_spec {l : Lane} (hlen : l.queue.length ≤ max depth 1) :
    ∃ made, PassSpec l.queue nowMsec 0 replies l
      (drainRetryQueueOnce depth nowMsec replies l) made := by
  obtain ⟨made, h⟩ := drainSnapshot_spec depth nowMsec replies (i := 0)
    (p := ⟨{ l with queue := [] }, false⟩) rfl rfl hlen
  exact ⟨made, h.sends_eq, h.retries, h.in_order, h.stops, h.undeferred, h.deferred, h.idle,
    h.evicted_eq, h.remains, h.conserved⟩

end RetryPass

/-! ## A fresh send -/

def freshSend (l : Lane) (batch : Batch) (reply : Reply) : Send :=
  ⟨.fresh, batch, reply, l.backoff.prescribed reply.result⟩

theorem sendFreshBatch_zero {batch : Batch} (h : batch.nRecords = 0) (depth : Nat) (reply : Reply)
    (l : Lane) : sendFreshBatch depth batch reply l = l := by
  simp [sendFreshBatch, h]

/-- A fresh batch is settled by its send, or it joins the queue. -/
theorem sendFreshBatch_spec (depth : Nat) {batch : Batch} (hn : batch.nRecords ≠ 0) (reply : Reply)
    (l : Lane) :
    let l' := sendFreshBatch depth batch reply l
    let s := freshSend l batch reply
    l'.sends = l.sends ++ [s] ∧
      (∀ d, s.deferral = some d →
        l'.backoff.notBeforeMsec = max (min (reply.finish + d) U64_MAX) 1) ∧
      (l'.queue = l.queue ∧ l'.evicted = l.evicted ∧ s.settled = batch.nRecords ∨
        l'.queue = (enqueueWithEviction l.queue batch depth).1 ∧
          l'.evicted = l.evicted + (enqueueWithEviction l.queue batch depth).2 ∧ s.settled = 0) := by
  cases hres : reply.result with
  | outcome verdict =>
    cases verdict <;>
      simp [sendFreshBatch, hn, hres, Lane.record, freshSend, handleFreshSendOutcome,
        applyDeliveryOutcome, Lane.enqueueFailed, Lane.enqueue, Send.settled, Send.released,
        Send.refused, Send.rejected, SignalBackoff.prescribed, SignalBackoff.defer]
  | error e =>
    simp [sendFreshBatch, hn, hres, Lane.record, freshSend, Lane.enqueueFailed, Lane.enqueue,
      Send.settled, Send.released, Send.refused, Send.rejected, SignalBackoff.prescribed]
  | deadlineExceeded =>
    simp [sendFreshBatch, hn, hres, Lane.record, freshSend, Lane.enqueueFailed, Lane.enqueue,
      Send.settled, Send.released, Send.refused, Send.rejected, SignalBackoff.prescribed]

/-! ## `DROPPED_RECORDS` -/

/-- The counter holds, as a 64-bit word, the records the lane has evicted. -/
def Lane.Counts (l : Lane) : Prop := l.metrics.droppedRecords = l.evicted % 2 ^ 64

theorem Lane.Counts.enqueue {l : Lane} (h : l.Counts) (batch : Batch) (depth : Nat) :
    (l.enqueue batch depth).Counts := by
  unfold Lane.Counts at h ⊢
  simp [Lane.enqueue, addW, h]

theorem Lane.Counts.retryOne {p : Pass} (h : p.lane.Counts) (depth nowMsec : Nat) (batch : Batch)
    (reply : Reply) : (retryOne depth nowMsec p batch reply).lane.Counts := by
  unfold Drain.retryOne
  split
  · exact h.enqueue batch depth
  · cases hres : reply.result with
    | outcome verdict =>
      cases verdict with
      | retryable retryAfter =>
        have hl : Lane.Counts { p.lane.record .retry batch reply with
            backoff := p.lane.backoff.defer retryAfter nowMsec } := h
        exact hl.enqueue batch depth
      | accepted | partialReject r | permanent | unauthorized => exact h
    | error e =>
      simp only
      split
      · exact h
      · exact Lane.Counts.enqueue (l := p.lane.record .retry batch reply) h batch depth
    | deadlineExceeded =>
      exact Lane.Counts.enqueue (l := p.lane.record .retry batch reply) h batch depth

theorem Lane.Counts.drainSnapshot {snapshot : List Batch} {p : Pass} (h : p.lane.Counts)
    (depth nowMsec : Nat) (replies : Nat → Reply) (i : Nat) :
    (drainSnapshot depth nowMsec replies snapshot i p).lane.Counts := by
  induction snapshot generalizing i p with
  | nil => exact h
  | cons batch rest ih => exact ih (h.retryOne depth nowMsec batch (replies i)) (i + 1)

theorem Lane.Counts.sendFreshBatch {l : Lane} (h : l.Counts) (depth : Nat) (batch : Batch)
    (reply : Reply) : (sendFreshBatch depth batch reply l).Counts := by
  unfold Drain.sendFreshBatch
  split
  · exact h
  · have hrecord : (l.record .fresh batch reply).Counts := h
    cases hres : reply.result with
    | outcome verdict =>
      cases verdict with
      | retryable retryAfter =>
        have hl : Lane.Counts { l.record .fresh batch reply with
            backoff := l.backoff.defer retryAfter reply.finish } := h
        exact hl.enqueue batch depth
      | accepted | partialReject r | permanent | unauthorized => exact h
    | error e => exact hrecord.enqueue batch depth
    | deadlineExceeded => exact hrecord.enqueue batch depth

/-! ## Runs of a lane -/

/-- The fresh batches sent so far, in order. -/
def Lane.freshBatches (l : Lane) : List Batch :=
  (l.sends.filter fun s => s.kind = .fresh).map Send.batch

/-- The queue is bounded, in the order of the fresh sends, and every record is accounted for. -/
structure LaneInv (depth : Nat) (l : Lane) : Prop where
  bounded : l.queue.length ≤ max depth 1
  ordered : l.queue.Sublist l.freshBatches
  conserved : records l.freshBatches =
    (l.sends.map Send.settled).sum + l.evicted + records l.queue
  counts : l.Counts

theorem freshBatches_retries {l l' : Lane} {made : List Send} (hsends : l'.sends = l.sends ++ made)
    (hretry : ∀ s ∈ made, s.kind = .retry) : l'.freshBatches = l.freshBatches := by
  have hnone : made.filter (fun s => s.kind = .fresh) = [] := by
    rw [List.filter_eq_nil_iff]
    intro s hs
    simp [hretry s hs]
  simp [Lane.freshBatches, hsends, List.filter_append, hnone]

theorem LaneInv.retry {depth : Nat} {l : Lane} (h : LaneInv depth l) (nowMsec : Nat)
    (replies : Nat → Reply) : LaneInv depth (drainRetryQueueOnce depth nowMsec replies l) := by
  obtain ⟨made, hpass⟩ := drainRetryQueueOnce_spec depth nowMsec replies h.bounded
  have hcounts : (drainRetryQueueOnce depth nowMsec replies l).Counts :=
    Lane.Counts.drainSnapshot (p := ⟨{ l with queue := [] }, false⟩) h.counts depth nowMsec replies 0
  have hfresh := freshBatches_retries hpass.sends_eq fun s hs => (hpass.retries s hs).1
  refine ⟨Nat.le_trans hpass.remains.length_le h.bounded, ?_, ?_, hcounts⟩
  · rw [hfresh]
    exact hpass.remains.sublist.trans h.ordered
  · have hconserved := hpass.conserved
    rw [hfresh, h.conserved, hpass.sends_eq, hpass.evicted_eq, List.map_append, List.sum_append]
    omega

theorem LaneInv.fresh {depth : Nat} {l : Lane} (h : LaneInv depth l) (batch : Batch)
    (reply : Reply) : LaneInv depth (sendFreshBatch depth batch reply l) := by
  by_cases hn : batch.nRecords = 0
  · rw [sendFreshBatch_zero hn]
    exact h
  · obtain ⟨hsends, -, hqueue⟩ := sendFreshBatch_spec depth hn reply l
    obtain ⟨hsub, hrecords, hlen⟩ := enqueueWithEviction_spec l.queue batch depth
    have hcounts := h.counts.sendFreshBatch depth batch reply
    have hfresh : (sendFreshBatch depth batch reply l).freshBatches = l.freshBatches ++ [batch] := by
      simp [Lane.freshBatches, hsends, List.filter_append, freshSend]
    have htotal := h.conserved
    rcases hqueue with ⟨hq, hevicted, hset⟩ | ⟨hq, hevicted, hset⟩
    · refine ⟨by rw [hq]; exact h.bounded, ?_, ?_, hcounts⟩
      · rw [hq, hfresh]
        exact h.ordered.trans (List.sublist_append_left _ _)
      · rw [hq, hfresh, hevicted, hsends]
        simp only [records_append, records_cons, records_nil, List.map_append, List.map_cons,
          List.map_nil, List.sum_append, List.sum_cons, List.sum_nil, hset]
        omega
    · refine ⟨by rw [hq]; exact hlen h.bounded, ?_, ?_, hcounts⟩
      · rw [hq, hfresh]
        exact hsub.trans (h.ordered.append (List.Sublist.refl _))
      · rw [hq, hfresh, hevicted, hsends]
        simp only [records_append, records_cons, records_nil, List.map_append, List.map_cons,
          List.map_nil, List.sum_append, List.sum_cons, List.sum_nil, hset]
        omega

theorem laneInv_empty (depth : Nat) : LaneInv depth Lane.empty := by
  constructor <;> simp [Lane.empty, Lane.freshBatches, Lane.Counts, SelfMetrics.zero]

theorem laneStep_inv {depth : Nat} {l l' : Lane} {e : LaneEvent} (h : LaneInv depth l)
    (hstep : laneStep depth l e = some l') : LaneInv depth l' := by
  cases e with
  | fresh batch reply => cases hstep; exact h.fresh batch reply
  | retry nowMsec replies => cases hstep; exact h.retry nowMsec replies

/-- **The lane is a bounded, ordered and conservative queue.**  After any events, for every depth:

1. at most `max depth 1` batches are queued, in the order of their fresh sends;
2. a retry pass then sends a first part of the queue, in order, with nothing after the first
   retryable verdict, transport error or timeout, and evicts nothing;
3. the records of the fresh batches are those released, those dropped on a final verdict, those
   dropped by a retry pass on a 4xx error, those added to `DROPPED_RECORDS`, and those queued. -/
theorem lane_conserves {depth : Nat} {events : List LaneEvent} {l : Lane}
    (hrun : Run.exec (laneStep depth) Lane.empty events = some l) :
    (l.queue.length ≤ max depth 1 ∧ l.queue.Sublist l.freshBatches) ∧
    (∀ nowMsec replies, ∃ made,
      (drainRetryQueueOnce depth nowMsec replies l).sends = l.sends ++ made ∧
      made.map Send.batch <+: l.queue ∧
      (∀ s ∈ made.dropLast, s.reply.result.stops = false) ∧
      (drainRetryQueueOnce depth nowMsec replies l).evicted = l.evicted ∧
      (drainRetryQueueOnce depth nowMsec replies l).metrics.droppedRecords
        = l.metrics.droppedRecords) ∧
    (records l.freshBatches =
      (l.sends.map Send.released).sum + (l.sends.map Send.refused).sum
        + (l.sends.map Send.rejected).sum + l.evicted + records l.queue ∧
      l.metrics.droppedRecords = l.evicted % 2 ^ 64) := by
  have h : LaneInv depth l :=
    Run.exec_invariant (fun _ _ _ hl hstep => laneStep_inv hl hstep) hrun (laneInv_empty depth)
  refine ⟨⟨h.bounded, h.ordered⟩, ?_, ?_, h.counts⟩
  · intro nowMsec replies
    obtain ⟨made, hpass⟩ := drainRetryQueueOnce_spec depth nowMsec replies h.bounded
    have hcounts : _ = _ := (h.retry nowMsec replies).counts
    refine ⟨made, hpass.sends_eq, hpass.in_order, hpass.stops, hpass.evicted_eq, ?_⟩
    rw [hcounts, hpass.evicted_eq]
    exact h.counts.symm
  · have hsplit : (l.sends.map Send.settled).sum = (l.sends.map Send.released).sum
        + (l.sends.map Send.refused).sum + (l.sends.map Send.rejected).sum := by
      generalize l.sends = sends
      induction sends with
      | nil => rfl
      | cons s sends ih => simp only [List.map_cons, List.sum_cons, ih, Send.settled]; omega
    rw [h.conserved, hsplit]

/-- Depth 1: the second failed batch evicts the first one, and a retry pass releases it. -/
def evictingEvents : List LaneEvent :=
  [.fresh ⟨[1], 3⟩ ⟨0, 1, .deadlineExceeded⟩,
   .fresh ⟨[2], 5⟩ ⟨2, 3, .outcome (.retryable none)⟩,
   .retry 300 fun _ => ⟨300, 301, .outcome .accepted⟩]

theorem lane_conserves_evictingEvents : ∃ l,
    Run.exec (laneStep 1) Lane.empty evictingEvents = some l ∧
    l.queue = [] ∧ records l.freshBatches = 8 ∧ l.evicted = 3 ∧
    (l.sends.map Send.released).sum + (l.sends.map Send.refused).sum
      + (l.sends.map Send.rejected).sum = 5 := by
  have hends : (Run.exec (laneStep 1) Lane.empty evictingEvents).map
      (fun l => (l.queue, records l.freshBatches, l.evicted)) = some ([], 8, 3) := by decide
  obtain ⟨l, hrun, hl⟩ := Option.map_eq_some_iff.mp hends
  simp only [Prod.mk.injEq] at hl
  obtain ⟨hqueue, hfresh, hevicted⟩ := hl
  have h := (lane_conserves hrun).2.2.1
  rw [hqueue, records_nil, hfresh] at h
  exact ⟨l, hrun, hqueue, hfresh, hevicted, by omega⟩

end NgxOtel.Drain
