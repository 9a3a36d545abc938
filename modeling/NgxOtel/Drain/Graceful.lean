import NgxOtel.Drain.RetryQueue

/-!
# The graceful drain of the retry queues

`drain/graceful.rs`: on shutdown each retry queue is flushed with one send per batch; the first send
of a lane that fails abandons the rest of that lane's queue.  The fresh batches that
`graceful_drain` collects at the end of a lane change neither a queue nor `DROPPED_RECORDS`, and
their sends are left out.

* `flushQueue` — the loop of one lane; `gracefulDrain` — the three loops, in order.
* `unsent` — the batches of a queue from the first failing send on: the one in hand, and those
  behind it.

## Results

* `flushQueue_spec` — a lane delivers the batches before its first failure and credits those
  **behind** it; the batch in hand at the failure is in neither account.
* `gracefulDrain_balanced_iff` — the account of a drain balances exactly when the batch in hand at
  each lane's failure is empty; `gracefulDrain_in_hand_lost` is the smallest drain where it is not.
-/

set_option autoImplicit false

namespace NgxOtel.Drain

open Word

/-- `Ok(Ok(_))`: the peer answered with some verdict. -/
def SendResult.isOk : SendResult → Bool
  | .outcome _ => true
  | _ => false

/-- `account_drops_and_clear`: the counter after crediting a queue that is then cleared. -/
def accountDropsAndClear (queue : List Batch) (counter : Nat) : Nat × List Batch :=
  let remaining := records queue % 2 ^ 64
  (if remaining > 0 then addW 64 counter remaining else counter, [])

/-- What flushing one queue leaves: the batches whose send returned `Ok`, the queue, and
`DROPPED_RECORDS`. -/
structure Flush where
  delivered : List Batch
  queue : List Batch
  droppedRecords : Nat
  deriving DecidableEq, Repr

/-- The flush loop of one lane; the metrics lane spells `account_drops_and_clear` out. -/
def flushQueue (replies : Nat → SendResult) : List Batch → Nat → Nat → Flush
  | [], _, counter => ⟨[], [], counter⟩
  | batch :: rest, i, counter =>
    match replies i with
    | .outcome _ =>
        let f := flushQueue replies rest (i + 1) counter
        { f with delivered := batch :: f.delivered }
    | .error _ | .deadlineExceeded =>
        let (counter, queue) := accountDropsAndClear rest counter
        ⟨[], queue, counter⟩

/-- What a graceful drain leaves. -/
structure DrainEnd where
  delivered : PerLane (List Batch)
  queues : PerLane (List Batch)
  droppedRecords : Nat
  deriving DecidableEq, Repr

/-- `graceful_drain`: metrics (when they are enabled), logs and spans, one after the other. -/
def gracefulDrain (metricsEnabled : Bool) (queues : PerLane (List Batch))
    (replies : PerLane (Nat → SendResult)) (counter : Nat) : DrainEnd :=
  let m := if metricsEnabled then flushQueue replies.metrics queues.metrics 0 counter
    else ⟨[], queues.metrics, counter⟩
  let l := flushQueue replies.logs queues.logs 0 m.droppedRecords
  let s := flushQueue replies.spans queues.spans 0 l.droppedRecords
  { delivered := ⟨m.delivered, l.delivered, s.delivered⟩
    queues := ⟨m.queue, l.queue, s.queue⟩
    droppedRecords := s.droppedRecords }

/-! ## One lane -/

/-- The batches from the first failing send on. -/
def unsent (replies : Nat → SendResult) : List Batch → Nat → List Batch
  | [], _ => []
  | batch :: rest, i =>
    if (replies i).isOk then unsent replies rest (i + 1) else batch :: rest

/-- The records of the batch in hand when a lane fails. -/
def inHand (replies : Nat → SendResult) (queue : List Batch) : Nat :=
  ((unsent replies queue 0).head?.map Batch.nRecords).getD 0

/-- The records of the batches behind it. -/
def behind (replies : Nat → SendResult) (queue : List Batch) : Nat :=
  records (unsent replies queue 0).tail

theorem accountDropsAndClear_eq {queue : List Batch} {counter : Nat} (h : counter < 2 ^ 64) :
    accountDropsAndClear queue counter = ((counter + records queue) % 2 ^ 64, []) := by
  simp only [accountDropsAndClear]
  split
  · simp [addW]
  · rename_i hzero
    have hmod : records queue % 2 ^ 64 = 0 := by omega
    rw [Nat.add_mod, hmod, Nat.add_zero, Nat.mod_mod, Nat.mod_eq_of_lt h]

/-- **The account of one lane.** -/
theorem flushQueue_spec (replies : Nat → SendResult) (queue : List Batch) (i : Nat) {counter : Nat}
    (h : counter < 2 ^ 64) :
    (flushQueue replies queue i counter).delivered ++ unsent replies queue i = queue ∧
    (flushQueue replies queue i counter).queue = [] ∧
    (flushQueue replies queue i counter).droppedRecords
      = (counter + records (unsent replies queue i).tail) % 2 ^ 64 := by
  induction queue generalizing i with
  | nil => exact ⟨rfl, rfl, (Nat.mod_eq_of_lt h).symm⟩
  | cons batch rest ih =>
    cases hres : replies i with
    | outcome verdict =>
      obtain ⟨hsplit, hqueue, hcounter⟩ := ih (i + 1)
      simp only [flushQueue, unsent, hres, SendResult.isOk, if_true]
      exact ⟨by rw [List.cons_append, hsplit], hqueue, hcounter⟩
    | error e =>
      simp [flushQueue, unsent, hres, SendResult.isOk, accountDropsAndClear_eq h]
    | deadlineExceeded =>
      simp [flushQueue, unsent, hres, SendResult.isOk, accountDropsAndClear_eq h]

theorem records_unsent (replies : Nat → SendResult) (queue : List Batch) :
    records (unsent replies queue 0) = inHand replies queue + behind replies queue := by
  unfold inHand behind
  cases unsent replies queue 0 with
  | nil => rfl
  | cons batch rest => simp

/-- What a lane delivers, holds in hand and leaves behind is its queue. -/
theorem flushQueue_balance (replies : Nat → SendResult) (queue : List Batch) {counter : Nat}
    (h : counter < 2 ^ 64) :
    records (flushQueue replies queue 0 counter).delivered + inHand replies queue
      + behind replies queue = records queue := by
  have hsplit := congrArg records (flushQueue_spec replies queue 0 h).1
  rw [records_append, records_unsent] at hsplit
  omega

/-! ## The three lanes -/

/-- The records of all three lanes. -/
def PerLane.records (batches : PerLane (List Batch)) : Nat :=
  Drain.records batches.metrics + Drain.records batches.logs + Drain.records batches.spans

/-- The account of a drain: what was queued is what was delivered and what `DROPPED_RECORDS` grew
by (a difference of 64-bit words), and every queue is empty. -/
def Balanced (queues : PerLane (List Batch)) (counter : Nat) (r : DrainEnd) : Prop :=
  queues.records = r.delivered.records + subW 64 r.droppedRecords counter ∧
  r.queues = ⟨[], [], []⟩

instance (queues : PerLane (List Batch)) (counter : Nat) (r : DrainEnd) :
    Decidable (Balanced queues counter r) := inferInstanceAs (Decidable (_ ∧ _))

theorem flushQueue_mod (replies : Nat → SendResult) (queue : List Batch) (counter : Nat) :
    (flushQueue replies queue 0 (counter % 2 ^ 64)).droppedRecords
      = (counter + behind replies queue) % 2 ^ 64 := by
  have hspec := flushQueue_spec replies queue 0 (Nat.mod_lt counter (Nat.two_pow_pos 64))
  rw [hspec.2.2, Nat.mod_add_mod]
  rfl

/-- All that a drain credits are the batches behind the ones in hand. -/
theorem gracefulDrain_droppedRecords (queues : PerLane (List Batch))
    (replies : PerLane (Nat → SendResult)) {counter : Nat} (h : counter < 2 ^ 64) :
    (gracefulDrain true queues replies counter).droppedRecords =
      (counter + (behind replies.metrics queues.metrics + behind replies.logs queues.logs
        + behind replies.spans queues.spans)) % 2 ^ 64 := by
  have hm := flushQueue_mod replies.metrics queues.metrics counter
  rw [Nat.mod_eq_of_lt h] at hm
  simp only [gracefulDrain, if_true, hm, flushQueue_mod, Nat.add_assoc]

/-- What a drain delivers, holds in hand and leaves behind is what was queued. -/
theorem gracefulDrain_delivered (queues : PerLane (List Batch))
    (replies : PerLane (Nat → SendResult)) {counter : Nat} (h : counter < 2 ^ 64) :
    queues.records = (gracefulDrain true queues replies counter).delivered.records
      + (inHand replies.metrics queues.metrics + inHand replies.logs queues.logs
        + inHand replies.spans queues.spans)
      + (behind replies.metrics queues.metrics + behind replies.logs queues.logs
        + behind replies.spans queues.spans) := by
  have hmod : ∀ n, n % 2 ^ 64 < 2 ^ 64 := fun n => Nat.mod_lt n (Nat.two_pow_pos 64)
  have hm := flushQueue_spec replies.metrics queues.metrics 0 h
  have hl := flushQueue_spec replies.logs queues.logs 0 (hm.2.2 ▸ hmod _)
  have hms := flushQueue_balance replies.metrics queues.metrics h
  have hls := flushQueue_balance replies.logs queues.logs (hm.2.2 ▸ hmod _)
  have hss := flushQueue_balance replies.spans queues.spans (hl.2.2 ▸ hmod _)
  simp only [gracefulDrain, if_true, PerLane.records]
  omega

theorem gracefulDrain_queues (queues : PerLane (List Batch))
    (replies : PerLane (Nat → SendResult)) {counter : Nat} (h : counter < 2 ^ 64) :
    (gracefulDrain true queues replies counter).queues = ⟨[], [], []⟩ := by
  have hmod : ∀ n, n % 2 ^ 64 < 2 ^ 64 := fun n => Nat.mod_lt n (Nat.two_pow_pos 64)
  have hm := flushQueue_spec replies.metrics queues.metrics 0 h
  have hl := flushQueue_spec replies.logs queues.logs 0 (hm.2.2 ▸ hmod _)
  have hs := flushQueue_spec replies.spans queues.spans 0 (hl.2.2 ▸ hmod _)
  simp only [gracefulDrain, if_true, hm.2.1, hl.2.1, hs.2.1]

/-- **When the account of a drain balances**: exactly when, in each lane, the batch in hand at the
first failing send holds no record, and the batches behind it fit the 64-bit counter. -/
theorem gracefulDrain_balanced_iff (queues : PerLane (List Batch))
    (replies : PerLane (Nat → SendResult)) {counter : Nat} (h : counter < 2 ^ 64) :
    Balanced queues counter (gracefulDrain true queues replies counter) ↔
      (inHand replies.metrics queues.metrics = 0 ∧ inHand replies.logs queues.logs = 0 ∧
        inHand replies.spans queues.spans = 0) ∧
      behind replies.metrics queues.metrics + behind replies.logs queues.logs
        + behind replies.spans queues.spans < 2 ^ 64 := by
  unfold Balanced
  rw [gracefulDrain_droppedRecords queues replies h, subW_add_mod _ h,
    gracefulDrain_delivered queues replies h, gracefulDrain_queues queues replies h]
  generalize (gracefulDrain true queues replies counter).delivered.records = delivered
  generalize hb : behind replies.metrics queues.metrics + behind replies.logs queues.logs
    + behind replies.spans queues.spans = credited
  constructor
  · rintro ⟨hsum, -⟩
    have hle : credited % 2 ^ 64 ≤ credited := Nat.mod_le _ _
    have hlt : credited % 2 ^ 64 < 2 ^ 64 := Nat.mod_lt _ (Nat.two_pow_pos 64)
    omega
  · rintro ⟨⟨hm, hl, hs⟩, hlt⟩
    rw [Nat.mod_eq_of_lt hlt, hm, hl, hs]
    exact ⟨by omega, rfl⟩

/-- Two metrics batches, the send of the first one times out: the second one is credited, the one
in hand is lost without a trace. -/
theorem gracefulDrain_in_hand_lost :
    ¬Balanced ⟨[⟨[1], 3⟩, ⟨[2], 5⟩], [], []⟩ 0
      (gracefulDrain true ⟨[⟨[1], 3⟩, ⟨[2], 5⟩], [], []⟩
        ⟨fun _ => .deadlineExceeded, fun _ => .deadlineExceeded, fun _ => .deadlineExceeded⟩ 0) := by
  decide

/-- An accepted batch and, behind an empty one whose send fails, a credited batch. -/
theorem gracefulDrain_balanced_iff_empty_in_hand :
    Balanced ⟨[], [⟨[1], 3⟩, ⟨[], 0⟩, ⟨[2], 5⟩], []⟩ 7
      (gracefulDrain true ⟨[], [⟨[1], 3⟩, ⟨[], 0⟩, ⟨[2], 5⟩], []⟩
        ⟨fun _ => .deadlineExceeded,
          fun i => if i = 0 then .outcome .accepted else .error .timeout,
          fun _ => .deadlineExceeded⟩ 7) :=
  (gracefulDrain_balanced_iff _ _ (by decide)).mpr (by decide)

end NgxOtel.Drain
