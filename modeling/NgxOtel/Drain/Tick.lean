import NgxOtel.Drain.RetryQueue
import Mathlib.Data.List.Chain

/-!
# The periodic tick and its clock

`periodic_tick` of `drain/mod.rs`: the exporter sleeps in short chunks and visits the logs and the
spans lane after each of them, the metrics lane once per interval.  A visit takes its deferral
decision once, from one clock reading, then makes a retry pass and sends a fresh batch.

* `LaneVisit` — what the environment does during one visit: the clock, the peer, the rings, and
  whether a shutdown is requested.
* `visitLane` — one visit; the three lanes run the same code with different gates.
* `wake`, `boundary` — one turn of the sleep loop, and the end of the interval.
* `Exporter.clock` — every clock reading the tick and its sends have made, in order.

The test-only deferral of a quit is never active in production and is left out, as is what follows
a shutdown (`graceful_drain`): a stopped exporter makes no more steps.

## Results

* `Waits` — the next send of a lane starts no earlier than the deferral its last verdict prescribed.
* `QuietRetry` — no retry of the visit comes back retryable, or none that the visit mishandles.
* `lane_waits` — **a lane whose visits are all quiet waits out every deferral**, in every run.
* `lane_hurries` — a lane that sends a fresh batch right after a retry was deferred.
-/

set_option autoImplicit false

namespace NgxOtel.Drain

open Word

/-- The environment of one lane during one visit. -/
structure LaneVisit where
  /-- the clock when the retry pass starts -/
  passMsec : Nat
  /-- the replies to the sends of the retry pass -/
  replies : Nat → Reply
  /-- `shutdown_requested()` between the retry pass and the fresh send -/
  shutdown : Bool
  /-- the lane is configured and its zone mapped -/
  available : Bool
  /-- the batch collected from the rings, and the reply to its send -/
  batch : Batch
  reply : Reply

/-- A lane after a visit, whether the visit ended the tick, and the clock readings it made. -/
structure Visited where
  lane : Lane
  stopped : Bool
  readings : List Nat

/-- The clock readings of the sends that a lane has made since it was `l`. -/
def Lane.readingsSince (l l' : Lane) : List Nat :=
  (l'.sends.drop l.sends.length).flatMap fun s => [s.reply.start, s.reply.finish]

/-- One visit of a lane.  `enabled` gates the retry pass, `permitted` the fresh send; both are also
gated by the deferral at `nowMsec`, which is read before either. -/
def visitLane (depth nowMsec : Nat) (enabled permitted : Bool) (v : LaneVisit) (l : Lane) :
    Visited :=
  let deferred := l.backoff.isDeferred nowMsec
  let passed := if enabled && !deferred then drainRetryQueueOnce depth v.passMsec v.replies l else l
  let passReading := if enabled && !deferred then [v.passMsec] else []
  if v.shutdown then ⟨passed, true, passReading ++ l.readingsSince passed⟩
  else
    let sent :=
      if permitted && !deferred && v.available then sendFreshBatch depth v.batch v.reply passed
      else passed
    ⟨sent, false, passReading ++ l.readingsSince sent⟩

/-- The exporter's lanes and its abdication latch; `stopped` once a shutdown has been seen. -/
structure Exporter where
  lanes : PerLane Lane
  abdicated : Bool
  stopped : Bool
  clock : List Nat

def Exporter.start : Exporter := ⟨⟨.empty, .empty, .empty⟩, false, false, []⟩

/-- The environment of one turn of the sleep loop. -/
structure Wake where
  /-- `ngx_terminate` or `ngx_quit` is set after the sleep -/
  shutdown : Bool
  /-- `successor_announced` -/
  successor : Bool
  /-- the clock, read once for both lanes -/
  nowMsec : Nat
  logs : LaneVisit
  /-- `shutdown_requested()` between the two lanes -/
  between : Bool
  spans : LaneVisit

/-- The environment of the end of the interval. -/
structure Boundary where
  shutdown : Bool
  nowMsec : Nat
  metrics : LaneVisit

/-- One turn of the sleep loop: the logs lane, then the spans lane. -/
def wake (depth : Nat) (e : Exporter) (w : Wake) : Exporter :=
  if w.shutdown then { e with stopped := true }
  else
    let abdicated := e.abdicated || w.successor
    let logs := visitLane depth w.nowMsec true (!abdicated) w.logs e.lanes.logs
    let e := { lanes := { e.lanes with logs := logs.lane }, abdicated := abdicated,
               stopped := logs.stopped || w.between,
               clock := e.clock ++ w.nowMsec :: logs.readings : Exporter }
    if e.stopped then e
    else
      let spans := visitLane depth w.nowMsec true (!abdicated) w.spans e.lanes.spans
      { e with lanes := { e.lanes with spans := spans.lane }, stopped := spans.stopped,
               clock := e.clock ++ spans.readings }

/-- The end of the interval: the metrics lane, with a clock reading of its own. -/
def boundary (depth : Nat) (metricsEnabled : Bool) (e : Exporter) (b : Boundary) : Exporter :=
  if b.shutdown then { e with stopped := true }
  else
    let metrics := visitLane depth b.nowMsec metricsEnabled metricsEnabled b.metrics e.lanes.metrics
    { e with lanes := { e.lanes with metrics := metrics.lane }, stopped := metrics.stopped,
             clock := e.clock ++ b.nowMsec :: metrics.readings }

inductive TickStep where
  | wake (w : Wake)
  | boundary (b : Boundary)

/-- A step of the periodic path; a stopped exporter makes none. -/
def tickStep (depth : Nat) (metricsEnabled : Bool) (e : Exporter) : TickStep → Option Exporter
  | .wake w => if e.stopped then none else some (wake depth e w)
  | .boundary b => if e.stopped then none else some (boundary depth metricsEnabled e b)

/-! ## Waiting out a deferral -/

/-- The send `b` starts no earlier than the deferral that `a` ended with prescribes. -/
def Waits (a b : Send) : Prop := ∀ d, a.deferral = some d → a.reply.finish + d ≤ b.reply.start

/-- A lane whose sends have waited, and whose backoff state covers the last one. -/
structure Timed (depth : Nat) (l : Lane) : Prop where
  bounded : l.queue.length ≤ max depth 1
  waited : l.sends.IsChain Waits
  covered : ∀ s d, l.sends.getLast? = some s → s.deferral = some d →
    s.reply.finish + d ≤ l.backoff.notBeforeMsec

/-- The visit makes no fresh send. -/
def LaneVisit.NoFresh (v : LaneVisit) (permitted : Bool) : Prop :=
  v.shutdown = true ∨ permitted = false ∨ v.available = false ∨ v.batch.nRecords = 0

/-- A retry of this visit that comes back retryable does so before the clock moves on from the start
of the pass, and no fresh send follows it; and no deferral runs past the 64-bit clock. -/
def QuietVisit (l : Lane) (nowMsec : Nat) (permitted : Bool) (v : LaneVisit) : Prop :=
  l.backoff.isDeferred nowMsec = false →
    (∀ j < l.queue.length, ∀ hint, (v.replies j).result = .outcome (.retryable hint) →
      (v.replies j).finish = v.passMsec ∧ v.NoFresh permitted ∧
      ∀ n, (v.replies j).finish + deferMs hint n ≤ U64_MAX) ∧
    ∀ hint, v.reply.result = .outcome (.retryable hint) →
      ∀ n, v.reply.finish + deferMs hint n ≤ U64_MAX

theorem freshSend_judged (l : Lane) (batch : Batch) (reply : Reply) :
    (freshSend l batch reply).Judged :=
  Send.judged_of_prescribed (s := freshSend l batch reply) rfl

/-- A lane that is not deferred at `nowMsec` has waited out its last verdict by then. -/
theorem Timed.due {depth nowMsec : Nat} {l : Lane} (h : Timed depth l)
    (hdue : l.backoff.isDeferred nowMsec = false) {s : Send} {d : Nat}
    (hlast : l.sends.getLast? = some s) (hd : s.deferral = some d) :
    s.reply.finish + d ≤ nowMsec := by
  have hcovered := h.covered s d hlast hd
  simp only [SignalBackoff.isDeferred, Bool.and_eq_false_iff, decide_eq_false_iff_not, not_not,
    Nat.not_lt] at hdue
  omega

/-- Sends that start at `nowMsec` or later may follow. -/
theorem Timed.chain_append {depth nowMsec : Nat} {l : Lane} (h : Timed depth l)
    (hdue : l.backoff.isDeferred nowMsec = false) {made : List Send}
    (hmade : made.IsChain Waits) (hstart : ∀ s ∈ made, nowMsec ≤ s.reply.start) :
    (l.sends ++ made).IsChain Waits := by
  refine List.isChain_append.mpr ⟨h.waited, hmade, ?_⟩
  intro a ha b hb d hd
  have hnow := h.due hdue ha hd
  have hb' := hstart b (List.mem_of_mem_head? hb)
  omega

theorem isChain_of_undeferred {made : List Send}
    (h : ∀ s ∈ made.dropLast, s.deferral = none) : made.IsChain Waits := by
  induction made with
  | nil => exact List.isChain_nil
  | cons a made ih =>
    cases made with
    | nil => exact List.isChain_singleton a
    | cons b made =>
      simp only [List.dropLast_cons_cons, List.mem_cons, forall_eq_or_imp] at h
      refine List.isChain_cons_cons.mpr ⟨?_, ih h.2⟩
      intro d hd
      rw [h.1] at hd
      cases hd

/-! ## One visit -/

section Visit

variable {depth nowMsec : Nat} {permitted : Bool} {v : LaneVisit} {l : Lane}

theorem start_mem_readingsSince {l' : Lane} {made : List Send} (h : l'.sends = l.sends ++ made)
    {s : Send} (hs : s ∈ made) : s.reply.start ∈ l.readingsSince l' := by
  simp only [Lane.readingsSince, h, List.drop_left, List.mem_flatMap]
  exact ⟨s, hs, by simp⟩

theorem Timed.retry {made : List Send} (h : Timed depth l)
    (hdue : l.backoff.isDeferred nowMsec = false) (hquiet : QuietVisit l nowMsec permitted v)
    (hpass : PassSpec l.queue v.passMsec 0 v.replies l
      (drainRetryQueueOnce depth v.passMsec v.replies l) made)
    (hstart : ∀ s ∈ made, nowMsec ≤ s.reply.start) :
    Timed depth (drainRetryQueueOnce depth v.passMsec v.replies l) := by
  refine ⟨Nat.le_trans hpass.remains.length_le h.bounded, ?_, ?_⟩
  · rw [hpass.sends_eq]
    exact h.chain_append hdue (isChain_of_undeferred hpass.undeferred) hstart
  · intro s d hlast hd
    rw [hpass.sends_eq] at hlast
    by_cases hmade : made = []
    · rw [hmade, List.append_nil] at hlast
      rw [hpass.idle hmade]
      exact h.covered s d hlast hd
    · rw [List.getLast?_append_of_ne_nil _ hmade] at hlast
      obtain ⟨-, hjudged, j, -, hj, hreply⟩ := hpass.retries s (List.mem_of_getLast? hlast)
      obtain ⟨hint, n, hresult, hdn⟩ := hjudged d hd
      rw [hreply] at hresult ⊢
      obtain ⟨hfinish, -, hbound⟩ := (hquiet hdue).1 j (by omega) hint hresult
      rw [hpass.deferred s d hlast hd]
      have := hbound n
      omega

theorem Timed.fresh {passed : Lane} (h : Timed depth passed)
    (hlast : ∀ s d, passed.sends.getLast? = some s → s.deferral = some d →
      s.reply.finish + d ≤ v.reply.start)
    (hbound : ∀ hint, v.reply.result = .outcome (.retryable hint) →
      ∀ n, v.reply.finish + deferMs hint n ≤ U64_MAX) :
    Timed depth (sendFreshBatch depth v.batch v.reply passed) := by
  by_cases hn : v.batch.nRecords = 0
  · rw [sendFreshBatch_zero hn]
    exact h
  · obtain ⟨hsends, hdefer, hqueue⟩ := sendFreshBatch_spec depth hn v.reply passed
    refine ⟨?_, ?_, ?_⟩
    · rcases hqueue with ⟨hq, -⟩ | ⟨hq, -⟩
      · rw [hq]; exact h.bounded
      · rw [hq]; exact (enqueueWithEviction_spec passed.queue v.batch depth).2.2 h.bounded
    · rw [hsends]
      refine List.isChain_append.mpr ⟨h.waited, List.isChain_singleton _, ?_⟩
      intro a ha b hb d hd
      rw [List.head?_singleton, Option.mem_some_iff] at hb
      rw [← hb]
      exact hlast a d ha hd
    · intro s d hs hd
      rw [hsends, List.getLast?_concat, Option.some.injEq] at hs
      rw [← hs] at hd ⊢
      obtain ⟨hint, n, hresult, rfl⟩ := freshSend_judged passed v.batch v.reply d hd
      rw [hdefer _ hd]
      have hfit := hbound hint hresult n
      simp only [freshSend]
      omega

/-- The lane after the retry pass, or without one: its last verdict has been waited out, or nothing
is sent before the next visit. -/
theorem Timed.passed (enabled : Bool) (h : Timed depth l)
    (hdue : l.backoff.isDeferred nowMsec = false) (hquiet : QuietVisit l nowMsec permitted v) :
    ∃ made, (if enabled then drainRetryQueueOnce depth v.passMsec v.replies l else l).sends
        = l.sends ++ made ∧
      ((∀ s ∈ made, nowMsec ≤ s.reply.start) →
        Timed depth (if enabled then drainRetryQueueOnce depth v.passMsec v.replies l else l) ∧
        ∀ s d, (l.sends ++ made).getLast? = some s → s.deferral = some d →
          v.NoFresh permitted ∨ s.reply.finish + d ≤ nowMsec) := by
  cases enabled with
  | false =>
    refine ⟨[], by simp, fun _ => ⟨by simpa using h, fun s d hlast hd => .inr ?_⟩⟩
    rw [List.append_nil] at hlast
    exact h.due hdue hlast hd
  | true =>
    obtain ⟨made, hpass⟩ := drainRetryQueueOnce_spec depth v.passMsec v.replies h.bounded
    refine ⟨made, by simpa using hpass.sends_eq, fun hstart => ⟨?_, ?_⟩⟩
    · simpa using h.retry hdue hquiet hpass hstart
    · intro s d hlast hd
      by_cases hmade : made = []
      · rw [hmade, List.append_nil] at hlast
        exact .inr (h.due hdue hlast hd)
      · rw [List.getLast?_append_of_ne_nil _ hmade] at hlast
        obtain ⟨-, hjudged, j, -, hj, hreply⟩ := hpass.retries s (List.mem_of_getLast? hlast)
        obtain ⟨hint, n, hresult, -⟩ := hjudged d hd
        rw [hreply] at hresult
        exact .inl ((hquiet hdue).1 j (by omega) hint hresult).2.1

/-- **A quiet visit waits out every deferral.** -/
theorem visitLane_timed {enabled : Bool} (h : Timed depth l)
    (hquiet : QuietVisit l nowMsec permitted v)
    (hclock : ∀ r ∈ (visitLane depth nowMsec enabled permitted v l).readings, nowMsec ≤ r) :
    Timed depth (visitLane depth nowMsec enabled permitted v l).lane := by
  unfold visitLane at hclock ⊢
  cases hdue : l.backoff.isDeferred nowMsec with
  | true =>
    simp only [Bool.not_true, Bool.and_false, Bool.false_and, Bool.false_eq_true, if_false]
    split <;> exact h
  | false =>
    obtain ⟨made, hsends, hpassed⟩ := h.passed enabled hdue hquiet
    simp only [hdue, Bool.not_false, Bool.and_true] at hclock ⊢
    generalize (if enabled then drainRetryQueueOnce depth v.passMsec v.replies l else l) = passed
      at hclock hsends hpassed ⊢
    cases hshutdown : v.shutdown with
    | true =>
      simp only [hshutdown, if_true] at hclock ⊢
      exact (hpassed fun s hs => hclock _ (List.mem_append_right _
        (start_mem_readingsSince hsends hs))).1
    | false =>
      simp only [hshutdown, Bool.false_eq_true, if_false] at hclock ⊢
      by_cases hsend : (permitted && v.available) = true
      · rw [if_pos hsend] at hclock ⊢
        by_cases hn : v.batch.nRecords = 0
        · rw [sendFreshBatch_zero hn] at hclock ⊢
          exact (hpassed fun s hs => hclock _ (List.mem_append_right _
            (start_mem_readingsSince hsends hs))).1
        · have hfresh : (sendFreshBatch depth v.batch v.reply passed).sends
              = l.sends ++ (made ++ [freshSend passed v.batch v.reply]) := by
            rw [(sendFreshBatch_spec depth hn v.reply passed).1, hsends, List.append_assoc]
          have hstart : ∀ s ∈ made ++ [freshSend passed v.batch v.reply],
              nowMsec ≤ s.reply.start := fun s hs =>
            hclock _ (List.mem_append_right _ (start_mem_readingsSince hfresh hs))
          obtain ⟨htimed, hlast⟩ := hpassed fun s hs => hstart s (List.mem_append_left _ hs)
          refine htimed.fresh ?_ (hquiet hdue).2
          intro s d hs hd
          rw [hsends] at hs
          have hnow := hstart (freshSend passed v.batch v.reply) (by simp)
          rcases hlast s d hs hd with hno | hle
          · simp only [LaneVisit.NoFresh, hshutdown, Bool.and_eq_true] at hno hsend
            simp [hsend, hn] at hno
          · exact Nat.le_trans hle hnow
      · rw [if_neg hsend] at hclock ⊢
        exact (hpassed fun s hs => hclock _ (List.mem_append_right _
          (start_mem_readingsSince hsends hs))).1

end Visit

/-! ## Runs -/

inductive Signal where
  | metrics
  | logs
  | spans
  deriving DecidableEq, Repr

def PerLane.get {α : Type} (p : PerLane α) : Signal → α
  | .metrics => p.metrics
  | .logs => p.logs
  | .spans => p.spans

/-- The step's visit of the lane, if it makes one, is quiet. -/
def QuietRetry (metricsEnabled : Bool) (signal : Signal) (e : Exporter) (a : TickStep) : Prop :=
  match signal, a with
  | .logs, .wake w =>
      QuietVisit e.lanes.logs w.nowMsec (!(e.abdicated || w.successor)) w.logs
  | .spans, .wake w =>
      QuietVisit e.lanes.spans w.nowMsec (!(e.abdicated || w.successor)) w.spans
  | .metrics, .boundary b => QuietVisit e.lanes.metrics b.nowMsec metricsEnabled b.metrics
  | _, _ => True

/-- What a step does to a lane: nothing, or one visit of it, whose gate reads the clock first. -/
def Visits (depth : Nat) (metricsEnabled : Bool) (signal : Signal) (e e' : Exporter)
    (a : TickStep) : Prop :=
  e'.lanes.get signal = e.lanes.get signal ∨
  ∃ nowMsec enabled permitted v mid rest,
    (QuietRetry metricsEnabled signal e a ↔
      QuietVisit (e.lanes.get signal) nowMsec permitted v) ∧
    e'.lanes.get signal = (visitLane depth nowMsec enabled permitted v (e.lanes.get signal)).lane ∧
    e'.clock = e.clock ++ (nowMsec :: (mid ++
      ((visitLane depth nowMsec enabled permitted v (e.lanes.get signal)).readings ++ rest)))

/-- **What one step can do to a lane and to the clock.** -/
theorem tickStep_visits {depth : Nat} {metricsEnabled : Bool} {e e' : Exporter} {a : TickStep}
    (signal : Signal) (h : tickStep depth metricsEnabled e a = some e') :
    e.clock <+: e'.clock ∧ Visits depth metricsEnabled signal e e' a := by
  cases a with
  | boundary b =>
    simp only [tickStep, Option.ite_none_left_eq_some, Option.some.injEq] at h
    obtain ⟨-, rfl⟩ := h
    unfold boundary
    cases b.shutdown with
    | true => exact ⟨List.prefix_rfl, .inl (by cases signal <;> rfl)⟩
    | false =>
      refine ⟨List.prefix_append _ _, ?_⟩
      cases signal with
      | logs => exact .inl rfl
      | spans => exact .inl rfl
      | metrics =>
        exact .inr ⟨b.nowMsec, metricsEnabled, metricsEnabled, b.metrics, [], [], Iff.rfl, rfl,
          by simp [PerLane.get]⟩
  | wake w =>
    simp only [tickStep, Option.ite_none_left_eq_some, Option.some.injEq] at h
    obtain ⟨-, rfl⟩ := h
    unfold wake
    cases w.shutdown with
    | true => exact ⟨List.prefix_rfl, .inl (by cases signal <;> rfl)⟩
    | false =>
      simp only [Bool.false_eq_true, if_false]
      split
      · refine ⟨List.prefix_append _ _, ?_⟩
        cases signal with
        | metrics => exact .inl rfl
        | spans => exact .inl rfl
        | logs =>
          exact .inr ⟨w.nowMsec, true, _, w.logs, [], [], Iff.rfl, rfl,
            by simp only [List.nil_append, List.append_nil, PerLane.get]⟩
      · refine ⟨⟨_, (List.append_assoc _ _ _).symm⟩, ?_⟩
        cases signal with
        | metrics => exact .inl rfl
        | spans =>
          exact .inr ⟨w.nowMsec, true, _, w.spans, _, [], Iff.rfl, rfl,
            by simp only [List.append_nil, List.append_assoc, List.cons_append, PerLane.get]; rfl⟩
        | logs =>
          exact .inr ⟨w.nowMsec, true, _, w.logs, [], _, Iff.rfl, rfl,
            by simp only [List.nil_append, List.append_assoc, List.cons_append, PerLane.get]; rfl⟩

theorem tickStep_timed {depth : Nat} {metricsEnabled : Bool} {e e' : Exporter} {a : TickStep}
    {signal : Signal} (hstep : tickStep depth metricsEnabled e a = some e')
    (hquiet : QuietRetry metricsEnabled signal e a) (hclock : e'.clock.Pairwise (· ≤ ·))
    (h : Timed depth (e.lanes.get signal)) : Timed depth (e'.lanes.get signal) := by
  obtain ⟨-, hsame | ⟨nowMsec, enabled, permitted, v, mid, rest, hiff, hlane, hreadings⟩⟩ :=
    tickStep_visits signal hstep
  · rw [hsame]
    exact h
  · rw [hlane]
    refine visitLane_timed h (hiff.mp hquiet) ?_
    intro r hr
    rw [hreadings] at hclock
    have hafter := (List.pairwise_append.mp hclock).2.1
    exact List.rel_of_pairwise_cons hafter
      (List.mem_append_right _ (List.mem_append_left _ hr))

theorem timed_empty (depth : Nat) (signal : Signal) :
    Timed depth (Exporter.start.lanes.get signal) := by
  have hempty : (Exporter.start.lanes.get signal).queue = [] ∧
      (Exporter.start.lanes.get signal).sends = [] := by
    cases signal <;> exact ⟨rfl, rfl⟩
  refine ⟨by simp [hempty.1], by rw [hempty.2]; exact List.isChain_nil, ?_⟩
  intro s d hlast
  simp [hempty.2] at hlast

/-- **A lane whose visits are all quiet waits out every deferral**: in every run of the periodic
path with non-decreasing clock readings, whatever the sends return and however long they take, a
send follows a retryable verdict at `t` that prescribes `d` milliseconds no earlier than `t + d`. -/
theorem lane_waits {depth : Nat} {metricsEnabled : Bool} {signal : Signal} {steps : List TickStep}
    {e : Exporter}
    (hrun : Run.exec (tickStep depth metricsEnabled) Exporter.start steps = some e)
    (hclock : e.clock.Pairwise (· ≤ ·))
    (hquiet : Run.Along (tickStep depth metricsEnabled) (QuietRetry metricsEnabled signal)
      Exporter.start steps) :
    (e.lanes.get signal).sends.IsChain Waits := by
  have hstep : ∀ e a e', (e.clock.Pairwise (· ≤ ·) → Timed depth (e.lanes.get signal)) →
      QuietRetry metricsEnabled signal e a → tickStep depth metricsEnabled e a = some e' →
      (e'.clock.Pairwise (· ≤ ·) → Timed depth (e'.lanes.get signal)) := by
    intro e a e' h hq hs hc
    exact tickStep_timed hs hq hc (h (hc.sublist (tickStep_visits signal hs).1.sublist))
  have htimed := Run.exec_invariant_along hstep hquiet hrun (fun _ => timed_empty depth signal)
  exact (htimed hclock).waited

/-- A visit of a lane that is not configured. -/
def idleVisit : LaneVisit := ⟨0, fun _ => ⟨0, 0, .deadlineExceeded⟩, false, false, ⟨[], 0⟩,
  ⟨0, 0, .deadlineExceeded⟩⟩

/-- One turn of the sleep loop that visits the logs lane only. -/
def logsWake (nowMsec : Nat) (replies : Nat → Reply) (batch : Batch) (reply : Reply) : TickStep :=
  .wake ⟨false, false, nowMsec, ⟨nowMsec, replies, false, true, batch, reply⟩, false,
    { idleVisit with passMsec := reply.finish }⟩

/-- A batch times out and is queued; at the next visit its retry is deferred for 250 ms, and the
visit sends the next fresh batch at once. -/
def hurryingSteps : List TickStep :=
  [logsWake 0 idleVisit.replies ⟨[1], 1⟩ ⟨0, 5, .deadlineExceeded⟩,
   logsWake 250 (fun _ => ⟨250, 260, .outcome (.retryable none)⟩) ⟨[2], 1⟩
     ⟨260, 270, .outcome .accepted⟩]

/-- **A lane can hurry**: the deferral decision of a visit is older than its retries. -/
theorem lane_hurries : ∃ e,
    Run.exec (tickStep 1 true) Exporter.start hurryingSteps = some e ∧
    e.clock.Pairwise (· ≤ ·) ∧ ¬(e.lanes.get .logs).sends.IsChain Waits := by
  have hends : (Run.exec (tickStep 1 true) Exporter.start hurryingSteps).map
      (fun e => (e.clock, e.lanes.logs.sends)) = some
      ([0, 0, 0, 5, 5, 250, 250, 250, 260, 260, 270, 270],
        [⟨.fresh, ⟨[1], 1⟩, ⟨0, 5, .deadlineExceeded⟩, none⟩,
         ⟨.retry, ⟨[1], 1⟩, ⟨250, 260, .outcome (.retryable none)⟩, some 250⟩,
         ⟨.fresh, ⟨[2], 1⟩, ⟨260, 270, .outcome .accepted⟩, none⟩]) := by decide
  obtain ⟨e, hrun, he⟩ := Option.map_eq_some_iff.mp hends
  simp only [Prod.mk.injEq] at he
  refine ⟨e, hrun, by rw [he.1]; decide, ?_⟩
  intro hchain
  rw [PerLane.get, he.2] at hchain
  have hwaits := (List.isChain_cons_cons.mp (List.isChain_cons_cons.mp hchain).2).1 250 rfl
  exact absurd hwaits (by decide)

theorem backoffMs_le_cap (n baseMs capMs : Nat) : backoffMs n baseMs capMs ≤ capMs := by
  unfold backoffMs
  split
  · exact Nat.zero_le _
  · simp only
    split
    · exact Nat.le_refl _
    · exact Nat.min_le_right _ _

/-- A fresh batch is deferred for 250 ms, a visit falls into the deferral, the next one retries. -/
def patientSteps : List TickStep :=
  [logsWake 0 idleVisit.replies ⟨[1], 1⟩ ⟨0, 5, .outcome (.retryable none)⟩,
   logsWake 100 idleVisit.replies ⟨[2], 1⟩ ⟨100, 100, .deadlineExceeded⟩,
   logsWake 300 (fun _ => ⟨300, 305, .outcome .accepted⟩) ⟨[2], 1⟩ ⟨305, 310, .outcome .accepted⟩]

theorem lane_waits_patientSteps : ∃ e,
    Run.exec (tickStep 1 true) Exporter.start patientSteps = some e ∧
    (e.lanes.get .logs).sends.length = 3 ∧ (e.lanes.get .logs).sends.IsChain Waits := by
  have hends : (Run.exec (tickStep 1 true) Exporter.start patientSteps).map
      (fun e => (e.clock, (e.lanes.get .logs).sends.length)) = some
      ([0, 0, 0, 5, 5, 100, 100, 300, 300, 300, 305, 305, 310, 310], 3) := by decide
  have hquiet : Run.Along (tickStep 1 true) (QuietRetry true .logs) Exporter.start patientSteps := by
    refine ⟨fun _ => ⟨nofun, ?_⟩, fun _ _ => ⟨?_, fun _ _ => ⟨?_, fun _ _ => trivial⟩⟩⟩
    · rintro hint ⟨⟩ n
      have hcap : deferMs none n ≤ 30000 := backoffMs_le_cap n BACKOFF_BASE_MS BACKOFF_CAP_MS
      simp only [U64_MAX]
      omega
    · exact fun _ => ⟨fun _ _ _ h => (nomatch h), fun _ h => (nomatch h)⟩
    · exact fun _ => ⟨fun _ _ _ h => (nomatch h), fun _ h => (nomatch h)⟩
  obtain ⟨e, hrun, he⟩ := Option.map_eq_some_iff.mp hends
  simp only [Prod.mk.injEq] at he
  exact ⟨e, hrun, he.2, lane_waits hrun (by rw [he.1]; decide) hquiet⟩

end NgxOtel.Drain
