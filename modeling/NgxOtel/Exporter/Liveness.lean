import NgxOtel.Lib.Run
import NgxOtel.Lib.Word
import Mathlib.Data.List.Pairwise

/-!
# The heartbeat of the exporter and the alert of the workers

A dead exporter is silent, so the workers watch it: `heartbeat_timer_handler` (`exporter/mod.rs`)
stores the clock of the exporter in `last_beat_msec` once a period, and a worker whose ring is full
calls `check_exporter_liveness_on_drop` (`liveness.rs`), which alerts once for each value of
`successor_gen` when the beat is older than the threshold.

Several exporters beat the same word (a reload lets the old one drain), every process has its own
cached clock, and the check of a worker is not atomic: it loads the beat, then the generation.

* `heartbeatIsStale`, `latchShouldAlert` — the two decisions, as the code makes them.
* `State` — the control words, the timers of the exporters, the latch of each worker process and
  where it is in the check; with the history: the alerts, the checks that found a stale beat, the
  moves of the generation and the time of the last store.
* `step` — one move of the clock, an exporter, the master or a worker.
* `Timely lag late` — cached clocks are at most `lag` behind and no heartbeat timer runs more than
  `late` after it is due; a worker drops while an exporter with a timer is running, or before the
  first beat.

An exporter whose timer cannot be allocated runs on without one and never beats; the comment at the
allocation counts on the grace before the first beat, which a predecessor has ended.

## Results

* `no_false_alert` — **an exporter that beats is never reported**, if a period, the lag and the
  lateness fit into the threshold; how far drains and sends have come does not enter.
* `alerts_latched` — **a dead exporter is always reported, and once**: every check that finds a
  stale beat is covered by an alert of the same worker for the same generation, between two alerts
  of one worker the generation has moved, and if no fork fails no worker alerts twice for a
  generation.
-/

set_option autoImplicit false

namespace NgxOtel.Exporter.Liveness

open Word

/-! ## The decisions -/

def HEARTBEAT_PERIOD_MS : Nat := 1000
def HEARTBEAT_STALE_THRESHOLD_MS : Nat := 5 * HEARTBEAT_PERIOD_MS
/-- No alert latched yet: `u64::MAX`. -/
def LATCH_UNSET : Nat := 2 ^ 64 - 1

/-- `heartbeat_is_stale`; the subtraction saturates. -/
def heartbeatIsStale (nowMsec lastBeatMsec : Nat) : Bool :=
  lastBeatMsec ≠ 0 && nowMsec - lastBeatMsec > HEARTBEAT_STALE_THRESHOLD_MS

/-- `latch_should_alert`. -/
def latchShouldAlert (latchedGen currentGen : Nat) (stale : Bool) : Bool :=
  stale && latchedGen ≠ currentGen

theorem heartbeatIsStale_iff {now beat : Nat} :
    heartbeatIsStale now beat = true ↔ beat ≠ 0 ∧ beat + HEARTBEAT_STALE_THRESHOLD_MS < now := by
  simp only [heartbeatIsStale, HEARTBEAT_STALE_THRESHOLD_MS, HEARTBEAT_PERIOD_MS, ne_eq,
    decide_not, gt_iff_lt, Bool.and_eq_true, Bool.not_eq_eq_eq_not, Bool.not_true,
    decide_eq_false_iff_not, decide_eq_true_eq]
  omega

/-! ## The processes -/

/-- An alert: the worker process and the generation it is for, the clock and the beat it was raised
on, and how often the generation had moved. -/
structure Alert where
  worker : Nat
  gen : Nat
  now : Nat
  beat : Nat
  moves : Nat
  deriving DecidableEq, Repr

/-- The control words and the processes around them. -/
structure State where
  clock : Nat
  lastBeatMsec : Nat
  successorGen : Nat
  /-- the master has announced a successor and not forked it yet -/
  announced : Bool
  /-- when the heartbeat timer of each running exporter is due -/
  timers : List Nat
  /-- the running exporters that have no timer -/
  unarmed : Nat
  /-- `ALERT_LATCHED_GEN` of each worker process -/
  latchedGen : Nat → Nat
  /-- the clock and the beat of a worker that has found the beat stale -/
  found : Nat → Option (Nat × Nat)
  forked : Nat
  moves : Nat
  storedAt : Nat
  alerts : List Alert
  checks : List (Nat × Nat)

/-- One move; clocks that a process reads are its own cached `ngx_current_msec`. -/
inductive Act where
  | tick (d : Nat)
  /-- an exporter comes up: first beat, timer armed -/
  | start (now : Nat)
  /-- an exporter comes up, and `ngx_pcalloc` has no memory for its timer -/
  | startUnarmed
  /-- `heartbeat_timer_handler` runs on a timer that was due -/
  | beat (due now : Nat)
  /-- an exporter is gone, and its timer with it -/
  | exit (due : Nat)
  | exitUnarmed
  | announce
  | fork
  | rollback
  /-- a ring of worker `w` is full: load of the beat, verdict -/
  | drop (w now : Nat)
  /-- the rest of the check, for a stale beat: load of the generation, latch, alert -/
  | report (w : Nat)
  deriving DecidableEq, Repr

/-- A heartbeat: the store, and the timer for the next one. -/
def State.beaten (s : State) (others : List Nat) (now : Nat) : State :=
  { s with lastBeatMsec := now, storedAt := s.clock,
           timers := (now + HEARTBEAT_PERIOD_MS) :: others }

/-- The second half of `check_exporter_liveness_on_drop`; the latch is set before the alert. -/
def State.reported (s : State) (w now beat : Nat) : State :=
  let checked := { s with found := Function.update s.found w none
                          checks := s.checks ++ [(w, s.successorGen)] }
  if latchShouldAlert (s.latchedGen w) s.successorGen true then
    { checked with latchedGen := Function.update s.latchedGen w s.successorGen
                   alerts := s.alerts ++ [⟨w, s.successorGen, now, beat, s.moves⟩] }
  else checked

/-- The moves of the system. -/
def step (s : State) : Act → Option State
  | .tick d => some { s with clock := s.clock + d }
  | .start now => some (s.beaten s.timers now)
  | .startUnarmed => some { s with unarmed := s.unarmed + 1 }
  | .beat due now =>
    if due ∈ s.timers ∧ due ≤ now then some (s.beaten (s.timers.erase due) now) else none
  | .exit due => if due ∈ s.timers then some { s with timers := s.timers.erase due } else none
  | .exitUnarmed => if s.unarmed = 0 then none else some { s with unarmed := s.unarmed - 1 }
  | .announce =>
    if s.announced then none
    else some { s with announced := true, successorGen := addW 64 s.successorGen 1,
                       moves := s.moves + 1 }
  | .fork =>
    if s.announced then some { s with announced := false, forked := s.forked + 1 } else none
  | .rollback =>
    if s.announced then
      some { s with announced := false, successorGen := subW 64 s.successorGen 1,
                    moves := s.moves + 1 }
    else none
  | .drop w now =>
    if s.found w = none then
      some (if heartbeatIsStale now s.lastBeatMsec then
        { s with found := Function.update s.found w (some (now, s.lastBeatMsec)) } else s)
    else none
  | .report w => (s.found w).map fun p => s.reported w p.1 p.2

/-- A fresh zone: nothing has beaten, and no worker has latched anything. -/
def initial (clock : Nat) : State :=
  { clock := clock, lastBeatMsec := 0, successorGen := 0, announced := false, timers := [],
    unarmed := 0, latchedGen := fun _ => LATCH_UNSET, found := fun _ => none, forked := 0, moves := 0,
    storedAt := clock, alerts := [], checks := [] }

/-! ## An exporter that beats is never reported -/

/-- The timing of the processes. -/
def Timely (lag late : Nat) (s : State) : Act → Prop
  | .tick d => ∀ due ∈ s.timers, s.clock + d ≤ due + late
  | .start now | .beat _ now => now ≤ s.clock ∧ s.clock ≤ now + lag
  | .drop _ now => now ≤ s.clock ∧ (s.timers ≠ [] ∨ s.lastBeatMsec = 0)
  | _ => True

instance (lag late : Nat) (s : State) (a : Act) : Decidable (Timely lag late s a) := by
  cases a <;> unfold Timely <;> infer_instance

/-- While an exporter has a timer, the beat is young: the next store is at most a period and the
lateness away from the last one, and that one was at most the lag behind. -/
structure Young (lag late : Nat) (s : State) : Prop where
  stored : s.storedAt ≤ s.clock
  soon : ∀ due ∈ s.timers, due ≤ s.storedAt + HEARTBEAT_PERIOD_MS
  clock : s.timers ≠ [] → s.clock ≤ s.storedAt + HEARTBEAT_PERIOD_MS + late
  beat : s.timers ≠ [] → s.storedAt ≤ s.lastBeatMsec + lag
  quiet : ∀ w, s.found w = none
  silent : s.alerts = []

/-- Whatever exporter stores its clock, the beat is young. -/
theorem Young.beaten {lag late : Nat} {s : State} {others : List Nat} {now : Nat}
    (h : Young lag late s) (hothers : ∀ due ∈ others, due ∈ s.timers) (hnow : now ≤ s.clock)
    (hlag : s.clock ≤ now + lag) : Young lag late (s.beaten others now) where
  stored := Nat.le_refl _
  soon := by
    intro due hdue
    have hstored := h.stored
    rcases List.mem_cons.mp hdue with rfl | hdue
    · exact Nat.add_le_add_right hnow _
    · have hsoon := h.soon due (hothers due hdue)
      show due ≤ s.clock + HEARTBEAT_PERIOD_MS
      omega
  clock := fun _ => by
    show s.clock ≤ s.clock + HEARTBEAT_PERIOD_MS + late
    omega
  beat := fun _ => hlag
  quiet := h.quiet
  silent := h.silent

/-- A worker that drops a record while the beat is young finds nothing. -/
theorem Young.not_stale {lag late : Nat} {s : State} {now : Nat} (h : Young lag late s)
    (hfit : HEARTBEAT_PERIOD_MS + late + lag ≤ HEARTBEAT_STALE_THRESHOLD_MS)
    (hnow : now ≤ s.clock) (halive : s.timers ≠ [] ∨ s.lastBeatMsec = 0) :
    heartbeatIsStale now s.lastBeatMsec = false := by
  rw [Bool.eq_false_iff, Ne, heartbeatIsStale_iff]
  rintro ⟨hbeat, hold⟩
  have hrunning : s.timers ≠ [] := halive.resolve_right hbeat
  have hclock := h.clock hrunning
  have hstored := h.beat hrunning
  omega

theorem step_young {lag late : Nat}
    (hfit : HEARTBEAT_PERIOD_MS + late + lag ≤ HEARTBEAT_STALE_THRESHOLD_MS) (s : State) (a : Act)
    (t : State) (h : Young lag late s) (htime : Timely lag late s a) (hstep : step s a = some t) :
    Young lag late t := by
  cases a with
  | tick d =>
    cases hstep
    refine ⟨Nat.le_add_right_of_le h.stored, h.soon, fun hrunning => ?_, h.beat, h.quiet,
      h.silent⟩
    obtain ⟨due, hdue⟩ := List.exists_mem_of_ne_nil _ hrunning
    have hlate := htime due hdue
    have hsoon := h.soon due hdue
    show s.clock + d ≤ s.storedAt + HEARTBEAT_PERIOD_MS + late
    omega
  | start now =>
    cases hstep
    exact h.beaten (fun _ hdue => hdue) htime.1 htime.2
  | startUnarmed =>
    cases hstep
    exact ⟨h.stored, h.soon, h.clock, h.beat, h.quiet, h.silent⟩
  | exitUnarmed =>
    simp only [step, Option.ite_none_left_eq_some, Option.some.injEq] at hstep
    obtain ⟨-, rfl⟩ := hstep
    exact ⟨h.stored, h.soon, h.clock, h.beat, h.quiet, h.silent⟩
  | beat due now =>
    simp only [step, Option.ite_none_right_eq_some, Option.some.injEq] at hstep
    obtain ⟨-, rfl⟩ := hstep
    exact h.beaten (fun _ hdue => List.mem_of_mem_erase hdue) htime.1 htime.2
  | exit due =>
    simp only [step, Option.ite_none_right_eq_some, Option.some.injEq] at hstep
    obtain ⟨hdue, rfl⟩ := hstep
    have hrunning : s.timers ≠ [] := List.ne_nil_of_mem hdue
    exact ⟨h.stored, fun d hd => h.soon d (List.mem_of_mem_erase hd), fun _ => h.clock hrunning,
      fun _ => h.beat hrunning, h.quiet, h.silent⟩
  | announce =>
    simp only [step, Option.ite_none_left_eq_some, Option.some.injEq] at hstep
    obtain ⟨-, rfl⟩ := hstep
    exact ⟨h.stored, h.soon, h.clock, h.beat, h.quiet, h.silent⟩
  | fork =>
    simp only [step, Option.ite_none_right_eq_some, Option.some.injEq] at hstep
    obtain ⟨-, rfl⟩ := hstep
    exact ⟨h.stored, h.soon, h.clock, h.beat, h.quiet, h.silent⟩
  | rollback =>
    simp only [step, Option.ite_none_right_eq_some, Option.some.injEq] at hstep
    obtain ⟨-, rfl⟩ := hstep
    exact ⟨h.stored, h.soon, h.clock, h.beat, h.quiet, h.silent⟩
  | drop w now =>
    simp only [step, Option.ite_none_right_eq_some, Option.some.injEq] at hstep
    obtain ⟨-, rfl⟩ := hstep
    rw [if_neg (by rw [h.not_stale hfit htime.1 htime.2]; decide)]
    exact h
  | report w =>
    rw [step, h.quiet w] at hstep
    cases hstep

theorem young_initial (lag late clock : Nat) : Young lag late (initial clock) where
  stored := Nat.le_refl _
  soon := fun _ h => (List.not_mem_nil h).elim
  clock := fun h => (h rfl).elim
  beat := fun h => (h rfl).elim
  quiet := fun _ => rfl
  silent := rfl

/-- **An exporter that beats is never reported.**  However exporters, master and workers interleave,
as long as an exporter with a heartbeat timer runs whenever a worker drops a record, or nothing has
beaten yet, no worker raises an alert; a period of a second, the lag of the cached clocks and the
lateness of the timers have to fit into the threshold of five. -/
theorem no_false_alert {lag late clock : Nat} {acts : List Act} {s : State}
    (hfit : 1000 + late + lag ≤ 5000)
    (htimely : Run.Along step (Timely lag late) (initial clock) acts)
    (hrun : Run.exec step (initial clock) acts = some s) : s.alerts = [] :=
  (Run.exec_invariant_along (step_young hfit) htimely hrun (young_initial lag late clock)).silent

/-- A reload with both exporters beating and one without a timer, a late timer and three drops. -/
def reloadActs : List Act :=
  [.startUnarmed, .drop 0 70, .start 80, .tick 1000, .beat 1080 1090, .announce, .fork,
    .start 1100, .drop 1 1090, .tick 2000, .tick 1900, .drop 0 5000, .beat 2090 4900, .exit 5900,
    .beat 2100 5000, .tick 4000, .drop 1 9000]

theorem no_false_alert_reload :
    (Run.exec step (initial 100) reloadActs).map State.alerts = some [] := by
  have hsome : (Run.exec step (initial 100) reloadActs).isSome := by decide
  obtain ⟨s, hs⟩ := Option.isSome_iff_exists.mp hsome
  rw [hs]
  exact congrArg some (no_false_alert (by decide : 1000 + 3900 + 100 ≤ 5000)
    (by decide) hs)

-- A successor without a timer is reported while it runs: the grace ended with the first beat of the
-- exporter before it.
example : (Run.exec step (initial 100) [.start 80, .announce, .fork, .startUnarmed, .exit 1080,
    .tick 6000, .drop 0 6090, .report 0]).map (fun s => (s.unarmed, s.alerts.length)) =
      some (1, 1) := by decide

/-! ## A dead exporter is reported once -/

/-- What the latches, the alerts and the generation have to do with each other. -/
structure Latched (s : State) : Prop where
  /-- the generation counts the forks, and the announcement that is open -/
  gen : s.successorGen = s.forked + s.announced.toNat
  genMoves : s.successorGen ≤ s.moves
  /-- what a worker carries into the second half of the check is a stale beat -/
  found : ∀ w now beat, s.found w = some (now, beat) → heartbeatIsStale now beat = true
  stale : ∀ a ∈ s.alerts, heartbeatIsStale a.now a.beat = true
  /-- a latch holds a generation only if the worker has alerted for it -/
  latch : ∀ w, s.latchedGen w ≠ LATCH_UNSET →
    ∃ a ∈ s.alerts, a.worker = w ∧ a.gen = s.latchedGen w
  covered : ∀ p ∈ s.checks, ∃ a ∈ s.alerts, a.worker = p.1 ∧ a.gen = p.2
  past : ∀ a ∈ s.alerts, a.moves ≤ s.moves
  /-- after the last move of the generation, who has alerted has latched it -/
  current : ∀ a ∈ s.alerts, a.moves = s.moves → s.latchedGen a.worker = s.successorGen
  apart : s.alerts.Pairwise fun a b => a.worker = b.worker → a.moves < b.moves

/-- A move of the generation: every latch is open again. -/
theorem Latched.moved {s t : State} (h : Latched s)
    (hgen : t.successorGen = t.forked + t.announced.toNat) (hle : t.successorGen ≤ s.moves + 1)
    (hmoves : t.moves = s.moves + 1) (hfound : t.found = s.found) (halerts : t.alerts = s.alerts)
    (hlatched : t.latchedGen = s.latchedGen) (hchecks : t.checks = s.checks) : Latched t where
  gen := hgen
  genMoves := by rw [hmoves]; exact hle
  found := by rw [hfound]; exact h.found
  stale := by rw [halerts]; exact h.stale
  latch := by rw [halerts, hlatched]; exact h.latch
  covered := by rw [halerts, hchecks]; exact h.covered
  past := by
    rw [halerts, hmoves]
    exact fun a ha => Nat.le_succ_of_le (h.past a ha)
  current := by
    rw [halerts, hmoves]
    intro a ha heq
    have hpast := h.past a ha
    omega
  apart := by rw [halerts]; exact h.apart

/-- The second half of the check, on a stale beat. -/
theorem Latched.reported {s : State} {w now beat : Nat} (h : Latched s)
    (hstale : heartbeatIsStale now beat = true) (hunset : s.successorGen ≠ LATCH_UNSET) :
    Latched (s.reported w now beat) := by
  have hfound : ∀ v n b, Function.update s.found w none v = some (n, b) →
      heartbeatIsStale n b = true := by
    intro v n b hv
    rcases eq_or_ne v w with rfl | hne
    · rw [Function.update_self] at hv
      cases hv
    · rw [Function.update_of_ne hne] at hv
      exact h.found v n b hv
  rw [State.reported]
  split
  next halert =>
    have hopen : s.latchedGen w ≠ s.successorGen := by
      simpa [latchShouldAlert] using halert
    have hold : ∀ a ∈ s.alerts, a.worker = w → a.moves < s.moves := by
      intro a ha hw
      have hcurrent := h.current a ha
      rw [hw] at hcurrent
      exact lt_of_le_of_ne (h.past a ha) fun heq => hopen (hcurrent heq)
    constructor
    case gen => exact h.gen
    case genMoves => exact h.genMoves
    case found => exact hfound
    case stale =>
      intro a ha
      rcases List.mem_append.mp ha with ha | ha
      · exact h.stale a ha
      · rw [List.mem_singleton.mp ha]
        exact hstale
    case latch =>
      intro v hv
      dsimp only at hv ⊢
      rcases eq_or_ne v w with rfl | hne
      · rw [Function.update_self]
        exact ⟨_, List.mem_append_right _ (List.mem_singleton_self _), rfl, rfl⟩
      · rw [Function.update_of_ne hne] at hv ⊢
        obtain ⟨a, ha, hfor⟩ := h.latch v hv
        exact ⟨a, List.mem_append_left _ ha, hfor⟩
    case covered =>
      intro p hp
      rcases List.mem_append.mp hp with hp | hp
      · obtain ⟨a, ha, hfor⟩ := h.covered p hp
        exact ⟨a, List.mem_append_left _ ha, hfor⟩
      · rw [List.mem_singleton.mp hp]
        exact ⟨_, List.mem_append_right _ (List.mem_singleton_self _), rfl, rfl⟩
    case past =>
      intro a ha
      rcases List.mem_append.mp ha with ha | ha
      · exact h.past a ha
      · rw [List.mem_singleton.mp ha]
    case current =>
      intro a ha heq
      dsimp only at heq ⊢
      rcases eq_or_ne a.worker w with hw | hw
      · rw [hw, Function.update_self]
      · rw [Function.update_of_ne hw]
        rcases List.mem_append.mp ha with ha | ha
        · exact h.current a ha heq
        · rw [List.mem_singleton.mp ha] at hw
          exact (hw rfl).elim
    case apart =>
      refine List.pairwise_append.mpr ⟨h.apart, List.pairwise_singleton _ _, ?_⟩
      intro a ha b hb hsame
      rw [List.mem_singleton.mp hb] at hsame ⊢
      exact hold a ha hsame
  next halert =>
    have hclosed : s.latchedGen w = s.successorGen := by
      simpa [latchShouldAlert] using halert
    refine ⟨h.gen, h.genMoves, hfound, h.stale, h.latch, ?_, h.past, h.current, h.apart⟩
    intro p hp
    rcases List.mem_append.mp hp with hp | hp
    · exact h.covered p hp
    · -- the latch is closed, so the worker has alerted for this generation before
      rw [List.mem_singleton.mp hp, ← hclosed]
      exact h.latch w (by rw [hclosed]; exact hunset)

theorem step_moves_le {s t : State} {a : Act} (hstep : step s a = some t) :
    s.moves ≤ t.moves ∧ t.moves ≤ s.moves + 1 := by
  cases a <;> simp only [step, Option.ite_none_right_eq_some, Option.ite_none_left_eq_some,
    Option.map_eq_some_iff, Option.some.injEq] at hstep
  case drop w now =>
    obtain ⟨-, rfl⟩ := hstep
    split <;> exact ⟨Nat.le_refl _, Nat.le_succ _⟩
  case report w =>
    obtain ⟨p, -, rfl⟩ := hstep
    rw [State.reported]
    split <;> exact ⟨Nat.le_refl _, Nat.le_succ _⟩
  case tick | start | startUnarmed =>
    subst hstep
    exact ⟨Nat.le_refl _, Nat.le_succ _⟩
  case beat | exit | exitUnarmed | fork =>
    obtain ⟨-, rfl⟩ := hstep
    exact ⟨Nat.le_refl _, Nat.le_succ _⟩
  case announce | rollback =>
    obtain ⟨-, rfl⟩ := hstep
    exact ⟨Nat.le_succ _, Nat.le_refl _⟩

theorem step_latched (s : State) (a : Act) (t : State) (h : Latched s)
    (hmoves : s.moves < LATCH_UNSET) (hstep : step s a = some t) : Latched t := by
  have hgen := h.gen
  have hle := h.genMoves
  have hunset : s.successorGen < LATCH_UNSET := Nat.lt_of_le_of_lt hle hmoves
  unfold LATCH_UNSET at hunset
  cases a with
  | tick d =>
    cases hstep
    exact ⟨h.gen, h.genMoves, h.found, h.stale, h.latch, h.covered, h.past, h.current, h.apart⟩
  | start now =>
    cases hstep
    exact ⟨h.gen, h.genMoves, h.found, h.stale, h.latch, h.covered, h.past, h.current, h.apart⟩
  | startUnarmed =>
    cases hstep
    exact ⟨h.gen, h.genMoves, h.found, h.stale, h.latch, h.covered, h.past, h.current, h.apart⟩
  | exitUnarmed =>
    simp only [step, Option.ite_none_left_eq_some, Option.some.injEq] at hstep
    obtain ⟨-, rfl⟩ := hstep
    exact ⟨h.gen, h.genMoves, h.found, h.stale, h.latch, h.covered, h.past, h.current, h.apart⟩
  | beat due now =>
    simp only [step, Option.ite_none_right_eq_some, Option.some.injEq] at hstep
    obtain ⟨-, rfl⟩ := hstep
    exact ⟨h.gen, h.genMoves, h.found, h.stale, h.latch, h.covered, h.past, h.current, h.apart⟩
  | exit due =>
    simp only [step, Option.ite_none_right_eq_some, Option.some.injEq] at hstep
    obtain ⟨-, rfl⟩ := hstep
    exact ⟨h.gen, h.genMoves, h.found, h.stale, h.latch, h.covered, h.past, h.current, h.apart⟩
  | announce =>
    simp only [step, Option.ite_none_left_eq_some, Option.some.injEq, Bool.not_eq_true] at hstep
    obtain ⟨hclosed, rfl⟩ := hstep
    have hadd : addW 64 s.successorGen 1 = s.successorGen + 1 := addW_of_lt (by omega)
    refine h.moved ?_ ?_ rfl rfl rfl rfl rfl
    · show addW 64 s.successorGen 1 = s.forked + 1
      rw [hadd, hgen, hclosed]
      rfl
    · show addW 64 s.successorGen 1 ≤ s.moves + 1
      omega
  | fork =>
    simp only [step, Option.ite_none_right_eq_some, Option.some.injEq] at hstep
    obtain ⟨hopen, rfl⟩ := hstep
    rw [hopen] at hgen
    exact ⟨hgen, h.genMoves, h.found, h.stale, h.latch, h.covered, h.past, h.current, h.apart⟩
  | rollback =>
    simp only [step, Option.ite_none_right_eq_some, Option.some.injEq] at hstep
    obtain ⟨hopen, rfl⟩ := hstep
    rw [hopen] at hgen
    have hsub : subW 64 s.successorGen 1 = s.successorGen - 1 :=
      subW_of_le (by rw [hgen]; exact Nat.le_add_left _ _) (by omega)
    refine h.moved ?_ ?_ rfl rfl rfl rfl rfl
    · show subW 64 s.successorGen 1 = s.forked + 0
      rw [hsub, hgen]
      rfl
    · show subW 64 s.successorGen 1 ≤ s.moves + 1
      omega
  | drop w now =>
    simp only [step, Option.ite_none_right_eq_some, Option.some.injEq] at hstep
    obtain ⟨-, rfl⟩ := hstep
    split
    next hstale =>
      refine ⟨h.gen, h.genMoves, ?_, h.stale, h.latch, h.covered, h.past, h.current, h.apart⟩
      intro v n b hv
      dsimp only at hv
      rcases eq_or_ne v w with rfl | hne
      · rw [Function.update_self] at hv
        cases hv
        exact hstale
      · rw [Function.update_of_ne hne] at hv
        exact h.found v n b hv
    next => exact h
  | report w =>
    simp only [step, Option.map_eq_some_iff] at hstep
    obtain ⟨⟨now, beat⟩, hfound, rfl⟩ := hstep
    refine h.reported (h.found w now beat hfound) (Nat.ne_of_lt ?_)
    unfold LATCH_UNSET
    exact hunset

theorem latched_initial (clock : Nat) : Latched (initial clock) where
  gen := rfl
  genMoves := Nat.le_refl _
  found := fun _ _ _ h => by cases h
  stale := fun _ h => (List.not_mem_nil h).elim
  latch := fun _ h => (h rfl).elim
  covered := fun _ h => (List.not_mem_nil h).elim
  past := fun _ h => (List.not_mem_nil h).elim
  current := fun _ h => (List.not_mem_nil h).elim
  apart := List.Pairwise.nil

/-- The latches over a run that is too short for the generation to reach `LATCH_UNSET`. -/
theorem exec_latched : ∀ {acts : List Act} {s t : State}, Run.exec step s acts = some t →
    s.moves + acts.length < LATCH_UNSET → Latched s →
      Latched t ∧ t.moves ≤ s.moves + acts.length
  | [], s, t, hrun, _, h => by
    cases hrun
    exact ⟨h, Nat.le_refl _⟩
  | a :: acts, s, t, hrun, hshort, h => by
    obtain ⟨u, hu, hrest⟩ := Run.exec_cons.mp hrun
    have hmoves := step_moves_le hu
    rw [List.length_cons] at hshort ⊢
    obtain ⟨ht, hle⟩ := exec_latched hrest (by omega) (step_latched s a u h (by omega) hu)
    exact ⟨ht, by omega⟩

/-- If no fork fails, the moves of the generation are its values. -/
structure Forward (s : State) : Prop where
  gen : s.successorGen = s.moves % 2 ^ 64
  alerts : ∀ a ∈ s.alerts, a.gen = a.moves % 2 ^ 64

theorem step_forward (s : State) (a : Act) (t : State) (h : Forward s) (hkept : a ≠ .rollback)
    (hstep : step s a = some t) : Forward t := by
  cases a <;> simp only [step, Option.ite_none_right_eq_some, Option.ite_none_left_eq_some,
    Option.map_eq_some_iff, Option.some.injEq] at hstep
  case tick | start | startUnarmed =>
    subst hstep
    exact ⟨h.gen, h.alerts⟩
  case beat | exit | exitUnarmed | fork =>
    obtain ⟨-, rfl⟩ := hstep
    exact ⟨h.gen, h.alerts⟩
  case announce =>
    obtain ⟨-, rfl⟩ := hstep
    refine ⟨?_, h.alerts⟩
    show (s.successorGen + 1) % 2 ^ 64 = (s.moves + 1) % 2 ^ 64
    rw [h.gen, Nat.mod_add_mod]
  case rollback => exact (hkept rfl).elim
  case drop w now =>
    obtain ⟨-, rfl⟩ := hstep
    split <;> exact ⟨h.gen, h.alerts⟩
  case report w =>
    obtain ⟨p, -, rfl⟩ := hstep
    rw [State.reported]
    split
    · refine ⟨h.gen, fun a ha => ?_⟩
      rcases List.mem_append.mp ha with ha | ha
      · exact h.alerts a ha
      · rw [List.mem_singleton.mp ha]
        exact h.gen
    · exact ⟨h.gen, h.alerts⟩

/-- **A dead exporter is reported, and once for each generation.**  However the processes
interleave: an alert is raised on a beat that was older than the threshold; every check that finds
such a beat is covered by an alert of the same worker for the generation it loads; and between two
alerts of one worker the generation has moved.  If no fork of a reload fails, a worker alerts at most
once for a generation. -/
theorem alerts_latched {clock : Nat} {acts : List Act} {s : State}
    (hshort : acts.length < LATCH_UNSET) (hrun : Run.exec step (initial clock) acts = some s) :
    (∀ a ∈ s.alerts, a.beat ≠ 0 ∧ a.beat + HEARTBEAT_STALE_THRESHOLD_MS < a.now) ∧
    (∀ p ∈ s.checks, ∃ a ∈ s.alerts, a.worker = p.1 ∧ a.gen = p.2) ∧
    (s.alerts.Pairwise fun a b => a.worker = b.worker → a.moves < b.moves) ∧
    ((∀ a ∈ acts, a ≠ .rollback) → (s.alerts.map fun a => (a.worker, a.gen)).Nodup) := by
  have hstart : (initial clock).moves + acts.length < LATCH_UNSET := by
    rw [show (initial clock).moves = 0 from rfl]
    omega
  obtain ⟨h, hmoves⟩ := exec_latched hrun hstart (latched_initial clock)
  refine ⟨fun a ha => heartbeatIsStale_iff.mp (h.stale a ha), h.covered, h.apart, ?_⟩
  intro hkept
  have hforward : Forward s :=
    Run.exec_invariant_along step_forward (Run.along_of_forall_mem hkept) hrun
      ⟨rfl, fun _ h => (List.not_mem_nil h).elim⟩
  have hvalue : ∀ a ∈ s.alerts, a.gen = a.moves := by
    intro a ha
    have hpast := h.past a ha
    rw [hforward.alerts a ha]
    unfold LATCH_UNSET at hstart
    exact Nat.mod_eq_of_lt (by omega)
  rw [List.Nodup, List.pairwise_map]
  refine h.apart.imp_of_mem fun {a b} ha hb hmoved hsame => ?_
  obtain ⟨hworker, hgen⟩ := Prod.mk.inj hsame
  have hlt := hmoved hworker
  rw [hvalue a ha, hvalue b hb] at hgen
  omega

/-- The exporter dies; two workers drop records before and after a reload brings a new one up that
dies as well. -/
def deadActs : List Act :=
  [.start 80, .exit 1080, .tick 6000, .drop 0 6090, .drop 1 6100, .report 1, .drop 1 6100, .report 1,
    .announce, .report 0, .fork, .drop 0 6100, .report 0, .start 6090, .exit 7090, .tick 6000,
    .drop 1 12000, .report 1]

theorem alerts_latched_dead : ∃ s, Run.exec step (initial 100) deadActs = some s ∧
    s.alerts.map (fun a => (a.worker, a.gen)) = [(1, 0), (0, 1), (1, 1)] ∧
    s.checks.length = 5 ∧ (s.alerts.map fun a => (a.worker, a.gen)).Nodup := by
  have hend : (Run.exec step (initial 100) deadActs).map (fun s =>
      (s.alerts.map (fun a => (a.worker, a.gen)), s.checks.length)) =
        some ([(1, 0), (0, 1), (1, 1)], 5) := by decide
  obtain ⟨s, hs, hvalue⟩ := Option.map_eq_some_iff.mp hend
  obtain ⟨halerts, hchecks⟩ := Prod.mk.inj hvalue
  exact ⟨s, hs, halerts, hchecks, (alerts_latched (by decide) hs).2.2.2 (by decide)⟩

-- A reload whose fork fails lets a worker alert for the same generation again.
example : (Run.exec step (initial 100) [.start 80, .exit 1080, .tick 6000, .drop 0 6090, .report 0,
    .announce, .drop 0 6090, .report 0, .rollback, .drop 0 6090, .report 0]).map
      (fun s => s.alerts.map Alert.gen) = some [0, 1, 0] := by decide

end NgxOtel.Exporter.Liveness
