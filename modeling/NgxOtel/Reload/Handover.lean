import NgxOtel.Reload.Generations

/-!
# The hand-over between exporter generations

What holds of every run of `NgxOtel.Reload.step`, and which runs break it.

* `committed` — an exporter that may still pop a ring without another `successor_announced` check:
  its last check came back false, and an `.await` may separate it from the pops that it guards.
* `Timely` — an exporter takes its `my_gen` snapshot before a later reload is announced.

## Results

* `superseded_sees_successor` — when every snapshot is timely, a superseded exporter's checks all
  return `true`; `late_snapshot_blind` is a run in which one does not.
* `pops_in_generation_order` — when, in addition, no exporter pops while an older one is committed,
  **no older generation pops once a newer one has**; `interleaved_pops` is a run of timely snapshots
  in which it does.
* `failed_reload_keeps_consumer` — when no tick of an exporter checks during a reload attempt, its
  latch is clear as long as no successor has been forked; `failed_reload_latches` is a failed
  attempt that silences the only consumer for good.
-/

set_option autoImplicit false

namespace NgxOtel.Reload

open Word

/-! ## What one move can do -/

/-- An exporter past its snapshot. -/
def Pc.running (pc : Pc) : Bool := pc.alive && pc ≠ .booting

/-- The exporter pops rings before it checks again. -/
def Exporter.committed (e : Exporter) : Bool :=
  match e.pc with
  | .logsRetry | .logsSend | .spansRetry => !e.abdicated
  | .drainMetrics | .drainLogs | .drainLogsSend | .drainSpans => !e.hasSuccessor
  | .logsCollect | .spansCollect | .drainLogsCollect | .drainSpansCollect => true
  | _ => false

theorem next_running {pc pc' : Pc} {c : Choice} (h : pc.next c = some pc') :
    pc.running = true := by
  -- before its snapshot and after its end an exporter has no next move
  cases pc <;> first | rfl | (cases c <;> cases h)

theorem advance_spec {e e' : Exporter} {announced : Bool} {c : Choice}
    (h : e.advance announced c = some e') :
    e.barred c = false ∧ e.pc.next c = some e'.pc ∧ e'.myGen = e.myGen ∧
      e'.snapForked = e.snapForked ∧
      e'.abdicated = (e.abdicated || (e.pc = .asleep && c = .go && announced)) ∧
      e'.hasSuccessor = (if c = .quit then announced else e.hasSuccessor) := by
  simp only [Exporter.advance, Option.ite_none_left_eq_some, Option.map_eq_some_iff] at h
  obtain ⟨hbar, pc, hnext, rfl⟩ := h
  exact ⟨by simpa using hbar, hnext, rfl, rfl, rfl, rfl⟩

/-- A check that sees the successor commits to nothing. -/
theorem advance_announced {e e' : Exporter} {c : Choice} (h : e.advance true c = some e')
    (hfree : e.committed = false) : e'.committed = false := by
  obtain ⟨hbar, hnext, -, -, habdicated, hsuccessor⟩ := advance_spec h
  unfold Exporter.committed Exporter.barred at *
  cases hpc : e.pc <;> cases c <;>
    simp_all [Pc.next, Pc.collecting, Pc.interruptible]
  all_goals simp [← hnext]

theorem next_pop (pc : Pc) : pc.next .pop = if pc.collecting then some pc else none := by
  cases pc <;> rfl

theorem pop_committed {e e' : Exporter} {announced : Bool}
    (h : e.advance announced .pop = some e') : e.committed = true := by
  obtain ⟨-, hnext, -⟩ := advance_spec h
  rw [next_pop, Option.ite_none_right_eq_some] at hnext
  obtain ⟨hcollecting, -⟩ := hnext
  unfold Exporter.committed
  cases hpc : e.pc <;> rw [hpc] at hcollecting <;> first | rfl | cases hcollecting

/-- What the moves do. -/
inductive Move (s : State) : Act → State → Prop
  | announce : s.announced = false → Move s .announce
      { s with announced := true, successorGen := addW 64 s.successorGen 1 }
  | fork : s.announced = true → Move s .fork
      { s with announced := false, forked := s.forked + 1,
               exporters := Function.update s.exporters (s.forked + 1) .boot }
  | rollback : s.announced = true → Move s .rollback
      { s with announced := false, successorGen := subW 64 s.successorGen 1 }
  | snapshot {g : Nat} : (s.exporters g).pc = .booting → Move s (.snapshot g)
      { s with exporters := Function.update s.exporters g
                 ⟨.top, s.successorGen, false, false, s.forked⟩ }
  | crash {g : Nat} : (s.exporters g).pc.alive = true → Move s (.crash g)
      { s with exporters := Function.update s.exporters g
                 (if g = s.forked then .boot else { s.exporters g with pc := .gone }) }
  | run {g : Nat} {c : Choice} {e : Exporter} :
      (s.exporters g).advance (successorAnnounced s.successorGen (s.exporters g).myGen) c = some e →
      Move s (.run g c)
        { s with exporters := Function.update s.exporters g e
                 pops := if c = .pop then s.pops ++ [g] else s.pops
                 checks := if (s.exporters g).makesCheck c then
                   s.checks ++ [⟨g, s.forked,
                     successorAnnounced s.successorGen (s.exporters g).myGen⟩]
                   else s.checks }

theorem step_move {s t : State} {a : Act} (h : step s a = some t) : Move s a t := by
  cases a <;> simp only [step, State.resume, Option.ite_none_left_eq_some,
    Option.ite_none_right_eq_some, Option.map_eq_some_iff, Option.some.injEq] at h
  case announce =>
    obtain ⟨hidle, rfl⟩ := h
    exact .announce (by simpa using hidle)
  case fork =>
    obtain ⟨hbusy, rfl⟩ := h
    exact .fork hbusy
  case rollback =>
    obtain ⟨hbusy, rfl⟩ := h
    exact .rollback hbusy
  case snapshot g =>
    obtain ⟨hpc, rfl⟩ := h
    exact .snapshot hpc
  case crash g =>
    obtain ⟨halive, rfl⟩ := h
    exact .crash halive
  case run g c =>
    obtain ⟨e, hadvance, rfl⟩ := h
    exact .run hadvance

/-- The part of exporter `g` in a move: it ends as `e`. -/
inductive Part (s : State) (g : Nat) : Act → Exporter → Prop
  | none {a : Act} : Part s g a (s.exporters g)
  | fork : g = s.forked + 1 → Part s g .fork .boot
  | snapshot : (s.exporters g).pc = .booting →
      Part s g (.snapshot g) ⟨.top, s.successorGen, false, false, s.forked⟩
  | crash : (s.exporters g).pc.alive = true →
      Part s g (.crash g) (if g = s.forked then .boot else { s.exporters g with pc := .gone })
  | run {c : Choice} {e : Exporter} :
      (s.exporters g).advance (successorAnnounced s.successorGen (s.exporters g).myGen) c = some e →
      Part s g (.run g c) e

theorem step_part {s t : State} {a : Act} (h : step s a = some t) (g : Nat) :
    Part s g a (t.exporters g) := by
  -- a move changes one exporter: `g` itself, or another one
  have hother : ∀ {g' : Nat} {e : Exporter}, g ≠ g' →
      Part s g a (Function.update s.exporters g' e g) := by
    intro g' e hg
    rw [Function.update_of_ne hg]
    exact .none
  cases step_move h with
  | announce _ | rollback _ => exact .none
  | fork _ =>
    by_cases hg : g = s.forked + 1
    · subst hg; simpa using Part.fork rfl
    · exact hother hg
  | @snapshot g' hpc =>
    by_cases hg : g = g'
    · subst hg; simpa using Part.snapshot hpc
    · exact hother hg
  | @crash g' halive =>
    by_cases hg : g = g'
    · subst hg; simpa using Part.crash halive
    · exact hother hg
  | @run g' c e hadvance =>
    by_cases hg : g = g'
    · subst hg; simpa using Part.run hadvance
    · exact hother hg

theorem step_forked_le {s t : State} {a : Act} (h : step s a = some t) : s.forked ≤ t.forked := by
  cases step_move h with
  | fork _ => exact Nat.le_succ _
  | announce _ | rollback _ | snapshot _ | crash _ | run _ => exact le_rfl

/-- A pop is made by a committed exporter. -/
theorem step_pops {s t : State} {a : Act} (h : step s a = some t) :
    t.pops = s.pops ∨ ∃ g, a = .run g .pop ∧ (s.exporters g).committed = true ∧
      (s.exporters g).pc.running = true ∧ t.pops = s.pops ++ [g] := by
  cases step_move h with
  | announce _ | fork _ | rollback _ | snapshot _ | crash _ => exact .inl rfl
  | @run g c e hadvance =>
    by_cases hc : c = .pop
    · subst hc
      exact .inr ⟨g, rfl, pop_committed hadvance, next_running (advance_spec hadvance).2.1,
        by simp⟩
    · exact .inl (by simp [hc])

/-- A check compares `successor_gen` with the `my_gen` of a running exporter. -/
theorem step_checks {s t : State} {a : Act} (h : step s a = some t) :
    t.checks = s.checks ∨ ∃ g, (s.exporters g).pc.running = true ∧
      t.checks = s.checks ++
        [⟨g, s.forked, successorAnnounced s.successorGen (s.exporters g).myGen⟩] := by
  cases step_move h with
  | announce _ | fork _ | rollback _ | snapshot _ | crash _ => exact .inl rfl
  | @run g c e hadvance =>
    by_cases hc : (s.exporters g).makesCheck c = true
    · exact .inr ⟨g, next_running (advance_spec hadvance).2.1, by simp [hc]⟩
    · exact .inl (by simp [hc])

/-! ## The counter -/

/-- The reloads that `successor_gen` counts: those that forked, and the attempt in progress. -/
def State.reloads (s : State) : Nat := s.forked + if s.announced then 1 else 0

/-- The counter has not wrapped. -/
structure Counted (s : State) : Prop where
  gen : s.successorGen = s.reloads
  word : s.successorGen < 2 ^ 64

/-- The announcement does not wrap the counter. -/
def NoWrap (s : State) (a : Act) : Prop := a = .announce → s.successorGen + 1 < 2 ^ 64

instance (s : State) (a : Act) : Decidable (NoWrap s a) := inferInstanceAs (Decidable (_ → _))

theorem counted_initial : Counted initial := ⟨rfl, by decide⟩

/-- Announcing, forking and taking the announcement back all keep the count. -/
theorem step_counted {s t : State} {a : Act} (h : step s a = some t) (hs : Counted s)
    (hwrap : NoWrap s a) : Counted t := by
  obtain ⟨hgen, hword⟩ := hs
  unfold State.reloads at hgen
  cases step_move h with
  | announce hidle =>
    have hlt := hwrap rfl
    have hbump := addW_of_lt hlt
    simp only [hidle, Bool.false_eq_true, if_false] at hgen
    exact ⟨by simp only [hbump, State.reloads, if_true]; omega, by simpa only [hbump] using hlt⟩
  | fork hbusy => exact ⟨by simpa [State.reloads, hbusy] using hgen, hword⟩
  | rollback hbusy =>
    simp only [hbusy, if_true] at hgen
    have hback : subW 64 s.successorGen 1 = s.forked := by
      rw [subW_of_le (by omega) hword]; omega
    exact ⟨by simp [State.reloads, hback], by simp only [hback]; omega⟩
  | snapshot _ | crash _ | run _ => exact ⟨hgen, hword⟩

theorem Counted.forked_le {s : State} (h : Counted s) : s.forked ≤ s.successorGen := by
  simp [h.gen, State.reloads]

/-! ## Superseded exporters -/

/-- A snapshot is that of the latest exporter, with no reload announced since its fork. -/
def SnapshotInTime (s : State) : Act → Prop
  | .snapshot g => g = s.forked ∧ s.announced = false
  | _ => True

instance (s : State) : (a : Act) → Decidable (SnapshotInTime s a)
  | .snapshot _ => inferInstanceAs (Decidable (_ ∧ _))
  | .announce | .fork | .rollback | .crash _ | .run _ _ => isTrue trivial

/-- An exporter takes its snapshot before a later reload is announced. -/
def Timely (s : State) (a : Act) : Prop := SnapshotInTime s a ∧ NoWrap s a

instance (s : State) (a : Act) : Decidable (Timely s a) := inferInstanceAs (Decidable (_ ∧ _))

/-- Every exporter's `my_gen` is its generation. -/
structure Identified (s : State) : Prop where
  counted : Counted s
  own : ∀ g, (s.exporters g).pc.running = true → (s.exporters g).myGen = g

theorem identified_initial : Identified initial := by
  refine ⟨counted_initial, ?_⟩
  intro g h
  by_cases hg : g = 0
  · subst hg; simp [initial, Exporter.boot, Pc.running] at h
  · simp [initial, Function.update_of_ne hg, Pc.running, Pc.alive] at h

theorem step_identified {s t : State} {a : Act} (h : step s a = some t) (hs : Identified s)
    (ha : Timely s a) : Identified t := by
  refine ⟨step_counted h hs.counted ha.2, ?_⟩
  intro g hrunning
  have hpart := step_part h g
  generalize t.exporters g = e at hpart hrunning ⊢
  cases hpart with
  | none => exact hs.own g hrunning
  | fork _ => simp [Exporter.boot, Pc.running] at hrunning
  | snapshot hpc =>
    obtain ⟨rfl, hidle⟩ := ha.1
    simp [hs.counted.gen, State.reloads, hidle]
  | crash _ => split at hrunning <;> simp [Exporter.boot, Pc.running, Pc.alive] at hrunning
  | run hadvance =>
    obtain ⟨-, hnext, hmy, -⟩ := advance_spec hadvance
    rw [hmy, hs.own g (next_running hnext)]

/-- Every check so far by a superseded exporter saw its successor. -/
def SeesSuccessor (s : State) : Prop := ∀ c ∈ s.checks, c.gen < c.forked → c.result = true

/-- **A superseded exporter sees its successor at every check**, in every run of reloads, failed
attempts, starts, crashes and ticks in which no snapshot is late and the counter does not wrap. -/
theorem superseded_sees_successor {acts : List Act} {t : State}
    (hrun : Run.exec step initial acts = some t) (htimely : Run.Along step Timely initial acts) :
    SeesSuccessor t := by
  have hstep : ∀ s a t, Identified s ∧ SeesSuccessor s → Timely s a → step s a = some t →
      Identified t ∧ SeesSuccessor t := by
    rintro s a t ⟨hid, hsees⟩ ha h
    refine ⟨step_identified h hid ha, ?_⟩
    intro c hc hlt
    rcases step_checks h with hsame | ⟨g, hrunning, hnew⟩
    · exact hsees c (hsame ▸ hc) hlt
    · rw [hnew, List.mem_append, List.mem_singleton] at hc
      rcases hc with hc | rfl
      · exact hsees c hc hlt
      · have hle := hid.counted.forked_le
        simp only [successorAnnounced, hid.own g hrunning, decide_eq_true_eq] at hlt ⊢
        omega
  exact (Run.exec_invariant_along hstep htimely hrun ⟨identified_initial, nofun⟩).2

/-- Two reloads follow each other before the exporter of the first one takes its snapshot. -/
def lateActs : List Act :=
  [.snapshot 0, .announce, .fork, .announce, .fork, .snapshot 1, .run 1 .go, .run 1 .go]

theorem late_snapshot_blind : ∃ t, Run.exec step initial lateActs = some t ∧
    (∀ a ∈ lateActs, a ≠ .rollback) ∧ ¬ SeesSuccessor t := by
  have hends : (Run.exec step initial lateActs).map State.checks = some [⟨1, 2, false⟩] := by decide
  obtain ⟨t, hrun, hchecks⟩ := Option.map_eq_some_iff.mp hends
  refine ⟨t, hrun, by decide, ?_⟩
  intro h
  have := h ⟨1, 2, false⟩ (by simp [hchecks]) (by decide)
  contradiction

/-- A reload whose exporter starts in time; the old exporter then ticks. -/
def timelyActs : List Act :=
  [.snapshot 0, .run 0 .go, .announce, .fork, .snapshot 1, .run 0 .go]

theorem superseded_sees_successor_timelyActs : ∃ t, Run.exec step initial timelyActs = some t ∧
    t.checks = [⟨0, 1, true⟩] ∧ SeesSuccessor t := by
  have hends : (Run.exec step initial timelyActs).map State.checks = some [⟨0, 1, true⟩] := by decide
  obtain ⟨t, hrun, hchecks⟩ := Option.map_eq_some_iff.mp hends
  refine ⟨t, hrun, hchecks, superseded_sees_successor hrun ?_⟩
  decide

/-! ## The order of the pops -/

/-- A pop finds no older exporter committed. -/
def PopsAlone (s : State) : Act → Prop
  | .run g .pop => ∀ older < g, (s.exporters older).committed = false
  | _ => True

instance (s : State) : (a : Act) → Decidable (PopsAlone s a)
  | .run g .pop => inferInstanceAs (Decidable (∀ older < g, _))
  | .run _ .go | .run _ .quit | .run _ .terminate | .run _ .collect | .run _ .skip
  | .run _ .boundary | .announce | .fork | .rollback | .snapshot _ | .crash _ => isTrue trivial

/-- The pops so far are in the order of the generations, and every exporter older than one of them
is out of the way. -/
structure Ordered (s : State) : Prop where
  identified : Identified s
  unborn : ∀ g, s.forked < g → (s.exporters g).pc = .unborn
  le_forked : ∀ p ∈ s.pops, p ≤ s.forked
  released : ∀ p ∈ s.pops, ∀ g < p, (s.exporters g).committed = false
  sorted : s.pops.Pairwise (· ≤ ·)

theorem ordered_initial : Ordered initial where
  identified := identified_initial
  unborn g hg := by
    have hne : g ≠ 0 := Nat.ne_of_gt hg
    simp [initial, Function.update_of_ne hne]
  le_forked := nofun
  released := nofun
  sorted := .nil

theorem step_unborn {s t : State} {a : Act} (h : step s a = some t)
    (hs : ∀ g, s.forked < g → (s.exporters g).pc = .unborn) (g : Nat) (hg : t.forked < g) :
    (t.exporters g).pc = .unborn := by
  have hbefore := hs g (Nat.lt_of_le_of_lt (step_forked_le h) hg)
  have hpart := step_part h g
  generalize t.exporters g = e at hpart ⊢
  cases hpart with
  | none => exact hbefore
  | fork heq =>
    cases step_move h
    simp only at hg
    omega
  | snapshot hpc => simp [hbefore] at hpc
  | crash halive => simp [hbefore, Pc.alive] at halive
  | run hadvance =>
    have := next_running (advance_spec hadvance).2.1
    simp [hbefore, Pc.running, Pc.alive] at this

/-- A superseded exporter that has nothing left to pop stays so: its next check sees the
successor. -/
theorem step_released {s t : State} {a : Act} (h : step s a = some t) (hs : Identified s) {g : Nat}
    (hg : g < s.forked) (hfree : (s.exporters g).committed = false) :
    (t.exporters g).committed = false := by
  have hpart := step_part h g
  generalize t.exporters g = e at hpart ⊢
  cases hpart with
  | none => exact hfree
  | fork _ => rfl
  | snapshot _ => rfl
  | crash _ => split <;> rfl
  | run hadvance =>
    have hrunning := next_running (advance_spec hadvance).2.1
    have hsees : successorAnnounced s.successorGen (s.exporters g).myGen = true := by
      have hle := hs.counted.forked_le
      simp only [successorAnnounced, hs.own g hrunning, decide_eq_true_eq]
      omega
    exact advance_announced (hsees ▸ hadvance) hfree

theorem step_ordered {s t : State} {a : Act} (h : step s a = some t) (hs : Ordered s)
    (htimely : Timely s a) (halone : PopsAlone s a) : Ordered t := by
  have hold : ∀ p ∈ s.pops, ∀ g < p, (t.exporters g).committed = false := fun p hp g hg =>
    step_released h hs.identified (Nat.lt_of_lt_of_le hg (hs.le_forked p hp)) (hs.released p hp g hg)
  have hidentified := step_identified h hs.identified htimely
  have hunborn := step_unborn h hs.unborn
  have hforked := step_forked_le h
  rcases step_pops h with hsame | ⟨g, rfl, hcommitted, hrunning, hpops⟩
  · refine ⟨hidentified, hunborn, ?_, hsame ▸ hold, hsame ▸ hs.sorted⟩
    exact hsame ▸ fun p hp => Nat.le_trans (hs.le_forked p hp) hforked
  · have hg : g ≤ s.forked := by
      by_contra hlt
      simp [hs.unborn g (by omega), Pc.running, Pc.alive] at hrunning
    refine ⟨hidentified, hunborn, ?_, ?_, ?_⟩
    · simp only [hpops, List.mem_append, List.mem_singleton]
      rintro p (hp | rfl)
      · exact Nat.le_trans (hs.le_forked p hp) hforked
      · exact Nat.le_trans hg hforked
    · simp only [hpops, List.mem_append, List.mem_singleton]
      rintro p (hp | rfl) older holder
      · exact hold p hp older holder
      · exact step_released h hs.identified (Nat.lt_of_lt_of_le holder hg) (halone older holder)
    · -- the popping exporter is committed, so no newer one has popped yet
      rw [hpops, List.pairwise_append]
      refine ⟨hs.sorted, List.pairwise_singleton _ _, ?_⟩
      intro p hp q hq
      cases List.mem_singleton.mp hq
      by_contra hlt
      simp [hs.released p hp g (by omega)] at hcommitted

/-- **The pops follow the order of the generations**: in every run with timely snapshots in which
no exporter pops while an older one is committed, an exporter never pops a ring or drains a table
after a newer one has. -/
theorem pops_in_generation_order {acts : List Act} {t : State}
    (hrun : Run.exec step initial acts = some t)
    (hacts : Run.Along step (fun s a => Timely s a ∧ PopsAlone s a) initial acts) :
    t.pops.Pairwise (· ≤ ·) :=
  (Run.exec_invariant_along (fun _ _ _ hs ha h => step_ordered h hs ha.1 ha.2) hacts hrun
    ordered_initial).sorted

/-- The old exporter is between its check and its pops when the reload is announced; the new one
pops first. -/
def interleavedActs : List Act :=
  [.snapshot 0, .run 0 .go, .run 0 .go, .announce, .fork, .snapshot 1, .run 1 .go, .run 1 .go,
   .run 1 .collect, .run 1 .pop, .run 0 .collect, .run 0 .pop]

theorem interleaved_pops : ∃ t, Run.exec step initial interleavedActs = some t ∧
    Run.Along step Timely initial interleavedActs ∧ (∀ a ∈ interleavedActs, a ≠ .rollback) ∧
    ¬ t.pops.Pairwise (· ≤ ·) := by
  have hends : (Run.exec step initial interleavedActs).map State.pops = some [1, 0] := by decide
  obtain ⟨t, hrun, hpops⟩ := Option.map_eq_some_iff.mp hends
  exact ⟨t, hrun, by decide, by decide, by rw [hpops]; decide⟩

/-- The old exporter finishes its pops before the new one starts to pop. -/
def orderedActs : List Act :=
  [.snapshot 0, .run 0 .go, .run 0 .go, .announce, .fork, .snapshot 1, .run 0 .collect,
   .run 0 .pop, .run 0 .go, .run 0 .quit, .run 1 .go, .run 1 .go, .run 1 .collect, .run 1 .pop]

theorem pops_in_generation_order_orderedActs : ∃ t,
    Run.exec step initial orderedActs = some t ∧ t.pops = [0, 1] ∧ t.pops.Pairwise (· ≤ ·) := by
  have hends : (Run.exec step initial orderedActs).map State.pops = some [0, 1] := by decide
  obtain ⟨t, hrun, hpops⟩ := Option.map_eq_some_iff.mp hends
  exact ⟨t, hrun, hpops, pops_in_generation_order hrun (by decide)⟩

/-! ## Failed reloads -/

/-- Exporter `g` makes no tick check while a reload attempt is in progress. -/
def NoTickInAttempt (g : Nat) (s : State) (a : Act) : Prop :=
  a = .run g .go → (s.exporters g).pc = .asleep → s.announced = false

instance (g : Nat) (s : State) (a : Act) : Decidable (NoTickInAttempt g s a) :=
  inferInstanceAs (Decidable (_ → _ → _))

/-- The latch of exporter `g` is set by a forked successor only. -/
structure LatchedByFork (g : Nat) (s : State) : Prop where
  counted : Counted s
  snap : (s.exporters g).pc.running = true → (s.exporters g).snapForked ≤ (s.exporters g).myGen
  latch : (s.exporters g).pc.running = true → (s.exporters g).abdicated = true →
    (s.exporters g).snapForked < s.forked

theorem latchedByFork_initial (g : Nat) : LatchedByFork g initial := by
  have hpc : (initial.exporters g).pc.running = false := by
    by_cases hg : g = 0
    · subst hg; rfl
    · simp [initial, Function.update_of_ne hg, Pc.running, Pc.alive]
  exact ⟨counted_initial, by simp [hpc], by simp [hpc]⟩

theorem step_latchedByFork {g : Nat} {s t : State} {a : Act} (h : step s a = some t)
    (hs : LatchedByFork g s) (hwrap : NoWrap s a) (htick : NoTickInAttempt g s a) :
    LatchedByFork g t := by
  have hforked := step_forked_le h
  have hpart := step_part h g
  suffices hg : (t.exporters g).pc.running = true →
      (t.exporters g).snapForked ≤ (t.exporters g).myGen ∧
      ((t.exporters g).abdicated = true → (t.exporters g).snapForked < s.forked) from
    ⟨step_counted h hs.counted hwrap, fun hr => (hg hr).1, fun hr hl =>
      Nat.lt_of_lt_of_le ((hg hr).2 hl) hforked⟩
  generalize t.exporters g = e at hpart ⊢
  intro hrunning
  cases hpart with
  | none => exact ⟨hs.snap hrunning, hs.latch hrunning⟩
  | fork _ => simp [Exporter.boot, Pc.running] at hrunning
  | snapshot _ => exact ⟨hs.counted.forked_le, nofun⟩
  | crash _ => split at hrunning <;> simp [Exporter.boot, Pc.running, Pc.alive] at hrunning
  | run hadvance =>
    obtain ⟨-, hnext, hmy, hsnap, habdicated, -⟩ := advance_spec hadvance
    have hbefore := next_running hnext
    refine ⟨by rw [hmy, hsnap]; exact hs.snap hbefore, ?_⟩
    intro hlatch
    rw [hsnap]
    simp only [habdicated, Bool.or_eq_true, Bool.and_eq_true, decide_eq_true_eq] at hlatch
    rcases hlatch with hlatch | ⟨⟨hasleep, rfl⟩, hsees⟩
    · exact hs.latch hbefore hlatch
    · -- outside an attempt the counter is the number of forks
      have hidle := htick rfl hasleep
      have hgen := hs.counted.gen
      have hle := hs.snap hbefore
      simp only [State.reloads, hidle, Bool.false_eq_true, if_false] at hgen
      simp only [successorAnnounced, decide_eq_true_eq] at hsees
      omega

/-- **A failed reload leaves the consumer in place**: in every run in which no tick of exporter `g`
falls into a reload attempt, as long as no successor has been forked since its snapshot its latch is
clear, and it collects the rings of the lane it comes to. -/
theorem failed_reload_keeps_consumer {g : Nat} {acts : List Act} {t : State}
    (hrun : Run.exec step initial acts = some t)
    (hacts : Run.Along step (fun s a => NoWrap s a ∧ NoTickInAttempt g s a) initial acts)
    (hrunning : (t.exporters g).pc.running = true)
    (hsole : (t.exporters g).snapForked = t.forked) :
    (t.exporters g).abdicated = false ∧
      ((t.exporters g).pc = .logsRetry ∨ (t.exporters g).pc = .spansRetry →
        (t.resume g .collect).isSome = true) := by
  have hinv : LatchedByFork g t := Run.exec_invariant_along
    (fun _ _ _ hs ha h => step_latchedByFork h hs ha.1 ha.2) hacts hrun (latchedByFork_initial g)
  have hclear : (t.exporters g).abdicated = false := by
    by_contra hlatch
    have := hinv.latch hrunning (by simpa using hlatch)
    omega
  refine ⟨hclear, ?_⟩
  intro hpc
  rcases hpc with hpc | hpc <;>
    simp [State.resume, Exporter.advance, Exporter.barred, hpc, hclear, Pc.next]

/-- The exporter ticks while the reload that fails is announced. -/
def failedActs : List Act := [.snapshot 0, .run 0 .go, .announce, .run 0 .go, .rollback]

theorem failed_reload_latches : ∃ t, Run.exec step initial failedActs = some t ∧
    t.announced = false ∧ (t.exporters 0).pc.running = true ∧
    (t.exporters 0).snapForked = t.forked ∧ (t.exporters 0).abdicated = true ∧
    (t.resume 0 .collect).isNone = true := by
  have hends : (Run.exec step initial failedActs).map
      (fun t => (t.announced, t.forked, t.exporters 0)) =
      some (false, 0, ⟨.logsRetry, 0, true, false, 0⟩) := by decide
  obtain ⟨t, hrun, ht⟩ := Option.map_eq_some_iff.mp hends
  simp only [Prod.mk.injEq] at ht
  obtain ⟨hidle, hforked, he⟩ := ht
  exact ⟨t, hrun, hidle, by simp [he]; rfl, by simp [he, hforked], by simp [he],
    by simp [State.resume, he, Exporter.advance, Exporter.barred]⟩

/-- A failed reload between two ticks. -/
def retriedActs : List Act :=
  [.snapshot 0, .run 0 .go, .announce, .rollback, .run 0 .go]

theorem failed_reload_keeps_consumer_retriedActs : ∃ t,
    Run.exec step initial retriedActs = some t ∧ (t.exporters 0).pc = .logsRetry ∧
    (t.exporters 0).abdicated = false ∧ (t.resume 0 .collect).isSome = true := by
  have hends : (Run.exec step initial retriedActs).map (fun t => (t.forked, t.exporters 0)) =
      some (0, ⟨.logsRetry, 0, false, false, 0⟩) := by decide
  obtain ⟨t, hrun, ht⟩ := Option.map_eq_some_iff.mp hends
  simp only [Prod.mk.injEq] at ht
  have hkept := failed_reload_keeps_consumer (g := 0) hrun (by decide)
    (by rw [ht.2]; rfl) (by rw [ht.2, ht.1])
  exact ⟨t, hrun, by rw [ht.2], hkept.1, hkept.2 (.inl (by rw [ht.2]))⟩

end NgxOtel.Reload
