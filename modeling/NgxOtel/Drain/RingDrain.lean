import Mathlib.Algebra.BigOperators.Intervals
import Mathlib.Algebra.Order.BigOperators.Group.Finset
import NgxOtel.Lib.Run
import NgxOtel.Ring.Calls

/-!
# Draining the workers' rings

The collection loop that `collect_span_records` and the access half of `collect_log_records`
(`drain/mod.rs`) have in common: for each worker load the ring's drop count, then call `pop_into`
until it returns `false` or the cap of the pass is reached, and keep the records that parse.  The
workers push while the loop runs.

* `TailLane` — the size of the rings, the number of workers, the cap and the parser.
* `State` — the rings, each with its running calls, and the pass of the exporter.
* `step` — one move: a worker calls `push` or executes one operation of it, or the exporter takes
  the next step of its pass, which is one operation of `pop_into` while that call runs.
* `State.pops`, `State.batches` — the history: every record popped, every finished pass.  The pushes
  are in the histories of the rings.
* `collectRecords` — the same pass as one call, with nobody else moving.

One pass runs at a time, so that each ring has one consumer; two exporters that drain the same rings
are outside of this model.

## Results

* `step_inv`, `exec_inv` — what every move and every run keep.
* `drain_history` — **over every interleaving each accepted record is popped once, in the order of
  its worker, or still queued**; what a pass reports as dropped lies between what had been refused
  when it began and when it ended.
* `pass_alone` — a pass that nobody interrupts ends, and is `collectRecords`.
-/

set_option autoImplicit false

namespace NgxOtel.Drain

open Word

variable {α : Type}

structure TailLane (α : Type) where
  cap : Nat
  workers : Nat
  limit : Nat
  parse : UInt64 → Bytes → Option α

namespace TailLane

/-! ## The machine -/

/-- The locals of a pass; `dropped` is `total_dropped`, a `u64`.  `refusedBefore` is how many pushes
had been refused when it began. -/
structure Pass (α : Type) where
  now : UInt64
  items : List α
  dropped : Nat
  refusedBefore : Nat

/-- Before the ring of a worker, before the next round of its loop, or inside `pop_into`. -/
inductive Cursor where
  | entering (w : Nat)
  | looping (w drained : Nat)
  | popping (w drained : Nat)

structure Pop where
  worker : Nat
  now : UInt64
  record : Bytes

structure State (α : Type) where
  rings : Nat → Ring.State
  pass : Option (Cursor × Pass α)
  batches : List (Pass α)
  pops : List Pop

/-- Rings in zeroed memory. -/
def State.start : State α := ⟨fun _ => Ring.initial fun _ => 0, none, [], []⟩

inductive Act where
  | push (w : Nat) (record : Bytes)
  | producer (w : Nat)
  | begin (now : UInt64)
  | advance

/-- The pushes that the rings `lo`, …, `hi - 1` have refused. -/
def State.refusals (s : State α) (lo hi : Nat) : Nat :=
  ∑ w ∈ Finset.Ico lo hi, (s.rings w).refused

def State.setRing (s : State α) (w : Nat) (r : Ring.State) : State α :=
  { s with rings := Function.update s.rings w r }

/-- The ring after an operation of `pop_into(&mut record_buf)`, and how the loop goes on: the call
still runs, or it has returned a record, or `false`. -/
def popInto (lane : TailLane α) (s : State α) (w drained : Nat) (p : Pass α) (r : Ring.State) :
    State α :=
  match r.pop, r.pops.getLast?.bind Ring.PopDone.popped? with
  | some _, _ => { s.setRing w r with pass := some (.popping w drained, p) }
  | none, some record =>
    { s.setRing w r with
      pass := some (.looping w (drained + 1),
        { p with items := p.items ++ (lane.parse p.now record).toList })
      pops := s.pops ++ [⟨w, p.now, record⟩] }
  | none, none => { s.setRing w r with pass := some (.entering (w + 1), p) }

/-- The exporter's next step. -/
def advance (lane : TailLane α) (s : State α) : Cursor → Pass α → Option (State α)
  | .entering w, p =>
    if w < lane.workers then
      -- `total_dropped += ring.drop_count()`
      some { s with pass := some (.looping w 0,
        { p with dropped := addW 64 p.dropped (s.rings w).shared.dropped }) }
    else some { s with pass := none, batches := s.batches ++ [p] }
  | .looping w drained, p =>
    if drained < lane.limit then
      -- `record_buf` is empty: it is new, or was cleared in the round before
      (Ring.step lane.cap (s.rings w) (.callPop [])).map (popInto lane s w drained p)
    else some { s with pass := some (.entering (w + 1), p) }
  | .popping w drained, p =>
    (Ring.step lane.cap (s.rings w) .consumer).map (popInto lane s w drained p)

def step (lane : TailLane α) (s : State α) : Act → Option (State α)
  | .push w record =>
    if w < lane.workers then
      (Ring.step lane.cap (s.rings w) (.callPush record)).map (s.setRing w)
    else none
  | .producer w =>
    if w < lane.workers then (Ring.step lane.cap (s.rings w) .producer).map (s.setRing w) else none
  | .begin now =>
    match s.pass with
    | none =>
      some { s with pass := some (.entering 0, ⟨now, [], 0, s.refusals 0 lane.workers⟩) }
    | some _ => none
  | .advance => s.pass.bind fun (cursor, p) => advance lane s cursor p

/-! ## What a run leaves behind -/

/-- The records popped from a worker's ring. -/
def State.popped (s : State α) (w : Nat) : List Bytes :=
  (s.pops.filter fun p => p.worker = w).map (·.record)

/-- The items of the finished passes, then those of the pass that runs. -/
def State.exported (s : State α) : List α :=
  s.batches.flatMap (·.items) ++ (s.pass.map (·.2.items)).getD []

/-- The records that wait in the rings. -/
def State.waiting (s : State α) (workers : Nat) : Nat :=
  ∑ w ∈ Finset.range workers, (s.rings w).queue.length

/-- The calls of `push` that have returned. -/
def State.pushed (s : State α) (workers : Nat) : Nat :=
  ∑ w ∈ Finset.range workers, (s.rings w).pushes.length

/-- No ring has taken `2 ^ 64` bytes, and there are fewer refusals than that in all rings. -/
def State.Counted (s : State α) (workers : Nat) : Prop :=
  (∀ w < workers, (s.rings w).Counted) ∧ s.refusals 0 workers < 2 ^ 64

instance (s : State α) (workers : Nat) : Decidable (s.Counted workers) :=
  inferInstanceAs
    (Decidable ((∀ w < workers, (s.rings w).bytes < 2 ^ 64 ∧ (s.rings w).refused < 2 ^ 64) ∧
      s.refusals 0 workers < 2 ^ 64))

/-- The first worker whose drop count the pass has not read. -/
def Cursor.unread : Cursor → Nat
  | .entering w => w
  | .looping w _ | .popping w _ => w + 1

/-- As many records as the pass can have popped. -/
def Cursor.bound (limit : Nat) : Cursor → Nat
  | .entering w => w * limit
  | .looping w drained | .popping w drained => w * limit + drained

def Cursor.Within (workers limit : Nat) : Cursor → Prop
  | .entering w => w ≤ workers
  | .looping w drained => w < workers ∧ drained ≤ limit
  | .popping w drained => w < workers ∧ drained < limit

/-- The worker in whose ring the pass has called `pop_into`. -/
def Cursor.calls : Cursor → Option Nat
  | .popping w _ => some w
  | .entering _ | .looping _ _ => none

/-- Where a pass stands: what it has read of the drop counts is no more than the refusals of the
rings it has read, and with those of the others no less than the refusals at its beginning. -/
structure PassOk (lane : TailLane α) (s : State α) (c : Cursor) (p : Pass α) : Prop where
  within : c.Within lane.workers lane.limit
  items : p.items.length ≤ c.bound lane.limit
  low : p.refusedBefore ≤ p.dropped + s.refusals c.unread lane.workers
  high : p.dropped ≤ s.refusals 0 c.unread

structure BatchOk (lane : TailLane α) (refused : Nat) (p : Pass α) : Prop where
  items : p.items.length ≤ lane.workers * lane.limit
  low : p.refusedBefore ≤ p.dropped
  high : p.dropped ≤ refused

structure Inv (lane : TailLane α) (s : State α) : Prop where
  rings : ∀ w < lane.workers, Ring.Inv lane.cap (s.rings w)
  popped : ∀ w < lane.workers, (s.rings w).popped = s.popped w
  worker : ∀ p ∈ s.pops, p.worker < lane.workers
  /-- `pop_into` runs in a ring if and only if the pass is there -/
  calls : ∀ w < lane.workers,
    (s.rings w).pop.isSome = true ↔ s.pass.bind (fun x => x.1.calls) = some w
  content : s.exported = s.pops.filterMap fun p => lane.parse p.now p.record
  pass : ∀ c p, s.pass = some (c, p) → PassOk lane s c p
  batches : ∀ p ∈ s.batches, BatchOk lane (s.refusals 0 lane.workers) p

section Invariant

variable {lane : TailLane α} {s t : State α}

theorem inv_start : Inv lane (State.start : State α) where
  rings _ _ := Ring.inv_initial lane.cap _
  popped _ _ := rfl
  worker := by simp [State.start]
  calls _ _ := by simp [State.start, Ring.initial]
  content := rfl
  pass := by
    intro c p h
    cases h
  batches := by simp [State.start]

/-! ### One ring moves -/

section PopInto

variable {w drained : Nat} {p : Pass α} {r : Ring.State} {before : List Ring.PopDone}
  {c : Ring.PopDone}

theorem popInto_rings (s : State α) (w drained : Nat) (p : Pass α) (r : Ring.State) :
    (popInto lane s w drained p r).rings = Function.update s.rings w r := by
  unfold popInto
  split <;> rfl

theorem popInto_runs {f : Ring.PopFrame} (h : r.pop = some f) : popInto lane s w drained p r =
    { s.setRing w r with pass := some (.popping w drained, p) } := by
  simp only [popInto, h]

theorem popInto_record {record : Bytes} (h : r.pop = none) (hpops : r.pops = before ++ [c])
    (hc : c.popped? = some record) : popInto lane s w drained p r =
      { s.setRing w r with
        pass := some (.looping w (drained + 1),
          { p with items := p.items ++ (lane.parse p.now record).toList })
        pops := s.pops ++ [⟨w, p.now, record⟩] } := by
  simp only [popInto, h, hpops, List.getLast?_concat, Option.bind_some, hc]

theorem popInto_false (h : r.pop = none) (hpops : r.pops = before ++ [c])
    (hc : c.popped? = none) : popInto lane s w drained p r =
      { s.setRing w r with pass := some (.entering (w + 1), p) } := by
  simp only [popInto, h, hpops, List.getLast?_concat, Option.bind_some, hc]

end PopInto

/-- A step is a move in one ring, or in none. -/
theorem step_rings {a : Act} (h : step lane s a = some t) :
    t.rings = s.rings ∨ ∃ w act r, Ring.step lane.cap (s.rings w) act = some r ∧
      t.rings = Function.update s.rings w r ∧
      ∀ record, act = .callPush record → a = .push w record := by
  cases a with
  | push w record =>
    obtain ⟨-, h⟩ := Option.ite_none_right_eq_some.mp h
    obtain ⟨r, hr, rfl⟩ := Option.map_eq_some_iff.mp h
    exact .inr ⟨w, _, r, hr, rfl, by rintro _ ⟨⟩; rfl⟩
  | producer w =>
    obtain ⟨-, h⟩ := Option.ite_none_right_eq_some.mp h
    obtain ⟨r, hr, rfl⟩ := Option.map_eq_some_iff.mp h
    exact .inr ⟨w, _, r, hr, rfl, fun _ h => by cases h⟩
  | begin now =>
    simp only [step] at h
    split at h
    · cases h
      exact .inl rfl
    · cases h
  | advance =>
    obtain ⟨⟨c, p⟩, -, h⟩ := Option.bind_eq_some_iff.mp h
    cases c with
    | entering w =>
      simp only [advance] at h
      split at h <;> cases h <;> exact .inl rfl
    | looping w drained =>
      simp only [advance] at h
      split at h
      · obtain ⟨r, hr, rfl⟩ := Option.map_eq_some_iff.mp h
        exact .inr ⟨w, _, r, hr, popInto_rings s w drained p r, fun _ h => by cases h⟩
      · cases h
        exact .inl rfl
    | popping w drained =>
      obtain ⟨r, hr, rfl⟩ := Option.map_eq_some_iff.mp h
      exact .inr ⟨w, _, r, hr, popInto_rings s w drained p r, fun _ h => by cases h⟩

/-- The drop counts of the rings only grow. -/
theorem refused_le (hcap : 0 < lane.cap) {a : Act} (h : step lane s a = some t) (v : Nat) :
    (s.rings v).refused ≤ (t.rings v).refused := by
  rcases step_rings h with hrings | ⟨w, act, r, hr, hrings, -⟩
  · rw [hrings]
  · rw [hrings]
    by_cases hv : v = w
    · rw [hv, Function.update_self]
      exact Ring.refused_step_le hcap hr
    · rw [Function.update_of_ne hv]

theorem refusals_le (h : ∀ v, (s.rings v).refused ≤ (t.rings v).refused) (lo hi : Nat) :
    s.refusals lo hi ≤ t.refusals lo hi :=
  Finset.sum_le_sum fun v _ => h v

theorem counted_of_step (hcap : 0 < lane.cap) {a : Act} (h : step lane s a = some t)
    (ht : t.Counted lane.workers) : s.Counted lane.workers := by
  refine ⟨fun v hv => ?_, Nat.lt_of_le_of_lt (refusals_le (refused_le hcap h) _ _) ht.2⟩
  have hcounted := ht.1 v hv
  rcases step_rings h with hrings | ⟨w, act, r, hr, hrings, -⟩
  · rwa [hrings] at hcounted
  · rw [hrings] at hcounted
    by_cases hvw : v = w
    · rw [hvw, Function.update_self] at hcounted
      rw [hvw]
      exact Ring.counted_of_step hcap hr hcounted
    · rwa [Function.update_of_ne hvw] at hcounted

theorem step_ringInv (hcap : 0 < lane.cap) {a : Act} (hs : Inv lane s)
    (hshort : ∀ w record, a = .push w record → record.length < 2 ^ 32)
    (h : step lane s a = some t) (ht : t.Counted lane.workers) :
    ∀ w < lane.workers, Ring.Inv lane.cap (t.rings w) := by
  intro v hv
  have hcounted := ht.1 v hv
  have hinv := hs.rings v hv
  rcases step_rings h with hrings | ⟨w, act, r, hr, hrings, hpush⟩
  · rwa [hrings]
  · rw [hrings] at hcounted ⊢
    by_cases hvw : v = w
    · subst hvw
      rw [Function.update_self] at hcounted ⊢
      exact Ring.step_inv hcap (fun record hrec => hshort v record (hpush record hrec)) hr hcounted
        hinv
    · rwa [Function.update_of_ne hvw]

/-- Where the drop counts only grow, a pass stands as it stood. -/
theorem PassOk.mono {c : Cursor} {p : Pass α} (h : PassOk lane s c p)
    (hle : ∀ v, (s.rings v).refused ≤ (t.rings v).refused) : PassOk lane t c p where
  within := h.within
  items := h.items
  low := h.low.trans (Nat.add_le_add_left (refusals_le hle _ _) _)
  high := h.high.trans (refusals_le hle _ _)

theorem BatchOk.mono {p : Pass α} (h : BatchOk lane (s.refusals 0 lane.workers) p)
    (hle : ∀ v, (s.rings v).refused ≤ (t.rings v).refused) :
    BatchOk lane (t.refusals 0 lane.workers) p :=
  ⟨h.items, h.low, h.high.trans (refusals_le hle _ _)⟩

/-! ### A worker moves -/

theorem inv_producer {w : Nat} {act : Ring.Act} {r : Ring.State} (hs : Inv lane s)
    (hact : act.isProducer = true) (hr : Ring.step lane.cap (s.rings w) act = some r)
    (hrings : ∀ v < lane.workers, Ring.Inv lane.cap ((s.setRing w r).rings v))
    (hle : ∀ v, (s.rings v).refused ≤ ((s.setRing w r).rings v).refused) :
    Inv lane (s.setRing w r) := by
  obtain ⟨hpop, hpops⟩ := Ring.producer_frame hact hr
  have hframe : ∀ v, ((s.setRing w r).rings v).pop = (s.rings v).pop ∧
      ((s.setRing w r).rings v).popped = (s.rings v).popped := by
    intro v
    show (Function.update s.rings w r v).pop = _ ∧ (Function.update s.rings w r v).popped = _
    by_cases hv : v = w
    · rw [hv, Function.update_self, Ring.State.popped, Ring.State.popped, hpops]
      exact ⟨hpop, rfl⟩
    · rw [Function.update_of_ne hv]
      exact ⟨rfl, rfl⟩
  refine ⟨hrings, fun v hv => ?_, hs.worker, fun v hv => ?_, hs.content,
    fun c p hpass => (hs.pass c p hpass).mono hle, fun p hp => (hs.batches p hp).mono hle⟩
  · exact (hframe v).2.trans (hs.popped v hv)
  · rw [(hframe v).1]
    exact hs.calls v hv

/-! ### The exporter moves -/

/-- What the exporter's next step can be: beside the steps of the loop, one operation of
`pop_into`, after which the call runs on, or has returned with or without a record. -/
inductive Advances (lane : TailLane α) (s : State α) : Cursor → Pass α → State α → Prop
  | enter {w : Nat} {p : Pass α} (hw : w < lane.workers) :
      Advances lane s (.entering w) p
        { s with pass := some (.looping w 0,
            { p with dropped := addW 64 p.dropped (s.rings w).shared.dropped }) }
  | finish {w : Nat} {p : Pass α} (hw : lane.workers ≤ w) :
      Advances lane s (.entering w) p { s with pass := none, batches := s.batches ++ [p] }
  | leave {w drained : Nat} {p : Pass α} (hdrained : lane.limit ≤ drained) :
      Advances lane s (.looping w drained) p { s with pass := some (.entering (w + 1), p) }
  | call {w drained : Nat} {p : Pass α} {r : Ring.State} (hdrained : drained < lane.limit)
      (hr : Ring.step lane.cap (s.rings w) (.callPop []) = some r) :
      Advances lane s (.looping w drained) p (popInto lane s w drained p r)
  | pop {w drained : Nat} {p : Pass α} {r : Ring.State}
      (hr : Ring.step lane.cap (s.rings w) .consumer = some r) :
      Advances lane s (.popping w drained) p (popInto lane s w drained p r)

theorem advances_advance {c : Cursor} {p : Pass α} (h : advance lane s c p = some t) :
    Advances lane s c p t := by
  cases c with
  | entering w =>
    simp only [advance] at h
    split at h
    · next hw =>
      cases h
      exact .enter hw
    · next hw =>
      cases h
      exact .finish (Nat.le_of_not_lt hw)
  | looping w drained =>
    simp only [advance] at h
    split at h
    · next hdrained =>
      obtain ⟨r, hr, rfl⟩ := Option.map_eq_some_iff.mp h
      exact .call hdrained hr
    · next hdrained =>
      cases h
      exact .leave (Nat.le_of_not_lt hdrained)
  | popping w drained =>
    obtain ⟨r, hr, rfl⟩ := Option.map_eq_some_iff.mp h
    exact .pop hr

theorem exported_of_pass {c : Cursor} {p : Pass α} (h : s.pass = some (c, p)) :
    s.exported = s.batches.flatMap (·.items) ++ p.items := by
  rw [State.exported, h]
  rfl

/-- A pop of worker `w`, in the history of the others and its own. -/
theorem popped_concat {x : Pop} (h : t.pops = s.pops ++ [x]) (w : Nat) :
    t.popped w = s.popped w ++ if x.worker = w then [x.record] else [] := by
  simp only [State.popped, h, List.filter_append, List.map_append]
  split <;> simp_all

theorem Inv.enter {w : Nat} {p : Pass α} (hs : Inv lane s) (hpass : s.pass = some (.entering w, p))
    (hw : w < lane.workers) (hcounted : s.Counted lane.workers) :
    Inv lane { s with pass := some (.looping w 0,
      { p with dropped := addW 64 p.dropped (s.rings w).shared.dropped }) } := by
  have hp := hs.pass _ _ hpass
  have hread : s.refusals 0 (w + 1) = s.refusals 0 w + (s.rings w).refused :=
    Finset.sum_Ico_succ_top (Nat.zero_le w) _
  have hunread : s.refusals w lane.workers =
      (s.rings w).refused + s.refusals (w + 1) lane.workers :=
    Finset.sum_eq_sum_Ico_succ_bot hw _
  have hall : s.refusals 0 (w + 1) ≤ s.refusals 0 lane.workers :=
    Finset.sum_le_sum_of_subset (Finset.Ico_subset_Ico_right hw)
  have hlow : p.refusedBefore ≤ p.dropped + s.refusals w lane.workers := hp.low
  have hhigh : p.dropped ≤ s.refusals 0 w := hp.high
  have hlimit := hcounted.2
  -- the sum does not wrap: it counts refusals, of which there are fewer than `2 ^ 64`
  have hsum : addW 64 p.dropped (s.rings w).shared.dropped = p.dropped + (s.rings w).refused := by
    rw [(hs.rings w hw).dropped_eq]
    exact addW_of_lt (by omega)
  refine ⟨hs.rings, hs.popped, hs.worker, fun v hv => ?_, ?_, ?_, hs.batches⟩
  · rw [hs.calls v hv, hpass]
    rfl
  · rw [← hs.content, exported_of_pass hpass]
    rfl
  · rintro _ _ ⟨⟩
    rw [hsum]
    refine ⟨⟨hw, Nat.zero_le _⟩, hp.items, ?_, ?_⟩
    · show p.refusedBefore ≤ p.dropped + (s.rings w).refused + s.refusals (w + 1) lane.workers
      omega
    · show p.dropped + (s.rings w).refused ≤ s.refusals 0 (w + 1)
      omega

theorem Inv.finish {w : Nat} {p : Pass α} (hs : Inv lane s)
    (hpass : s.pass = some (.entering w, p)) (hw : lane.workers ≤ w) :
    Inv lane { s with pass := none, batches := s.batches ++ [p] } := by
  have hp := hs.pass _ _ hpass
  have hend : w = lane.workers := Nat.le_antisymm hp.within hw
  have hempty : s.refusals lane.workers lane.workers = 0 := by
    rw [State.refusals, Finset.Ico_self, Finset.sum_empty]
  subst hend
  refine ⟨hs.rings, hs.popped, hs.worker, fun v hv => ?_, ?_, ?_, fun q hq => ?_⟩
  · rw [hs.calls v hv, hpass]
    rfl
  · rw [← hs.content, exported_of_pass hpass]
    simp [State.exported]
  · intro c p h
    cases h
  · rcases List.mem_append.mp hq with hq | hq
    · exact hs.batches q hq
    · obtain rfl := List.mem_singleton.mp hq
      have hlow : q.refusedBefore ≤ q.dropped + s.refusals lane.workers lane.workers := hp.low
      rw [hempty, Nat.add_zero] at hlow
      exact ⟨hp.items, hlow, hp.high⟩

theorem Inv.leave {w drained : Nat} {p : Pass α} (hs : Inv lane s)
    (hpass : s.pass = some (.looping w drained, p)) :
    Inv lane { s with pass := some (.entering (w + 1), p) } := by
  have hp := hs.pass _ _ hpass
  refine ⟨hs.rings, hs.popped, hs.worker, fun v hv => ?_, ?_, ?_, hs.batches⟩
  · rw [hs.calls v hv, hpass]
    rfl
  · rw [← hs.content, exported_of_pass hpass]
    rfl
  · rintro _ _ ⟨⟩
    refine ⟨hp.within.1, ?_, hp.low, hp.high⟩
    have hitems := hp.items
    have hdrained := hp.within.2
    simp only [Cursor.bound] at hitems ⊢
    rw [Nat.succ_mul]
    omega

/-- **An operation of `pop_into`**: the pass was in the ring of worker `w`, and the call has not
returned before. -/
theorem Inv.popInto {c : Cursor} {w drained : Nat} {p : Pass α} {r : Ring.State} (hs : Inv lane s)
    (hpass : s.pass = some (c, p)) (hc : c = .looping w drained ∨ c = .popping w drained)
    (hw : w < lane.workers) (hdrained : drained < lane.limit)
    (hr : Ring.ConsumerMoves (s.rings w) r)
    (hrings : ∀ v < lane.workers, Ring.Inv lane.cap (Function.update s.rings w r v)) :
    Inv lane (popInto lane s w drained p r) := by
  have hp := hs.pass c p hpass
  have hunread : c.unread = w + 1 := by rcases hc with rfl | rfl <;> rfl
  have hbound : c.bound lane.limit = w * lane.limit + drained := by rcases hc with rfl | rfl <;> rfl
  have hcontent : s.batches.flatMap (·.items) ++ p.items =
      s.pops.filterMap fun x => lane.parse x.now x.record := by
    rw [← hs.content, exported_of_pass hpass]
  -- in the other rings no call runs, before and after
  have hothers : ∀ v < lane.workers, v ≠ w → (s.rings v).pop = none := by
    intro v hv hne
    rw [← Option.not_isSome_iff_eq_none, hs.calls v hv, hpass]
    rcases hc with rfl | rfl
    · exact fun h => by cases h
    · exact fun h => hne (Option.some.inj h).symm
  have hrefused : ∀ v, (s.rings v).refused = (Function.update s.rings w r v).refused := by
    intro v
    by_cases hv : v = w
    · rw [hv, Function.update_self, hr.refused]
    · rw [Function.update_of_ne hv]
  have hle : ∀ {u : State α}, u.rings = Function.update s.rings w r →
      ∀ v, (s.rings v).refused ≤ (u.rings v).refused :=
    fun hu v => (hrefused v).le.trans_eq (by rw [hu])
  have hpassOk {u : State α} {c' : Cursor} {q : Pass α} (hu : u.rings = Function.update s.rings w r)
      (hwithin : c'.Within lane.workers lane.limit) (hread : c'.unread = w + 1)
      (hitems : q.items.length ≤ c'.bound lane.limit) (hbefore : q.refusedBefore = p.refusedBefore)
      (hdropped : q.dropped = p.dropped) : PassOk lane u c' q := by
    have hkept := hp.mono (hle hu)
    refine ⟨hwithin, hitems, ?_, ?_⟩
    · rw [hread, hbefore, hdropped, ← hunread]
      exact hkept.low
    · rw [hread, hdropped, ← hunread]
      exact hkept.high
  have hpopped_other : ∀ v, v ≠ w → (Function.update s.rings w r v).popped = (s.rings v).popped :=
    fun v hv => by rw [Function.update_of_ne hv]
  rcases hr.pops with ⟨⟨f, hf⟩, hpops⟩ | ⟨hreturned, entry, hpops⟩
  · -- the call runs on
    have hsame : r.popped = (s.rings w).popped := by rw [Ring.State.popped, hpops]; rfl
    rw [popInto_runs hf]
    refine ⟨hrings, fun v hv => ?_, hs.worker, fun v hv => ?_, ?_, ?_,
      fun q hq => (hs.batches q hq).mono (hle rfl)⟩
    · show (Function.update s.rings w r v).popped = s.popped v
      by_cases hvw : v = w
      · rw [hvw, Function.update_self, hsame]
        exact hs.popped w hw
      · rw [hpopped_other v hvw]
        exact hs.popped v hv
    · show (Function.update s.rings w r v).pop.isSome = true ↔ some w = some v
      by_cases hvw : v = w
      · rw [hvw, Function.update_self, hf]
        exact ⟨fun _ => rfl, fun _ => rfl⟩
      · rw [Function.update_of_ne hvw, hothers v hv hvw]
        exact ⟨fun h => Bool.noConfusion h, fun h => absurd (Option.some.inj h).symm hvw⟩
    · exact hcontent
    · rintro _ _ ⟨⟩
      exact hpassOk rfl ⟨hw, hdrained⟩ rfl (hp.items.trans_eq hbound) rfl rfl
  · have hpopped := Ring.popped_concat_of_pops hpops
    have hidle : ∀ v < lane.workers,
        ((Function.update s.rings w r v).pop.isSome = true ↔ none = some v) := by
      intro v hv
      by_cases hvw : v = w
      · rw [hvw, Function.update_self, hreturned]
        simp
      · rw [Function.update_of_ne hvw, hothers v hv hvw]
        simp
    cases hentry : entry.popped? with
    | some record =>
      -- it has returned a record, which is parsed
      rw [popInto_record hreturned hpops hentry]
      rw [hentry] at hpopped
      refine ⟨hrings, fun v hv => ?_, ?_, hidle, ?_, ?_,
        fun q hq => (hs.batches q hq).mono (hle rfl)⟩
      · refine Eq.trans ?_ (popped_concat rfl v).symm
        rw [← hs.popped v hv]
        show (Function.update s.rings w r v).popped = _
        by_cases hvw : v = w
        · subst hvw
          rw [Function.update_self, hpopped, if_pos rfl]
          rfl
        · rw [hpopped_other v hvw, if_neg (Ne.symm hvw), List.append_nil]
      · intro x hx
        rcases List.mem_append.mp hx with hx | hx
        · exact hs.worker x hx
        · rw [List.mem_singleton.mp hx]
          exact hw
      · have hone : ([⟨w, p.now, record⟩] : List Pop).filterMap
            (fun x => lane.parse x.now x.record) = (lane.parse p.now record).toList := by
          rw [List.filterMap_cons, List.filterMap_nil]
          cases lane.parse p.now record <;> rfl
        rw [List.filterMap_append, ← hcontent, hone, List.append_assoc]
        rfl
      · rintro _ _ ⟨⟩
        refine hpassOk rfl ⟨hw, hdrained⟩ rfl ?_ rfl rfl
        have hitems := hp.items
        have hone : (lane.parse p.now record).toList.length ≤ 1 := by
          cases lane.parse p.now record <;> simp
        rw [hbound] at hitems
        simp only [Cursor.bound, List.length_append]
        omega
    | none =>
      -- it has returned `false`, and the loop ends
      rw [popInto_false hreturned hpops hentry]
      rw [hentry, Option.toList_none, List.append_nil] at hpopped
      refine ⟨hrings, fun v hv => ?_, hs.worker, hidle, ?_, ?_,
        fun q hq => (hs.batches q hq).mono (hle rfl)⟩
      · show (Function.update s.rings w r v).popped = s.popped v
        by_cases hvw : v = w
        · rw [hvw, Function.update_self, hpopped]
          exact hs.popped w hw
        · rw [hpopped_other v hvw]
          exact hs.popped v hv
      · exact hcontent
      · rintro _ _ ⟨⟩
        refine hpassOk rfl hw rfl ?_ rfl rfl
        have hitems := hp.items
        rw [hbound] at hitems
        simp only [Cursor.bound]
        rw [Nat.succ_mul]
        omega

theorem inv_advance {c : Cursor} {p : Pass α} (hs : Inv lane s) (hpass : s.pass = some (c, p))
    (hcounted : s.Counted lane.workers) (h : Advances lane s c p t)
    (hrings : ∀ v < lane.workers, Ring.Inv lane.cap (t.rings v)) : Inv lane t := by
  have hwithin := (hs.pass c p hpass).within
  cases h with
  | enter hw => exact hs.enter hpass hw hcounted
  | finish hw => exact hs.finish hpass hw
  | leave hdrained => exact hs.leave hpass
  | @call w drained _ r hdrained hr =>
    rw [popInto_rings] at hrings
    exact hs.popInto hpass (.inl rfl) hwithin.1 hdrained (Ring.consumer_frame rfl hr) hrings
  | @pop w drained _ r hr =>
    rw [popInto_rings] at hrings
    exact hs.popInto hpass (.inr rfl) hwithin.1 hwithin.2 (Ring.consumer_frame rfl hr) hrings

theorem inv_begin {now : UInt64} (hs : Inv lane s) (hidle : s.pass = none) :
    Inv lane { s with
      pass := some (.entering 0, ⟨now, [], 0, s.refusals 0 lane.workers⟩) } := by
  refine ⟨hs.rings, hs.popped, hs.worker, fun v hv => ?_, ?_, ?_, hs.batches⟩
  · rw [hs.calls v hv, hidle]
    rfl
  · rw [← hs.content, State.exported, State.exported, hidle]
    rfl
  · rintro _ _ ⟨⟩
    exact ⟨Nat.zero_le _, Nat.zero_le _, (Nat.zero_add _).ge, Nat.zero_le _⟩

/-- **Every move keeps the invariant** while the counters do not overflow. -/
theorem step_inv (hcap : 0 < lane.cap) {a : Act} (hs : Inv lane s)
    (hshort : ∀ w record, a = .push w record → record.length < 2 ^ 32)
    (h : step lane s a = some t) (ht : t.Counted lane.workers) : Inv lane t := by
  have hrings := step_ringInv hcap hs hshort h ht
  have hle := refused_le hcap h
  have hcounted := counted_of_step hcap h ht
  cases a with
  | push w record =>
    obtain ⟨-, h⟩ := Option.ite_none_right_eq_some.mp h
    obtain ⟨r, hr, rfl⟩ := Option.map_eq_some_iff.mp h
    exact inv_producer hs rfl hr hrings hle
  | producer w =>
    obtain ⟨-, h⟩ := Option.ite_none_right_eq_some.mp h
    obtain ⟨r, hr, rfl⟩ := Option.map_eq_some_iff.mp h
    exact inv_producer hs rfl hr hrings hle
  | begin now =>
    simp only [step] at h
    split at h
    · next hidle =>
      cases h
      exact inv_begin hs hidle
    · cases h
  | advance =>
    obtain ⟨⟨c, p⟩, hpass, h⟩ := Option.bind_eq_some_iff.mp h
    exact inv_advance hs hpass hcounted (advances_advance h) hrings

/-- **Every run keeps the invariant**: the counters only grow, so a run that ends within them never
left them. -/
theorem exec_inv (hcap : 0 < lane.cap) {acts : List Act}
    (hshort : ∀ w record, .push w record ∈ acts → record.length < 2 ^ 32)
    (h : Run.exec (step lane) .start acts = some s) (hcounted : s.Counted lane.workers) :
    Inv lane s := by
  have hstep : ∀ s a u, (s.Counted lane.workers → Inv lane s) →
      (∀ w record, a = .push w record → record.length < 2 ^ 32) → step lane s a = some u →
      (u.Counted lane.workers → Inv lane u) :=
    fun s a u hs ha hu hc => step_inv hcap (hs (counted_of_step hcap hu hc)) ha hu hc
  refine Run.exec_invariant_along hstep ?_ h (fun _ => inv_start) hcounted
  exact Run.along_of_forall_mem fun a ha w record hrec => hshort w record (hrec ▸ ha)

/-- Finished passes stay. -/
theorem step_batches {a : Act} (h : step lane s a = some t) : s.batches <+: t.batches := by
  cases a with
  | push w record | producer w =>
    obtain ⟨-, h⟩ := Option.ite_none_right_eq_some.mp h
    obtain ⟨r, -, rfl⟩ := Option.map_eq_some_iff.mp h
    exact List.prefix_rfl
  | begin now =>
    simp only [step] at h
    split at h
    · cases h
      exact List.prefix_rfl
    · cases h
  | advance =>
    obtain ⟨⟨c, p⟩, -, h⟩ := Option.bind_eq_some_iff.mp h
    cases advances_advance h with
    | enter hw | leave hdrained => exact List.prefix_rfl
    | finish hw => exact List.prefix_append _ _
    | call hdrained hr | pop hr =>
      unfold popInto
      split <;> exact List.prefix_rfl

theorem Inv.published_eq (hs : Inv lane s) {w : Nat} (hw : w < lane.workers) :
    (s.rings w).published = s.popped w ++ (s.rings w).queue := by
  rw [← (hs.rings w hw).popped_append_queue, hs.popped w hw]

theorem Inv.length_pushes (hs : Inv lane s) {w : Nat} (hw : w < lane.workers) :
    (s.rings w).pushes.length =
      (s.popped w).length + (s.rings w).queue.length + (s.rings w).refused := by
  rw [Ring.length_pushes, hs.published_eq hw, List.length_append]

/-- **Nothing is lost, doubled or moved on the way from the workers to the batches**, whatever is
pushed while passes run. -/
theorem drain_history (hcap : 0 < lane.cap) {acts : List Act}
    (hshort : ∀ w record, .push w record ∈ acts → record.length < 2 ^ 32)
    (h : Run.exec (step lane) State.start acts = some s) (hcounted : s.Counted lane.workers) :
    (∀ w < lane.workers, (s.rings w).published = s.popped w ++ (s.rings w).queue) ∧
    s.exported = s.pops.filterMap (fun p => lane.parse p.now p.record) ∧
    (∀ w < lane.workers, (s.rings w).pushes.length =
      (s.popped w).length + (s.rings w).queue.length + (s.rings w).shared.dropped) ∧
    ∀ p ∈ s.batches, BatchOk lane (s.refusals 0 lane.workers) p := by
  have hs := exec_inv hcap hshort h hcounted
  refine ⟨fun w hw => hs.published_eq hw, hs.content, fun w hw => ?_, hs.batches⟩
  rw [(hs.rings w hw).dropped_eq]
  exact hs.length_pushes hw

/-- Two workers, rings of 16 bytes, one record a pass, and every record an item. -/
def smallLane : TailLane Bytes := ⟨16, 2, 1, fun _ record => some record⟩

/-- A call of `push`, from its beginning to its end. -/
def wholePush (w : Nat) (record : Bytes) (ops : Nat) : List Act :=
  .push w record :: List.replicate ops (.producer w)

/-- The second push does not fit; the third is under way when the pass begins, and returns while the
exporter copies the first record. -/
def crowdedRun : List Act :=
  wholePush 0 [1, 2, 3, 4, 5, 6] 13 ++ wholePush 0 [1, 2, 3, 4, 5, 6, 7, 8] 3 ++
    wholePush 1 [7] 3 ++ .begin 9 :: List.replicate 6 .advance ++
    List.replicate 5 (.producer 1) ++ List.replicate 22 .advance

theorem crowdedRun_ends :
    (Run.exec (step smallLane) State.start crowdedRun).map (fun s =>
      (s.pops.map (·.record), s.batches.map (·.dropped), decide (s.Counted 2))) =
      some ([[1, 2, 3, 4, 5, 6], [7]], [1], true) := by
  decide +kernel

theorem drain_history_crowdedRun :
    ∃ s, Run.exec (step smallLane) State.start crowdedRun = some s ∧
      s.exported = [[1, 2, 3, 4, 5, 6], [7]] ∧ s.batches.map (·.dropped) = [1] ∧
      (s.rings 0).pushes.length =
        (s.popped 0).length + (s.rings 0).queue.length + (s.rings 0).shared.dropped := by
  obtain ⟨s, hrun, hends⟩ := Option.map_eq_some_iff.mp crowdedRun_ends
  simp only [Prod.mk.injEq] at hends
  obtain ⟨hpops, hbatches, hcounted⟩ := hends
  have hshort : ∀ w record, .push w record ∈ crowdedRun → record.length < 2 ^ 32 := by
    intro w record hmem
    simp [crowdedRun, wholePush] at hmem
    rcases hmem with ⟨-, rfl⟩ | ⟨-, rfl⟩ | ⟨-, rfl⟩ <;> decide
  have h := drain_history (by decide) hshort hrun (of_decide_eq_true hcounted)
  refine ⟨s, hrun, ?_, hbatches, h.2.2.1 0 (by decide)⟩
  rw [h.2.1, ← hpops]
  exact List.filterMap_eq_map' ▸ rfl

/-! ### Every record has a source -/

/-- A property of every record that is pushed. -/
theorem pushed_of_acts {P : Bytes → Prop} {acts : List Act}
    (hacts : ∀ w record, .push w record ∈ acts → P record)
    (h : Run.exec (step lane) .start acts = some s) (w : Nat) : (s.rings w).Pushed P := by
  have hstep : ∀ (s : State α) (a : Act) (t : State α), (∀ w, (s.rings w).Pushed P) →
      (∀ w record, a = .push w record → P record) → step lane s a = some t →
      ∀ w, (t.rings w).Pushed P := by
    intro s a t hs ha h v
    rcases step_rings h with hrings | ⟨w, act, r, hr, hrings, hpush⟩
    · rw [hrings]
      exact hs v
    · rw [hrings]
      by_cases hv : v = w
      · rw [hv, Function.update_self]
        exact (hs w).step (fun record hrec => ha w record (hpush record hrec)) hr
      · rw [Function.update_of_ne hv]
        exact hs v
  refine Run.exec_invariant_along hstep (Run.along_of_forall_mem ?_) h ?_ w
  · rintro a ha w record rfl
    exact hacts w record ha
  · intro w
    exact ⟨by simp [State.start, Ring.initial], by simp [State.start, Ring.initial]⟩

/-- What is popped was published. -/
theorem Inv.published_of_popped (hs : Inv lane s) {p : Pop} (hp : p ∈ s.pops) :
    p.record ∈ (s.rings p.worker).published := by
  rw [hs.published_eq (hs.worker p hp)]
  exact List.mem_append_left _ (List.mem_map_of_mem (List.mem_filter.mpr ⟨hp, by simp⟩))

/-- **When every record pushed parses, every record popped is exported.** -/
theorem pops_of_emitted {ρ : Type} {emit : ρ → Bytes} {item : UInt64 → ρ → α}
    (hparse : ∀ now r, lane.parse now (emit r) = some (item now r)) {acts : List Act}
    (hacts : ∀ w record, .push w record ∈ acts → ∃ r, record = emit r)
    (h : Run.exec (step lane) .start acts = some s) (hs : Inv lane s) :
    ∀ p ∈ s.pops, ∃ r, p.record = emit r ∧ lane.parse p.now p.record = some (item p.now r) := by
  intro p hp
  obtain ⟨r, hr⟩ := (pushed_of_acts hacts h p.worker).published _ (hs.published_of_popped hp)
  exact ⟨r, hr, hr ▸ hparse p.now r⟩

/-- The pops, worker by worker. -/
theorem sum_popped {workers : Nat} (h : ∀ p ∈ s.pops, p.worker < workers) :
    ∑ w ∈ Finset.range workers, (s.popped w).length = s.pops.length := by
  simp only [State.popped, List.length_map]
  revert h
  induction s.pops with
  | nil => simp
  | cons p pops ih =>
    intro h
    have hcons : ∀ w, ((p :: pops).filter fun q => q.worker = w).length =
        (if p.worker = w then 1 else 0) + (pops.filter fun q => q.worker = w).length := by
      intro w
      by_cases hw : p.worker = w <;> simp [hw, Nat.add_comm]
    rw [List.forall_mem_cons] at h
    simp only [hcons, Finset.sum_add_distrib, ih h.2, Finset.sum_ite_eq, Finset.mem_range.mpr h.1,
      if_true, List.length_cons, Nat.add_comm]

/-- Every call of `push` that has returned was refused, or its record is popped or waits. -/
theorem Inv.pushed_eq (hs : Inv lane s) : s.pushed lane.workers =
    s.refusals 0 lane.workers + s.pops.length + s.waiting lane.workers := by
  have hsum : s.pushed lane.workers = ∑ w ∈ Finset.range lane.workers,
      ((s.popped w).length + (s.rings w).queue.length + (s.rings w).refused) :=
    Finset.sum_congr rfl fun w hw => hs.length_pushes (Finset.mem_range.mp hw)
  rw [hsum, Finset.sum_add_distrib, Finset.sum_add_distrib, sum_popped hs.worker, State.refusals,
    ← Finset.range_eq_Ico, State.waiting]
  omega

end Invariant

/-! ## A pass that nobody interrupts -/

/-- The items of one ring. -/
def drainRing (lane : TailLane α) (now : UInt64) (r : Ring.State) : List α :=
  (r.queue.take lane.limit).filterMap (lane.parse now)

/-- The pass as one call: the items worker by worker, and the sum of the drop counts. -/
def collectRecords (lane : TailLane α) (now : UInt64) (rings : Nat → Ring.State) : List α × Nat :=
  ((List.range lane.workers).flatMap fun w => drainRing lane now (rings w),
    (List.range lane.workers).foldl (fun total w => addW 64 total (rings w).shared.dropped) 0)

/-- No exporter is in a ring; a worker may have stopped inside a push. -/
structure Quiet (lane : TailLane α) (s : State α) : Prop where
  inv : ∀ w < lane.workers, Ring.Inv lane.cap (s.rings w)
  idle : ∀ w < lane.workers, (s.rings w).pop = none
  counted : ∀ w < lane.workers, (s.rings w).Counted

section Alone

variable {lane : TailLane α} {s t u : State α} {p : Pass α} {w drained : Nat}

theorem exec_advance {c : Cursor} {k : Nat} (hpass : s.pass = some (c, p))
    (hnext : advance lane s c p = some t)
    (h : Run.exec (step lane) t (List.replicate k .advance) = some u) :
    Run.exec (step lane) s (List.replicate (k + 1) .advance) = some u := by
  rw [List.replicate_succ, Run.exec_cons]
  refine ⟨t, ?_, h⟩
  rw [step, hpass]
  exact hnext

theorem popInto_setRing (s : State α) (r r' : Ring.State) (pass : Option (Cursor × Pass α)) :
    popInto lane { s.setRing w r with pass := pass } w drained p r' =
      popInto lane s w drained p r' := by
  have hset : ({ s.setRing w r with pass := pass } : State α).setRing w r' =
      { s.setRing w r' with pass := pass } := by
    simp only [State.setRing, Function.update_idem]
  unfold popInto
  rw [hset]
  rfl

/-- The operations of a `pop_into` that runs, up to its return. -/
theorem exec_popInto : ∀ {k : Nat} {s : State α} {r : Ring.State},
    s.pass = some (.popping w drained, p) → (s.rings w).pop.isSome = true →
    Run.exec (Ring.step lane.cap) (s.rings w) (List.replicate k .consumer) = some r →
    r.pop = none →
    Run.exec (step lane) s (List.replicate k .advance) = some (popInto lane s w drained p r)
  | 0, s, r, _, hruns, hrun, hreturned => by
    obtain rfl : s.rings w = r := Option.some.inj hrun
    rw [hreturned] at hruns
    cases hruns
  | k + 1, s, r, hpass, _, hrun, hreturned => by
    rw [List.replicate_succ] at hrun
    obtain ⟨r₁, hr₁, hrest⟩ := Run.exec_cons.mp hrun
    have hnext : advance lane s (.popping w drained) p = some (popInto lane s w drained p r₁) := by
      rw [advance, hr₁, Option.map_some]
    refine exec_advance hpass hnext ?_
    cases hpop : r₁.pop with
    | some f =>
      rw [popInto_runs hpop]
      refine (exec_popInto (s := { s.setRing w r₁ with pass := some (.popping w drained, p) }) rfl
        ?_ ?_ hreturned).trans (congrArg some (popInto_setRing s r₁ r _))
      · show (Function.update s.rings w r₁ w).pop.isSome = true
        rw [Function.update_self, hpop]
        rfl
      · show Run.exec _ (Function.update s.rings w r₁ w) _ = _
        rw [Function.update_self]
        exact hrest
    | none =>
      -- the call has returned: there is no operation left to execute
      cases k with
      | zero =>
        obtain rfl : r₁ = r := Option.some.inj hrest
        rfl
      | succ k =>
        rw [List.replicate_succ] at hrest
        obtain ⟨r₂, hr₂, -⟩ := Run.exec_cons.mp hrest
        rw [Ring.step, hpop] at hr₂
        cases hr₂

/-- One round of the loop: `pop_into` from its call to its return. -/
theorem exec_round (hcap : 0 < lane.cap) (hs : Quiet lane s) (hw : w < lane.workers)
    (hpass : s.pass = some (.looping w drained, p)) (hdrained : drained < lane.limit) :
    ∃ k r c, Run.exec (step lane) s (List.replicate k .advance) =
        some (popInto lane s w drained p r) ∧
      Ring.Inv lane.cap r ∧ r.pop = none ∧ r.Counted ∧ r.pushes = (s.rings w).pushes ∧
      r.pops = (s.rings w).pops ++ [c] ∧ c.popped? = (s.rings w).queue.head? ∧
      r.queue = (s.rings w).queue.tail := by
  obtain ⟨k, r, c, hrun, hinv, hpop, hpush, hpushes, hpops, hhead, htail⟩ :=
    Ring.pop_call hcap [] (hs.inv w hw) (hs.idle w hw) (hs.counted w hw)
  obtain ⟨r₁, hr₁, hrest⟩ := Run.exec_cons.mp hrun
  obtain ⟨f, hf⟩ : ∃ f, r₁.pop = some f := by
    rw [Ring.step, hs.idle w hw, Option.isNone_none, if_pos rfl, Ring.startPop,
      if_neg (Nat.ne_of_gt hcap)] at hr₁
    cases hr₁
    exact ⟨_, rfl⟩
  have hcalled : advance lane s (.looping w drained) p =
      some { s.setRing w r₁ with pass := some (.popping w drained, p) } := by
    rw [advance, if_pos hdrained, hr₁, Option.map_some, popInto_runs hf]
  refine ⟨k + 1, r, c, exec_advance hpass hcalled ?_, hinv, hpop,
    Ring.counted_of_pushes hpush hpushes (hs.counted w hw), hpushes, hpops, hhead, htail⟩
  refine (exec_popInto rfl ?_ ?_ hpop).trans (congrArg some (popInto_setRing s r₁ r _))
  · show (Function.update s.rings w r₁ w).pop.isSome = true
    rw [Function.update_self, hf]
    rfl
  · show Run.exec _ (Function.update s.rings w r₁ w) _ = _
    rw [Function.update_self]
    exact hrest

theorem Quiet.setRing {r : Ring.State} {pass : Option (Cursor × Pass α)} {pops : List Pop}
    (hs : Quiet lane s) (hinv : Ring.Inv lane.cap r) (hpop : r.pop = none) (hcounted : r.Counted) :
    Quiet lane { s.setRing w r with pass := pass, pops := pops } := by
  have hring : ∀ v, Function.update s.rings w r v = r ∨
      Function.update s.rings w r v = s.rings v := by
    intro v
    by_cases hv : v = w
    · exact .inl (by rw [hv, Function.update_self])
    · exact .inr (Function.update_of_ne hv r s.rings)
  constructor <;> intro v hv <;> simp only [State.setRing] <;> rcases hring v with h | h <;> rw [h]
  · exact hinv
  · exact hs.inv v hv
  · exact hpop
  · exact hs.idle v hv
  · exact hcounted
  · exact hs.counted v hv

/-- What the loop over one ring has done when it ends. -/
structure RingDone (lane : TailLane α) (w n : Nat) (s t : State α) : Prop where
  quiet : Quiet lane t
  queue : (t.rings w).queue = (s.rings w).queue.drop n
  pushes : ∀ v, (t.rings v).pushes = (s.rings v).pushes
  others : ∀ v, v ≠ w → t.rings v = s.rings v
  batches : t.batches = s.batches

/-- The rest of a worker's loop. -/
theorem ring_alone (hcap : 0 < lane.cap) (hw : w < lane.workers) :
    ∀ (queue : List Bytes) {s : State α} {drained : Nat} {p : Pass α}, Quiet lane s →
    s.pass = some (.looping w drained, p) → (s.rings w).queue = queue →
    ∃ k t, Run.exec (step lane) s (List.replicate k .advance) = some t ∧
      t.pass = some (.entering (w + 1), { p with
        items := p.items ++ (queue.take (lane.limit - drained)).filterMap (lane.parse p.now) }) ∧
      RingDone lane w (lane.limit - drained) s t := by
  intro queue
  induction queue with
  | nil =>
    intro s drained p hs hpass hqueue
    by_cases hdrained : drained < lane.limit
    · obtain ⟨k, r, c, hrun, hinv, hpop, hcounted, hpushes, hpops, hhead, htail⟩ :=
        exec_round hcap hs hw hpass hdrained
      rw [hqueue] at hhead htail
      rw [popInto_false hpop hpops hhead] at hrun
      refine ⟨k, _, hrun, by simp, hs.setRing hinv hpop hcounted, ?_, fun v => ?_, fun v hv => ?_,
        rfl⟩
      · show (Function.update s.rings w r w).queue = _
        rw [Function.update_self, htail, hqueue, List.drop_nil, List.tail_nil]
      · show (Function.update s.rings w r v).pushes = _
        by_cases hv : v = w
        · rw [hv, Function.update_self, hpushes]
        · rw [Function.update_of_ne hv]
      · exact Function.update_of_ne hv r s.rings
    · refine ⟨1, { s with pass := some (.entering (w + 1), p) }, exec_advance hpass ?_ rfl, by simp,
        ⟨hs.inv, hs.idle, hs.counted⟩, ?_, fun _ => rfl, fun _ _ => rfl, rfl⟩
      · rw [advance, if_neg hdrained]
      · show (s.rings w).queue = _
        rw [hqueue, List.drop_nil]
  | cons record rest ih =>
    intro s drained p hs hpass hqueue
    by_cases hdrained : drained < lane.limit
    · -- one record, and the rest of the loop from there
      obtain ⟨k, r, c, hrun, hinv, hpop, hcounted, hpushes, hpops, hhead, htail⟩ :=
        exec_round hcap hs hw hpass hdrained
      rw [hqueue] at hhead htail
      rw [popInto_record hpop hpops hhead] at hrun
      obtain ⟨k', t, hrun', htpass, hdone⟩ := ih
        (s := { s.setRing w r with
          pass := some (.looping w (drained + 1),
            { p with items := p.items ++ (lane.parse p.now record).toList })
          pops := s.pops ++ [⟨w, p.now, record⟩] })
        (hs.setRing hinv hpop hcounted) rfl
        (by
          show (Function.update s.rings w r w).queue = rest
          rw [Function.update_self, htail, List.tail_cons])
      have hleft : lane.limit - drained = lane.limit - (drained + 1) + 1 := by omega
      refine ⟨k + k', t, ?_, ?_, hdone.quiet, ?_, fun v => ?_, fun v hv => ?_, hdone.batches⟩
      · rw [List.replicate_add, Run.exec_append]
        exact ⟨_, hrun, hrun'⟩
      · rw [htpass, hleft, List.take_succ_cons, List.filterMap_cons]
        cases lane.parse p.now record <;> simp
      · rw [hdone.queue, hqueue, hleft, List.drop_succ_cons]
        show (Function.update s.rings w r w).queue.drop _ = _
        rw [Function.update_self, htail, List.tail_cons]
      · rw [hdone.pushes v]
        show (Function.update s.rings w r v).pushes = _
        by_cases hv : v = w
        · rw [hv, Function.update_self, hpushes]
        · rw [Function.update_of_ne hv]
      · rw [hdone.others v hv]
        exact Function.update_of_ne hv r s.rings
    · have hnone : lane.limit - drained = 0 := by omega
      refine ⟨1, { s with pass := some (.entering (w + 1), p) }, exec_advance hpass ?_ rfl,
        by simp [hnone], ⟨hs.inv, hs.idle, hs.counted⟩, ?_, fun _ => rfl, fun _ _ => rfl, rfl⟩
      · rw [advance, if_neg hdrained]
      · rw [hnone, List.drop_zero]

/-- The pass from worker `w` on, with `m` workers to go. -/
theorem workers_alone (hcap : 0 < lane.cap) : ∀ (m : Nat) {w : Nat} {s : State α} {p : Pass α},
    w + m = lane.workers → Quiet lane s → s.pass = some (.entering w, p) →
    ∃ k t, Run.exec (step lane) s (List.replicate k .advance) = some t ∧ t.pass = none ∧
      t.batches = s.batches ++ [{ p with
        items := p.items ++ (List.range' w m).flatMap fun v => drainRing lane p.now (s.rings v)
        dropped := (List.range' w m).foldl
          (fun total v => addW 64 total (s.rings v).shared.dropped) p.dropped }] ∧
      ∀ v, (t.rings v).pushes = (s.rings v).pushes ∧ (t.rings v).queue =
        if w ≤ v ∧ v < lane.workers then (s.rings v).queue.drop lane.limit
        else (s.rings v).queue := by
  intro m
  induction m with
  | zero =>
    intro w s p hm _ hpass
    refine ⟨1, { s with pass := none, batches := s.batches ++ [p] }, exec_advance hpass ?_ rfl, rfl,
      by simp, fun v => ⟨rfl, ?_⟩⟩
    · rw [advance, if_neg (by omega)]
    · rw [if_neg (by omega)]
  | succ m ih =>
    intro w s p hm hs hpass
    have hw : w < lane.workers := by omega
    obtain ⟨k, t, hrun, htpass, hdone⟩ := ring_alone hcap hw (s.rings w).queue
      (s := { s with pass := some (.looping w 0,
        { p with dropped := addW 64 p.dropped (s.rings w).shared.dropped }) })
      ⟨hs.inv, hs.idle, hs.counted⟩ rfl rfl
    obtain ⟨k', u, hrun', hupass, hubatches, hurings⟩ := ih (by omega) hdone.quiet htpass
    have hothers : ∀ v ∈ List.range' (w + 1) m, t.rings v = s.rings v := fun v hv =>
      hdone.others v (by have := (List.mem_range'_1.mp hv).1; omega)
    refine ⟨k + k' + 1, u, ?_, hupass, ?_, fun v => ⟨(hurings v).1.trans (hdone.pushes v), ?_⟩⟩
    · refine exec_advance hpass (by rw [advance, if_pos hw]) ?_
      rw [List.replicate_add, Run.exec_append]
      exact ⟨t, hrun, hrun'⟩
    · -- the workers behind `w` still have the rings they had
      have hitems : (List.range' (w + 1) m).flatMap (fun v => drainRing lane p.now (t.rings v)) =
          (List.range' (w + 1) m).flatMap fun v => drainRing lane p.now (s.rings v) :=
        List.flatMap_congr fun v hv => by rw [hothers v hv]
      have hdrops : (List.range' (w + 1) m).foldl
          (fun total v => addW 64 total (t.rings v).shared.dropped)
            (addW 64 p.dropped (s.rings w).shared.dropped) =
          (List.range' (w + 1) m).foldl
            (fun total v => addW 64 total (s.rings v).shared.dropped)
            (addW 64 p.dropped (s.rings w).shared.dropped) :=
        List.foldl_ext _ _ _ fun total v hv => by rw [hothers v hv]
      rw [hubatches, hdone.batches, hitems, hdrops, List.range'_succ]
      simp [drainRing]
    · rw [(hurings v).2]
      by_cases hv : v = w
      · rw [hv, if_neg (by omega), if_pos ⟨le_rfl, hw⟩, hdone.queue]
        rfl
      · rw [hdone.others v hv]
        by_cases hlater : w + 1 ≤ v ∧ v < lane.workers
        · rw [if_pos hlater, if_pos ⟨by omega, hlater.2⟩]
        · rw [if_neg hlater, if_neg (by omega)]

/-- **A pass that nobody interrupts ends, and is one call of `collectRecords`**, from every state
that workers and earlier passes leave: it takes up to `limit` records of each ring, in order, leaves
the rest there, and reports the sum of the drop counts. -/
theorem pass_alone (hcap : 0 < lane.cap) {acts : List Act}
    (hshort : ∀ w record, .push w record ∈ acts → record.length < 2 ^ 32)
    (h : Run.exec (step lane) .start acts = some s) (hcounted : s.Counted lane.workers)
    (hidle : s.pass = none) (now : UInt64) :
    ∃ k t, Run.exec (step lane) s (.begin now :: List.replicate k .advance) = some t ∧
      t.pass = none ∧
      t.batches = s.batches ++ [⟨now, (collectRecords lane now s.rings).1,
        (collectRecords lane now s.rings).2, s.refusals 0 lane.workers⟩] ∧
      ∀ w < lane.workers, (t.rings w).pushes = (s.rings w).pushes ∧
        (t.rings w).queue = (s.rings w).queue.drop lane.limit := by
  have hs := exec_inv hcap hshort h hcounted
  have hquiet : Quiet lane s := by
    refine ⟨hs.rings, fun w hw => ?_, hcounted.1⟩
    rw [← Option.not_isSome_iff_eq_none, hs.calls w hw, hidle]
    exact fun hcall => by cases hcall
  obtain ⟨k, t, hrun, hpass, hbatches, hrings⟩ :=
    workers_alone hcap lane.workers (Nat.zero_add _)
      (s := { s with pass := some (.entering 0, ⟨now, [], 0, s.refusals 0 lane.workers⟩) })
      ⟨hquiet.inv, hquiet.idle, hquiet.counted⟩ rfl
  refine ⟨k, t, ?_, hpass, ?_, fun w hw => ⟨(hrings w).1, ?_⟩⟩
  · rw [Run.exec_cons]
    exact ⟨_, by rw [step, hidle], hrun⟩
  · rw [hbatches]
    simp [collectRecords, List.range_eq_range']
  · rw [(hrings w).2, if_pos ⟨Nat.zero_le w, hw⟩]

/-- Worker 0 has two records in its ring and one refused, worker 1 has one and is inside a push. -/
def loadedRun : List Act :=
  wholePush 0 [1, 2] 9 ++ wholePush 0 [3, 4] 9 ++ wholePush 0 [5, 6] 3 ++ wholePush 1 [7] 8 ++
    wholePush 1 [8] 4

theorem loadedRun_ends :
    (Run.exec (step smallLane) State.start loadedRun).map (fun s =>
      (collectRecords smallLane 9 s.rings, (s.rings 0).queue.drop 1, s.batches.length,
        s.pass.isNone && decide (s.Counted 2))) =
      some (([[1, 2], [7]], 1), [[3, 4]], 0, true) := by
  decide +kernel

theorem pass_alone_loadedRun :
    ∃ s k t, Run.exec (step smallLane) State.start loadedRun = some s ∧
      Run.exec (step smallLane) s (.begin 9 :: List.replicate k .advance) = some t ∧
      t.pass = none ∧ t.batches.map (fun p => (p.items, p.dropped)) = [([[1, 2], [7]], 1)] ∧
      (t.rings 0).queue = [[3, 4]] := by
  obtain ⟨s, hrun, hends⟩ := Option.map_eq_some_iff.mp loadedRun_ends
  simp only [Prod.mk.injEq, Bool.and_eq_true, decide_eq_true_eq] at hends
  obtain ⟨hcollected, hleft, hnone, hidle, hcounted⟩ := hends
  have hshort : ∀ w record, .push w record ∈ loadedRun → record.length < 2 ^ 32 := by
    intro w record hmem
    simp [loadedRun, wholePush] at hmem
    rcases hmem with ⟨-, rfl⟩ | ⟨-, rfl⟩ | ⟨-, rfl⟩ | ⟨-, rfl⟩ | ⟨-, rfl⟩ <;> decide
  obtain ⟨k, t, hpassed, hpass, hbatches, hrings⟩ := pass_alone (by decide) hshort hrun hcounted
    (Option.isNone_iff_eq_none.mp hidle) 9
  refine ⟨s, k, t, hrun, hpassed, hpass, ?_, (hrings 0 (by decide)).2.trans hleft⟩
  rw [hbatches, List.eq_nil_of_length_eq_zero hnone, hcollected]
  rfl

end Alone

end TailLane

end NgxOtel.Drain
