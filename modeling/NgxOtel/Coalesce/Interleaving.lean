import NgxOtel.Coalesce.Table
import NgxOtel.Lib.Run

/-!
# The coalescer, access by access

`coalesce` and `drain_coalesce_table` of `logs/coalesce.rs` as the sequences of atomic accesses
that they make to a shared table.  One writer runs `coalesce` calls, one drainer runs
`drain_coalesce_table` calls, and a run is any interleaving of their accesses, which are taken as
sequentially consistent.

## Model

* `Writer`, `Drainer` — the access that comes next, with the locals of the call.
* `Race` — the table, where both sides stand, what their calls have returned, and a ledger per
  slot: how many calls have written its count, how much of it has been swapped out, and the
  severity of the call that last inserted into it.
* `raceStep` — one move: a call begins, or the writer or the drainer makes its next access.

## Results

* `exec_call` — a `coalesce` call whose accesses nothing interrupts does what `coalesce` says.
* `exec_sweep` — the same for `drainCoalesceTable`.
-/

set_option autoImplicit false

namespace NgxOtel.Coalesce

open Word LinearProbe

/-! ## Where the two sides stand -/

/-- The key and the severity of a call that uses the table. -/
structure Template where
  key : UInt64
  severity : UInt8
  key_ne_zero : key ≠ 0
  deriving DecidableEq

/-- The template of a line. -/
def Template.ofLine (severity : UInt8) (buf : Bytes) : Template :=
  ⟨coalesceKey severity (stableCore buf), severity, coalesceKey_ne_zero severity (stableCore buf)⟩

/-- The next access of the writer. -/
inductive Writer where
  | idle
  /-- The head of the probe loop. -/
  | loadKey (t : Template) (probe : Fin COALESCE_CAPACITY) (probes : Nat)
  /-- The key matched. -/
  | loadSeverity (t : Template) (probe : Fin COALESCE_CAPACITY) (probes : Nat)
  /-- An existing entry: three accesses, the last one only without an emitted sample. -/
  | loadSample (t : Template) (probe : Fin COALESCE_CAPACITY)
  | addCount (t : Template) (probe : Fin COALESCE_CAPACITY) (alreadyEmitted : Bool)
  | resample (t : Template) (probe : Fin COALESCE_CAPACITY)
  /-- A novel template: four stores. -/
  | storeKey (t : Template) (probe : Fin COALESCE_CAPACITY)
  | storeSeverity (t : Template) (probe : Fin COALESCE_CAPACITY)
  | storeCount (t : Template) (probe : Fin COALESCE_CAPACITY)
  | storeSample (t : Template) (probe : Fin COALESCE_CAPACITY)
  deriving DecidableEq

/-- What the drain reports of a slot: `(key_hash, severity, count)`. -/
abbrev Tuple := UInt64 × UInt8 × Nat

/-- The next access of the drainer to the slot that it visits. -/
inductive Visit where
  | loadKey
  | swapCount
  | reloadKey (count : Nat)
  | loadSeverity (keyHash : UInt64) (count : Nat)
  | clearKey (tuple : Tuple)
  | clearSeverity (tuple : Tuple)
  | clearSample (tuple : Tuple)
  deriving DecidableEq

/-- The loop of `drain_coalesce_table`, with its local `out`. -/
inductive Drainer where
  | idle
  | visiting (i : Fin COALESCE_CAPACITY) (visit : Visit) (out : List Tuple)
  deriving DecidableEq

/-- A table shared by a writer and a drainer. -/
structure Race where
  table : Table
  writer : Writer
  drainer : Drainer
  /-- What the finished `coalesce` calls have returned. -/
  results : List CoalesceResult
  /-- What the finished `drain_coalesce_table` calls have returned. -/
  returned : List (List Tuple)
  /-- The `drain_coalesce_table` calls that have begun. -/
  drains : Nat
  /-- The calls that have written the count of a slot. -/
  writes : Fin COALESCE_CAPACITY → Nat
  /-- The sum of the counts that have been swapped out of a slot. -/
  reported : Fin COALESCE_CAPACITY → Nat
  /-- The severity of the call that last stored a key in a slot. -/
  inserter : Fin COALESCE_CAPACITY → UInt8

/-- A zeroed table, before any call. -/
def Race.start : Race := ⟨zeroedTable, .idle, .idle, [], [], 0, fun _ => 0, fun _ => 0, fun _ => 0⟩

/-- One more entry of `n` in the ledger of a slot. -/
def credit (ledger : Fin COALESCE_CAPACITY → Nat) (i : Fin COALESCE_CAPACITY) (n : Nat) :
    Fin COALESCE_CAPACITY → Nat :=
  Function.update ledger i (ledger i + n)

/-- A store to one slot. -/
def Race.modify (s : Race) (i : Fin COALESCE_CAPACITY) (f : CoalesceSlot → CoalesceSlot) : Race :=
  { s with table := Function.update s.table i (f (s.table i)) }

/-! ## The writer -/

/-- A `coalesce` call returns. -/
def Race.giveBack (s : Race) (r : CoalesceResult) : Race :=
  { s with writer := .idle, results := s.results ++ [r] }

/-- The part of `coalesce` before the loop. -/
def Race.beginCall (s : Race) (severity : UInt8) (buf : Bytes) (coalesceEnabled : Bool) : Race :=
  if !coalesceEnabled then s.giveBack (.emitVerbatim 0)
  else if severity ≤ HIGH_SEVERITY_THRESHOLD then s.giveBack (.emitVerbatim 0)
  else
    let t := Template.ofLine severity buf
    { s with writer := .loadKey t (startSlot t.key) 0 }

/-- The end of the loop's body: advance the probe, or give up on a full table. -/
def Race.collide (s : Race) (t : Template) (probe : Fin COALESCE_CAPACITY) (probes : Nat) : Race :=
  let probe := walk probe 1
  let probes := probes + 1
  if probes ≥ COALESCE_CAPACITY then s.giveBack (.emitVerbatim 0)
  else if probe = startSlot t.key then s.giveBack (.emitVerbatim 0)
  else { s with writer := .loadKey t probe probes }

/-- The writer's next access. -/
def writeStep (s : Race) : Option Race :=
  match s.writer with
  | .idle => none
  | .loadKey t probe probes =>
    let slotKey := (s.table probe).keyHash
    if slotKey = 0 then some { s with writer := .storeKey t probe }
    else if slotKey = t.key then some { s with writer := .loadSeverity t probe probes }
    else some (s.collide t probe probes)
  | .loadSeverity t probe probes =>
    if (s.table probe).severity = t.severity then some { s with writer := .loadSample t probe }
    else some (s.collide t probe probes)
  | .loadSample t probe =>
    some { s with writer := .addCount t probe (s.table probe).sampleEmitted }
  | .addCount t probe alreadyEmitted =>
    let s := { s.modify probe (fun slot => { slot with count := addW 32 slot.count 1 }) with
      writes := credit s.writes probe 1 }
    some (if alreadyEmitted then s.giveBack .coalesced else { s with writer := .resample t probe })
  | .resample t probe =>
    some ((s.modify probe fun slot => { slot with sampleEmitted := true }).giveBack
      (.emitVerbatim t.key))
  | .storeKey t probe =>
    some { s.modify probe (fun slot => { slot with keyHash := t.key }) with
      writer := .storeSeverity t probe
      inserter := Function.update s.inserter probe t.severity }
  | .storeSeverity t probe =>
    some { s.modify probe (fun slot => { slot with severity := t.severity }) with
      writer := .storeCount t probe }
  | .storeCount t probe =>
    some { s.modify probe (fun slot => { slot with count := 1 }) with
      writer := .storeSample t probe
      writes := credit s.writes probe 1 }
  | .storeSample t probe =>
    some ((s.modify probe fun slot => { slot with sampleEmitted := true }).giveBack
      (.emitVerbatim t.key))

/-! ## The drainer -/

/-- The next turn of the loop over the slots, or the end of the call. -/
def Race.leaveSlot (s : Race) (i : Fin COALESCE_CAPACITY) (out : List Tuple) : Race :=
  if h : i.val + 1 < COALESCE_CAPACITY then
    { s with drainer := .visiting ⟨i.val + 1, h⟩ .loadKey out }
  else { s with drainer := .idle, returned := s.returned ++ [out] }

/-- Where the loop over the slots begins. -/
def firstSlot : Fin COALESCE_CAPACITY := ⟨0, by decide⟩

/-- `if count > 0 { out.push(..) }`. -/
def pushTuple (out : List Tuple) (tuple : Tuple) : List Tuple :=
  if tuple.2.2 > 0 then out ++ [tuple] else out

/-- The drainer's next access to slot `i`. -/
def Race.visitStep (s : Race) (i : Fin COALESCE_CAPACITY) (out : List Tuple) : Visit → Race
  | .loadKey =>
    if (s.table i).keyHash = 0 then s.leaveSlot i out
    else { s with drainer := .visiting i .swapCount out }
  | .swapCount =>
    { s.modify i (fun slot => { slot with count := 0 }) with
      drainer := .visiting i (.reloadKey (s.table i).count) out
      reported := credit s.reported i (s.table i).count }
  | .reloadKey count =>
    { s with drainer := .visiting i (.loadSeverity (s.table i).keyHash count) out }
  | .loadSeverity keyHash count =>
    { s with drainer := .visiting i (.clearKey (keyHash, (s.table i).severity, count)) out }
  | .clearKey tuple =>
    { s.modify i (fun slot => { slot with keyHash := 0 }) with
      drainer := .visiting i (.clearSeverity tuple) out }
  | .clearSeverity tuple =>
    { s.modify i (fun slot => { slot with severity := 0 }) with
      drainer := .visiting i (.clearSample tuple) out }
  | .clearSample tuple =>
    (s.modify i fun slot => { slot with sampleEmitted := false }).leaveSlot i (pushTuple out tuple)

/-- The drainer's next access. -/
def sweepStep (s : Race) : Option Race :=
  match s.drainer with
  | .idle => none
  | .visiting i visit out => some (s.visitStep i out visit)

/-! ## Runs -/

/-- A move of one of the two sides. -/
inductive Move where
  /-- The writer calls `coalesce`. -/
  | call (severity : UInt8) (buf : Bytes) (coalesceEnabled : Bool)
  /-- The writer makes its next access. -/
  | write
  /-- The drainer calls `drain_coalesce_table`. -/
  | drain
  /-- The drainer makes its next access. -/
  | sweep

/-- One move; a side that is in a call does not begin another one. -/
def raceStep (s : Race) : Move → Option Race
  | .call severity buf coalesceEnabled =>
    if s.writer = .idle then some (s.beginCall severity buf coalesceEnabled) else none
  | .write => writeStep s
  | .drain =>
    if s.drainer = .idle then
      some { s with
        drainer := .visiting firstSlot .loadKey []
        drains := s.drains + 1 }
    else none
  | .sweep => sweepStep s

/-! ## A call that nothing interrupts -/

/-- The `coalesce` calls since `s` have ended, and the drainer has not moved. -/
structure CallsEnded (s : Race) (results : List CoalesceResult) (table : Table) (s' : Race) :
    Prop where
  table : s'.table = table
  results : s'.results = s.results ++ results
  writer : s'.writer = .idle
  drainer : s'.drainer = s.drainer
  returned : s'.returned = s.returned
  drains : s'.drains = s.drains

/-- One call since `s` has ended with `r`. -/
abbrev CallEnded (s : Race) (r : CoalesceResult × Table) (s' : Race) : Prop :=
  CallsEnded s [r.1] r.2 s'

theorem CallsEnded.trans {s u s' : Race} {rs rs' : List CoalesceResult} {table table' : Table}
    (h : CallsEnded s rs table u) (h' : CallsEnded u rs' table' s') :
    CallsEnded s (rs ++ rs') table' s' where
  table := h'.table
  results := by rw [h'.results, h.results, List.append_assoc]
  writer := h'.writer
  drainer := h'.drainer.trans h.drainer
  returned := h'.returned.trans h.returned
  drains := h'.drains.trans h.drains

/-- One more move of the same kind in front of a run. -/
theorem exec_replicate_succ {s u s' : Race} {a : Move} {k : Nat} (hstep : raceStep s a = some u)
    (hrest : Run.exec raceStep u (List.replicate k a) = some s') :
    Run.exec raceStep s (List.replicate (k + 1) a) = some s' :=
  Run.exec_cons.mpr ⟨u, hstep, hrest⟩

/-- After a collision the writer goes on with the loop, or has given up. -/
theorem exec_collide {s : Race} {t : Template} {probe : Fin COALESCE_CAPACITY} {fuel probes : Nat}
    (hloop : probes + 1 < COALESCE_CAPACITY →
      ∃ k s', Run.exec raceStep { s with writer := .loadKey t (walk probe 1) (probes + 1) }
          (List.replicate k .write) = some s' ∧
        CallEnded s (probeLoop s.table t.severity t.key fuel (walk probe 1) (probes + 1)) s') :
    ∃ k s', Run.exec raceStep (s.collide t probe probes) (List.replicate k .write) = some s' ∧
      CallEnded s
        (if probes + 1 ≥ COALESCE_CAPACITY then (.emitVerbatim 0, s.table)
        else if walk probe 1 = startSlot t.key then (.emitVerbatim 0, s.table)
        else probeLoop s.table t.severity t.key fuel (walk probe 1) (probes + 1)) s' := by
  unfold Race.collide
  by_cases hturn : probes + 1 ≥ COALESCE_CAPACITY
  · simp only [if_pos hturn]
    exact ⟨0, s.giveBack (.emitVerbatim 0), rfl, rfl, rfl, rfl, rfl, rfl, rfl⟩
  · simp only [if_neg hturn]
    by_cases hstart : walk probe 1 = startSlot t.key
    · simp only [if_pos hstart]
      exact ⟨0, s.giveBack (.emitVerbatim 0), rfl, rfl, rfl, rfl, rfl, rfl, rfl⟩
    · simp only [if_neg hstart]
      exact hloop (by omega)

/-- One turn of the loop, given the turns after it. -/
theorem exec_probe {s : Race} {t : Template} {probe : Fin COALESCE_CAPACITY} {fuel probes : Nat}
    (hw : s.writer = .loadKey t probe probes)
    (hloop : probes + 1 < COALESCE_CAPACITY →
      ∃ k s', Run.exec raceStep { s with writer := .loadKey t (walk probe 1) (probes + 1) }
          (List.replicate k .write) = some s' ∧
        CallEnded s (probeLoop s.table t.severity t.key fuel (walk probe 1) (probes + 1)) s') :
    ∃ k s', Run.exec raceStep s (List.replicate k .write) = some s' ∧
      CallEnded s (probeLoop s.table t.severity t.key (fuel + 1) probe probes) s' := by
  unfold probeLoop
  by_cases hempty : (s.table probe).keyHash = 0
  · -- a novel template: the load and four stores
    simp only [if_pos hempty]
    refine ⟨5, _, by simp [List.replicate, Run.exec, raceStep, writeStep, hw, hempty]; rfl, ?_⟩
    refine ⟨?_, rfl, rfl, rfl, rfl, rfl⟩
    simp [Race.giveBack, Race.modify, novelSlot]
  · by_cases hkey : (s.table probe).keyHash = t.key
    · have hmatch : raceStep s .write = some { s with writer := .loadSeverity t probe probes } := by
        simp [raceStep, writeStep, hw, hkey, t.key_ne_zero]
      by_cases hsev : (s.table probe).severity = t.severity
      · -- an existing entry: three loads and the addition, and the store of a missing sample
        simp only [if_neg hempty, if_pos (And.intro hkey hsev)]
        cases hsample : (s.table probe).sampleEmitted with
        | true =>
          refine ⟨4, _, exec_replicate_succ hmatch (by
            simp [List.replicate, Run.exec, raceStep, writeStep, hsev, hsample]; rfl), ?_⟩
          refine ⟨?_, rfl, rfl, rfl, rfl, rfl⟩
          simp [Race.giveBack, Race.modify, bumpedSlot, hsample]
        | false =>
          refine ⟨5, _, exec_replicate_succ hmatch (by
            simp [List.replicate, Run.exec, raceStep, writeStep, hsev, hsample]; rfl), ?_⟩
          refine ⟨?_, rfl, rfl, rfl, rfl, rfl⟩
          simp [Race.giveBack, Race.modify, bumpedSlot]
      · obtain ⟨k, s', hexec, hended⟩ := exec_collide hloop
        simp only [if_neg hempty, if_neg fun h => hsev (And.right h)]
        refine ⟨k + 2, s', exec_replicate_succ hmatch (exec_replicate_succ ?_ hexec), hended⟩
        simp only [raceStep, writeStep, if_neg hsev]
        rfl
    · obtain ⟨k, s', hexec, hended⟩ := exec_collide hloop
      simp only [if_neg hempty, if_neg fun h => hkey (And.left h)]
      refine ⟨k + 1, s', exec_replicate_succ ?_ hexec, hended⟩
      simp [raceStep, writeStep, hw, hempty, hkey]

/-- The writer alone runs the probe loop. -/
theorem exec_probeLoop {t : Template} {fuel probes : Nat} {probe : Fin COALESCE_CAPACITY}
    {s : Race} (hfuel : fuel + 1 + probes = COALESCE_CAPACITY)
    (hw : s.writer = .loadKey t probe probes) :
    ∃ k s', Run.exec raceStep s (List.replicate k .write) = some s' ∧
      CallEnded s (probeLoop s.table t.severity t.key (fuel + 1) probe probes) s' := by
  induction fuel generalizing s probe probes with
  | zero => exact exec_probe hw fun hturn => by omega
  | succ fuel ih =>
    refine exec_probe hw fun _ => ?_
    obtain ⟨k, s', hexec, hended⟩ := ih
      (s := { s with writer := .loadKey t (walk probe 1) (probes + 1) }) (by omega) rfl
    exact ⟨k, s', hexec, hended.table, hended.results, hended.writer, hended.drainer,
      hended.returned, hended.drains⟩

/-- **A `coalesce` call that nothing interrupts** returns what `coalesce` returns and leaves its
table. -/
theorem exec_call {s : Race} (hidle : s.writer = .idle) (severity : UInt8) (buf : Bytes)
    (coalesceEnabled : Bool) :
    ∃ k s', Run.exec raceStep s
        (.call severity buf coalesceEnabled :: List.replicate k .write) = some s' ∧
      CallEnded s (coalesce s.table severity buf coalesceEnabled) s' := by
  have hbegin : raceStep s (.call severity buf coalesceEnabled) =
      some (s.beginCall severity buf coalesceEnabled) := by
    simp only [raceStep, if_pos hidle]
  by_cases huses : coalesceEnabled = true ∧ ¬severity ≤ HIGH_SEVERITY_THRESHOLD
  · obtain ⟨rfl, hsev⟩ := huses
    let t := Template.ofLine severity buf
    obtain ⟨k, s', hexec, hended⟩ := exec_probeLoop
      (s := { s with writer := .loadKey t (startSlot t.key) 0 })
      (show 255 + 1 + 0 = COALESCE_CAPACITY from rfl) rfl
    refine ⟨k, s', Run.exec_cons.mpr ⟨_, hbegin, ?_⟩, ?_⟩
    · simpa [Race.beginCall, hsev] using hexec
    · have hcall : coalesce s.table severity buf true =
          probeLoop s.table t.severity t.key COALESCE_CAPACITY (startSlot t.key) 0 := by
        simp only [coalesce, Bool.not_true, Bool.false_eq_true, if_false, if_neg hsev]
        rfl
      rw [hcall]
      exact ⟨hended.table, hended.results, hended.writer, hended.drainer, hended.returned,
        hended.drains⟩
  · have hreturn : s.beginCall severity buf coalesceEnabled = s.giveBack (.emitVerbatim 0) ∧
        coalesce s.table severity buf coalesceEnabled = (.emitVerbatim 0, s.table) := by
      unfold Race.beginCall coalesce
      cases coalesceEnabled with
      | false => exact ⟨rfl, rfl⟩
      | true =>
        have hsev : severity ≤ HIGH_SEVERITY_THRESHOLD := by simpa using huses
        simp [hsev]
    rw [hreturn.2]
    refine ⟨0, s.giveBack (.emitVerbatim 0), Run.exec_cons.mpr ⟨_, hbegin, ?_⟩, ?_⟩
    · rw [hreturn.1]
      rfl
    · exact ⟨rfl, rfl, rfl, rfl, rfl, rfl⟩

/-! ## A sweep that nothing interrupts -/

/-- A sweep has gone on from `s` to its end, and the writer has not moved. -/
structure SweepEnded (s : Race) (tuples : List Tuple) (table : Table) (s' : Race) : Prop where
  table : s'.table = table
  returned : s'.returned = s.returned ++ [tuples]
  drainer : s'.drainer = .idle
  writer : s'.writer = s.writer
  results : s'.results = s.results
  drains : s'.drains = s.drains

/-- The tuples of the slots from `k` on. -/
def tuplesFrom (k : Nat) (table : Table) : List Tuple :=
  ((List.finRange COALESCE_CAPACITY).drop k).filterMap fun i => (drainSlot (table i)).1

/-- The table with the slots from `k` on swept. -/
def sweptFrom (k : Nat) (table : Table) : Table :=
  fun i => if k ≤ i.val then (drainSlot (table i)).2 else table i

/-- The drainer finds a key and swaps the count out. -/
theorem exec_open {s : Race} {i : Fin COALESCE_CAPACITY} {out : List Tuple}
    (hd : s.drainer = .visiting i .loadKey out) (hkey : (s.table i).keyHash ≠ 0) :
    Run.exec raceStep s (List.replicate 2 .sweep) =
      some { s.modify i (fun slot => { slot with count := 0 }) with
        drainer := .visiting i (.reloadKey (s.table i).count) out
        reported := credit s.reported i (s.table i).count } := by
  simp [List.replicate, Run.exec, raceStep, sweepStep, Race.visitStep, hd, hkey, Race.modify]

/-- The drainer reads the template, evicts it and goes on to the next slot. -/
theorem exec_evict {s : Race} {i : Fin COALESCE_CAPACITY} {count : Nat} {out : List Tuple}
    (hd : s.drainer = .visiting i (.reloadKey count) out) :
    Run.exec raceStep s (List.replicate 5 .sweep) =
      some ((s.modify i fun slot => ⟨0, 0, slot.count, false⟩).leaveSlot i
        (pushTuple out ((s.table i).keyHash, (s.table i).severity, count))) := by
  simp [List.replicate, Run.exec, raceStep, sweepStep, Race.visitStep, hd, Race.modify]
  rfl

/-- The drainer alone visits one slot. -/
theorem exec_visit {s : Race} {i : Fin COALESCE_CAPACITY} {out : List Tuple}
    (hd : s.drainer = .visiting i .loadKey out) :
    ∃ (k : Nat) (u : Race), Run.exec raceStep s (List.replicate k .sweep) =
        some (u.leaveSlot i (out ++ (drainSlot (s.table i)).1.toList)) ∧
      u.table = Function.update s.table i (drainSlot (s.table i)).2 ∧
      u.returned = s.returned ∧ u.writer = s.writer ∧ u.results = s.results ∧
      u.drains = s.drains := by
  unfold drainSlot
  by_cases hempty : (s.table i).keyHash = 0
  · refine ⟨1, s, ?_, ?_, rfl, rfl, rfl, rfl⟩
    · simp [Run.exec, raceStep, sweepStep, Race.visitStep, hd, hempty]
    · simp [hempty]
  · have hpush : pushTuple out ((s.table i).keyHash, (s.table i).severity, (s.table i).count) =
        out ++ (if (s.table i).count > 0 then
          some ((s.table i).keyHash, (s.table i).severity, (s.table i).count) else none).toList := by
      unfold pushTuple
      split <;> simp
    simp only [if_neg hempty, ← hpush]
    have hvisit := Run.exec_append.mpr ⟨_, exec_open hd hempty, exec_evict rfl⟩
    rw [← List.replicate_add] at hvisit
    refine ⟨7, _, hvisit.trans (by simp [Race.modify]; rfl), ?_⟩
    simp [CoalesceSlot.zeroed]

/-- The tuples of the slots from `i` on, after the visit to slot `i`. -/
theorem tuplesFrom_visit (i : Fin COALESCE_CAPACITY) (table : Table) (slot : CoalesceSlot) :
    (drainSlot (table i)).1.toList ++ tuplesFrom (i + 1) (Function.update table i slot) =
      tuplesFrom i table := by
  have hlength : i.val < (List.finRange COALESCE_CAPACITY).length := by simp
  -- the slots after `i` do not see what the visit does to slot `i`
  have hrest : tuplesFrom (i + 1) (Function.update table i slot) = tuplesFrom (i + 1) table := by
    unfold tuplesFrom
    apply List.filterMap_congr
    intro j hj
    obtain ⟨m, hm, rfl⟩ := List.mem_drop_iff_getElem.mp hj
    have hne : (List.finRange COALESCE_CAPACITY)[i + 1 + m] ≠ i := by
      intro h
      have hval := congrArg Fin.val h
      simp only [List.getElem_finRange, Fin.val_cast] at hval
      omega
    rw [Function.update_of_ne hne]
  rw [hrest]
  unfold tuplesFrom
  rw [List.drop_eq_getElem_cons hlength, List.filterMap_cons]
  cases h : (drainSlot (table i)).1 <;> simp [h]

/-- The table swept from slot `i` on, after the visit to slot `i`. -/
theorem sweptFrom_visit (i : Fin COALESCE_CAPACITY) (table : Table) :
    sweptFrom (i + 1) (Function.update table i (drainSlot (table i)).2) = sweptFrom i table := by
  funext j
  unfold sweptFrom
  by_cases hj : j = i
  · subst hj
    simp
  · have hiff : i.val + 1 ≤ j.val ↔ i.val ≤ j.val := by
      have hne := Fin.val_ne_of_ne hj
      omega
    simp only [Function.update_of_ne hj, hiff]

theorem tuplesFrom_capacity (table : Table) : tuplesFrom COALESCE_CAPACITY table = [] := by
  unfold tuplesFrom
  rw [List.drop_of_length_le (by simp)]
  rfl

theorem sweptFrom_capacity (table : Table) : sweptFrom COALESCE_CAPACITY table = table := by
  funext i
  exact if_neg (Nat.not_le.mpr i.isLt)

/-- The drainer alone sweeps the slots from `i` on. -/
theorem exec_sweepFrom {n : Nat} {s : Race} {i : Fin COALESCE_CAPACITY} {out : List Tuple}
    (hn : i.val + 1 + n = COALESCE_CAPACITY) (hd : s.drainer = .visiting i .loadKey out) :
    ∃ k s', Run.exec raceStep s (List.replicate k .sweep) = some s' ∧
      SweepEnded s (out ++ tuplesFrom i s.table) (sweptFrom i s.table) s' := by
  induction n generalizing s i out with
  | zero =>
    obtain ⟨k, u, hvisit, htable, hreturned, hwriter, hresults, hdrains⟩ := exec_visit hd
    have hend : i.val + 1 = COALESCE_CAPACITY := hn
    rw [Race.leaveSlot, dif_neg (by omega)] at hvisit
    refine ⟨k, _, hvisit, ?_, ?_, rfl, hwriter, hresults, hdrains⟩
    · show u.table = _
      rw [← sweptFrom_visit, hend, sweptFrom_capacity, htable]
    · show u.returned ++ _ = _
      rw [← tuplesFrom_visit i s.table .zeroed, hend, tuplesFrom_capacity, List.append_nil,
        hreturned]
  | succ n ih =>
    obtain ⟨k, u, hvisit, htable, hreturned, hwriter, hresults, hdrains⟩ := exec_visit hd
    have hnext : i.val + 1 < COALESCE_CAPACITY := by omega
    rw [Race.leaveSlot, dif_pos hnext] at hvisit
    obtain ⟨m, s', hrest, hended⟩ := ih
      (s := { u with
        drainer := .visiting ⟨i.val + 1, hnext⟩ .loadKey (out ++ (drainSlot (s.table i)).1.toList) })
      (show i.val + 1 + 1 + n = COALESCE_CAPACITY by omega) rfl
    refine ⟨k + m, s', ?_, ?_, ?_, hended.drainer, hended.writer.trans hwriter,
      hended.results.trans hresults, hended.drains.trans hdrains⟩
    · rw [List.replicate_add]
      exact Run.exec_append.mpr ⟨_, hvisit, hrest⟩
    · rw [← sweptFrom_visit, ← htable]
      exact hended.table
    · rw [← tuplesFrom_visit i s.table (drainSlot (s.table i)).2, ← htable, ← hreturned,
        ← List.append_assoc]
      exact hended.returned

/-- **A `drain_coalesce_table` call that nothing interrupts** returns what `drainCoalesceTable`
returns and leaves its table. -/
theorem exec_sweep {s : Race} (hidle : s.drainer = .idle) :
    ∃ k s', Run.exec raceStep s (.drain :: List.replicate k .sweep) = some s' ∧
      SweepEnded { s with drains := s.drains + 1 } (drainCoalesceTable s.table).1
        (drainCoalesceTable s.table).2 s' := by
  obtain ⟨k, s', hexec, hended⟩ := exec_sweepFrom
    (s := { s with drainer := .visiting firstSlot .loadKey [], drains := s.drains + 1 })
    (show 0 + 1 + 255 = COALESCE_CAPACITY from rfl) rfl
  refine ⟨k, s', Run.exec_cons.mpr ⟨_, by simp only [raceStep, if_pos hidle], hexec⟩, ?_⟩
  have htuples : tuplesFrom 0 s.table = (drainCoalesceTable s.table).1 := rfl
  have hswept : sweptFrom 0 s.table = (drainCoalesceTable s.table).2 := by
    funext i
    exact if_pos (Nat.zero_le _)
  rw [← htuples, ← hswept]
  exact ⟨hended.table, hended.returned, hended.drainer, hended.writer, hended.results,
    hended.drains⟩

end NgxOtel.Coalesce
