import NgxOtel.Coalesce.SlotView
import Mathlib.Algebra.BigOperators.Fin
import Mathlib.Algebra.Order.BigOperators.Group.Finset

/-!
# A sweep that races with the writer

The comment of `drain_coalesce_table` bounds what a race with the writer loses to one observation
per slot.  The bound holds as long as the writer counts at most once in a slot between its swap and
its clear, and an insertion does not overtake the clears of the same visit.

## Results

* `Accounts.step` — the ledgers of the slots add up to what the calls of both sides have returned.
* `coalesce_race` — **in a run without a late count and without a late clear, at most one call per
  slot and drain call is lost, and every finished insertion keeps its severity and sample flag.**
* `lost_calls` — **a sweep during which the writer goes on counting loses all that it counts.**
* `late_moves_break_bounds` — neither half of the first result holds of every run.
-/

set_option autoImplicit false

namespace NgxOtel.Coalesce

open Word LinearProbe

/-! ## The whole table -/

/-- The count that the drainer has swapped out of the slot it visits. -/
def Visit.inHand : Visit → Nat
  | .loadKey | .swapCount => 0
  | .reloadKey count | .loadSeverity _ count => count
  | .clearKey tuple | .clearSeverity tuple | .clearSample tuple => tuple.2.2

/-- The sum of the counts of some tuples. -/
def tupleCounts (tuples : List Tuple) : Nat := (tuples.map fun tuple => tuple.2.2).sum

/-- What the drain call in progress will return. -/
def Drainer.inHand : Drainer → Nat
  | .idle => 0
  | .visiting _ visit out => tupleCounts out + visit.inHand

/-- The calls counted in a returned tuple, or in one that the drain call in progress returns. -/
def Race.collected (s : Race) : Nat := tupleCounts s.returned.flatten + s.drainer.inHand

/-- The calls still counted in slot `i`, while it is occupied. -/
def Race.held (s : Race) (i : Fin COALESCE_CAPACITY) : Nat :=
  if (s.table i).keyHash = 0 then 0 else (s.table i).count

/-- The calls that have returned and that the coalescer has given a slot. -/
def Race.tracked (s : Race) : Nat := s.results.countP (· ≠ .emitVerbatim 0)

/-- The writer has counted its call, which has not yet returned. -/
def Writer.counted : Writer → Nat
  | .resample .. | .storeSample .. => 1
  | _ => 0

/-- The ledgers of the slots add up to what the calls have returned. -/
structure Accounts (s : Race) : Prop where
  reported : ∑ i, s.reported i = s.collected
  writes : ∑ i, s.writes i = s.tracked + s.writer.counted

theorem sum_credit (ledger : Fin COALESCE_CAPACITY → Nat) (i : Fin COALESCE_CAPACITY) (n : Nat) :
    ∑ j, credit ledger i n j = (∑ j, ledger j) + n := by
  unfold credit
  rw [Finset.sum_update_of_mem (Finset.mem_univ i), Finset.sdiff_singleton_eq_erase,
    ← Finset.add_sum_erase Finset.univ ledger (Finset.mem_univ i)]
  omega

theorem tupleCounts_append (as bs : List Tuple) :
    tupleCounts (as ++ bs) = tupleCounts as + tupleCounts bs := by
  simp [tupleCounts]

theorem tupleCounts_pushTuple (out : List Tuple) (tuple : Tuple) :
    tupleCounts (pushTuple out tuple) = tupleCounts out + tuple.2.2 := by
  unfold pushTuple
  split
  · simp [tupleCounts]
  · omega

theorem tracked_giveBack (s : Race) (r : CoalesceResult) :
    (s.giveBack r).tracked = s.tracked + if r = .emitVerbatim 0 then 0 else 1 := by
  simp [Race.tracked, Race.giveBack, List.countP_append, List.countP_cons]

/-- A call returns that has not counted. -/
theorem Accounts.giveBackUntracked {s : Race} (h : Accounts s) (hw : s.writer.counted = 0) :
    Accounts (s.giveBack (.emitVerbatim 0)) := by
  refine ⟨h.reported, ?_⟩
  rw [tracked_giveBack, if_pos rfl]
  show ∑ i, s.writes i = s.tracked + 0 + 0
  rw [h.writes, hw]

/-- A call returns that has counted. -/
theorem Accounts.giveBackTracked {s : Race} {r : CoalesceResult} (h : Accounts s)
    (hw : s.writer.counted = 1) (hr : r ≠ .emitVerbatim 0) : Accounts (s.giveBack r) := by
  refine ⟨h.reported, ?_⟩
  rw [tracked_giveBack, if_neg hr]
  show ∑ i, s.writes i = s.tracked + 1 + 0
  rw [h.writes, hw]

/-- A call counts in slot `probe`. -/
theorem Accounts.sum_writes {s : Race} (h : Accounts s) (hw : s.writer.counted = 0)
    (probe : Fin COALESCE_CAPACITY) : ∑ i, credit s.writes probe 1 i = s.tracked + 1 := by
  rw [sum_credit, h.writes, hw]

theorem Accounts.collide {s : Race} (h : Accounts s) (hw : s.writer.counted = 0) (t : Template)
    (probe : Fin COALESCE_CAPACITY) (probes : Nat) : Accounts (s.collide t probe probes) := by
  have hloop : Accounts { s with writer := .loadKey t (walk probe 1) (probes + 1) } :=
    ⟨h.reported, h.writes.trans (by rw [hw]; rfl)⟩
  unfold Race.collide
  simp only
  split_ifs
  · exact h.giveBackUntracked hw
  · exact h.giveBackUntracked hw
  · exact hloop

theorem Accounts.writeStep {s s' : Race} (h : Accounts s) (hstep : writeStep s = some s') :
    Accounts s' := by
  have hverbatim : ∀ t : Template, CoalesceResult.emitVerbatim t.key ≠ .emitVerbatim 0 :=
    fun t heq => t.key_ne_zero (CoalesceResult.emitVerbatim.inj heq)
  have hwrites := h.writes
  unfold Coalesce.writeStep at hstep
  cases hw : s.writer with
  | idle => simp [hw] at hstep
  | loadKey t probe probes =>
    simp only [hw] at hstep hwrites
    split_ifs at hstep <;> cases hstep
    · exact ⟨h.reported, hwrites⟩
    · exact ⟨h.reported, hwrites⟩
    · exact h.collide (by rw [hw]; rfl) t probe probes
  | loadSeverity t probe probes =>
    simp only [hw] at hstep hwrites
    split_ifs at hstep <;> cases hstep
    · exact ⟨h.reported, hwrites⟩
    · exact h.collide (by rw [hw]; rfl) t probe probes
  | loadSample t probe =>
    simp only [hw] at hstep hwrites
    cases hstep
    exact ⟨h.reported, hwrites⟩
  | addCount t probe alreadyEmitted =>
    simp only [hw] at hstep
    cases hstep
    have hsum := h.sum_writes (by rw [hw]; rfl) probe
    cases alreadyEmitted with
    | true =>
      refine ⟨h.reported, ?_⟩
      rw [if_pos rfl, tracked_giveBack, if_neg nofun]
      exact hsum
    | false => exact ⟨h.reported, hsum⟩
  | resample t probe =>
    simp only [hw] at hstep hwrites
    cases hstep
    exact Accounts.giveBackTracked ⟨h.reported, h.writes⟩
      (show s.writer.counted = 1 by rw [hw]; rfl) (hverbatim t)
  | storeKey t probe =>
    simp only [hw] at hstep hwrites
    cases hstep
    exact ⟨h.reported, hwrites⟩
  | storeSeverity t probe =>
    simp only [hw] at hstep hwrites
    cases hstep
    exact ⟨h.reported, hwrites⟩
  | storeCount t probe =>
    simp only [hw] at hstep
    cases hstep
    exact ⟨h.reported, h.sum_writes (by rw [hw]; rfl) probe⟩
  | storeSample t probe =>
    simp only [hw] at hstep hwrites
    cases hstep
    exact Accounts.giveBackTracked ⟨h.reported, h.writes⟩
      (show s.writer.counted = 1 by rw [hw]; rfl) (hverbatim t)

theorem Accounts.leaveSlot {s : Race} {out : List Tuple} (j : Fin COALESCE_CAPACITY)
    (hreported : ∑ i, s.reported i = tupleCounts s.returned.flatten + tupleCounts out)
    (hwrites : ∑ i, s.writes i = s.tracked + s.writer.counted) : Accounts (s.leaveSlot j out) := by
  unfold Race.leaveSlot
  split
  · exact ⟨hreported, hwrites⟩
  · refine ⟨?_, hwrites⟩
    show ∑ i, s.reported i = tupleCounts (s.returned ++ [out]).flatten + 0
    rw [hreported, List.flatten_append, tupleCounts_append, List.flatten_singleton, Nat.add_zero]

theorem Accounts.visitStep {s : Race} {j : Fin COALESCE_CAPACITY} {visit : Visit}
    {out : List Tuple} (h : Accounts s) (hd : s.drainer = .visiting j visit out) :
    Accounts (s.visitStep j out visit) := by
  have hreported : ∑ i, s.reported i =
      tupleCounts s.returned.flatten + (tupleCounts out + visit.inHand) := by
    rw [h.reported, Race.collected, hd]
    rfl
  cases visit with
  | loadKey =>
    simp only [Race.visitStep]
    split
    · exact .leaveSlot j hreported h.writes
    · exact ⟨hreported, h.writes⟩
  | swapCount =>
    refine ⟨?_, h.writes⟩
    show ∑ i, credit s.reported j (s.table j).count i =
      tupleCounts s.returned.flatten + (tupleCounts out + (s.table j).count)
    rw [sum_credit, hreported]
    simp only [Visit.inHand]
    omega
  | reloadKey count => exact ⟨hreported, h.writes⟩
  | loadSeverity keyHash count => exact ⟨hreported, h.writes⟩
  | clearKey tuple => exact ⟨hreported, h.writes⟩
  | clearSeverity tuple => exact ⟨hreported, h.writes⟩
  | clearSample tuple =>
    refine .leaveSlot j ?_ h.writes
    rw [tupleCounts_pushTuple]
    exact hreported

/-- **A move keeps the accounts**, late or not. -/
theorem Accounts.step {s s' : Race} {a : Move} (h : Accounts s) (hstep : raceStep s a = some s') :
    Accounts s' := by
  cases a with
  | call severity buf coalesceEnabled =>
    simp only [raceStep] at hstep
    split_ifs at hstep with hidle
    cases hstep
    have hcounted : s.writer.counted = 0 := by rw [hidle]; rfl
    unfold Race.beginCall
    split_ifs
    · exact h.giveBackUntracked hcounted
    · exact h.giveBackUntracked hcounted
    · exact ⟨h.reported, h.writes.trans (by rw [hcounted]; rfl)⟩
  | write => exact h.writeStep hstep
  | drain =>
    simp only [raceStep] at hstep
    split_ifs at hstep with hidle
    cases hstep
    refine ⟨?_, h.writes⟩
    rw [h.reported, Race.collected, hidle]
    rfl
  | sweep =>
    simp only [raceStep, sweepStep] at hstep
    cases hd : s.drainer with
    | idle => simp [hd] at hstep
    | visiting j visit out =>
      simp only [hd] at hstep
      cases hstep
      exact h.visitStep hd

/-! ## Runs -/

/-- **At most one call per slot and drain call is lost**, in each slot and over the table. -/
structure LossBounded (s : Race) : Prop where
  slot : ∀ i, s.writes i ≤ s.reported i + s.held i + s.drains
  table : s.tracked ≤ s.collected + ∑ i, s.held i + COALESCE_CAPACITY * s.drains

/-- **An occupied slot whose insertion has finished** has the severity of the call that inserted it
and its sample flag. -/
def InsertionsKept (s : Race) : Prop :=
  ∀ i, (s.table i).keyHash ≠ 0 → (s.writer.stage i).inserting = false →
    (s.table i).severity = s.inserter i ∧ (s.table i).sampleEmitted = true

/-- The invariants of all slots. -/
structure RaceOk (s : Race) : Prop where
  ledger : ∀ i, Ledger (s.view i)
  marks : ∀ i, Marks (s.view i)
  accounts : Accounts s

theorem raceOk_start : RaceOk .start where
  ledger := fun _ =>
    ⟨nofun, nofun, Nat.le_refl 0, nofun, fun _ => Nat.zero_le 1, nofun, nofun, nofun⟩
  marks := fun i => ⟨(absurd rfl ·), nofun, (absurd rfl ·)⟩
  accounts :=
    ⟨by simp [Race.start, Race.collected, tupleCounts, Drainer.inHand],
      by simp [Race.start, Race.tracked, Writer.counted]⟩

theorem RaceOk.step (s : Race) (a : Move) (s' : Race) (h : RaceOk s) (htime : InTime s a)
    (hstep : raceStep s a = some s') : RaceOk s' where
  ledger := fun i => (h.ledger i).step (view_step htime hstep i)
  marks := fun i => (h.marks i).step (view_step htime hstep i)
  accounts := h.accounts.step hstep

theorem RaceOk.lossBounded {s : Race} (h : RaceOk s) : LossBounded s := by
  have hslot : ∀ i, s.writes i ≤ s.reported i + s.held i + s.drains := by
    intro i
    have hbound := (h.ledger i).bound
    exact Nat.le_trans (Nat.le_add_right _ _) hbound
  refine ⟨hslot, ?_⟩
  calc s.tracked
      ≤ ∑ i, s.writes i := by rw [h.accounts.writes]; exact Nat.le_add_right _ _
    _ ≤ ∑ i, (s.reported i + s.held i + s.drains) := Finset.sum_le_sum fun i _ => hslot i
    _ = s.collected + ∑ i, s.held i + COALESCE_CAPACITY * s.drains := by
      rw [Finset.sum_add_distrib, Finset.sum_add_distrib, h.accounts.reported]
      simp

/-- **In a run without a late count and without a late clear**, every state reached has lost at
most one call per slot and drain call, and every finished insertion is kept. -/
theorem coalesce_race {as : List Move} {s : Race} (hexec : Run.exec raceStep .start as = some s)
    (htime : Run.Along raceStep InTime .start as) : LossBounded s ∧ InsertionsKept s := by
  have hok : RaceOk s := Run.exec_invariant_along RaceOk.step htime hexec raceOk_start
  exact ⟨hok.lossBounded, fun i hkey hw => (hok.marks i).settled hw hkey⟩

/-- A line of severity 4 (`error`) whose key selects the first slot. -/
def firstSlotLine : Bytes := [19]

/-- An insertion, and a sweep of its slot with one count between the swap and the clear. -/
def countedDuringSweep : List Move :=
  .call 4 firstSlotLine true :: List.replicate 5 .write ++ .drain :: List.replicate 2 .sweep ++
    .call 4 firstSlotLine true :: List.replicate 4 .write ++ List.replicate 5 .sweep

theorem coalesce_race_countedDuringSweep :
    ∃ s, Run.exec raceStep .start countedDuringSweep = some s ∧
      (s.writes firstSlot, s.reported firstSlot, s.held firstSlot, s.drains) =
        (2, 1, 0, 1) ∧
      LossBounded s ∧ InsertionsKept s := by
  have hrun : (Run.exec raceStep .start countedDuringSweep).map (fun s =>
      (s.writes firstSlot, s.reported firstSlot, s.held firstSlot, s.drains)) =
        some (2, 1, 0, 1) := by
    decide +kernel
  have htime : Run.Along raceStep InTime .start countedDuringSweep := by decide +kernel
  obtain ⟨s, hexec, hledger⟩ := Option.map_eq_some_iff.mp hrun
  exact ⟨s, hexec, hledger, coalesce_race hexec htime⟩

/-! ## Counts and clears that come late -/

section Late

variable {severity : UInt8} {buf : Bytes} {table : Table}

/-- The first turn of the probe loop. -/
theorem coalesce_eq_probeLoop (hsev : ¬severity ≤ HIGH_SEVERITY_THRESHOLD) :
    coalesce table severity buf true =
      probeLoop table severity (pairOf severity buf).1 (255 + 1) (home (pairOf severity buf)) 0 := by
  simp only [coalesce, Bool.not_true, Bool.false_eq_true, if_false, if_neg hsev]
  rfl

/-- A line that finds an empty slot where its key leads it is inserted there. -/
theorem coalesce_novel_at_home (hsev : ¬severity ≤ HIGH_SEVERITY_THRESHOLD)
    (hslot : (table (home (pairOf severity buf))).keyHash = 0) :
    coalesce table severity buf true =
      (.emitVerbatim (pairOf severity buf).1, Function.update table (home (pairOf severity buf))
        (novelSlot (pairOf severity buf).1 severity)) := by
  rw [coalesce_eq_probeLoop hsev, probeLoop]
  simp [hslot]

/-- A line that finds its template where its key leads it is counted there. -/
theorem coalesce_known_at_home {count : Nat} (hsev : ¬severity ≤ HIGH_SEVERITY_THRESHOLD)
    (hslot : table (home (pairOf severity buf)) =
      ⟨(pairOf severity buf).1, severity, count, true⟩) :
    coalesce table severity buf true =
      (.coalesced, Function.update table (home (pairOf severity buf))
        ⟨(pairOf severity buf).1, severity, addW 32 count 1, true⟩) := by
  have hkey : (pairOf severity buf).1 ≠ 0 := coalesceKey_ne_zero severity (stableCore buf)
  rw [coalesce_eq_probeLoop hsev, probeLoop]
  simp [hslot, hkey, bumpedSlot]

/-- The writer alone counts `n` more lines of a template. -/
theorem exec_counts (buf : Bytes) (n : Nat) {s : Race} {count : Nat}
    (hsev : ¬severity ≤ HIGH_SEVERITY_THRESHOLD) (hidle : s.writer = .idle)
    (hslot : s.table (home (pairOf severity buf)) =
      ⟨(pairOf severity buf).1, severity, count, true⟩) (hn : count + n < 2 ^ 32) :
    ∃ as s', Run.exec raceStep s as = some s' ∧
      CallsEnded s (List.replicate n .coalesced)
        (Function.update s.table (home (pairOf severity buf))
          ⟨(pairOf severity buf).1, severity, count + n, true⟩) s' := by
  induction n with
  | zero =>
    refine ⟨[], s, rfl, ?_, by simp, hidle, rfl, rfl, rfl⟩
    rw [Nat.add_zero, ← hslot, Function.update_eq_self]
  | succ n ih =>
    obtain ⟨as, u, hexec, hended⟩ := ih (by omega)
    obtain ⟨k, s', hcall, hended'⟩ := exec_call hended.writer severity buf true
    have hslot' : u.table (home (pairOf severity buf)) =
        ⟨(pairOf severity buf).1, severity, count + n, true⟩ := by
      rw [hended.table, Function.update_self]
    rw [coalesce_known_at_home hsev hslot', addW_of_lt (by omega), hended.table,
      Function.update_idem] at hended'
    refine ⟨as ++ .call severity buf true :: List.replicate k .write, s',
      Run.exec_append.mpr ⟨u, hexec, hcall⟩, ?_⟩
    rw [List.replicate_succ']
    exact hended.trans hended'

end Late

/-- The first slot is where the key of this line leads. -/
theorem home_firstSlotLine : home (pairOf 4 firstSlotLine) = firstSlot := by decide

/-- A sweep over empty slots finds nothing and changes nothing. -/
theorem sweep_of_empty {table : Table} (hempty : ∀ i, (table i).keyHash = 0) (k : Nat) :
    tuplesFrom k table = [] ∧ sweptFrom k table = table := by
  have hslot : ∀ i, drainSlot (table i) = (none, table i) := fun i => if_pos (hempty i)
  constructor
  · simp [tuplesFrom, hslot]
  · funext i
    simp [sweptFrom, hslot]

/-- A table with nothing but its first slot in use. -/
def onlyFirst (slot : CoalesceSlot) : Table := Function.update zeroedTable firstSlot slot

theorem onlyFirst_first (slot : CoalesceSlot) : onlyFirst slot firstSlot = slot := by
  rw [onlyFirst, Function.update_self]

theorem update_onlyFirst (slot slot' : CoalesceSlot) :
    Function.update (onlyFirst slot) firstSlot slot' = onlyFirst slot' := by
  rw [onlyFirst, Function.update_idem, onlyFirst]

theorem onlyFirst_keyHash {slot : CoalesceSlot} (hempty : slot.keyHash = 0)
    (i : Fin COALESCE_CAPACITY) : (onlyFirst slot i).keyHash = 0 := by
  by_cases hi : i = firstSlot
  · rw [hi, onlyFirst_first]
    exact hempty
  · rw [onlyFirst, Function.update_of_ne hi]
    rfl

/-- The drain call goes on after the swap: what the first slot has counted since is left behind in
an empty slot. -/
theorem exec_evict_first {s : Race} {slot : CoalesceSlot} {count : Nat} (hpos : 0 < count)
    (hd : s.drainer = .visiting firstSlot (.reloadKey count) [])
    (htable : s.table = onlyFirst slot) :
    ∃ as s', Run.exec raceStep s as = some s' ∧
      SweepEnded s [(slot.keyHash, slot.severity, count)]
        (onlyFirst ⟨0, 0, slot.count, false⟩) s' := by
  have hnext : firstSlot.val + 1 < COALESCE_CAPACITY := by decide
  have hevict := exec_evict hd
  rw [htable, onlyFirst_first, pushTuple, if_pos hpos, List.nil_append, Race.leaveSlot,
    dif_pos hnext, Race.modify, htable, onlyFirst_first, update_onlyFirst] at hevict
  have hempty : ∀ i, (onlyFirst ⟨0, 0, slot.count, false⟩ i).keyHash = 0 := onlyFirst_keyHash rfl
  have hswept := sweep_of_empty hempty (firstSlot + 1)
  obtain ⟨k, s', hrest, hended⟩ := exec_sweepFrom (n := 254) (i := ⟨firstSlot + 1, hnext⟩)
    (s := { s with
      table := onlyFirst ⟨0, 0, slot.count, false⟩
      drainer := .visiting ⟨firstSlot + 1, hnext⟩ .loadKey [(slot.keyHash, slot.severity, count)] })
    rfl rfl
  refine ⟨List.replicate 5 .sweep ++ List.replicate k .sweep, s',
    Run.exec_append.mpr ⟨_, hevict, hrest⟩, ?_⟩
  rw [hswept.1, hswept.2, List.append_nil] at hended
  exact ⟨hended.table, hended.returned, hended.drainer, hended.writer, hended.results,
    hended.drains⟩

/-- **A sweep during which the writer goes on counting loses all that it counts**: one call is
reported, the `n` calls between the swap and the clear of the same slot are neither reported nor
held. -/
theorem lost_calls (n : Nat) (hn : n < 2 ^ 32) :
    ∃ as s, Run.exec raceStep .start as = some s ∧ s.writer = .idle ∧ s.drainer = .idle ∧
      s.drains = 1 ∧ s.tracked = n + 1 ∧ s.collected = 1 ∧ ∀ i, s.held i = 0 := by
  have hsev : ¬(4 : UInt8) ≤ HIGH_SEVERITY_THRESHOLD := by decide
  let key := (pairOf 4 firstSlotLine).1
  have hkey : key ≠ 0 := coalesceKey_ne_zero 4 (stableCore firstSlotLine)
  -- the insertion
  obtain ⟨k, s₁, hcall, hended₁⟩ := exec_call (s := .start) rfl 4 firstSlotLine true
  rw [coalesce_novel_at_home hsev rfl, home_firstSlotLine] at hended₁
  have htable₁ : s₁.table = onlyFirst (novelSlot key 4) := hended₁.table
  -- the drain call begins and swaps the count out of the first slot
  let s₂ : Race := { s₁ with
    drainer := .visiting firstSlot .loadKey []
    drains := s₁.drains + 1 }
  have hdrain : raceStep s₁ .drain = some s₂ := if_pos hended₁.drainer
  have htable₂ : s₂.table = onlyFirst (novelSlot key 4) := htable₁
  have hopen := exec_open (s := s₂) rfl (by rw [htable₂, onlyFirst_first]; exact hkey)
  rw [htable₂, onlyFirst_first, Race.modify, htable₂, onlyFirst_first, update_onlyFirst] at hopen
  -- the writer counts `n` times before the key is cleared
  obtain ⟨as, s₄, hcounts, hended₄⟩ := exec_counts firstSlotLine n hsev
    (s := { s₂ with
      table := onlyFirst ⟨key, 4, 0, true⟩
      drainer := .visiting firstSlot (.reloadKey 1) []
      reported := credit s₂.reported firstSlot 1 }) hended₁.writer
    (by rw [home_firstSlotLine]; exact onlyFirst_first _) (by omega)
  have htable₄ : s₄.table = onlyFirst ⟨key, 4, 0 + n, true⟩ := by
    rw [hended₄.table, home_firstSlotLine, update_onlyFirst]
  -- the drain call goes on to its end
  obtain ⟨bs, s₅, hevict, hended₅⟩ := exec_evict_first Nat.one_pos hended₄.drainer htable₄
  refine ⟨_, s₅, Run.exec_append.mpr ⟨s₁, hcall, Run.exec_cons.mpr ⟨s₂, hdrain,
    Run.exec_append.mpr ⟨_, hopen, Run.exec_append.mpr ⟨s₄, hcounts, hevict⟩⟩⟩⟩, ?_⟩
  refine ⟨hended₅.writer.trans hended₄.writer, hended₅.drainer, ?_, ?_, ?_, ?_⟩
  · rw [hended₅.drains, hended₄.drains]
    exact congrArg (· + 1) hended₁.drains
  · have hresults : s₅.results = [.emitVerbatim key] ++ List.replicate n .coalesced := by
      rw [hended₅.results, hended₄.results]
      exact congrArg (· ++ _) hended₁.results
    rw [Race.tracked, hresults]
    simp [List.countP_replicate, hkey]
  · have hreturned : s₅.returned = [[(key, 4, 1)]] := by
      rw [hended₅.returned, hended₄.returned]
      exact congrArg (· ++ _) hended₁.returned
    rw [Race.collected, hreturned, hended₅.drainer]
    rfl
  · intro i
    rw [Race.held, hended₅.table, if_pos (onlyFirst_keyHash rfl i)]

/-- An insertion, a sweep up to the clear of its key, a second insertion into the same slot, and the
other two clears. -/
def insertedDuringSweep : List Move :=
  .call 4 firstSlotLine true :: List.replicate 5 .write ++ .drain :: List.replicate 5 .sweep ++
    .call 4 firstSlotLine true :: List.replicate 5 .write ++ List.replicate 2 .sweep

/-- One sweep can lose more calls than the table has slots, and an insertion that it overtakes is
left without severity and sample flag. -/
theorem late_moves_break_bounds :
    (∃ as s, Run.exec raceStep .start as = some s ∧ s.writer = .idle ∧ s.drainer = .idle ∧
      s.drains = 1 ∧ s.tracked = 258 ∧ s.collected = 1 ∧ (∀ i, s.held i = 0) ∧ ¬LossBounded s) ∧
    (∃ s, Run.exec raceStep .start insertedDuringSweep = some s ∧ s.writer = .idle ∧
      s.inserter firstSlot = 4 ∧ (s.table firstSlot).severity = 0 ∧
      (s.table firstSlot).sampleEmitted = false ∧ ¬InsertionsKept s) := by
  constructor
  · obtain ⟨as, s, hexec, hwriter, hdrainer, hdrains, htracked, hcollected, hheld⟩ :=
      lost_calls 257 (by decide)
    refine ⟨as, s, hexec, hwriter, hdrainer, hdrains, htracked, hcollected, hheld, fun hbound => ?_⟩
    have htable := hbound.table
    simp only [htracked, hcollected, hheld, hdrains, Finset.sum_const_zero] at htable
    exact absurd htable (by decide)
  · have hrun : (Run.exec raceStep .start insertedDuringSweep).map (fun s =>
        (s.writer, s.inserter firstSlot, s.table firstSlot)) =
          some (.idle, 4, ⟨(pairOf 4 firstSlotLine).1, 0, 1, false⟩) := by
      decide +kernel
    obtain ⟨s, hexec, hstate⟩ := Option.map_eq_some_iff.mp hrun
    obtain ⟨hwriter, hinserter, hslot⟩ : s.writer = .idle ∧ s.inserter firstSlot = 4 ∧
        s.table firstSlot = ⟨(pairOf 4 firstSlotLine).1, 0, 1, false⟩ := by
      simpa only [Prod.mk.injEq] using hstate
    refine ⟨s, hexec, hwriter, hinserter, by rw [hslot], by rw [hslot], fun hkept => ?_⟩
    have hkey : (pairOf 4 firstSlotLine).1 ≠ 0 := coalesceKey_ne_zero 4 (stableCore firstSlotLine)
    have hmarks := (hkept firstSlot (by rw [hslot]; exact hkey) (by rw [hwriter]; rfl)).2
    rw [hslot] at hmarks
    cases hmarks

end NgxOtel.Coalesce
