import NgxOtel.Shm.Histogram
import Mathlib.Algebra.BigOperators.Group.Finset.Piecewise
import Mathlib.Algebra.Order.BigOperators.Group.Finset

/-!
# Snapshots of a histogram slot while a worker records

One worker runs `record` calls on a slot and the exporter takes snapshots of it, one atomic
operation at a time.  `record` bumps a cell, adds to the sum and bumps the count; `snapshot` reads
the count first, then the cells and the sum.

* `expStep`, `histogramStep` — the machine of `Counters` with the programs and the reading orders of
  the two kinds of slot.
* `sum_added_cells`, `added_count`, `added_sum` — the words of a slot at any moment, by what the
  current call has left to do.

## Results

* `consistent_of_exec` — the bounds on one snapshot, for any slot whose reading order covers it.
* `snapshots_consistent` — **in every interleaving the snapshots of both kinds of slot are consistent
  and never go back.**
-/

set_option autoImplicit false

namespace NgxOtel.Shm

open Counters

section Slot

variable {ι : Type} [Fintype ι] [DecidableEq ι]

/-- The bucket counts of a snapshot, with `zero_count` where the slot has one. -/
def bucketSum (value : Slot ι) : Nat := ∑ i, (value (.cell i)).toNat

/-- The calls that have returned. -/
def finished (m : Moment (Field ι) UInt64) : Nat :=
  if m.Idle then m.begun.length else m.begun.length - 1

/-- The total of the values of the calls begun. -/
def total (m : Moment (Field ι) UInt64) : Nat := (m.begun.map UInt64.toNat).sum

/-- What a snapshot promises. -/
structure Consistent (r : Reading (Field ι) UInt64) : Prop where
  count_le : (r.value .count).toNat ≤ bucketSum r.value
  finished_le : finished r.opened ≤ (r.value .count).toNat
  le_begun : bucketSum r.value ≤ r.closed.begun.length
  undisturbed : r.quiet = true → bucketSum r.value = r.closed.begun.length ∧
    (r.value .count).toNat = r.closed.begun.length ∧ (r.value .sum).toNat = total r.closed

/-! ## The words of a slot at one moment -/

variable {cellOf : UInt64 → ι}

omit [Fintype ι] in
/-- How far a call can be: all is done, or the count, the sum and the count, or everything is
left. -/
theorem pending_cases {m : Moment (Field ι) UInt64} (hm : m.Ok fun v => recordOps (cellOf v) v) :
    m.pending = [] ∨ m.pending = [(.count, 1)] ∨ (∃ v, m.pending = [(.sum, v), (.count, 1)]) ∨
      ∃ c v, m.pending = recordOps c v := by
  rcases hm.current with hidle | ⟨v, hlast, hsuffix⟩
  · exact Or.inl hidle
  · simp only [recordOps, List.suffix_cons_iff, List.suffix_nil] at hsuffix
    rcases hsuffix with hops | hops | hops | hops
    · exact Or.inr (Or.inr (Or.inr ⟨_, _, hops⟩))
    · exact Or.inr (Or.inr (Or.inl ⟨_, hops⟩))
    · exact Or.inr (Or.inl hops)
    · exact Or.inl hops

/-- What a call adds to all cells together. -/
theorem sum_amount_cells (c : ι) (v : UInt64) :
    ∑ i, amount (recordOps c v) (Field.cell i) = 1 := by
  simp [recordOps, amount]

theorem sum_added_cells {m : Moment (Field ι) UInt64}
    (hm : m.Ok fun v => recordOps (cellOf v) v) :
    (∑ i, m.added (.cell i)) + ∑ i, amount m.pending (Field.cell i) = m.begun.length := by
  have hbegun : ∀ vs : List UInt64,
      ∑ i, (vs.map fun v => amount (recordOps (cellOf v) v) (Field.cell i)).sum = vs.length := by
    intro vs
    induction vs with
    | nil => simp
    | cons v vs ih =>
      simp only [List.map_cons, List.sum_cons, Finset.sum_add_distrib, sum_amount_cells, ih,
        List.length_cons]
      omega
  rw [← Finset.sum_add_distrib, ← hbegun m.begun]
  exact Finset.sum_congr rfl fun i _ => hm.balance (.cell i)

omit [Fintype ι] in
theorem added_count {m : Moment (Field ι) UInt64} (hm : m.Ok fun v => recordOps (cellOf v) v) :
    m.added .count + amount m.pending Field.count = m.begun.length := by
  rw [hm.balance]
  simp [recordOps, amount]

omit [Fintype ι] in
theorem added_sum {m : Moment (Field ι) UInt64} (hm : m.Ok fun v => recordOps (cellOf v) v) :
    m.added .sum + amount m.pending Field.sum = total m := by
  rw [hm.balance]
  simp [recordOps, amount, total]

/-- A call bumps its cell before it bumps the count. -/
theorem added_count_le {m : Moment (Field ι) UInt64} (hm : m.Ok fun v => recordOps (cellOf v) v) :
    m.added .count ≤ ∑ i, m.added (.cell i) ∧ m.added .count = finished m := by
  have hcells := sum_added_cells hm
  have hcount := added_count hm
  -- in progress, a call is missing from the count, and from the cells only at its first step
  rcases pending_cases hm with hops | hops | ⟨v, hops⟩ | ⟨c, v, hops⟩
  · have hidle : m.Idle := hops
    rw [hops] at hcells hcount
    simp only [amount, List.map_nil, List.sum_nil, Finset.sum_const_zero, Nat.add_zero]
      at hcells hcount
    simp only [finished, hidle, if_true]
    omega
  · have hbusy : ¬m.Idle := by simp [Moment.Idle, hops]
    rw [hops] at hcells hcount
    simp [amount] at hcells hcount
    simp only [finished, hbusy, if_false]
    omega
  · have hbusy : ¬m.Idle := by simp [Moment.Idle, hops]
    rw [hops] at hcells hcount
    simp [amount] at hcells hcount
    simp only [finished, hbusy, if_false]
    omega
  · have hbusy : ¬m.Idle := by simp [Moment.Idle, hops, recordOps]
    rw [hops] at hcells hcount
    rw [sum_amount_cells] at hcells
    simp [amount, recordOps] at hcount
    simp only [finished, hbusy, if_false]
    omega

/-- With few calls and a small total no word overflows. -/
theorem small_of_total {m : Moment (Field ι) UInt64} (hm : m.Ok fun v => recordOps (cellOf v) v)
    (hcalls : m.begun.length < 2 ^ 64) (htotal : total m < 2 ^ 64) : m.Small := by
  intro f
  cases f with
  | cell i =>
    have hone : m.added (.cell i) ≤ ∑ j, m.added (.cell j) :=
      Finset.single_le_sum (f := fun j => m.added (.cell j)) (fun j _ => Nat.zero_le _)
        (Finset.mem_univ i)
    have hcells := sum_added_cells hm
    omega
  | sum =>
    have hsum := added_sum hm
    omega
  | count =>
    have hcount := added_count hm
    omega

/-! ## Snapshots -/

/-- **Every snapshot is consistent, and none goes back**, for a slot whose count is read first and
whose other words are all read after it. -/
theorem consistent_of_exec {order : List (Field ι)} (hcells : ∀ i, Field.cell i ∈ order)
    (hsum : Field.sum ∈ order) (hcount : Field.count ∉ order) {as : List (Act UInt64)}
    {t : State (Field ι) UInt64}
    (h : Run.exec (step (fun v => recordOps (cellOf v) v) .count order) .zeroed as = some t)
    (hcalls : t.now.begun.length < 2 ^ 64) (htotal : total t.now < 2 ^ 64) :
    (∀ r ∈ t.readings, Consistent r) ∧
      t.readings.Pairwise fun r r' => ∀ f, r.value f ≤ r'.value f := by
  have hsmall := small_of_total (exec_inv h).now hcalls htotal
  have hall : ∀ f : Field ι, f ∈ Field.count :: order := by
    intro f
    cases f with
    | cell i => exact List.mem_cons_of_mem _ (hcells i)
    | sum => exact List.mem_cons_of_mem _ hsum
    | count => exact List.mem_cons_self ..
  constructor
  · intro r hr
    obtain ⟨hwindow, hsmallr⟩ := reading_spec h hsmall hr
    have hbetween := fun f => hwindow.between hsmallr f (hall f) List.not_mem_nil
    have hfirst := hwindow.first_exact hsmallr hcount
    obtain ⟨hanchor, hfinished⟩ := added_count_le hwindow.opened_ok
    have hclosed := sum_added_cells hwindow.now_ok
    have hlow : ∑ i, r.opened.added (.cell i) ≤ bucketSum r.value :=
      Finset.sum_le_sum fun i _ => (hbetween (.cell i)).1
    have hhigh : bucketSum r.value ≤ ∑ i, r.closed.added (.cell i) :=
      Finset.sum_le_sum fun i _ => (hbetween (.cell i)).2
    refine ⟨by omega, by omega, by omega, ?_⟩
    intro hquiet
    -- no call in progress: the memory was the same from the first load to the last
    obtain ⟨hsame, hidle⟩ := hwindow.quiet_same hquiet
    have hcountc := added_count hwindow.now_ok
    have hsumc := added_sum hwindow.now_ok
    have hsumv := hbetween .sum
    rw [← hsame] at hlow hfirst hsumv
    rw [hidle] at hclosed hcountc hsumc
    simp only [amount, List.map_nil, List.sum_nil, Finset.sum_const_zero, Nat.add_zero]
      at hclosed hcountc hsumc
    refine ⟨by omega, by omega, by omega⟩
  · exact (readings_ordered h hsmall).imp fun hle f => hle f (hall f)

end Slot

/-! ## The two kinds of slot -/

/-- `ExpHistogramSlot::snapshot` after the count: the buckets, `zero_count`, the sum. -/
def expOrder : List (Field ExpCell) :=
  (List.finRange N_EXP_BUCKETS).map (fun i => .cell (.bucket i)) ++ [.cell .zero, .sum]

/-- A worker and the exporter on an `ExpHistogramSlot`. -/
def expStep : State (Field ExpCell) UInt64 → Act UInt64 → Option (State (Field ExpCell) UInt64) :=
  step (fun v => recordOps (expCell v) v) .count expOrder

/-- `Histogram::snapshot` after the count: the buckets, the sum. -/
def histogramOrder (B : Nat) : List (Field (Fin B)) := (List.finRange B).map .cell ++ [.sum]

/-- A worker and the exporter on a `Histogram<B>` with boundaries of length `B - 1`. -/
def histogramStep (bounds : List UInt64) : State (Field (Fin (bounds.length + 1))) UInt64 →
    Act UInt64 → Option (State (Field (Fin (bounds.length + 1))) UInt64) :=
  step (fun v => recordOps (histogramCell bounds v) v) .count (histogramOrder (bounds.length + 1))

/-- **In every interleaving of `record` calls and snapshots**, with fewer than `2 ^ 64` calls and a
total below `2 ^ 64`, every snapshot is consistent and no word of a later one is below that of an
earlier one. -/
theorem snapshots_consistent :
    (∀ (as : List (Act UInt64)) (t : State (Field ExpCell) UInt64),
      Run.exec expStep .zeroed as = some t → t.now.begun.length < 2 ^ 64 → total t.now < 2 ^ 64 →
      (∀ r ∈ t.readings, Consistent r) ∧
        t.readings.Pairwise fun r r' => ∀ f, r.value f ≤ r'.value f) ∧
    (∀ (bounds : List UInt64) (as : List (Act UInt64))
      (t : State (Field (Fin (bounds.length + 1))) UInt64),
      Run.exec (histogramStep bounds) .zeroed as = some t → t.now.begun.length < 2 ^ 64 →
      total t.now < 2 ^ 64 →
      (∀ r ∈ t.readings, Consistent r) ∧
        t.readings.Pairwise fun r r' => ∀ f, r.value f ≤ r'.value f) := by
  constructor
  · intro as t h hcalls htotal
    refine consistent_of_exec ?_ ?_ ?_ h hcalls htotal
    · intro i
      cases i with
      | bucket i => simp [expOrder]
      | zero => simp [expOrder]
    · simp [expOrder]
    · simp [expOrder]
  · intro bounds as t h hcalls htotal
    refine consistent_of_exec ?_ ?_ ?_ h hcalls htotal
    · intro i
      simp [histogramOrder]
    · simp [histogramOrder]
    · simp [histogramOrder]

/-- Two sizes recorded around a snapshot that sees half of the second one, then a quiet snapshot. -/
def overlappingActs : List (Act UInt64) :=
  [.start 5, .add, .add, .add, .start 20, .openRead, .load, .add, .load, .add, .load, .add,
    .openRead, .load, .load, .load]

theorem snapshots_consistent_overlappingActs :
    ∃ t, Run.exec (histogramStep [10]) .zeroed overlappingActs = some t ∧
      t.readings.map (fun r => ((r.value .count).toNat, (r.value .sum).toNat, r.quiet)) =
        [(1, 25, false), (2, 25, true)] ∧ ∀ r ∈ t.readings, Consistent r := by
  have hrun : (Run.exec (histogramStep [10]) .zeroed overlappingActs).map (fun t =>
      (t.now.begun.map UInt64.toNat, t.readings.map (fun r =>
        ((r.value .count).toNat, (r.value .sum).toNat, r.quiet)))) =
      some ([5, 20], [(1, 25, false), (2, 25, true)]) := by decide
  obtain ⟨t, ht, hproj⟩ := Option.map_eq_some_iff.mp hrun
  obtain ⟨hbegun, hreadings⟩ := Prod.mk.inj hproj
  have hcalls : t.now.begun.length < 2 ^ 64 := by
    rw [← List.length_map (f := UInt64.toNat), hbegun]
    decide
  have htotal : total t.now < 2 ^ 64 := by
    rw [total, hbegun]
    decide
  exact ⟨t, ht, hreadings, (snapshots_consistent.2 [10] overlappingActs t ht hcalls htotal).1⟩

end NgxOtel.Shm
