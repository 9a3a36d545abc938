import NgxOtel.Shm.Dimensions
import NgxOtel.Shm.Snapshots
import Mathlib.Data.UInt

/-!
# Zeroing the route and upstream slots while an old worker records

`shm/mod.rs`: a reload reassigns the route and upstream indices, so `otel_shm_zone_init` has
`zero_route_upstream_histograms` store 0 into every word of those slots, one word at a time.  An old
worker may still be running `ExpHistogramSlot::record` calls on them.

* `SlotId`, `zeroProgram` — the slots of the two tables of every worker, and the stores of one
  zeroing in the order of the source.
* `RecordCall` — how far a `record` call is; its fetch-adds are those of `recordOps`.
* `step` — one atomic operation of the worker or of the reload, or the beginning of a call or of a
  reload.
* `Balanced` — the count is the sum of `zero_count` and the buckets, in 64-bit arithmetic.

`State.met` remembers of every slot whether the last clearing of its count met `Settled`; no
operation reads it.

## Results

* `zeroing_splits_record` — **a call that bumps its bucket before the zeroing and its count after it
  leaves an unbalanced slot**.
* `balanced_iff_met` — in every state without a call and a zeroing, a slot is balanced **iff** the
  last clearing of its count met the condition.
-/

set_option autoImplicit false

namespace NgxOtel.Shm.Zeroing

open Counters

/-! ## Slots and stores -/

/-- `route_duration_combos[i]` and `upstream_duration_combos[i]`. -/
inductive Table where
  | route (i : Fin N_ROUTE_SLOTS)
  | upstream (i : Fin N_UPSTREAM_SLOTS)
  deriving DecidableEq, Repr

/-- A slot of the `WorkerSlots` of a worker. -/
structure SlotId where
  worker : Nat
  table : Table
  deriving DecidableEq, Repr

/-- The words of an `ExpHistogramSlot` as they lie in memory. -/
def fieldOrder : List (Field ExpCell) :=
  ((List.finRange N_EXP_BUCKETS).map fun i => .cell (.bucket i)) ++ [.cell .zero, .sum] ++ [.count]

/-- The words of a slot. -/
def slotWords (s : SlotId) : List (SlotId × Field ExpCell) := fieldOrder.map (s, ·)

/-- The two arrays of one worker. -/
def workerTables (w : Nat) : List SlotId :=
  ((List.finRange N_ROUTE_SLOTS).map fun i => ⟨w, .route i⟩) ++
    (List.finRange N_UPSTREAM_SLOTS).map fun i => ⟨w, .upstream i⟩

/-- The stores of `zero_route_upstream_histograms`. -/
def zeroProgram (nSlots : Nat) : List (SlotId × Field ExpCell) :=
  (List.range nSlots).flatMap fun w => (workerTables w).flatMap slotWords

/-! ## The machine -/

/-- The next fetch-add of a `record` call. -/
inductive RecordPc where
  | cell
  | sum
  | count
  deriving DecidableEq, Repr

structure RecordCall where
  slot : SlotId
  valueUs : UInt64
  pc : RecordPc
  deriving DecidableEq, Repr

def RecordCall.op (c : RecordCall) : Op (Field ExpCell) :=
  match c.pc with
  | .cell => (.cell (expCell c.valueUs), 1)
  | .sum => (.sum, c.valueUs)
  | .count => (.count, 1)

/-- The call after that fetch-add; the one on the count is the last. -/
def RecordCall.next (c : RecordCall) : Option RecordCall :=
  match c.pc with
  | .cell => some { c with pc := .sum }
  | .sum => some { c with pc := .count }
  | .count => none

/-- The bucket or `zero_count` is bumped, the count is not. -/
def RecordCall.Halfway (c : RecordCall) (s : SlotId) : Prop := c.slot = s ∧ c.pc ≠ .cell

instance (c : RecordCall) (s : SlotId) : Decidable (c.Halfway s) :=
  inferInstanceAs (Decidable (_ ∧ _))

/-- What the call in progress still owes the count of a slot. -/
def owed (call : Option RecordCall) (s : SlotId) : UInt64 :=
  match call with
  | none => 0
  | some c => if c.Halfway s then 1 else 0

/-- `zero_count` and the buckets together, in 64-bit arithmetic. -/
def cellSum (value : ExpHistogramSlot) : UInt64 := ∑ i, value (.cell i)

/-- **What a slot promises when nobody is at work on it.** -/
def Balanced (value : ExpHistogramSlot) : Prop := value .count = cellSum value

/-- The words, the worker's call, the stores a zeroing has left, how often a call began, and of
every slot whether the last clearing of its count met the condition. -/
structure State where
  mem : SlotId → ExpHistogramSlot
  call : Option RecordCall
  zeroing : List (SlotId × Field ExpCell)
  calls : Nat
  met : SlotId → Bool

/-- All slots zero, nothing in progress. -/
def State.zeroed : State := ⟨fun _ _ => 0, none, [], 0, fun _ => true⟩

/-- Neither a `record` call nor a zeroing is in progress. -/
def State.Quiet (t : State) : Prop := t.call = none ∧ t.zeroing = []

/-- The cells hold just what the call in progress will add to the count. -/
def State.Settled (t : State) (s : SlotId) : Prop := cellSum (t.mem s) = owed t.call s

instance (t : State) (s : SlotId) : Decidable (t.Settled s) :=
  inferInstanceAs (Decidable (_ = _))

inductive Act where
  | record (s : SlotId) (valueUs : UInt64)
  | fetchAdd
  | reload
  | store
  deriving DecidableEq, Repr

/-- The zeroing stores 0 into the next word. -/
def State.clear (t : State) (s : SlotId) (f : Field ExpCell)
    (rest : List (SlotId × Field ExpCell)) : State :=
  { t with
    mem := Function.update t.mem s (Function.update (t.mem s) f 0)
    zeroing := rest
    met := if f = .count then Function.update t.met s (decide (t.Settled s)) else t.met }

/-- One atomic operation, or the beginning of a call or of a reload. -/
def step (nSlots : Nat) (t : State) : Act → Option State
  | .record s valueUs =>
    match t.call with
    | some _ => none
    | none => some { t with call := some ⟨s, valueUs, .cell⟩, calls := t.calls + 1 }
  | .fetchAdd =>
    match t.call with
    | none => none
    | some c =>
      some { t with
        mem := Function.update t.mem c.slot (Shm.fetchAdd (t.mem c.slot) c.op), call := c.next }
  | .reload =>
    match t.zeroing with
    | _ :: _ => none
    | [] => some { t with zeroing := zeroProgram nSlots }
  | .store =>
    match t.zeroing with
    | [] => none
    | (s, f) :: rest => some (t.clear s f rest)

/-- The condition on a move: a store into the count of a slot finds it settled. -/
def ClearsSettled (t : State) (a : Act) : Prop :=
  a = .store → ∀ s rest, t.zeroing = (s, .count) :: rest → t.Settled s

/-- What a move does. -/
theorem step_cases {nSlots : Nat} {t u : State} {a : Act} (h : step nSlots t a = some u) :
    (∃ slot v, a = .record slot v ∧ t.call = none ∧
      u = { t with call := some ⟨slot, v, .cell⟩, calls := t.calls + 1 }) ∨
    (∃ c, a = .fetchAdd ∧ t.call = some c ∧ u = { t with
      mem := Function.update t.mem c.slot (Shm.fetchAdd (t.mem c.slot) c.op), call := c.next }) ∨
    (a = .reload ∧ t.zeroing = [] ∧ u = { t with zeroing := zeroProgram nSlots }) ∨
    (∃ slot f rest, a = .store ∧ t.zeroing = (slot, f) :: rest ∧ u = t.clear slot f rest) := by
  cases a with
  | record slot v =>
    cases hcall : t.call with
    | some c => simp [step, hcall] at h
    | none =>
      simp only [step, hcall, Option.some.injEq] at h
      exact .inl ⟨slot, v, rfl, rfl, h.symm⟩
  | fetchAdd =>
    cases hcall : t.call with
    | none => simp [step, hcall] at h
    | some c =>
      simp only [step, hcall, Option.some.injEq] at h
      exact .inr (.inl ⟨c, rfl, rfl, h.symm⟩)
  | reload =>
    cases hzero : t.zeroing with
    | cons word rest => simp [step, hzero] at h
    | nil =>
      simp only [step, hzero, Option.some.injEq] at h
      exact .inr (.inr (.inl ⟨rfl, rfl, h.symm⟩))
  | store =>
    cases hzero : t.zeroing with
    | nil => simp [step, hzero] at h
    | cons word rest =>
      simp only [step, hzero, Option.some.injEq] at h
      exact .inr (.inr (.inr ⟨word.1, word.2, rest, rfl, rfl, h.symm⟩))

/-! ## Words -/

/-- A bump of one cell, in the sum over all of them. -/
theorem sum_fetchAdd {ι : Type} [Fintype ι] [DecidableEq ι] (value : Slot ι) (i : ι) :
    ∑ j, Shm.fetchAdd value (.cell i, 1) (.cell j) = (∑ j, value (.cell j)) + 1 := by
  have hcell : ∀ j, Shm.fetchAdd value (.cell i, 1) (.cell j) =
      value (.cell j) + if j = i then 1 else 0 := by
    intro j
    by_cases hj : j = i
    · subst hj
      rw [if_pos rfl]
      exact Function.update_self ..
    · rw [if_neg hj, UInt64.add_zero]
      exact Function.update_of_ne (fun heq => hj (Field.cell.inj heq)) ..
  have hone : (∑ j, if j = i then (1 : UInt64) else 0) = 1 :=
    (Finset.sum_ite_eq' Finset.univ i fun _ => (1 : UInt64)).trans (if_pos (Finset.mem_univ i))
  rw [Finset.sum_congr rfl fun j _ => hcell j, Finset.sum_add_distrib, hone]

/-- A word that is no cell leaves the cells alone. -/
theorem cellSum_update (value : ExpHistogramSlot) {f : Field ExpCell} (hf : ∀ i, f ≠ .cell i)
    (v : UInt64) : cellSum (Function.update value f v) = cellSum value :=
  Finset.sum_congr rfl fun i _ => Function.update_of_ne (hf i).symm v value

/-! ## The count is the last word of a slot -/

/-- Every store into a word of a slot is followed by the store into its count. -/
def CountFollows : List (SlotId × Field ExpCell) → Prop
  | [] => True
  | (s, f) :: rest => (f ≠ .count → (s, .count) ∈ rest) ∧ CountFollows rest

theorem CountFollows.append : ∀ {left right : List (SlotId × Field ExpCell)}, CountFollows left →
    CountFollows right → CountFollows (left ++ right)
  | [], _, _, hright => hright
  | _ :: _, _, ⟨hfirst, hleft⟩, hright =>
    ⟨fun hf => List.mem_append_left _ (hfirst hf), hleft.append hright⟩

theorem countFollows_flatMap {α : Type} {words : α → List (SlotId × Field ExpCell)}
    (h : ∀ a, CountFollows (words a)) : ∀ as : List α, CountFollows (as.flatMap words)
  | [] => trivial
  | a :: as => (h a).append (countFollows_flatMap h as)

theorem countFollows_slot (s : SlotId) : ∀ fields : List (Field ExpCell),
    CountFollows ((fields ++ [Field.count]).map (s, ·))
  | [] => ⟨fun hne => absurd rfl hne, trivial⟩
  | _ :: fields => ⟨fun _ => by simp, countFollows_slot s fields⟩

theorem countFollows_zeroProgram (nSlots : Nat) : CountFollows (zeroProgram nSlots) :=
  countFollows_flatMap (fun _ => countFollows_flatMap (fun s => countFollows_slot s _) _) _

/-! ## The invariant -/

/-- A slot whose count the zeroing does not still have to clear keeps the balance that the last
clearing left it with. -/
structure Inv (t : State) : Prop where
  follows : CountFollows t.zeroing
  balance : ∀ s, (s, .count) ∉ t.zeroing →
    (cellSum (t.mem s) = t.mem s .count + owed t.call s ↔ t.met s = true)

theorem inv_zeroed : Inv .zeroed := by
  refine ⟨trivial, fun s _ => ?_⟩
  show cellSum (fun _ => 0) = 0 + 0 ↔ true = true
  rw [UInt64.add_zero]
  exact iff_of_true Finset.sum_const_zero rfl

/-- A call that begins owes nothing yet. -/
theorem owed_begin (s slot : SlotId) (v : UInt64) : owed (some ⟨slot, v, .cell⟩) s = 0 :=
  if_neg fun h => h.2 rfl

theorem owed_halfway (slot : SlotId) (v : UInt64) {pc : RecordPc} (hpc : pc ≠ .cell) :
    owed (some ⟨slot, v, pc⟩) slot = 1 :=
  if_pos ⟨rfl, hpc⟩

/-- A call owes nothing to the other slots. -/
theorem owed_other {c : RecordCall} {s : SlotId} (hs : s ≠ c.slot) :
    owed (some c) s = 0 ∧ owed c.next s = 0 := by
  obtain ⟨slot, v, pc⟩ := c
  have hslot : ∀ pc : RecordPc, owed (some ⟨slot, v, pc⟩) s = 0 :=
    fun pc => if_neg fun h => hs h.1.symm
  refine ⟨hslot pc, ?_⟩
  cases pc with
  | cell => exact hslot .sum
  | sum => exact hslot .count
  | count => rfl

/-- A fetch-add keeps by how much the cells are ahead of the count and of what is owed to it. -/
theorem balance_fetchAdd (value : ExpHistogramSlot) (c : RecordCall) :
    cellSum (Shm.fetchAdd value c.op) = Shm.fetchAdd value c.op .count + owed c.next c.slot ↔
      cellSum value = value .count + owed (some c) c.slot := by
  obtain ⟨slot, v, pc⟩ := c
  dsimp only [RecordCall.op, RecordCall.next]
  cases pc with
  | cell =>
    have hsum : cellSum (Shm.fetchAdd value (.cell (expCell v), 1)) = cellSum value + 1 :=
      sum_fetchAdd value (expCell v)
    have hcount : Shm.fetchAdd value (.cell (expCell v), 1) .count = value .count :=
      Function.update_of_ne (by simp) _ _
    dsimp only
    rw [hsum, hcount, owed_halfway slot v (by simp), owed_begin, UInt64.add_zero]
    exact UInt64.add_left_inj 1
  | sum =>
    have hsum : cellSum (Shm.fetchAdd value (.sum, v)) = cellSum value :=
      cellSum_update value (by simp) _
    have hcount : Shm.fetchAdd value (.sum, v) .count = value .count :=
      Function.update_of_ne (by simp) _ _
    dsimp only
    rw [hsum, hcount, owed_halfway slot v (by simp), owed_halfway slot v (by simp)]
  | count =>
    have hsum : cellSum (Shm.fetchAdd value (.count, 1)) = cellSum value :=
      cellSum_update value (by simp) _
    have hcount : Shm.fetchAdd value (.count, 1) .count = value .count + 1 :=
      Function.update_self _ _ _
    have hreturned : owed none slot = 0 := rfl
    dsimp only
    rw [hsum, hcount, hreturned, owed_halfway slot v (by simp), UInt64.add_zero]

/-- A store by the zeroing. -/
theorem Inv.store {t : State} (ht : Inv t) {slot : SlotId} {f : Field ExpCell}
    {rest : List (SlotId × Field ExpCell)} (hzero : t.zeroing = (slot, f) :: rest) :
    Inv (t.clear slot f rest) := by
  have hfollows := ht.follows
  rw [hzero] at hfollows
  refine ⟨hfollows.2, fun s hs => ?_⟩
  dsimp only [State.clear] at hs ⊢
  by_cases hslot : s = slot
  · subst hslot
    -- a store into another word has the one into the count still ahead
    obtain rfl : f = .count := by
      by_contra hf
      exact hs (hfollows.1 hf)
    have hcells : cellSum (Function.update (t.mem s) .count 0) = cellSum (t.mem s) :=
      cellSum_update _ (by simp) 0
    rw [if_pos rfl, Function.update_self, Function.update_self, Function.update_self,
      decide_eq_true_iff, hcells, UInt64.zero_add]
    exact Iff.rfl
  · have hbefore : (s, Field.count) ∉ t.zeroing := by
      rw [hzero, List.mem_cons]
      rintro (heq | hmem)
      · exact hslot (congrArg Prod.fst heq)
      · exact hs hmem
    have hmet : (if f = .count then Function.update t.met slot (decide (t.Settled slot))
        else t.met) s = t.met s := by
      split
      · exact Function.update_of_ne hslot _ _
      · rfl
    rw [hmet, Function.update_of_ne hslot]
    exact ht.balance s hbefore

/-- **Every move keeps the invariant.** -/
theorem step_inv {nSlots : Nat} {t u : State} {a : Act} (ht : Inv t) (h : step nSlots t a = some u) :
    Inv u := by
  obtain ⟨slot, v, -, hcall, rfl⟩ | ⟨c, -, hcall, rfl⟩ | ⟨-, hzero, rfl⟩ |
    ⟨slot, f, rest, -, hzero, rfl⟩ := step_cases h
  · refine ⟨ht.follows, fun s hs => ?_⟩
    have hbalance := ht.balance s hs
    rw [hcall] at hbalance
    dsimp only
    rw [owed_begin]
    exact hbalance
  · refine ⟨ht.follows, fun s hs => ?_⟩
    have hbalance := ht.balance s hs
    rw [hcall] at hbalance
    dsimp only
    by_cases hslot : s = c.slot
    · subst hslot
      rw [Function.update_self, balance_fetchAdd]
      exact hbalance
    · rw [Function.update_of_ne hslot, (owed_other hslot).2, ← (owed_other hslot).1]
      exact hbalance
  · exact ⟨countFollows_zeroProgram nSlots, fun s _ => ht.balance s (by simp [hzero])⟩
  · exact ht.store hzero

/-- A move that meets the condition leaves no slot behind. -/
theorem step_met {nSlots : Nat} {t u : State} {a : Act} (ht : ∀ s, t.met s = true)
    (hclear : ClearsSettled t a) (h : step nSlots t a = some u) : ∀ s, u.met s = true := by
  obtain ⟨slot, v, -, hcall, rfl⟩ | ⟨c, -, hcall, rfl⟩ | ⟨-, hzero, rfl⟩ |
    ⟨slot, f, rest, ha, hzero, rfl⟩ := step_cases h
  · exact ht
  · exact ht
  · exact ht
  · intro s
    dsimp only [State.clear]
    split
    · rename_i hf
      subst hf
      by_cases hs : s = slot
      · subst hs
        rw [Function.update_self, decide_eq_true_iff]
        exact hclear ha s rest hzero
      · rw [Function.update_of_ne hs]
        exact ht s
    · exact ht s

/-! ## No overflow in fewer than `2 ^ 64` calls -/

/-- A call that has not bumped its cell. -/
def unbumped (call : Option RecordCall) : Nat :=
  match call with
  | some ⟨_, _, .cell⟩ => 1
  | _ => 0

/-- The cells of a slot hold at most one bump of each call. -/
def Bounded (t : State) : Prop := ∀ s, bucketSum (t.mem s) + unbumped t.call ≤ t.calls

theorem bucketSum_fetchAdd_le {ι : Type} [Fintype ι] [DecidableEq ι] (value : Slot ι) (i : ι) :
    bucketSum (Shm.fetchAdd value (.cell i, 1)) ≤ bucketSum value + 1 := by
  have hcell : ∀ j, (Shm.fetchAdd value (.cell i, 1) (.cell j)).toNat ≤
      (value (.cell j)).toNat + if j = i then 1 else 0 := by
    intro j
    by_cases hj : j = i
    · subst hj
      rw [if_pos rfl, Shm.fetchAdd, Function.update_self, UInt64.toNat_add]
      exact Nat.mod_le _ _
    · rw [if_neg hj, Shm.fetchAdd, Function.update_of_ne fun heq => hj (Field.cell.inj heq)]
      exact Nat.le_refl _
  calc bucketSum (Shm.fetchAdd value (.cell i, 1))
      ≤ ∑ j, ((value (.cell j)).toNat + if j = i then 1 else 0) :=
        Finset.sum_le_sum fun j _ => hcell j
    _ = bucketSum value + 1 := by
        rw [Finset.sum_add_distrib, Finset.sum_ite_eq', if_pos (Finset.mem_univ i), bucketSum]

theorem bucketSum_update {ι : Type} [Fintype ι] [DecidableEq ι] (value : Slot ι) {f : Field ι}
    (hf : ∀ i, f ≠ .cell i) (v : UInt64) :
    bucketSum (Function.update value f v) = bucketSum value :=
  Finset.sum_congr rfl fun i _ => by rw [Function.update_of_ne (hf i).symm]

theorem bucketSum_clear_le {ι : Type} [Fintype ι] [DecidableEq ι] (value : Slot ι) (f : Field ι) :
    bucketSum (Function.update value f 0) ≤ bucketSum value := by
  refine Finset.sum_le_sum fun i _ => ?_
  by_cases hi : Field.cell i = f
  · rw [hi, Function.update_self]
    exact Nat.zero_le _
  · rw [Function.update_of_ne hi]

/-- The fetch-add on the cell is the one bump of a call. -/
theorem bucketSum_op_le (value : ExpHistogramSlot) (c : RecordCall) :
    bucketSum (Shm.fetchAdd value c.op) + unbumped c.next ≤
      bucketSum value + unbumped (some c) := by
  obtain ⟨slot, v, pc⟩ := c
  have hnone : ∀ {f : Field ExpCell} (w : UInt64), (∀ i, f ≠ .cell i) →
      bucketSum (Shm.fetchAdd value (f, w)) + 0 ≤ bucketSum value + 0 := by
    intro f w hf
    rw [Shm.fetchAdd, bucketSum_update value hf]
  cases pc with
  | cell =>
    have hbump := bucketSum_fetchAdd_le value (expCell v)
    rw [← Nat.add_zero (bucketSum (Shm.fetchAdd value _))] at hbump
    exact hbump
  | sum => exact hnone v (by simp)
  | count => exact hnone 1 (by simp)

theorem unbumped_next (c : RecordCall) : unbumped c.next = 0 := by
  obtain ⟨slot, v, pc⟩ := c
  cases pc with
  | cell => rfl
  | sum => rfl
  | count => rfl

theorem bounded_zeroed : Bounded .zeroed := by
  intro s
  have hsum : bucketSum (State.zeroed.mem s) = 0 := Finset.sum_eq_zero fun _ _ => rfl
  have hcall : unbumped State.zeroed.call = 0 := rfl
  rw [hsum, hcall]
  exact Nat.zero_le _

theorem step_bounded {nSlots : Nat} {t u : State} {a : Act} (ht : Bounded t)
    (h : step nSlots t a = some u) : Bounded u := by
  intro s
  have hs := ht s
  obtain ⟨slot, v, -, hcall, rfl⟩ | ⟨c, -, hcall, rfl⟩ | ⟨-, hzero, rfl⟩ |
    ⟨slot, f, rest, -, hzero, rfl⟩ := step_cases h
  · have hbegun : unbumped (some ⟨slot, v, .cell⟩) = 1 := rfl
    dsimp only
    rw [hbegun]
    omega
  · rw [hcall] at hs
    dsimp only
    by_cases hslot : s = c.slot
    · subst hslot
      rw [Function.update_self]
      exact Nat.le_trans (bucketSum_op_le _ c) hs
    · rw [Function.update_of_ne hslot]
      have hnext := unbumped_next c
      omega
  · exact hs
  · dsimp only [State.clear]
    by_cases hslot : s = slot
    · subst hslot
      rw [Function.update_self]
      exact Nat.le_trans (Nat.add_le_add_right (bucketSum_clear_le _ f) _) hs
    · rw [Function.update_of_ne hslot]
      exact hs

/-- The sum of words is that of their values, reduced. -/
theorem toNat_sum {ι : Type} [DecidableEq ι] (f : ι → UInt64) (s : Finset ι) :
    (∑ i ∈ s, f i).toNat = (∑ i ∈ s, (f i).toNat) % 2 ^ 64 := by
  induction s using Finset.induction_on with
  | empty => rfl
  | insert i s hi ih =>
    rw [Finset.sum_insert hi, Finset.sum_insert hi, UInt64.toNat_add, ih, Nat.add_mod_mod]

theorem balanced_iff_of_lt {value : ExpHistogramSlot} (h : bucketSum value < 2 ^ 64) :
    Balanced value ↔ (value .count).toNat = bucketSum value := by
  have hsum : (cellSum value).toNat = bucketSum value := by
    rw [cellSum, toNat_sum]
    exact Nat.mod_eq_of_lt h
  rw [Balanced, ← UInt64.toNat_inj, hsum]

/-! ## A zeroing on its own -/

theorem mem_fieldOrder (f : Field ExpCell) : f ∈ fieldOrder := by
  cases f with
  | cell i =>
    cases i with
    | bucket i => simp [fieldOrder]
    | zero => simp [fieldOrder]
  | sum => simp [fieldOrder]
  | count => simp [fieldOrder]

theorem mem_workerTables (s : SlotId) : s ∈ workerTables s.worker := by
  obtain ⟨w, table⟩ := s
  cases table with
  | route i => simp [workerTables]
  | upstream i => simp [workerTables]

/-- A zeroing clears every word of its workers. -/
theorem mem_zeroProgram {nSlots : Nat} {s : SlotId} (hs : s.worker < nSlots) (f : Field ExpCell) :
    (s, f) ∈ zeroProgram nSlots := by
  refine List.mem_flatMap.mpr ⟨s.worker, List.mem_range.mpr hs, ?_⟩
  exact List.mem_flatMap.mpr
    ⟨s, mem_workerTables s, List.mem_map.mpr ⟨f, mem_fieldOrder f, rfl⟩⟩

/-- The stores of a zeroing with nothing in between. -/
theorem exec_stores (nSlots : Nat) : ∀ (words : List (SlotId × Field ExpCell)) (t : State),
    t.zeroing = words → ∃ u, Run.exec (step nSlots) t (List.replicate words.length .store) = some u ∧
      u.zeroing = [] ∧ u.call = t.call ∧
      ∀ s f, u.mem s f = if (s, f) ∈ words then 0 else t.mem s f
  | [], t, hzero => ⟨t, rfl, hzero, rfl, fun s f => by simp⟩
  | (slot, g) :: rest, t, hzero => by
    have hstep : step nSlots t .store = some (t.clear slot g rest) := by
      simp only [step, hzero]
    obtain ⟨u, hrun, hdone, hcall, hmem⟩ := exec_stores nSlots rest (t.clear slot g rest) rfl
    refine ⟨u, Run.exec_cons.mpr ⟨_, hstep, hrun⟩, hdone, hcall, fun s f => ?_⟩
    rw [hmem s f]
    by_cases hword : s = slot ∧ f = g
    · obtain ⟨rfl, rfl⟩ := hword
      simp [State.clear]
    · have hne : (s, f) ≠ (slot, g) := fun heq => hword ⟨congrArg Prod.fst heq, congrArg Prod.snd heq⟩
      have hkept : (t.clear slot g rest).mem s f = t.mem s f := by
        dsimp only [State.clear]
        by_cases hslot : s = slot
        · subst hslot
          rw [Function.update_self, Function.update_of_ne fun hf => hword ⟨rfl, hf⟩]
        · rw [Function.update_of_ne hslot]
      rw [hkept]
      simp only [List.mem_cons, hne, false_or]

theorem along_of_no_store (nSlots : Nat) : ∀ {as : List Act} {t : State}, .store ∉ as →
    Run.Along (step nSlots) ClearsSettled t as
  | [], _, _ => trivial
  | a :: as, t, h => by
    refine ⟨fun ha => ?_, fun u _ => along_of_no_store nSlots fun hmem => h (.tail a hmem)⟩
    exact absurd (ha ▸ List.mem_cons_self) h

/-- On zero slots, with no call in progress, a zeroing meets the condition. -/
theorem along_stores (nSlots : Nat) : ∀ (k : Nat) {t : State}, t.call = none →
    (∀ s f, t.mem s f = 0) → Run.Along (step nSlots) ClearsSettled t (List.replicate k .store)
  | 0, _, _, _ => trivial
  | k + 1, t, hcall, hmem => by
    constructor
    · intro _ s rest _
      unfold State.Settled
      rw [hcall]
      exact Finset.sum_eq_zero fun i _ => hmem s (.cell i)
    · intro u hu
      obtain ⟨_, _, ha, -⟩ | ⟨_, ha, -⟩ | ⟨ha, -⟩ | ⟨slot, g, rest, -, -, rfl⟩ := step_cases hu
      · cases ha
      · cases ha
      · cases ha
      · refine along_stores nSlots k hcall fun s f => ?_
        dsimp only [State.clear]
        by_cases hslot : s = slot
        · subst hslot
          rw [Function.update_self, Function.update_apply, hmem, ite_self]
        · rw [Function.update_of_ne hslot, hmem]

/-- A call that has bumped its cell goes on to the sum and the count. -/
theorem exec_sum_count (nSlots : Nat) (t : State) {slot : SlotId} {v : UInt64}
    (hcall : t.call = some ⟨slot, v, .sum⟩) :
    ∃ u, Run.exec (step nSlots) t [.fetchAdd, .fetchAdd] = some u ∧ u.call = none ∧
      u.zeroing = t.zeroing ∧
      u.mem slot = Shm.fetchAdd (Shm.fetchAdd (t.mem slot) (.sum, v)) (.count, 1) := by
  have hstep : ∀ {r : State} {c : RecordCall}, r.call = some c → step nSlots r .fetchAdd =
      some { r with
        mem := Function.update r.mem c.slot (Shm.fetchAdd (r.mem c.slot) c.op), call := c.next } := by
    intro r c hr
    simp only [step, hr]
  refine ⟨_, Run.exec_cons.mpr ⟨_, hstep hcall, Run.exec_cons.mpr
    ⟨_, hstep (c := ⟨slot, v, .count⟩) rfl, rfl⟩⟩, rfl, rfl, ?_⟩
  dsimp only
  rw [Function.update_self, Function.update_self]
  rfl

/-! ## The condition is exact -/

/-- The slot of the first route of the first worker. -/
def firstRoute : SlotId := ⟨0, .route ⟨0, by decide⟩⟩

/-- A call of 5 µs that bumps its bucket before a zeroing and adds the rest after it. -/
def splitActs : List Act :=
  [Act.record firstRoute 5, .fetchAdd, .reload] ++
    (List.replicate (zeroProgram 1).length Act.store ++ [Act.fetchAdd, .fetchAdd])

/-- **A zeroing between the bucket and the count of a call leaves a count without a bucket.** -/
theorem zeroing_splits_record :
    ∃ t, Run.exec (step 1) .zeroed splitActs = some t ∧ t.Quiet ∧
      t.mem firstRoute .count = 1 ∧ (∀ i, t.mem firstRoute (.cell i) = 0) ∧
      ¬Balanced (t.mem firstRoute) := by
  -- the zeroing clears the bump; what the call does after it reaches the sum and the count only
  obtain ⟨u, hrun, hzero, hcall, hmem⟩ := exec_stores 1 (zeroProgram 1)
    { State.zeroed with
      mem := Function.update State.zeroed.mem firstRoute
        (Shm.fetchAdd (State.zeroed.mem firstRoute) (.cell (expCell 5), 1))
      call := some ⟨firstRoute, 5, .sum⟩
      zeroing := zeroProgram 1
      calls := 1 } rfl
  have hcleared : ∀ f, u.mem firstRoute f = 0 := by
    intro f
    rw [hmem firstRoute f, if_pos (mem_zeroProgram (by decide) f)]
  obtain ⟨t, hlast, hcall', hzero', hmem'⟩ := exec_sum_count 1 u hcall
  have hcount : t.mem firstRoute .count = 1 := by
    rw [hmem']
    simp [Shm.fetchAdd, hcleared]
  have hcells : ∀ i, t.mem firstRoute (.cell i) = 0 := by
    intro i
    rw [hmem']
    simp [Shm.fetchAdd, hcleared]
  refine ⟨t, ?_, ⟨hcall', hzero'.trans hzero⟩, hcount, hcells, ?_⟩
  · exact Run.exec_append.mpr ⟨_, rfl, Run.exec_append.mpr ⟨u, hrun, hlast⟩⟩
  · intro hbalanced
    have hsum : cellSum (t.mem firstRoute) = 0 := Finset.sum_eq_zero fun i _ => hcells i
    rw [Balanced, hcount, hsum] at hbalanced
    exact absurd hbalanced (by decide)

/-- **The balance of the slots under reloads.**  In every interleaving of `record` calls and
zeroings that starts from zero slots and has neither in progress now, a slot is balanced iff the
last clearing of its count found its cells holding exactly what the call in progress had still to
count; so all are balanced when every clearing does.  With fewer than `2 ^ 64` calls the balance is
that of the plain numbers. -/
theorem balanced_iff_met {nSlots : Nat} {as : List Act} {t : State}
    (h : Run.exec (step nSlots) .zeroed as = some t) (hquiet : t.Quiet) :
    (∀ s, Balanced (t.mem s) ↔ t.met s = true) ∧
      (Run.Along (step nSlots) ClearsSettled .zeroed as → ∀ s, Balanced (t.mem s)) ∧
      (t.calls < 2 ^ 64 → ∀ s,
        Balanced (t.mem s) ↔ (t.mem s .count).toNat = bucketSum (t.mem s)) := by
  have hinv : Inv t := Run.exec_invariant (fun _ _ _ ht hstep => step_inv ht hstep) h inv_zeroed
  have hmet : ∀ s, Balanced (t.mem s) ↔ t.met s = true := by
    intro s
    have hbalance := hinv.balance s (by rw [hquiet.2]; exact List.not_mem_nil)
    have hnone : owed none s = 0 := rfl
    rw [hquiet.1, hnone, UInt64.add_zero] at hbalance
    rw [Balanced, eq_comm, hbalance]
  refine ⟨hmet, ?_, ?_⟩
  · intro halong s
    exact (hmet s).mpr (Run.exec_invariant_along
      (fun _ _ _ ht hclear hstep => step_met ht hclear hstep) halong h (fun _ => rfl) s)
  · intro hcalls s
    have hbounded : Bounded t :=
      Run.exec_invariant (fun _ _ _ ht hstep => step_bounded ht hstep) h bounded_zeroed
    have hs := hbounded s
    exact balanced_iff_of_lt (by omega)

/-- A zeroing of zero slots, then a call of 5 µs. -/
def reloadActs : List Act :=
  [Act.reload] ++ (List.replicate (zeroProgram 1).length Act.store ++
    [Act.record firstRoute 5, .fetchAdd, .fetchAdd, .fetchAdd])

theorem balanced_iff_met_reloadActs :
    Run.Along (step 1) ClearsSettled .zeroed reloadActs ∧
      ∃ t, Run.exec (step 1) .zeroed reloadActs = some t ∧ t.Quiet ∧
        Balanced (t.mem firstRoute) := by
  obtain ⟨u, hrun, hzero, hcall, hmem⟩ := exec_stores 1 (zeroProgram 1)
    { State.zeroed with zeroing := zeroProgram 1 } rfl
  have hstart : step 1 u (.record firstRoute 5) =
      some { u with call := some ⟨firstRoute, 5, .cell⟩, calls := u.calls + 1 } := by
    simp only [step, hcall]
    rfl
  obtain ⟨t, hlast, hcall', hzero', -⟩ := exec_sum_count 1
    { u with
      mem := Function.update u.mem firstRoute
        (Shm.fetchAdd (u.mem firstRoute) (RecordCall.op ⟨firstRoute, 5, .cell⟩))
      call := some ⟨firstRoute, 5, .sum⟩
      calls := u.calls + 1 } rfl
  have hrun' : Run.exec (step 1) .zeroed reloadActs = some t :=
    Run.exec_append.mpr ⟨_, rfl, Run.exec_append.mpr ⟨u, hrun, Run.exec_cons.mpr
      ⟨_, hstart, Run.exec_cons.mpr ⟨_, rfl, hlast⟩⟩⟩⟩
  -- however many stores there are
  have hstores : ∀ k, Run.Along (step 1) ClearsSettled .zeroed
      ([.reload] ++ (List.replicate k .store ++
        [.record firstRoute 5, .fetchAdd, .fetchAdd, .fetchAdd])) := by
    intro k
    have hreload : Run.exec (step 1) .zeroed [.reload] =
      some { State.zeroed with zeroing := zeroProgram 1 } := rfl
    refine Run.along_append (along_of_no_store 1 (by decide)) fun r hr => ?_
    rw [Option.some.inj (hr.symm.trans hreload)]
    exact Run.along_append (along_stores 1 k rfl fun _ _ => rfl)
      fun _ _ => along_of_no_store 1 (by decide)
  have halong : Run.Along (step 1) ClearsSettled .zeroed reloadActs := hstores _
  have hquiet : t.Quiet := ⟨hcall', hzero'.trans hzero⟩
  exact ⟨halong, t, hrun', hquiet, (balanced_iff_met hrun' hquiet).2.1 halong firstRoute⟩

end NgxOtel.Shm.Zeroing
