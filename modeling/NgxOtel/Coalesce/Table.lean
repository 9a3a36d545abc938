import NgxOtel.Lib.LinearProbe
import NgxOtel.Lib.Word
import Mathlib.Data.List.FinRange

/-!
# The error-log coalescer

`logs/coalesce.rs`: a worker counts repeated error lines in a table of 256 slots in shared memory
and sends only the first line of each template through its ring; the exporter empties the table
once per collection.

* `stableCore`, `coalesceKey` — the part of a line that identifies its template, and its FNV-1a key.
* `coalesce` — one line: found in the table, inserted, or sent on untracked.
* `drainCoalesceTable` — one sweep: the counts, and the emptied table.
* `pairAt` — the `(key_hash, severity)` pair a slot holds, the view that `LinearProbe` is about.
-/

set_option autoImplicit false

namespace NgxOtel.Coalesce

open Word LinearProbe

/-! ## The template of a line -/

/-- Steps 1 and 2 of `stable_core`: skip past the first `a b`; without it only the last byte is
left. -/
def skipPast (a b : UInt8) : Bytes → Bytes
  | x :: y :: rest => if x = a ∧ y = b then rest else skipPast a b (y :: rest)
  | short => short

/-- `u8::is_ascii_digit`. -/
def isAsciiDigit (b : UInt8) : Bool := 48 ≤ b && b ≤ 57

/-- Step 3: skip an optional `*<digits> `. -/
def skipConnection : Bytes → Bytes
  | [] => []
  | b :: rest =>
    if b = 42 then
      match rest.dropWhile isAsciiDigit with
      | 32 :: rest => rest
      | rest => rest
    else b :: rest

/-- The trailing newline is not part of the message. -/
def trimNewline (bytes : Bytes) : Bytes :=
  if bytes.getLast? = some 10 then bytes.dropLast else bytes

/-- The bytes of ` while ` and of `, client:`. -/
def CONTEXT_MARKERS : List Bytes :=
  [[32, 119, 104, 105, 108, 101, 32], [44, 32, 99, 108, 105, 101, 110, 116, 58]]

/-- Step 4: cut before the first context marker. -/
def cutContext : Bytes → Bytes
  | [] => []
  | b :: rest =>
    if CONTEXT_MARKERS.any (fun m => List.isPrefixOf m (b :: rest)) then []
    else b :: cutContext rest

/-- `stable_core`: the message without time, level, process, connection and handler context; the
whole line if nothing is left. -/
def stableCore (buf : Bytes) : Bytes :=
  let message := skipConnection (skipPast 58 32 (skipPast 93 32 buf))
  let core := cutContext (trimNewline message)
  if core.isEmpty then buf else core

def OFFSET_BASIS : UInt64 := 14695981039346656037
def PRIME : UInt64 := 1099511628211

/-- `coalesce_key`: FNV-1a over the severity byte and the core; 0 is kept for empty slots. -/
def coalesceKey (severity : UInt8) (core : Bytes) : UInt64 :=
  let h := core.foldl (fun h b => (h ^^^ b.toUInt64) * PRIME)
    ((OFFSET_BASIS ^^^ severity.toUInt64) * PRIME)
  if h = 0 then 1 else h

theorem coalesceKey_ne_zero (severity : UInt8) (core : Bytes) : coalesceKey severity core ≠ 0 := by
  unfold coalesceKey
  simp only
  split
  · decide
  · assumption

/-! ## The table -/

def COALESCE_CAPACITY : Nat := 256

/-- `CoalesceSlot`: `key_hash = 0` marks an empty slot, `count` is a 32-bit word. -/
structure CoalesceSlot where
  keyHash : UInt64
  severity : UInt8
  count : Nat
  sampleEmitted : Bool
  deriving DecidableEq, Repr

/-- A zeroed slot. -/
def CoalesceSlot.zeroed : CoalesceSlot := ⟨0, 0, 0, false⟩

/-- The slots of one worker. -/
abbrev Table := Fin COALESCE_CAPACITY → CoalesceSlot

def zeroedTable : Table := fun _ => .zeroed

/-- `CoalesceResult`; an untracked line is emitted with `template_hash = 0`. -/
inductive CoalesceResult where
  | coalesced
  | emitVerbatim (templateHash : UInt64)
  deriving DecidableEq, Repr

def HIGH_SEVERITY_THRESHOLD : UInt8 := 3

/-- `key & (COALESCE_CAPACITY - 1)`, the capacity being a power of two. -/
def startSlot (key : UInt64) : Fin COALESCE_CAPACITY :=
  ⟨key.toNat &&& (COALESCE_CAPACITY - 1),
    Nat.lt_of_le_of_lt Nat.and_le_right (by decide)⟩

/-- The slot of a novel template. -/
def novelSlot (key : UInt64) (severity : UInt8) : CoalesceSlot := ⟨key, severity, 1, true⟩

/-- The slot of a known template after one more line. -/
def bumpedSlot (slot : CoalesceSlot) : CoalesceSlot :=
  { slot with count := addW 32 slot.count 1, sampleEmitted := true }

/-- The probe loop of `coalesce`.  It runs at most `COALESCE_CAPACITY` times, the fuel it is
started with. -/
def probeLoop (table : Table) (severity : UInt8) (key : UInt64) :
    (fuel : Nat) → (probe : Fin COALESCE_CAPACITY) → (probes : Nat) → CoalesceResult × Table
  | 0, _, _ => (.emitVerbatim 0, table)
  | fuel + 1, probe, probes =>
    let slot := table probe
    if slot.keyHash = 0 then
      (.emitVerbatim key, Function.update table probe (novelSlot key severity))
    else if slot.keyHash = key ∧ slot.severity = severity then
      (if slot.sampleEmitted then .coalesced else .emitVerbatim key,
        Function.update table probe (bumpedSlot slot))
    else
      let probe := walk probe 1
      let probes := probes + 1
      if probes ≥ COALESCE_CAPACITY then (.emitVerbatim 0, table)
      else if probe = startSlot key then (.emitVerbatim 0, table)
      else probeLoop table severity key fuel probe probes

/-- `coalesce`: what to do with a line, and the table after it. -/
def coalesce (table : Table) (severity : UInt8) (buf : Bytes) (coalesceEnabled : Bool) :
    CoalesceResult × Table :=
  if !coalesceEnabled then (.emitVerbatim 0, table)
  else if severity ≤ HIGH_SEVERITY_THRESHOLD then (.emitVerbatim 0, table)
  else
    let key := coalesceKey severity (stableCore buf)
    probeLoop table severity key COALESCE_CAPACITY (startSlot key) 0

/-- One turn of the sweep: the tuple of an occupied slot that has counted, and the emptied slot. -/
def drainSlot (slot : CoalesceSlot) : Option (UInt64 × UInt8 × Nat) × CoalesceSlot :=
  if slot.keyHash = 0 then (none, slot)
  else (if slot.count > 0 then some (slot.keyHash, slot.severity, slot.count) else none, .zeroed)

/-- `drain_coalesce_table`: each slot is visited once, in order. -/
def drainCoalesceTable (table : Table) : List (UInt64 × UInt8 × Nat) × Table :=
  ((List.finRange COALESCE_CAPACITY).filterMap fun i => (drainSlot (table i)).1,
    fun i => (drainSlot (table i)).2)

/-! ## What one call does -/

/-- A template as the table knows it: key and severity. -/
abbrev Pair := UInt64 × UInt8

/-- The pair of a line. -/
def pairOf (severity : UInt8) (buf : Bytes) : Pair := (coalesceKey severity (stableCore buf), severity)

/-- The pair that a slot holds. -/
def pairAt (table : Table) (i : Fin COALESCE_CAPACITY) : Option Pair :=
  if (table i).keyHash = 0 then none else some ((table i).keyHash, (table i).severity)

/-- The slot at which the search for a pair starts. -/
def home (p : Pair) : Fin COALESCE_CAPACITY := startSlot p.1

/-- Every pair is in one slot, and reached over occupied slots from the slot its key selects. -/
structure Searchable (table : Table) : Prop where
  distinct : Distinct (pairAt table)
  chained : Chained home (pairAt table)

theorem val_home (p : Pair) : (home p).val = p.1.toNat % 256 :=
  Nat.and_two_pow_sub_one_eq_mod p.1.toNat 8

/-- The chain of a pair, by the numbers of its slots. -/
theorem Searchable.chain {table : Table} (h : Searchable table) {i : Fin COALESCE_CAPACITY}
    {p : Pair} (hp : pairAt table i = some p) :
    ∃ d < 256, i.val = (p.1.toNat % 256 + d) % 256 ∧
      ∀ e < d, ∀ j, j.val = (p.1.toNat % 256 + e) % 256 → pairAt table j ≠ none := by
  obtain ⟨d, hd, rfl, hbefore⟩ := h.chained i p hp
  rw [← val_home]
  refine ⟨d, hd, rfl, fun e he j hj => ?_⟩
  have hwalk : j = walk (home p) e := Fin.ext hj
  rw [hwalk]
  exact hbefore e he

theorem pairAt_eq_none {table : Table} {i : Fin COALESCE_CAPACITY} :
    pairAt table i = none ↔ (table i).keyHash = 0 := by
  simp [pairAt]

theorem pairAt_eq_some {table : Table} {i : Fin COALESCE_CAPACITY} {p : Pair} (hp : p.1 ≠ 0) :
    pairAt table i = some p ↔ (table i).keyHash = p.1 ∧ (table i).severity = p.2 := by
  unfold pairAt
  split
  · rename_i hzero
    simp [hzero, hp.symm]
  · simp [Prod.ext_iff]

/-- The probe loop stops at an empty slot, and at the slot of its pair. -/
def stopAt (table : Table) (p : Pair) (i : Fin COALESCE_CAPACITY) : Bool :=
  pairAt table i = none ∨ pairAt table i = some p

/-- What happens at the slot where the loop stops. -/
def hitSlot (table : Table) (p : Pair) (i : Fin COALESCE_CAPACITY) : CoalesceResult × Table :=
  if pairAt table i = none then (.emitVerbatim p.1, Function.update table i (novelSlot p.1 p.2))
  else (if (table i).sampleEmitted then .coalesced else .emitVerbatim p.1,
    Function.update table i (bumpedSlot (table i)))

theorem probeLoop_eq_search (table : Table) {p : Pair} (hp : p.1 ≠ 0) {fuel probes : Nat}
    (hfuel : fuel + probes = COALESCE_CAPACITY) :
    probeLoop table p.2 p.1 fuel (walk (home p) probes) probes =
      ((search (stopAt table p) (walk (home p) probes) fuel).elim (.emitVerbatim 0, table)
        (hitSlot table p)) := by
  induction fuel generalizing probes with
  | zero => rfl
  | succ fuel ih =>
    unfold probeLoop search
    generalize hi : walk (home p) probes = i
    have hnext : walk i 1 = walk (home p) (probes + 1) := by rw [← hi, walk_walk]
    by_cases hempty : pairAt table i = none
    · simp [stopAt, hitSlot, hempty, pairAt_eq_none.mp hempty]
    · have hkey : (table i).keyHash ≠ 0 := fun h => hempty (pairAt_eq_none.mpr h)
      by_cases hfound : pairAt table i = some p
      · have hslot := (pairAt_eq_some hp).mp hfound
        simp [stopAt, hitSlot, hfound, hp, hslot]
      · have hslot : ¬((table i).keyHash = p.1 ∧ (table i).severity = p.2) :=
          fun h => hfound ((pairAt_eq_some hp).mpr h)
        simp only [if_neg hkey, if_neg hslot, stopAt, hempty, hfound, hnext]
        by_cases hturn : probes + 1 ≥ COALESCE_CAPACITY
        · have hzero : fuel = 0 := by omega
          simp [hturn, hzero, search]
        · -- the loop is not back at its first slot before it has made a full turn
          have hstart : walk (home p) (probes + 1) ≠ startSlot p.1 :=
            walk_ne_self (home p) (Nat.succ_pos _) (by omega)
          simpa [hturn, hstart] using ih (by omega)

/-- The outcomes of a tracked line: its template is novel and takes the first empty slot of its
chain, or is known, or finds all slots taken by others. -/
inductive Outcome (table : Table) (p : Pair) : CoalesceResult × Table → Prop where
  | novel (d : Nat) (hd : d < COALESCE_CAPACITY) (hempty : pairAt table (walk (home p) d) = none)
      (hbefore : ∀ e < d, pairAt table (walk (home p) e) ≠ none)
      (habsent : ∀ i, pairAt table i ≠ some p) :
      Outcome table p (.emitVerbatim p.1,
        Function.update table (walk (home p) d) (novelSlot p.1 p.2))
  | known (i : Fin COALESCE_CAPACITY) (hfound : pairAt table i = some p) :
      Outcome table p (if (table i).sampleEmitted then .coalesced else .emitVerbatim p.1,
        Function.update table i (bumpedSlot (table i)))
  | full (hfull : ∀ i, pairAt table i ≠ none) (habsent : ∀ i, pairAt table i ≠ some p) :
      Outcome table p (.emitVerbatim 0, table)

theorem not_stopAt {table : Table} {p : Pair} {i : Fin COALESCE_CAPACITY}
    (h : stopAt table p i = false) : pairAt table i ≠ none ∧ pairAt table i ≠ some p := by
  simpa [stopAt] using h

theorem outcome_search {table : Table} (ht : Searchable table) (p : Pair) :
    Outcome table p ((search (stopAt table p) (home p) COALESCE_CAPACITY).elim
      (.emitVerbatim 0, table) (hitSlot table p)) := by
  cases hsearch : search (stopAt table p) (home p) COALESCE_CAPACITY with
  | none =>
    have hpass : ∀ i, pairAt table i ≠ none ∧ pairAt table i ≠ some p := by
      intro i
      obtain ⟨d, hd, rfl⟩ := exists_walk (home p) i
      exact not_stopAt (search_eq_none hsearch d hd)
    exact .full (fun i => (hpass i).1) (fun i => (hpass i).2)
  | some i =>
    obtain ⟨d, hd, rfl, hstop, hbefore⟩ := search_eq_some hsearch
    by_cases hempty : pairAt table (walk (home p) d) = none
    · rw [Option.elim_some, hitSlot, if_pos hempty]
      exact .novel d hd hempty (fun e he => (not_stopAt (hbefore e he)).1)
        (absent_of_empty ht.chained hempty fun e he => (not_stopAt (hbefore e he)).2)
    · rw [Option.elim_some, hitSlot, if_neg hempty]
      exact .known _ (by simpa [stopAt, hempty] using hstop)

/-- **One tracked line has one of the three outcomes.** -/
theorem coalesce_outcome {table : Table} (ht : Searchable table) {severity : UInt8} (buf : Bytes)
    (hsev : ¬severity ≤ HIGH_SEVERITY_THRESHOLD) :
    Outcome table (pairOf severity buf) (coalesce table severity buf true) := by
  have hloop := probeLoop_eq_search table (p := pairOf severity buf)
    (coalesceKey_ne_zero severity (stableCore buf)) (Nat.add_zero COALESCE_CAPACITY)
  rw [walk_zero] at hloop
  have hcall : coalesce table severity buf true =
      probeLoop table severity (pairOf severity buf).1 COALESCE_CAPACITY
        (home (pairOf severity buf)) 0 := by
    simp only [coalesce, Bool.not_true, Bool.false_eq_true, if_false, if_neg hsev]
    rfl
  rw [hcall]
  exact hloop ▸ outcome_search ht _

/-! ## The table stays searchable -/

theorem pairAt_update_novel (table : Table) {p : Pair} (hp : p.1 ≠ 0)
    (i : Fin COALESCE_CAPACITY) :
    pairAt (Function.update table i (novelSlot p.1 p.2)) =
      Function.update (pairAt table) i (some p) := by
  funext j
  by_cases hj : j = i
  · subst hj
    simp [pairAt, novelSlot, hp]
  · simp [pairAt, Function.update_of_ne hj]

theorem pairAt_update_bumped (table : Table) (i : Fin COALESCE_CAPACITY) :
    pairAt (Function.update table i (bumpedSlot (table i))) = pairAt table := by
  funext j
  by_cases hj : j = i
  · subst hj
    simp [pairAt, bumpedSlot]
  · simp [pairAt, Function.update_of_ne hj]

theorem searchable_of_pairAt {table table' : Table} (h : pairAt table' = pairAt table)
    (ht : Searchable table) : Searchable table' :=
  ⟨by rw [h]; exact ht.distinct, by rw [h]; exact ht.chained⟩

/-- **Every outcome keeps the table searchable.** -/
theorem Outcome.searchable {table : Table} {p : Pair} {r : CoalesceResult × Table} (hp : p.1 ≠ 0)
    (ht : Searchable table) (h : Outcome table p r) : Searchable r.2 := by
  cases h with
  | novel d hd hempty hbefore habsent =>
    constructor
    · rw [pairAt_update_novel table hp]
      exact ht.distinct.insert habsent
    · rw [pairAt_update_novel table hp]
      exact ht.chained.insert hd hbefore
  | known i hfound => exact searchable_of_pairAt (pairAt_update_bumped table i) ht
  | full hfull habsent => exact ht

theorem pairAt_zeroedTable (i : Fin COALESCE_CAPACITY) : pairAt zeroedTable i = none := rfl

theorem searchable_of_empty {table : Table} (h : ∀ i, pairAt table i = none) :
    Searchable table := by
  constructor
  · intro i j p hi
    rw [h i] at hi
    cases hi
  · intro i p hi
    rw [h i] at hi
    cases hi

theorem pairAt_drained (table : Table) (i : Fin COALESCE_CAPACITY) :
    pairAt (drainCoalesceTable table).2 i = none := by
  rw [pairAt_eq_none]
  simp only [drainCoalesceTable, drainSlot]
  split
  · assumption
  · rfl

end NgxOtel.Coalesce
