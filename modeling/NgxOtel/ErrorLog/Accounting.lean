import NgxOtel.ErrorLog.Collect
import Mathlib.Tactic.Tauto

/-!
# Every logged line is accounted for

Occurrence counts travel in the coalescer table, the lines themselves in the ring; the exporter
reads the table first and the ring afterwards, while the worker keeps writing.

* `Balanced` — per pair, the lines logged are those exported, those lost, those counted in the
  table, the untracked ones in the ring, and the counts that the collection in progress still owes.
* `Samples` — a tracked record in the ring belongs to a count that has not been exported: one of the
  collection in progress while it pops, one of the table otherwise.
* `QuietSample` — no tracked record enters the ring between the drain of the table and the pop that
  finds the ring empty.

## Results

* `collections_account` — **in runs whose samples are all quiet, complete collections account for
  every line exactly**.
* `hasty_sample_counted_twice` — a line logged between the drain and the pop is exported twice.
-/

set_option autoImplicit false

namespace NgxOtel.ErrorLog

open Word Coalesce DataModel

variable {F : Type}

/-! ## What is owed for a pair -/

/-- The counts of a collection for `p` that no record has consumed yet. -/
def outstanding (counts : Counts) (consumed : List UInt64) (p : Pair) : Nat :=
  ((counts.filter fun x => (x.1, x.2.1) = p ∧ x.1 ∉ consumed).map fun x => x.2.2).sum

/-- The lines of `p` that the table has counted: what a drain would return. -/
def held (table : Table) (p : Pair) : Nat := outstanding (drainCoalesceTable table).1 [] p

def Phase.outstanding : Phase → Pair → Nat
  | .idle, _ => 0
  | .popping c, p | .orphaning c, p => ErrorLog.outstanding c.counts c.consumed p

/-- The untracked lines of `p` in the ring. -/
def untracked (ring : List Entry) (p : Pair) : Nat :=
  ring.countP fun e => e.templateHash = 0 ∧ e.template.pair = p

def Origin.pair : Origin → Pair
  | .line template => template.pair
  | .orphan p => p

/-- The lines of `p` that the exported records stand for. -/
def exportedWeight (exported : List (Exported F)) (p : Pair) : Nat :=
  ((exported.filter fun x => x.origin.pair = p).map fun x => weight x.record).sum

/-- The lines of `p` among a list of templates. -/
def linesOf (templates : List Template) (p : Pair) : Nat :=
  templates.countP fun template => template.pair = p

theorem outstanding_cons (x : UInt64 × UInt8 × Nat) (counts : Counts) (consumed : List UInt64)
    (p : Pair) : outstanding (x :: counts) consumed p =
      (if (x.1, x.2.1) = p ∧ x.1 ∉ consumed then x.2.2 else 0) + outstanding counts consumed p := by
  unfold outstanding
  rw [List.filter_cons]
  split <;> rename_i h <;> simp only [decide_eq_true_eq] at h
  · simp [h]
  · simp [h]

theorem outstanding_eq_zero {counts : Counts} {consumed : List UInt64} {p : Pair}
    (h : ∀ x ∈ counts, (x.1, x.2.1) = p → x.1 ∈ consumed) : outstanding counts consumed p = 0 := by
  unfold outstanding
  rw [List.filter_eq_nil_iff.mpr]
  · rfl
  · intro x hx
    simpa using h x hx

theorem exists_of_outstanding_pos {counts : Counts} {consumed : List UInt64} {p : Pair}
    (h : 0 < outstanding counts consumed p) :
    ∃ count, (p.1, p.2, count) ∈ counts ∧ p.1 ∉ consumed := by
  by_contra hnone
  simp only [not_exists, not_and, not_not] at hnone
  have hzero : outstanding counts consumed p = 0 := by
    refine outstanding_eq_zero ?_
    intro x hx hp
    subst hp
    exact hnone x.2.2 hx
  omega

/-- A count that is the only one of its pair is what is outstanding for it. -/
theorem outstanding_of_mem {counts : Counts} {consumed : List UInt64} {p : Pair} {count : Nat}
    (hpairs : (counts.map fun x => (x.1, x.2.1)).Nodup) (hmem : (p.1, p.2, count) ∈ counts)
    (hfree : p.1 ∉ consumed) : outstanding counts consumed p = count := by
  induction counts with
  | nil => cases hmem
  | cons x rest ih =>
    simp only [List.map_cons, List.nodup_cons] at hpairs
    rw [outstanding_cons]
    rcases List.mem_cons.mp hmem with heq | hrest
    · subst heq
      have hlater : outstanding rest consumed p = 0 := by
        refine outstanding_eq_zero fun y hy hp => absurd ?_ hpairs.1
        exact List.mem_map.mpr ⟨y, hy, hp⟩
      simp [hfree, hlater]
    · have hne : (x.1, x.2.1) ≠ p := by
        rintro rfl
        exact hpairs.1 (List.mem_map.mpr ⟨_, hrest, rfl⟩)
      simp [hne, ih hpairs.2 hrest]

theorem nodup_pairs {counts : Counts} (hkeys : (counts.map fun x => x.1).Nodup) :
    (counts.map fun x => (x.1, x.2.1)).Nodup := by
  refine List.Nodup.of_map Prod.fst ?_
  rw [List.map_map]
  exact hkeys

/-- Consuming a hash settles the one count that has it. -/
theorem outstanding_consume {counts : Counts} {consumed : List UInt64} {p : Pair} {count : Nat}
    (hkeys : (counts.map fun x => x.1).Nodup) (hmem : (p.1, p.2, count) ∈ counts)
    (hfree : p.1 ∉ consumed) (q : Pair) :
    outstanding counts consumed q =
      outstanding counts (p.1 :: consumed) q + if q = p then count else 0 := by
  by_cases hq : q = p
  · subst hq
    have hafter : outstanding counts (q.1 :: consumed) q = 0 :=
      outstanding_eq_zero fun x _ hx => by rw [← hx]; exact List.mem_cons_self
    rw [outstanding_of_mem (nodup_pairs hkeys) hmem hfree, hafter, if_pos rfl, Nat.zero_add]
  · rw [if_neg hq, Nat.add_zero]
    unfold outstanding
    congr 2
    refine List.filter_congr ?_
    intro x hx
    -- a count with the hash of `p` is that of `p`
    have hne : (x.1, x.2.1) = q → x.1 ≠ p.1 := by
      rintro rfl heq
      exact hq (by rw [List.inj_on_of_nodup_map hkeys hx hmem heq])
    simp only [List.mem_cons, not_or, decide_eq_decide]
    tauto

/-- The map that a collection looks counts up in, when no two counts share a hash. -/
theorem Counts.get_eq {counts : Counts} {p : Pair} {count : Nat}
    (hkeys : (counts.map fun x => x.1).Nodup) (hmem : (p.1, p.2, count) ∈ counts) :
    counts.get p.1 = some count := by
  unfold Counts.get
  cases hfind : counts.reverse.find? (fun x => x.1 = p.1) with
  | none =>
    have hmiss := List.find?_eq_none.mp hfind _ (List.mem_reverse.mpr hmem)
    simp at hmiss
  | some x =>
    have hx : x ∈ counts := List.mem_reverse.mp (List.mem_of_find?_eq_some hfind)
    have hkey : x.1 = p.1 := by simpa using List.find?_some hfind
    rw [List.inj_on_of_nodup_map hkeys hx hmem hkey, Option.map_some]

/-! ## What the table has counted -/

section Table

variable {s : History} {p : Pair}

theorem ne_zero_of_pairAt {table : Table} {i : Fin COALESCE_CAPACITY}
    (h : pairAt table i = some p) : p.1 ≠ 0 := by
  simp only [pairAt, Option.ite_none_left_eq_some, Option.some.injEq] at h
  exact h.2 ▸ h.1

/-- A drain returns one count for a pair that the table holds. -/
theorem held_of_pairAt (hs : Tracks s) {i : Fin COALESCE_CAPACITY}
    (hi : pairAt s.table i = some p) : held s.table p = (s.resultsOf p).length := by
  exact outstanding_of_mem hs.drain_nodup (hs.mem_drain.mpr ⟨⟨i, hi⟩, rfl⟩) (by simp)

theorem held_of_absent (hs : Tracks s) (habsent : ∀ i, pairAt s.table i ≠ some p) :
    held s.table p = 0 := by
  refine outstanding_eq_zero ?_
  intro x hx hp
  obtain ⟨⟨i, hi⟩, -⟩ := hs.mem_drain.mp hx
  exact absurd (hp ▸ hi) (habsent i)

/-- The table counts the calls that were not sent on untracked. -/
theorem held_eq (hs : Tracks s) (p : Pair) : held s.table p =
    if p.2 ≤ HIGH_SEVERITY_THRESHOLD then 0
    else (s.resultsOf p).countP (· ≠ .emitVerbatim 0) := by
  by_cases hheld : ∃ i, pairAt s.table i = some p
  · obtain ⟨i, hi⟩ := hheld
    have hsampled := hs.held i p hi
    obtain ⟨n, hn⟩ := hsampled.results
    have hall : (s.resultsOf p).countP (· ≠ .emitVerbatim 0) = (s.resultsOf p).length := by
      rw [List.countP_eq_length, hn]
      have hne := ne_zero_of_pairAt hi
      rintro r hr
      rcases List.mem_cons.mp hr with rfl | hr
      · simpa using hne
      · rw [List.eq_of_mem_replicate hr]; rfl
    rw [if_neg hsampled.tracked, hall]
    exact held_of_pairAt hs hi
  · have habsent := not_exists.mp hheld
    rw [held_of_absent hs habsent]
    split
    · rfl
    · rename_i htracked
      obtain ⟨m, hm, -⟩ := hs.refused p htracked habsent
      rw [hm, eq_comm, List.countP_eq_zero]
      intro r hr
      rw [List.eq_of_mem_replicate hr]
      simp

theorem coalesce_high {table : Table} {severity : UInt8} (line : Bytes)
    (h : severity ≤ HIGH_SEVERITY_THRESHOLD) :
    (coalesce table severity line true).1 = .emitVerbatim 0 := by
  simp [coalesce, h]

variable {severity : UInt8} {line : Bytes}

theorem resultsOf_call (q : Pair) : (s.call severity line).resultsOf q =
    if pairOf severity line = q then
      s.resultsOf q ++ [(coalesce s.table severity line true).1] else s.resultsOf q :=
  resultsOf_concat s _ _ _ _

/-- A call that is not sent on untracked adds one to the count of its pair. -/
theorem held_call (hs : Tracks s) (ht : Tracks (s.call severity line)) (q : Pair) :
    held (s.call severity line).table q = held s.table q +
      if pairOf severity line = q ∧
        (coalesce s.table severity line true).1 ≠ .emitVerbatim 0 then 1 else 0 := by
  rw [held_eq ht, held_eq hs]
  by_cases htracked : q.2 ≤ HIGH_SEVERITY_THRESHOLD
  · have huntracked : pairOf severity line = q →
        (coalesce s.table severity line true).1 = .emitVerbatim 0 := by
      rintro rfl
      exact coalesce_high line htracked
    simp only [if_pos htracked, Nat.zero_add]
    rw [if_neg (fun h => h.2 (huntracked h.1))]
  · simp only [if_neg htracked, resultsOf_call]
    by_cases hq : pairOf severity line = q
    · simp only [hq, if_true, true_and, List.countP_append, List.countP_singleton,
        decide_eq_true_eq]
    · simp [hq]

/-- The sample of a template carries its key, and the table had no count of it. -/
theorem sample_of_emit (hs : Tracks s) (ht : Tracks (s.call severity line)) {hash : UInt64}
    (hr : (coalesce s.table severity line true).1 = .emitVerbatim hash) (hne : hash ≠ 0) :
    hash = (pairOf severity line).1 ∧ held s.table (pairOf severity line) = 0 := by
  have hcounted := held_call hs ht (pairOf severity line)
  rw [if_pos ⟨rfl, by rw [hr]; simpa using hne⟩] at hcounted
  have hpresent : ∃ i, pairAt (s.call severity line).table i = some (pairOf severity line) := by
    by_contra hnone
    have := held_of_absent ht (not_exists.mp hnone)
    omega
  obtain ⟨i, hi⟩ := hpresent
  obtain ⟨n, hn⟩ := (ht.held i _ hi).results
  rw [resultsOf_call, if_pos rfl, hr] at hn
  cases hbefore : s.resultsOf (pairOf severity line) with
  | nil =>
    rw [hbefore] at hn
    simp only [List.nil_append, List.cons.injEq, CoalesceResult.emitVerbatim.injEq] at hn
    refine ⟨hn.1, ?_⟩
    rw [held_eq hs, hbefore]
    split <;> rfl
  | cons r rest =>
    rw [hbefore, List.cons_append, List.cons.injEq] at hn
    have hlast : CoalesceResult.emitVerbatim hash ∈ List.replicate n .coalesced := by
      rw [← hn.2]; simp
    cases List.eq_of_mem_replicate hlast

/-- Nothing tracked comes out of a call of high severity, for a pair that the table holds, or on a
full table. -/
theorem untracked_of_quiet (hs : Tracks s) (ht : Tracks (s.call severity line)) {hash : UInt64}
    (hquiet : severity ≤ HIGH_SEVERITY_THRESHOLD ∨
      (∃ i, pairAt s.table i = some (pairOf severity line)) ∨ ∀ i, pairAt s.table i ≠ none)
    (hr : (coalesce s.table severity line true).1 = .emitVerbatim hash) : hash = 0 := by
  by_contra hne
  have hfree := (sample_of_emit hs ht hr hne).2
  have habsent : ¬∃ i, pairAt s.table i = some (pairOf severity line) := by
    rintro ⟨i, hi⟩
    obtain ⟨n, hn⟩ := (hs.held i _ hi).results
    rw [held_of_pairAt hs hi, hn] at hfree
    cases hfree
  by_cases hsev : severity ≤ HIGH_SEVERITY_THRESHOLD
  · rw [coalesce_high line hsev] at hr
    cases hr
    exact hne rfl
  · have hfull := (hquiet.resolve_left hsev).resolve_left habsent
    have hout := coalesce_outcome hs.searchable line hsev
    generalize coalesce s.table severity line true = r at hr hout
    cases hout with
    | novel d hd hempty hbefore hnot => exact hfull _ hempty
    | known i hfound => exact habsent ⟨i, hfound⟩
    | full _ _ =>
      cases hr
      exact hne rfl

end Table

/-! ## The invariant -/

/-- The pairs of the tracked records in the ring. -/
def samples (ring : List Entry) : List Pair :=
  (ring.filter fun e => e.templateHash ≠ 0).map fun e => e.template.pair

/-- What the tracked records in the ring are samples of: the counts of the collection that pops
them, else those of the table. -/
def Phase.owes (table : Table) : Phase → Pair → Nat
  | .popping c, p => ErrorLog.outstanding c.counts c.consumed p
  | .idle, p | .orphaning _, p => held table p

/-- **Every line is somewhere.** -/
def Balanced (s : State F) : Prop := ∀ p, linesOf s.events p =
  exportedWeight s.exported p + linesOf s.lost p + held s.history.table p +
    untracked s.ring p + s.phase.outstanding p

/-- Each tracked record in the ring is the only sample of a count not exported yet. -/
structure Samples (s : State F) : Prop where
  hash : ∀ e ∈ s.ring, e.templateHash ≠ 0 → e.templateHash = e.template.pair.1
  distinct : (samples s.ring).Nodup
  owed : ∀ p ∈ samples s.ring, 0 < s.phase.owes s.history.table p

/-- Everything in the path comes from a line of the history, and keys tell templates apart. -/
structure Seen (s : State F) : Prop where
  keys : ∀ a ∈ s.events, ∀ b ∈ s.events, a.pair.1 = b.pair.1 → a = b
  calls : ∀ x ∈ s.history.calls, ∃ a ∈ s.events, a.pair = x.1
  ring : ∀ e ∈ s.ring, e.template ∈ s.events
  lost : ∀ a ∈ s.lost, a ∈ s.events
  exported : ∀ x ∈ s.exported, ∀ a, x.origin = .line a → a ∈ s.events

/-- No two counts of a collection share a hash, and it has not popped its limit. -/
def Phase.Ok : Phase → Prop
  | .popping c =>
    (c.counts.map fun x => x.1).Nodup ∧ c.drained < MAX_ERROR_RECORDS_PER_WORKER_PER_DRAIN
  | .idle | .orphaning _ => True

structure Inv (s : State F) : Prop where
  tracks : Tracks s.history
  counted : s.history.Counted
  seen : Seen s
  phase : s.phase.Ok
  samples : Samples s
  balanced : Balanced s

@[simp] theorem linesOf_concat (templates : List Template) (a : Template) (p : Pair) :
    linesOf (templates ++ [a]) p = linesOf templates p + if a.pair = p then 1 else 0 := by
  simp [linesOf, List.countP_append, List.countP_singleton]

@[simp] theorem exportedWeight_append (xs ys : List (Exported F)) (p : Pair) :
    exportedWeight (xs ++ ys) p = exportedWeight xs p + exportedWeight ys p := by
  simp [exportedWeight]

theorem exportedWeight_singleton (x : Exported F) (p : Pair) :
    exportedWeight [x] p = if x.origin.pair = p then weight x.record else 0 := by
  by_cases h : x.origin.pair = p <;> simp [exportedWeight, h]

theorem untracked_concat (ring : List Entry) (e : Entry) (p : Pair) :
    untracked (ring ++ [e]) p = untracked ring p +
      if e.templateHash = 0 ∧ e.template.pair = p then 1 else 0 := by
  simp [untracked, List.countP_append, List.countP_singleton]

theorem untracked_cons (ring : List Entry) (e : Entry) (p : Pair) :
    untracked (e :: ring) p = untracked ring p +
      if e.templateHash = 0 ∧ e.template.pair = p then 1 else 0 := by
  simp [untracked, List.countP_cons]

theorem samples_concat (ring : List Entry) (e : Entry) :
    samples (ring ++ [e]) =
      samples ring ++ if e.templateHash ≠ 0 then [e.template.pair] else [] := by
  unfold samples
  by_cases h : e.templateHash = 0 <;> simp [h]

theorem samples_cons (ring : List Entry) (e : Entry) :
    samples (e :: ring) =
      (if e.templateHash ≠ 0 then [e.template.pair] else []) ++ samples ring := by
  unfold samples
  by_cases h : e.templateHash = 0 <;> simp [h]

theorem inv_start : Inv (State.start : State F) where
  tracks := tracks_start
  counted := fun p => by simp [State.start, History.start, History.resultsOf]
  seen :=
    { keys := fun _ ha => absurd ha List.not_mem_nil
      calls := fun _ hc => absurd hc List.not_mem_nil
      ring := fun _ hr => absurd hr List.not_mem_nil
      lost := fun _ hx => absurd hx List.not_mem_nil
      exported := fun _ hx => absurd hx List.not_mem_nil }
  phase := trivial
  samples :=
    { hash := fun _ hr => absurd hr List.not_mem_nil
      distinct := .nil
      owed := fun _ hr => absurd hr List.not_mem_nil }
  balanced := fun p => by
    have hzero : held (State.start : State F).history.table p = 0 :=
      held_of_absent tracks_start fun i => by simp [State.start, History.start, pairAt_zeroedTable]
    rw [hzero]
    rfl

/-! ## A writer event -/

/-- The records that the collection in progress has popped. -/
def Phase.drained : Phase → Nat
  | .popping c | .orphaning c => c.drained
  | .idle => 0

/-- The assumptions about a step: no two templates share a key, fewer than `2 ^ 32` lines of a
template between drains, and no collection pops its limit. -/
def Assumed (s : State F) : Act → Prop
  | .event _ severity line =>
    (∀ a ∈ s.events, a.pair.1 = (pairOf severity line).1 → a = templateOf severity line) ∧
      (s.history.resultsOf (pairOf severity line)).length + 1 < 2 ^ 32
  | .pop => s.ring.isEmpty = false →
      s.phase.drained + 1 < MAX_ERROR_RECORDS_PER_WORKER_PER_DRAIN
  | .drain _ | .orphan => True

instance (s : State F) : (a : Act) → Decidable (Assumed s a)
  | .event _ _ _ => inferInstanceAs (Decidable (_ ∧ _))
  | .pop => inferInstanceAs (Decidable (_ → _))
  | .drain _ | .orphan => isTrue trivial

def Phase.isPopping : Phase → Bool
  | .popping _ => true
  | .idle | .orphaning _ => false

/-- While a collection pops, no event puts a tracked record into the ring: it is of high severity,
or the table holds its pair, or the table is full, or the ring has no room for it. -/
def QuietSample (cap : Nat) (s : State F) : Act → Prop
  | .event tsNs severity line => s.phase.isPopping = true →
      (severity ≤ HIGH_SEVERITY_THRESHOLD ∨
        (∃ i, pairAt s.history.table i = some (pairOf severity line)) ∨
        ∀ i, pairAt s.history.table i ≠ none) ∨
      s.fits cap ⟨tsNs, severity, (pairOf severity line).1, line⟩ = false
  | .drain _ | .pop | .orphan => True

instance (cap : Nat) (s : State F) : (a : Act) → Decidable (QuietSample cap s a)
  | .event _ _ _ => inferInstanceAs (Decidable (_ → _ ∨ _))
  | .drain _ | .pop | .orphan => isTrue trivial

section Event

variable (cap : Nat) (s : State F) (tsNs : UInt64) (severity : UInt8) (line : Bytes)

/-- The state once the line is logged, before its push. -/
def State.logged (s : State F) (severity : UInt8) (line : Bytes) : State F :=
  { s with history := s.history.call severity line
           events := s.events ++ [templateOf severity line] }

theorem event_eq : s.event cap tsNs severity line =
    match (coalesce s.history.table severity line true).1 with
    | .coalesced => s.logged severity line
    | .emitVerbatim hash =>
      (s.logged severity line).pushErrorRecord cap ⟨tsNs, severity, hash, line⟩ :=
  rfl

variable {s severity line} in
theorem counted_call (hs : s.history.Counted)
    (hcount : (s.history.resultsOf (pairOf severity line)).length + 1 < 2 ^ 32) :
    (s.history.call severity line).Counted := by
  intro q
  rw [resultsOf_call]
  split
  · rename_i hq
    subst hq
    simpa using hcount
  · exact hs q

/-- The push sends an untracked record into the ring or counts it as lost. -/
theorem pushErrorRecord_untracked (e : Entry) (p : Pair) :
    linesOf (s.pushErrorRecord cap e).lost p + untracked (s.pushErrorRecord cap e).ring p =
      linesOf s.lost p + untracked s.ring p +
        if e.templateHash = 0 ∧ e.template.pair = p then 1 else 0 := by
  unfold State.pushErrorRecord
  split
  · simp only [untracked_concat]
    omega
  · split
    · rename_i hzero
      simp only [linesOf_concat, hzero, true_and]
      omega
    · rename_i hzero
      simp [hzero]

theorem pushErrorRecord_frame (e : Entry) :
    (s.pushErrorRecord cap e).history = s.history ∧ (s.pushErrorRecord cap e).events = s.events ∧
      (s.pushErrorRecord cap e).phase = s.phase ∧
      (s.pushErrorRecord cap e).exported = s.exported := by
  unfold State.pushErrorRecord
  split
  · exact ⟨rfl, rfl, rfl, rfl⟩
  · split <;> exact ⟨rfl, rfl, rfl, rfl⟩

theorem event_frame : (s.event cap tsNs severity line).history = s.history.call severity line ∧
    (s.event cap tsNs severity line).events = s.events ++ [templateOf severity line] ∧
    (s.event cap tsNs severity line).phase = s.phase ∧
    (s.event cap tsNs severity line).exported = s.exported := by
  rw [event_eq]
  split
  · exact ⟨rfl, rfl, rfl, rfl⟩
  · exact pushErrorRecord_frame cap _ _

theorem event_untracked (p : Pair) :
    linesOf (s.event cap tsNs severity line).lost p +
        untracked (s.event cap tsNs severity line).ring p =
      linesOf s.lost p + untracked s.ring p +
        if pairOf severity line = p ∧
          (coalesce s.history.table severity line true).1 = .emitVerbatim 0 then 1 else 0 := by
  rw [event_eq]
  split
  · rename_i hr
    simp [hr, State.logged]
  · rename_i hash hr
    have hpush := pushErrorRecord_untracked cap (s.logged severity line)
      ⟨tsNs, severity, hash, line⟩ p
    have hpair : Entry.template ⟨tsNs, severity, hash, line⟩ = templateOf severity line := rfl
    rw [hpush, hr]
    simp only [hpair, State.logged, CoalesceResult.emitVerbatim.injEq, and_comm]
    rfl

/-- A record enters the ring as the sample of a template that was not held, or untracked. -/
theorem event_ring : (s.event cap tsNs severity line).ring = s.ring ∨
    ∃ hash, (coalesce s.history.table severity line true).1 = .emitVerbatim hash ∧
      s.fits cap ⟨tsNs, severity, hash, line⟩ = true ∧
      (s.event cap tsNs severity line).ring = s.ring ++ [⟨tsNs, severity, hash, line⟩] := by
  rw [event_eq]
  split
  · exact .inl rfl
  · rename_i hash hr
    unfold State.pushErrorRecord
    split
    · rename_i hfits
      exact .inr ⟨hash, hr, hfits, rfl⟩
    · split <;> exact .inl rfl

theorem event_lost : (s.event cap tsNs severity line).lost = s.lost ∨
    (s.event cap tsNs severity line).lost = s.lost ++ [templateOf severity line] := by
  rw [event_eq]
  split
  · exact .inl rfl
  · unfold State.pushErrorRecord
    split
    · exact .inl rfl
    · split
      · exact .inr rfl
      · exact .inl rfl

variable {cap s tsNs severity line}

theorem event_balanced (hs : Balanced s) (htracks : Tracks s.history)
    (htracks' : Tracks (s.history.call severity line)) :
    Balanced (s.event cap tsNs severity line) := by
  intro p
  obtain ⟨hhistory, hevents, hphase, hexported⟩ := event_frame cap s tsNs severity line
  have hbefore := hs p
  have hheld := held_call htracks htracks' p
  have hloose := event_untracked cap s tsNs severity line p
  have hpair : (templateOf severity line).pair = pairOf severity line := rfl
  rw [hhistory, hevents, hphase, hexported, linesOf_concat, hheld, hpair]
  by_cases hp : pairOf severity line = p
  · by_cases hr : (coalesce s.history.table severity line true).1 = .emitVerbatim 0
    · simp only [hp, hr, true_and, if_true, ne_eq, not_true, if_false] at hloose ⊢
      omega
    · simp only [hp, hr, true_and, if_true, ne_eq, not_false_eq_true, if_false] at hloose ⊢
      omega
  · simp only [hp, false_and, if_false] at hloose ⊢
    omega

/-- The space check does not depend on the hash. -/
theorem fits_hash (hash hash' : UInt64) :
    s.fits cap ⟨tsNs, severity, hash, line⟩ = s.fits cap ⟨tsNs, severity, hash', line⟩ := by
  simp only [State.fits, Ring.fits, Ring.total, Entry.bytes, length_errorRecord]

/-- An event takes nothing away from what the samples in the ring are owed. -/
theorem owes_event (htracks : Tracks s.history)
    (htracks' : Tracks (s.history.call severity line)) (p : Pair) :
    s.phase.owes s.history.table p ≤ s.phase.owes (s.history.call severity line).table p := by
  cases s.phase with
  | popping c => exact le_rfl
  | idle | orphaning c =>
    simp only [Phase.owes, held_call htracks htracks' p]
    exact Nat.le_add_right _ _

theorem owes_of_not_popping {phase : Phase} (h : phase.isPopping = false) (table : Table)
    (p : Pair) : phase.owes table p = held table p := by
  cases phase with
  | popping c => cases h
  | idle | orphaning c => rfl

/-- No tracked record enters the ring while a collection pops. -/
theorem not_popping_of_sample (htracks : Tracks s.history)
    (htracks' : Tracks (s.history.call severity line)) {hash : UInt64}
    (hquiet : QuietSample cap s (.event tsNs severity line))
    (hr : (coalesce s.history.table severity line true).1 = .emitVerbatim hash) (hne : hash ≠ 0)
    (hfits : s.fits cap ⟨tsNs, severity, hash, line⟩ = true) : s.phase.isPopping = false := by
  by_contra hpopping
  rcases hquiet (by simpa using hpopping) with hquiet | hfull
  · exact hne (untracked_of_quiet htracks htracks' hquiet hr)
  · rw [fits_hash _ hash] at hfull
    simp [hfull] at hfits

theorem event_samples (hs : Samples s) (htracks : Tracks s.history)
    (htracks' : Tracks (s.history.call severity line))
    (hquiet : QuietSample cap s (.event tsNs severity line)) :
    Samples (s.event cap tsNs severity line) := by
  obtain ⟨hhistory, -, hphase, -⟩ := event_frame cap s tsNs severity line
  have howed : ∀ p ∈ samples s.ring,
      0 < s.phase.owes (s.history.call severity line).table p := fun p hp =>
    Nat.lt_of_lt_of_le (hs.owed p hp) (owes_event htracks htracks' p)
  rcases event_ring cap s tsNs severity line with hring | ⟨hash, hr, hfits, hring⟩
  · exact ⟨hring ▸ hs.hash, hring ▸ hs.distinct, by rw [hring, hphase, hhistory]; exact howed⟩
  by_cases hzero : hash = 0
  · refine ⟨?_, ?_, ?_⟩
    · intro e he hne
      rw [hring, List.mem_append, List.mem_singleton] at he
      rcases he with he | rfl
      · exact hs.hash e he hne
      · exact absurd hzero hne
    · rw [hring, samples_concat]; simpa [hzero] using hs.distinct
    · rw [hring, samples_concat, hphase, hhistory]; simpa [hzero] using howed
  · -- a sample: its template was not in the table, and no collection is popping
    obtain ⟨hkey, hfree⟩ := sample_of_emit htracks htracks' hr hzero
    have hidle := not_popping_of_sample htracks htracks' hquiet hr hzero hfits
    have hpair : (Entry.template ⟨tsNs, severity, hash, line⟩).pair = pairOf severity line := rfl
    have hsamples : samples (s.event cap tsNs severity line).ring =
        samples s.ring ++ [pairOf severity line] := by
      rw [hring, samples_concat]
      simp [hzero, hpair]
    refine ⟨?_, ?_, ?_⟩
    · intro e he hne
      rw [hring, List.mem_append, List.mem_singleton] at he
      rcases he with he | rfl
      · exact hs.hash e he hne
      · exact hkey
    · rw [hsamples, List.nodup_append]
      refine ⟨hs.distinct, List.nodup_singleton _, ?_⟩
      intro p hp q hq heq
      have hpos := hs.owed p hp
      rw [owes_of_not_popping hidle, heq, List.mem_singleton.mp hq, hfree] at hpos
      exact Nat.lt_irrefl 0 hpos
    · intro p hp
      rw [hphase, hhistory]
      rw [hsamples, List.mem_append, List.mem_singleton] at hp
      rcases hp with hp | rfl
      · exact howed p hp
      · have hcounted := held_call htracks htracks' (pairOf severity line)
        rw [if_pos ⟨rfl, by rw [hr]; simpa using hzero⟩] at hcounted
        rw [owes_of_not_popping hidle, hcounted]
        exact Nat.succ_pos _

theorem event_seen (hs : Seen s)
    (hkeys : ∀ a ∈ s.events, a.pair.1 = (pairOf severity line).1 → a = templateOf severity line) :
    Seen (s.event cap tsNs severity line) := by
  obtain ⟨hhistory, hevents, -, hexported⟩ := event_frame cap s tsNs severity line
  have hold : ∀ a ∈ s.events, a ∈ (s.event cap tsNs severity line).events := fun a ha =>
    hevents ▸ List.mem_append_left _ ha
  have hnew : templateOf severity line ∈ (s.event cap tsNs severity line).events := by
    rw [hevents]; simp
  refine ⟨?_, ?_, ?_, ?_, fun x hx a ha => hold a (hs.exported x (hexported ▸ hx) a ha)⟩
  · simp only [hevents, List.mem_append, List.mem_singleton]
    rintro a (ha | rfl) b (hb | rfl) hab
    · exact hs.keys a ha b hb hab
    · exact hkeys a ha hab
    · exact (hkeys b hb hab.symm).symm
    · rfl
  · rw [hhistory]
    intro x hx
    rcases List.mem_append.mp hx with hx | hx
    · obtain ⟨a, ha, hpair⟩ := hs.calls x hx
      exact ⟨a, hold a ha, hpair⟩
    · rw [List.mem_singleton.mp hx]
      exact ⟨_, hnew, rfl⟩
  · rcases event_ring cap s tsNs severity line with hring | ⟨hash, -, -, hring⟩
    · exact fun e he => hold _ (hs.ring e (hring ▸ he))
    · intro e he
      rw [hring, List.mem_append, List.mem_singleton] at he
      rcases he with he | rfl
      · exact hold _ (hs.ring e he)
      · exact hnew
  · rcases event_lost cap s tsNs severity line with hlost | hlost
    · exact fun a ha => hold a (hs.lost a (hlost ▸ ha))
    · intro a ha
      rw [hlost, List.mem_append, List.mem_singleton] at ha
      rcases ha with ha | rfl
      · exact hold a (hs.lost a ha)
      · exact hnew

/-- **A writer event keeps the accounts.** -/
theorem event_inv (hs : Inv s) (hassumed : Assumed s (.event tsNs severity line))
    (hquiet : QuietSample cap s (.event tsNs severity line)) :
    Inv (s.event cap tsNs severity line) := by
  obtain ⟨hhistory, -, hphase, -⟩ := event_frame cap s tsNs severity line
  have hcounted := counted_call hs.counted hassumed.2
  have htracks := hs.tracks.call hcounted
  exact ⟨hhistory ▸ htracks, hhistory ▸ hcounted, event_seen hs.seen hassumed.1,
    hphase ▸ hs.phase, event_samples hs.samples hs.tracks htracks hquiet,
    event_balanced hs.balanced hs.tracks htracks⟩

end Event

/-! ## A collection -/

section Collect

variable {dec : Decoding F} {s : State F} {c : Collection}

/-- A pair that the table holds is that of a line of the history. -/
theorem seen_of_pairAt (hs : Inv s) {i : Fin COALESCE_CAPACITY} {p : Pair}
    (hi : pairAt s.history.table i = some p) : ∃ a ∈ s.events, a.pair = p := by
  obtain ⟨n, hn⟩ := (hs.tracks.held i p hi).results
  have hmem : CoalesceResult.emitVerbatim p.1 ∈ s.history.resultsOf p := by rw [hn]; simp
  obtain ⟨call, hcall, -⟩ := List.mem_map.mp hmem
  obtain ⟨hcall, hp⟩ := List.mem_filter.mp hcall
  obtain ⟨a, ha, hpair⟩ := hs.seen.calls call hcall
  exact ⟨a, ha, hpair.trans (by simpa using hp)⟩

/-- No two counts of a drain share a hash. -/
theorem nodup_drained_keys (hs : Inv s) :
    ((drainCoalesceTable s.history.table).1.map fun x => x.1).Nodup := by
  have hpairs := hs.tracks.drain_nodup
  have hmap : ((drainCoalesceTable s.history.table).1.map fun x => x.1) =
      ((drainCoalesceTable s.history.table).1.map fun x => (x.1, x.2.1)).map Prod.fst := by
    rw [List.map_map]; rfl
  rw [hmap]
  refine hpairs.map_on ?_
  intro p hp q hq hkey
  have hseen : ∀ p ∈ (drainCoalesceTable s.history.table).1.map (fun x => (x.1, x.2.1)),
      ∃ a ∈ s.events, a.pair = p := by
    intro p hp
    obtain ⟨x, hx, rfl⟩ := List.mem_map.mp hp
    obtain ⟨⟨i, hi⟩, -⟩ := hs.tracks.mem_drain.mp hx
    exact seen_of_pairAt hs hi
  obtain ⟨a, ha, rfl⟩ := hseen p hp
  obtain ⟨b, hb, rfl⟩ := hseen q hq
  rw [hs.seen.keys a ha b hb hkey]

theorem drain_inv (hs : Inv s) (hidle : s.phase = .idle) (now : UInt64) :
    Inv { s with history := s.history.drain,
                 phase := .popping ⟨now, (drainCoalesceTable s.history.table).1, [], 0⟩ } := by
  have howed : ∀ p ∈ samples s.ring, 0 < held s.history.table p := fun p hp => by
    simpa only [hidle, Phase.owes] using hs.samples.owed p hp
  refine ⟨hs.tracks.drain, fun p => by simp [History.drain, History.resultsOf],
    ⟨hs.seen.keys, nofun, hs.seen.ring, hs.seen.lost, hs.seen.exported⟩,
    ⟨nodup_drained_keys hs, Nat.succ_pos _⟩, ⟨hs.samples.hash, hs.samples.distinct, howed⟩,
    ?_⟩
  intro p
  have hempty : held s.history.drain.table p = 0 :=
    held_of_absent hs.tracks.drain fun i => by
      rw [show s.history.drain.table = (drainCoalesceTable s.history.table).2 from rfl,
        pairAt_drained]
      simp
  have hbefore := hs.balanced p
  simp only [hidle, Phase.outstanding, Nat.add_zero] at hbefore
  simp only [hempty, Phase.outstanding, Nat.add_zero]
  rw [hbefore]
  unfold held
  omega

/-- The pop that finds the ring empty. -/
theorem pop_empty_inv (hs : Inv s) (hpopping : s.phase = .popping c) (hring : s.ring = []) :
    Inv { s with phase := .orphaning c } := by
  refine ⟨hs.tracks, hs.counted, ⟨hs.seen.keys, hs.seen.calls, hs.seen.ring, hs.seen.lost,
    hs.seen.exported⟩, trivial, ⟨hs.samples.hash, hs.samples.distinct, ?_⟩, ?_⟩
  · simp [hring, samples]
  · intro p
    have hbefore := hs.balanced p
    simpa only [hpopping, Phase.outstanding] using hbefore

/-- The record of an entry, and the hash that it consumes. -/
theorem popped_eq (e : Entry) (rest : List Entry) : s.popped dec c e rest =
    { s with
      ring := rest
      phase := .popping { c with
        consumed := (if e.templateHash ≠ 0 then [e.templateHash] else []) ++ c.consumed
        drained := c.drained + 1 }
      exported := s.exported ++ [⟨errorLogRecord dec e.tsNs e.ngxLevel e.templateHash
        (e.line.take MAX_ERROR_BODY_LEN) c.now c.counts, .line e.template⟩] } := by
  have hparse := parseErrorRecordConsuming_errorRecord e.tsNs e.ngxLevel e.templateHash e.line
    dec c.now c.counts
  unfold State.popped Entry.bytes
  rw [hparse]
  by_cases hzero : e.templateHash = 0 <;> simp [hzero]

theorem seen_popped (hs : Seen s) {e : Entry} {rest : List Entry} (hring : s.ring = e :: rest) :
    Seen (s.popped dec c e rest) := by
  rw [popped_eq]
  refine ⟨hs.keys, hs.calls, fun e' he' => hs.ring e' (by rw [hring]; exact .tail _ he'), hs.lost,
    ?_⟩
  intro x hx a ha
  rcases List.mem_append.mp hx with hx | hx
  · exact hs.exported x hx a ha
  · rw [List.mem_singleton.mp hx] at ha
    cases ha
    exact hs.ring e (by rw [hring]; exact .head _)

/-- The pop of an untracked record: one line leaves the ring and is exported. -/
theorem pop_untracked_inv (hs : Inv s) (hpopping : s.phase = .popping c) {e : Entry}
    {rest : List Entry} (hring : s.ring = e :: rest) (hzero : e.templateHash = 0)
    (hlimit : c.drained + 1 < MAX_ERROR_RECORDS_PER_WORKER_PER_DRAIN) :
    Inv (s.popped dec c e rest) := by
  have hseen : Seen (s.popped dec c e rest) := seen_popped hs.seen hring
  have hphase := hs.phase
  have hsamples := hs.samples
  rw [hpopping] at hphase
  rw [popped_eq] at hseen ⊢
  refine ⟨hs.tracks, hs.counted, hseen, ⟨hphase.1, hlimit⟩, ⟨?_, ?_, ?_⟩, ?_⟩
  · exact fun e' he' => hsamples.hash e' (by rw [hring]; exact .tail _ he')
  · have hdistinct := hsamples.distinct
    rw [hring, samples_cons] at hdistinct
    simpa [hzero] using hdistinct
  · intro p hp
    have howed := hsamples.owed p (by rw [hring, samples_cons]; simpa [hzero] using hp)
    simpa [hzero, hpopping, Phase.owes] using howed
  · intro p
    have hbefore := hs.balanced p
    rw [hpopping, hring, untracked_cons] at hbefore
    simp only [exportedWeight_append, exportedWeight_singleton, weight_errorLogRecord, hzero,
      Origin.pair, Phase.outstanding, true_and, if_true, ne_eq, not_true, if_false,
      List.nil_append] at hbefore ⊢
    omega

/-- The pop of a sample: its count is exported with it. -/
theorem pop_sample_inv (hs : Inv s) (hpopping : s.phase = .popping c) {e : Entry}
    {rest : List Entry} (hring : s.ring = e :: rest) (hne : e.templateHash ≠ 0)
    (hlimit : c.drained + 1 < MAX_ERROR_RECORDS_PER_WORKER_PER_DRAIN) :
    Inv (s.popped dec c e rest) := by
  have hseen : Seen (s.popped dec c e rest) := seen_popped hs.seen hring
  have hsamples := hs.samples
  obtain ⟨hkeys, -⟩ : (c.counts.map fun x => x.1).Nodup ∧
      c.drained < MAX_ERROR_RECORDS_PER_WORKER_PER_DRAIN := by
    have hphase := hs.phase
    rwa [hpopping] at hphase
  have hhash : e.templateHash = e.template.pair.1 :=
    hsamples.hash e (by rw [hring]; exact .head _) hne
  have hall : samples s.ring = e.template.pair :: samples rest := by
    rw [hring, samples_cons]; simp [hne]
  have howed : ∀ p ∈ samples s.ring, 0 < outstanding c.counts c.consumed p := fun p hp => by
    simpa only [hpopping, Phase.owes] using hsamples.owed p hp
  have hdistinct := hsamples.distinct
  rw [hall, List.nodup_cons] at hdistinct
  -- the sample's count is in the collection and not consumed yet
  have hpos := howed e.template.pair (by rw [hall]; exact .head _)
  obtain ⟨count, hmem, hfree⟩ := exists_of_outstanding_pos hpos
  have hcount := outstanding_of_mem (nodup_pairs hkeys) hmem hfree
  have hconsume := outstanding_consume hkeys hmem hfree
  rw [popped_eq] at hseen ⊢
  refine ⟨hs.tracks, hs.counted, hseen, ⟨hkeys, hlimit⟩, ⟨?_, hdistinct.2, ?_⟩,
    ?_⟩
  · exact fun e' he' => hsamples.hash e' (by rw [hring]; exact .tail _ he')
  · intro p hp
    have hbefore := howed p (by rw [hall]; exact .tail _ hp)
    have hp' : p ≠ e.template.pair := fun heq => hdistinct.1 (heq ▸ hp)
    rw [hconsume p, if_neg hp', Nat.add_zero, ← hhash] at hbefore
    simpa [hne, Phase.owes] using hbefore
  · intro p
    have hbefore := hs.balanced p
    have hweight : max 1 ((c.counts.get e.templateHash).getD 0) = count := by
      rw [hhash, Counts.get_eq hkeys hmem, Option.getD_some]
      omega
    rw [hpopping, hring, untracked_cons] at hbefore
    simp only [Phase.outstanding, hconsume p, hne, false_and, if_false, Nat.add_zero] at hbefore
    simp only [exportedWeight_append, exportedWeight_singleton, weight_errorLogRecord, hne,
      hweight, Origin.pair, Phase.outstanding, ne_eq, not_false_eq_true, if_true, if_false,
      List.singleton_append]
    rw [← hhash] at hbefore
    by_cases hp : e.template.pair = p
    · simp only [hp, if_true] at hbefore ⊢
      omega
    · have hp' : ¬p = e.template.pair := fun h => hp h.symm
      simp only [hp, hp', if_false] at hbefore ⊢
      omega

/-- The synthetic records stand for the counts that nothing has consumed. -/
theorem exportedWeight_orphans (c : Collection) (p : Pair) :
    exportedWeight (List.zipWith (Exported.mk (F := F)) (orphanPass c.now c.counts c.consumed).1
      ((orphans c.counts c.consumed).map fun x => .orphan (x.1, x.2.1))) p =
      outstanding c.counts c.consumed p := by
  simp only [orphanPass, List.zipWith_map, List.zipWith_self, orphans]
  generalize c.counts = counts
  induction counts with
  | nil => rfl
  | cons x rest ih =>
    rw [outstanding_cons, ← ih, List.filter_cons]
    by_cases hemitted : x.2.2 > 0 ∧ x.1 ∉ c.consumed
    · rw [if_pos (decide_eq_true hemitted), List.map_cons, ← List.singleton_append,
        exportedWeight_append, exportedWeight_singleton]
      simp [Origin.pair, weight_syntheticRecord, hemitted.2]
    · -- not emitted: consumed, or a count of 0
      rw [if_neg (by simpa using hemitted)]
      split
      · rename_i h
        have hzero : x.2.2 = 0 := by
          by_contra hpos
          exact hemitted ⟨Nat.pos_of_ne_zero hpos, h.2⟩
        rw [hzero, Nat.zero_add]
      · rw [Nat.zero_add]

theorem orphaned_inv (hs : Inv s) (hphase : s.phase = .orphaning c) : Inv (s.orphaned c) := by
  refine ⟨hs.tracks, hs.counted, ⟨hs.seen.keys, hs.seen.calls, hs.seen.ring, hs.seen.lost, ?_⟩,
    trivial, ⟨hs.samples.hash, hs.samples.distinct, ?_⟩, ?_⟩
  · intro x hx a ha
    rcases List.mem_append.mp hx with hx | hx
    · exact hs.seen.exported x hx a ha
    · simp only [orphanPass, List.zipWith_map, List.zipWith_self] at hx
      obtain ⟨y, -, rfl⟩ := List.mem_map.mp hx
      cases ha
  · intro p hp
    show 0 < held s.history.table p
    simpa only [hphase, Phase.owes] using hs.samples.owed p hp
  · intro p
    have hbefore := hs.balanced p
    simp only [hphase, Phase.outstanding] at hbefore
    simp only [State.orphaned, exportedWeight_append, exportedWeight_orphans, Phase.outstanding]
    omega

end Collect

/-! ## Runs -/

/-- **One step keeps the accounts**, whichever process makes it. -/
theorem step_inv {dec : Decoding F} {cap : Nat} {s t : State F} {a : Act} (hs : Inv s)
    (hassumed : Assumed s a) (hquiet : QuietSample cap s a) (h : step dec cap s a = some t) :
    Inv t := by
  cases a with
  | event tsNs severity line =>
    cases h
    exact event_inv hs hassumed hquiet
  | drain now =>
    cases hphase : s.phase with
    | idle =>
      simp only [step, hphase, Option.some.injEq] at h
      exact h ▸ drain_inv hs hphase now
    | popping c | orphaning c => simp [step, hphase] at h
  | pop =>
    cases hphase : s.phase with
    | popping c =>
      simp only [step, hphase, Option.ite_none_right_eq_some] at h
      obtain ⟨-, h⟩ := h
      cases hring : s.ring with
      | nil =>
        have hinv := pop_empty_inv hs hphase hring
        simp only [hring, Option.some.injEq] at h hinv
        exact h ▸ hinv
      | cons e rest =>
        simp only [hring, Option.some.injEq] at h
        have hlimit := hassumed (by simp [hring])
        rw [hphase] at hlimit
        by_cases hzero : e.templateHash = 0
        · exact h ▸ pop_untracked_inv hs hphase hring hzero hlimit
        · exact h ▸ pop_sample_inv hs hphase hring hzero hlimit
    | idle | orphaning c => simp [step, hphase] at h
  | orphan =>
    cases hphase : s.phase with
    | orphaning c =>
      simp only [step, hphase, Option.some.injEq] at h
      exact h ▸ orphaned_inv hs hphase
    | popping c =>
      have hok := hs.phase
      rw [hphase] at hok
      simp [step, hphase, hok.2] at h
    | idle => simp [step, hphase] at h

/-- No collection is in progress, and the table and the ring are empty. -/
def State.settled (s : State F) : Bool :=
  (match s.phase with | .idle => true | _ => false) && s.ring.isEmpty &&
    decide (∀ i, (s.history.table i).keyHash = 0)

/-- The record is about the template: a line of it, or a count under its key. -/
def Origin.isOf (template : Template) : Origin → Bool
  | .line a => a = template
  | .orphan p => p = template.pair

/-- The lines of a template that the exported records stand for. -/
def State.exportedOf (s : State F) (template : Template) : Nat :=
  ((s.exported.filter fun x => x.origin.isOf template).map fun x => weight x.record).sum

section Templates

variable {s : State F} {template : Template}

theorem Seen.pair_eq_iff (hs : Seen s) (hmem : template ∈ s.events) {a : Template}
    (ha : a ∈ s.events) : a.pair = template.pair ↔ a = template :=
  ⟨fun h => hs.keys a ha template hmem (congrArg Prod.fst h), fun h => h ▸ rfl⟩

theorem Seen.linesOf_eq (hs : Seen s) (hmem : template ∈ s.events) {templates : List Template}
    (hsub : ∀ a ∈ templates, a ∈ s.events) :
    linesOf templates template.pair = templates.count template := by
  unfold linesOf List.count
  refine List.countP_congr ?_
  intro a ha
  simp [hs.pair_eq_iff hmem (hsub a ha)]

theorem Seen.exportedOf_eq (hs : Seen s) (hmem : template ∈ s.events) :
    s.exportedOf template = exportedWeight s.exported template.pair := by
  unfold State.exportedOf exportedWeight
  congr 2
  refine List.filter_congr ?_
  intro x hx
  cases horigin : x.origin with
  | line a => simp [Origin.isOf, Origin.pair, hs.pair_eq_iff hmem (hs.exported x hx a horigin)]
  | orphan p => exact decide_eq_decide.mpr Iff.rfl

end Templates

/-- **Complete collections account for every line**: in every run whose samples are all quiet and
that ends with no collection in progress, an empty table and an empty ring, the records exported for
a template stand, together with its untracked lines that the ring refused, for exactly the lines
logged. -/
theorem collections_account {dec : Decoding F} {cap : Nat} {acts : List Act} {t : State F}
    (hrun : Run.exec (step dec cap) State.start acts = some t)
    (hacts : Run.Along (step dec cap) (fun s a => Assumed s a ∧ QuietSample cap s a) State.start
      acts)
    (hsettled : t.settled = true) :
    ∀ template ∈ t.events,
      t.exportedOf template + t.lost.count template = t.events.count template := by
  intro template hmem
  simp only [State.settled, Bool.and_eq_true, List.isEmpty_iff, decide_eq_true_eq] at hsettled
  obtain ⟨⟨hidle, hring⟩, htable⟩ := hsettled
  have hinv : Inv t := Run.exec_invariant_along (fun _ _ _ hs ha h => step_inv hs ha.1 ha.2 h)
    hacts hrun inv_start
  have hempty : held t.history.table template.pair = 0 :=
    held_of_absent hinv.tracks fun i => by simp [pairAt_eq_none.mpr (htable i)]
  have hbalance := hinv.balanced template.pair
  rw [hempty, hring, hinv.seen.linesOf_eq hmem fun a ha => ha,
    hinv.seen.linesOf_eq hmem hinv.seen.lost, ← hinv.seen.exportedOf_eq hmem] at hbalance
  cases hphase : t.phase with
  | idle => simpa [untracked, hphase, Phase.outstanding] using hbalance.symm
  | popping c | orphaning c => simp [hphase] at hidle

/-- A warning is logged between the drain of the table and the pop; the next collection finds its
count in the table. -/
def hastyActs : List Act :=
  [.drain 10, .event 11 5 [120], .pop, .pop, .orphan, .drain 20, .pop, .orphan]

theorem hasty_sample_counted_twice : ∃ t,
    Run.exec (step (default : Decoding UInt64) 1000) State.start hastyActs = some t ∧
    Run.Along (step (default : Decoding UInt64) 1000) Assumed State.start hastyActs ∧
    t.settled = true ∧
    t.events.count (templateOf 5 [120]) = 1 ∧
    t.exportedOf (templateOf 5 [120]) + t.lost.count (templateOf 5 [120]) = 2 := by
  have hends : (Run.exec (step (default : Decoding UInt64) 1000) State.start hastyActs).map
      (fun t => (t.settled, t.events.count (templateOf 5 [120]),
        t.exportedOf (templateOf 5 [120]) + t.lost.count (templateOf 5 [120]))) =
      some (true, 1, 2) := by decide +kernel
  obtain ⟨t, hrun, ht⟩ := Option.map_eq_some_iff.mp hends
  simp only [Prod.mk.injEq] at ht
  exact ⟨t, hrun, by decide +kernel, ht.1, ht.2.1, ht.2.2⟩

/-- Two equal warnings, and an alert while the collection pops; the ring has room for one record. -/
def quietActs : List Act :=
  [.event 11 5 [120], .event 12 5 [120], .drain 20, .pop, .event 21 2 [120], .pop, .pop, .orphan]

theorem collections_account_quietActs : ∃ t,
    Run.exec (step (default : Decoding UInt64) 30) State.start quietActs = some t ∧
    t.settled = true ∧ t.events.length = 3 ∧ ∀ template ∈ t.events,
      t.exportedOf template + t.lost.count template = t.events.count template := by
  have hends : (Run.exec (step (default : Decoding UInt64) 30) State.start quietActs).map
      (fun t => (t.settled, t.events.length)) = some (true, 3) := by decide +kernel
  obtain ⟨t, hrun, ht⟩ := Option.map_eq_some_iff.mp hends
  simp only [Prod.mk.injEq] at ht
  exact ⟨t, hrun, ht.1, ht.2, collections_account hrun (by decide +kernel) ht.1⟩

end NgxOtel.ErrorLog
