import NgxOtel.Coalesce.Table
import NgxOtel.Lib.Run

/-!
# The coalescer over whole histories

Any sequence of `coalesce` and `drain_coalesce_table` calls on one table.  The history `calls`
records, since the last drain, the pair of each line and what `coalesce` returned for it.

* `Tracks` — the invariant: a held pair has been sampled once and counted exactly, a pair that is
  not held has been refused by a full table, or not seen at all.
* `step_tracks` — one call keeps it.
* `coalesce_history` — **the table is a searchable, exact counter of the pairs it holds.**
-/

set_option autoImplicit false

namespace NgxOtel.Coalesce

open Word LinearProbe

/-- A complete call on the table. -/
inductive TableOp where
  | call (severity : UInt8) (buf : Bytes)
  | drain

/-- The table, and the calls since the last drain with their results. -/
structure History where
  table : Table
  calls : List (Pair × CoalesceResult)

/-- The results, in order, of the calls for one pair since the last drain. -/
def History.resultsOf (s : History) (p : Pair) : List CoalesceResult :=
  (s.calls.filter (fun c => c.1 = p)).map Prod.snd

/-- The table before any call. -/
def History.start : History := ⟨zeroedTable, []⟩

def History.call (s : History) (severity : UInt8) (buf : Bytes) : History :=
  let r := coalesce s.table severity buf true
  ⟨r.2, s.calls ++ [(pairOf severity buf, r.1)]⟩

def History.drain (s : History) : History := ⟨(drainCoalesceTable s.table).2, []⟩

/-- One complete call; it always returns. -/
def tableStep (s : History) : TableOp → Option History
  | .call severity buf => some (s.call severity buf)
  | .drain => some s.drain

/-- Fewer than `2 ^ 32` calls per pair since the last drain. -/
def History.Counted (s : History) : Prop := ∀ p, (s.resultsOf p).length < 2 ^ 32

/-- What the table knows about a pair that it holds. -/
structure Sampled (s : History) (p : Pair) (slot : CoalesceSlot) : Prop where
  tracked : ¬p.2 ≤ HIGH_SEVERITY_THRESHOLD
  emitted : slot.sampleEmitted = true
  count_eq : slot.count = (s.resultsOf p).length
  results : ∃ n, s.resultsOf p = .emitVerbatim p.1 :: List.replicate n .coalesced

/-- **The table tracks its history.** -/
structure Tracks (s : History) : Prop where
  searchable : Searchable s.table
  empty : ∀ i, pairAt s.table i = none → s.table i = .zeroed
  held : ∀ i p, pairAt s.table i = some p → Sampled s p (s.table i)
  refused : ∀ p, ¬p.2 ≤ HIGH_SEVERITY_THRESHOLD → (∀ i, pairAt s.table i ≠ some p) →
    ∃ m, s.resultsOf p = List.replicate m (.emitVerbatim 0) ∧
      (0 < m → ∀ i, pairAt s.table i ≠ none)

theorem resultsOf_concat (s : History) (table : Table) (q p : Pair) (r : CoalesceResult) :
    History.resultsOf ⟨table, s.calls ++ [(q, r)]⟩ p =
      if q = p then s.resultsOf p ++ [r] else s.resultsOf p := by
  by_cases h : q = p <;> simp [History.resultsOf, List.filter_append, h]

theorem tracks_of_empty {s : History} (hcalls : s.calls = [])
    (hempty : ∀ i, pairAt s.table i = none) (hzero : ∀ i, s.table i = .zeroed) : Tracks s where
  searchable := searchable_of_empty hempty
  empty := fun i _ => hzero i
  held := fun i p hp => by
    rw [hempty i] at hp
    cases hp
  refused := fun p _ _ => ⟨0, by simp [History.resultsOf, hcalls], by omega⟩

theorem tracks_start : Tracks History.start :=
  tracks_of_empty rfl pairAt_zeroedTable fun _ => rfl

/-- A sweep leaves a zeroed table. -/
theorem Tracks.drain {s : History} (h : Tracks s) : Tracks s.drain := by
  refine tracks_of_empty rfl (pairAt_drained s.table) ?_
  intro i
  simp only [History.drain, drainCoalesceTable, drainSlot]
  split
  · rename_i hzero
    exact h.empty i (pairAt_eq_none.mpr hzero)
  · rfl

/-! ## One call -/

section Call

variable {s : History} {p : Pair}

/-- A call for another pair, that leaves a slot alone, leaves what is known about it. -/
theorem Sampled.other {slot : CoalesceSlot} {q : Pair} {r : CoalesceResult} (table : Table)
    (h : Sampled s q slot) (hne : p ≠ q) : Sampled ⟨table, s.calls ++ [(p, r)]⟩ q slot := by
  have hsame : History.resultsOf ⟨table, s.calls ++ [(p, r)]⟩ q = s.resultsOf q := by
    rw [resultsOf_concat, if_neg hne]
  exact ⟨h.tracked, h.emitted, hsame ▸ h.count_eq, hsame ▸ h.results⟩

theorem Tracks.untracked (h : Tracks s) (hsev : p.2 ≤ HIGH_SEVERITY_THRESHOLD)
    (r : CoalesceResult) : Tracks ⟨s.table, s.calls ++ [(p, r)]⟩ := by
  have hne : ∀ {q : Pair}, ¬q.2 ≤ HIGH_SEVERITY_THRESHOLD → p ≠ q := by
    rintro q hq rfl
    exact hq hsev
  refine ⟨h.searchable, h.empty, ?_, ?_⟩
  · intro i q hq
    have hsampled := h.held i q hq
    exact hsampled.other s.table (hne hsampled.tracked)
  · intro q htracked habsent
    rw [resultsOf_concat, if_neg (hne htracked)]
    exact h.refused q htracked habsent

/-- A call for a pair that the table does not hold leaves what is known about those it holds. -/
theorem Tracks.held_of_absent (h : Tracks s) (habsent : ∀ j, pairAt s.table j ≠ some p)
    (table : Table) (r : CoalesceResult) {j : Fin COALESCE_CAPACITY} {q : Pair}
    (hj : pairAt s.table j = some q) :
    Sampled ⟨table, s.calls ++ [(p, r)]⟩ q (s.table j) := by
  refine (h.held j q hj).other table ?_
  rintro rfl
  exact habsent j hj

theorem Tracks.novel (h : Tracks s) (htracked : ¬p.2 ≤ HIGH_SEVERITY_THRESHOLD) (hp : p.1 ≠ 0)
    {i : Fin COALESCE_CAPACITY} (hempty : pairAt s.table i = none)
    (habsent : ∀ j, pairAt s.table j ≠ some p)
    (hsearch : Searchable (Function.update s.table i (novelSlot p.1 p.2))) :
    Tracks ⟨Function.update s.table i (novelSlot p.1 p.2),
      s.calls ++ [(p, .emitVerbatim p.1)]⟩ := by
  have hpair := pairAt_update_novel s.table hp i
  -- the pair has no earlier call: only a full table refuses one
  have hfirst : s.resultsOf p = [] := by
    obtain ⟨m, hm, hfull⟩ := h.refused p htracked habsent
    cases m with
    | zero => simpa using hm
    | succ m => exact absurd hempty (hfull (Nat.succ_pos m) i)
  refine ⟨hsearch, ?_, ?_, ?_⟩
  · intro j hj
    rw [hpair] at hj
    by_cases hji : j = i
    · simp [hji] at hj
    · simp only [Function.update_of_ne hji] at hj ⊢
      exact h.empty j hj
  · intro j q hj
    rw [hpair] at hj
    by_cases hji : j = i
    · subst hji
      simp only [Function.update_self, Option.some.injEq] at hj ⊢
      subst hj
      have hresults : History.resultsOf ⟨Function.update s.table j (novelSlot p.1 p.2),
          s.calls ++ [(p, .emitVerbatim p.1)]⟩ p = [.emitVerbatim p.1] := by
        rw [resultsOf_concat, if_pos rfl, hfirst, List.nil_append]
      exact ⟨htracked, rfl, by rw [hresults]; rfl, 0, by rw [hresults]; rfl⟩
    · simp only [Function.update_of_ne hji] at hj ⊢
      exact h.held_of_absent habsent _ _ hj
  · intro q hq hnot
    have hqp : p ≠ q := by
      rintro rfl
      exact hnot i (by rw [hpair, Function.update_self])
    have hbefore : ∀ j, pairAt s.table j ≠ some q := by
      intro j hj
      have hji : j ≠ i := by
        rintro rfl
        rw [hempty] at hj
        cases hj
      exact hnot j (by rw [hpair, Function.update_of_ne hji, hj])
    obtain ⟨m, hm, hfull⟩ := h.refused q hq hbefore
    rw [resultsOf_concat, if_neg hqp]
    exact ⟨m, hm, fun hpos => absurd hempty (hfull hpos i)⟩

theorem Tracks.known (h : Tracks s) {i : Fin COALESCE_CAPACITY}
    (hfound : pairAt s.table i = some p) (hcount : (s.resultsOf p).length + 1 < 2 ^ 32) :
    Tracks ⟨Function.update s.table i (bumpedSlot (s.table i)), s.calls ++ [(p, .coalesced)]⟩ := by
  have hpair := pairAt_update_bumped s.table i
  refine ⟨searchable_of_pairAt hpair h.searchable, ?_, ?_, ?_⟩
  · intro j hj
    rw [hpair] at hj
    have hji : j ≠ i := by
      rintro rfl
      rw [hfound] at hj
      cases hj
    simp only [Function.update_of_ne hji]
    exact h.empty j hj
  · intro j q hj
    rw [hpair] at hj
    by_cases hji : j = i
    · subst hji
      cases hfound.symm.trans hj
      have hold := h.held j p hfound
      obtain ⟨n, hn⟩ := hold.results
      have hresults : History.resultsOf ⟨Function.update s.table j (bumpedSlot (s.table j)),
          s.calls ++ [(p, .coalesced)]⟩ p = s.resultsOf p ++ [.coalesced] := by
        rw [resultsOf_concat, if_pos rfl]
      simp only [Function.update_self]
      refine ⟨hold.tracked, rfl, ?_, n + 1, ?_⟩
      · rw [hresults, List.length_append, List.length_singleton, ← hold.count_eq]
        exact addW_of_lt (by rw [hold.count_eq]; exact hcount)
      · rw [hresults, hn, List.cons_append, ← List.replicate_succ']
    · simp only [Function.update_of_ne hji]
      refine (h.held j q hj).other _ ?_
      rintro rfl
      exact hji (h.searchable.distinct j i p hj hfound)
  · intro q hq hnot
    rw [hpair] at hnot ⊢
    have hqp : p ≠ q := by
      rintro rfl
      exact hnot i hfound
    rw [resultsOf_concat, if_neg hqp]
    exact h.refused q hq hnot

theorem Tracks.full (h : Tracks s) (hfull : ∀ i, pairAt s.table i ≠ none)
    (habsent : ∀ i, pairAt s.table i ≠ some p) :
    Tracks ⟨s.table, s.calls ++ [(p, .emitVerbatim 0)]⟩ := by
  refine ⟨h.searchable, h.empty, ?_, ?_⟩
  · exact fun j q hj => h.held_of_absent habsent _ _ hj
  · intro q hq hnot
    obtain ⟨m, hm, -⟩ := h.refused q hq hnot
    rw [resultsOf_concat]
    split
    · exact ⟨m + 1, by rw [hm, ← List.replicate_succ'], fun _ => hfull⟩
    · exact ⟨m, hm, fun _ => hfull⟩

/-- **One `coalesce` call keeps the table tracking its history.** -/
theorem Tracks.call (h : Tracks s) {severity : UInt8} {buf : Bytes}
    (hcounted : (s.call severity buf).Counted) : Tracks (s.call severity buf) := by
  by_cases hsev : severity ≤ HIGH_SEVERITY_THRESHOLD
  · have hcall : coalesce s.table severity buf true = (.emitVerbatim 0, s.table) := by
      simp [coalesce, hsev]
    simp only [History.call, hcall]
    exact h.untracked hsev _
  · have hp : (pairOf severity buf).1 ≠ 0 := coalesceKey_ne_zero _ _
    have htracked : ¬(pairOf severity buf).2 ≤ HIGH_SEVERITY_THRESHOLD := hsev
    have hout := coalesce_outcome h.searchable buf hsev
    have hsearch := hout.searchable hp h.searchable
    have hlen := hcounted (pairOf severity buf)
    simp only [History.call, resultsOf_concat, if_true, List.length_append,
      List.length_singleton] at hlen
    simp only [History.call]
    generalize coalesce s.table severity buf true = r at hout hsearch hlen ⊢
    generalize pairOf severity buf = p at hp htracked hout hsearch hlen ⊢
    cases hout with
    | novel d hd hempty hbefore habsent => exact h.novel htracked hp hempty habsent hsearch
    | known i hfound =>
      rw [(h.held i p hfound).emitted]
      exact h.known hfound hlen
    | full hfull habsent => exact h.full hfull habsent

end Call

theorem step_tracks {s t : History} {a : TableOp} (h : Tracks s) (hcounted : t.Counted)
    (hstep : tableStep s a = some t) : Tracks t := by
  cases a with
  | call severity buf =>
    cases hstep
    exact h.call hcounted
  | drain =>
    cases hstep
    exact h.drain

/-! ## Whole histories -/

/-- The tuples of a sweep are the held pairs with their counts. -/
theorem Tracks.drainSlot_eq {s : History} (h : Tracks s) (i : Fin COALESCE_CAPACITY) :
    (drainSlot (s.table i)).1 =
      (pairAt s.table i).map fun p => (p.1, p.2, (s.resultsOf p).length) := by
  cases hpair : pairAt s.table i with
  | none => simp [drainSlot, pairAt_eq_none.mp hpair]
  | some p =>
    have hsampled := h.held i p hpair
    obtain ⟨n, hn⟩ := hsampled.results
    have hpos : (s.table i).count > 0 := by simp [hsampled.count_eq, hn]
    have hkey : (s.table i).keyHash ≠ 0 := by
      intro hzero
      rw [pairAt_eq_none.mpr hzero] at hpair
      cases hpair
    have hslot : ((s.table i).keyHash, (s.table i).severity) = p := by
      simpa [pairAt, hkey] using hpair
    subst hslot
    simp only [drainSlot, if_neg hkey, if_pos hpos, Option.map_some, ← hsampled.count_eq]

theorem Tracks.mem_drain {s : History} (h : Tracks s) {k : UInt64} {severity : UInt8} {count : Nat} :
    (k, severity, count) ∈ (drainCoalesceTable s.table).1 ↔
      (∃ i, pairAt s.table i = some (k, severity)) ∧
        count = (s.resultsOf (k, severity)).length := by
  simp only [drainCoalesceTable, List.mem_filterMap, List.mem_finRange, true_and, h.drainSlot_eq,
    Option.map_eq_some_iff, Prod.mk.injEq]
  constructor
  · rintro ⟨i, p, hp, rfl, rfl, rfl⟩
    exact ⟨⟨i, hp⟩, rfl⟩
  · rintro ⟨⟨i, hp⟩, rfl⟩
    exact ⟨i, _, hp, rfl, rfl, rfl⟩

theorem Tracks.drain_nodup {s : History} (h : Tracks s) :
    ((drainCoalesceTable s.table).1.map fun e => (e.1, e.2.1)).Nodup := by
  have hpairs : (drainCoalesceTable s.table).1.map (fun e => (e.1, e.2.1)) =
      (List.finRange COALESCE_CAPACITY).filterMap (pairAt s.table) := by
    simp only [drainCoalesceTable, h.drainSlot_eq, List.map_filterMap, Option.map_map]
    congr 1
    funext i
    cases pairAt s.table i <;> rfl
  rw [hpairs]
  exact (List.nodup_finRange _).filterMap fun i j p hi hj => h.searchable.distinct i j p hi hj

/-- **The table is a searchable, exact counter.**  After any sequence of complete calls on a zeroed
table, with fewer than `2 ^ 32` calls per pair between drains:

1. each pair is in at most one slot, and every slot from the one its key modulo 256 selects up to its
   own is occupied;
2. a line of severity 3 or less is untracked and changes nothing;
3. since the last drain the first call for a pair emitted its nonzero key and every later one was
   coalesced, unless all slots are occupied by other pairs: then each call for it was untracked;
4. a line whose pair is absent from a full table is untracked and changes nothing;
5. a drain returns one tuple per held pair, with the number of its calls since the last drain, and
   leaves every slot empty. -/
theorem coalesce_history {ops : List TableOp} {s : History}
    (hcounted : Run.Along tableStep (fun s a => ∀ t, tableStep s a = some t → t.Counted)
      History.start ops)
    (hrun : Run.exec tableStep History.start ops = some s) :
    (∀ i j p, pairAt s.table i = some p → pairAt s.table j = some p → i = j) ∧
    (∀ i p, pairAt s.table i = some p → ∃ d < 256, i.val = (p.1.toNat % 256 + d) % 256 ∧
      ∀ e < d, ∀ j, j.val = (p.1.toNat % 256 + e) % 256 → pairAt s.table j ≠ none) ∧
    (∀ severity buf, severity ≤ 3 →
      coalesce s.table severity buf true = (.emitVerbatim 0, s.table)) ∧
    (∀ p : Pair, 3 < p.2 →
      (∃ m, s.resultsOf p = List.replicate m (.emitVerbatim 0) ∧
        (0 < m → ∀ i, pairAt s.table i ≠ none) ∧ ∀ i, pairAt s.table i ≠ some p) ∨
      (∃ n, s.resultsOf p = .emitVerbatim p.1 :: List.replicate n .coalesced ∧ p.1 ≠ 0 ∧
        ∃ i, pairAt s.table i = some p)) ∧
    (∀ severity buf, (∀ i, pairAt s.table i ≠ none) →
      (∀ i, pairAt s.table i ≠ some (pairOf severity buf)) →
      coalesce s.table severity buf true = (.emitVerbatim 0, s.table)) ∧
    ((drainCoalesceTable s.table).1.map fun e => (e.1, e.2.1)).Nodup ∧
    (∀ k severity count, (k, severity, count) ∈ (drainCoalesceTable s.table).1 ↔
      (∃ i, pairAt s.table i = some (k, severity)) ∧
        count = (s.resultsOf (k, severity)).length) ∧
    (∀ i, pairAt (drainCoalesceTable s.table).2 i = none) := by
  have h : Tracks s := Run.exec_invariant_along
    (fun s a t hs hc hstep => step_tracks hs (hc t hstep) hstep) hcounted hrun tracks_start
  have huntracked : ∀ severity buf, severity ≤ 3 →
      coalesce s.table severity buf true = (.emitVerbatim 0, s.table) := by
    intro severity buf hsev
    simp [coalesce, HIGH_SEVERITY_THRESHOLD, hsev]
  refine ⟨h.searchable.distinct, fun i p hp => h.searchable.chain hp, huntracked, ?_, ?_,
    h.drain_nodup, fun _ _ _ => h.mem_drain, pairAt_drained s.table⟩
  · intro p hp
    by_cases hheld : ∃ i, pairAt s.table i = some p
    · obtain ⟨i, hi⟩ := hheld
      obtain ⟨n, hn⟩ := (h.held i p hi).results
      refine .inr ⟨n, hn, ?_, i, hi⟩
      intro hzero
      simp only [pairAt, Option.ite_none_left_eq_some, Option.some.injEq] at hi
      exact hi.1 (by rw [← hzero, ← hi.2])
    · have habsent := not_exists.mp hheld
      obtain ⟨m, hm, hfull⟩ := h.refused p (by simpa [HIGH_SEVERITY_THRESHOLD] using hp) habsent
      exact .inl ⟨m, hm, hfull, habsent⟩
  · intro severity buf hfull habsent
    by_cases hsev : severity ≤ 3
    · exact huntracked severity buf hsev
    · have hout := coalesce_outcome h.searchable buf hsev
      generalize coalesce s.table severity buf true = r at hout ⊢
      cases hout with
      | novel d hd hempty hbefore hnot => exact absurd hempty (hfull _)
      | known i hfound => exact absurd hfound (habsent i)
      | full hfull habsent => rfl

theorem counted_of_length {s : History} (h : s.calls.length < 2 ^ 32) : s.Counted := by
  intro p
  have hle : (s.resultsOf p).length ≤ s.calls.length := by
    rw [History.resultsOf, List.length_map]
    exact List.length_filter_le _ _
  omega

/-- Two equal warnings: one sample, one count of 2. -/
theorem coalesce_history_two_lines : ∃ s,
    Run.exec tableStep History.start [.call 5 [120], .call 5 [120]] = some s ∧
    s.resultsOf (pairOf 5 [120]) = [.emitVerbatim (pairOf 5 [120]).1, .coalesced] ∧
    (∀ i j, pairAt s.table i = some (pairOf 5 [120]) → pairAt s.table j = some (pairOf 5 [120]) →
      i = j) ∧
    ((pairOf 5 [120]).1, 5, 2) ∈ (drainCoalesceTable s.table).1 := by
  have hcounted : Run.Along tableStep (fun s a => ∀ t, tableStep s a = some t → t.Counted)
      History.start [.call 5 [120], .call 5 [120]] := by
    refine ⟨?_, fun t ht => ⟨?_, fun _ _ => trivial⟩⟩
    · rintro t ⟨⟩
      exact counted_of_length (by simp [History.call, History.start])
    · cases ht
      rintro t ⟨⟩
      exact counted_of_length (by simp [History.call, History.start])
  have h := coalesce_history hcounted rfl
  have hresults : (((History.start.call 5 [120]).call 5 [120]).resultsOf (pairOf 5 [120])) =
      [.emitVerbatim (pairOf 5 [120]).1, .coalesced] := by decide +kernel
  refine ⟨_, rfl, hresults, fun i j => h.1 i j _, (h.2.2.2.2.2.2.1 _ _ _).mpr ⟨?_, ?_⟩⟩
  · rcases h.2.2.2.1 (pairOf 5 [120]) (by decide) with ⟨m, hm, -⟩ | ⟨n, -, -, hheld⟩
    · have hmem : CoalesceResult.coalesced ∈ List.replicate m (.emitVerbatim 0) := by
        rw [← hm, hresults]
        simp
      cases List.eq_of_mem_replicate hmem
    · exact hheld
  · exact congrArg List.length hresults.symm

end NgxOtel.Coalesce
