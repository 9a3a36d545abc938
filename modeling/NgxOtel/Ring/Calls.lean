import NgxOtel.Ring.Spsc

/-!
# Whole calls on the ring

A `push` or a `pop_into` that no other call overlaps, seen as one step on a bounded queue of
records.  This is the view that the users of a ring take.

* `fits` — the space check, in terms of the queue.
* `refused_step_le`, `producer_frame`, `consumer_frame`, `State.Pushed.step` — what one move of
  either process leaves alone; these hold for calls that overlap, too.
* `push_call` — **a push appends its record when it fits**, and changes nothing otherwise.
* `pop_call` — **a pop returns the first record of the queue**, or `false` when there is none.
-/

set_option autoImplicit false

namespace NgxOtel.Ring

open Word

/-- The records published and not yet popped. -/
def State.queue (s : State) : List Bytes := s.published.drop s.popped.length

/-- There is room for a record behind the queue. -/
def fits (cap : Nat) (queue : List Bytes) (record : Bytes) : Bool :=
  (stream queue).length + total record ≤ cap

section Calls

variable {cap : Nat} {s t : State}

/-! ## One move -/

theorem refused_step_le (hcap : 0 < cap) {a : Act} (h : step cap s a = some t) :
    s.refused ≤ t.refused := by
  rcases step_cases hcap h with ⟨record, -, -, rfl⟩ | ⟨out, -, -, rfl⟩ | ⟨f, -, rfl⟩ | ⟨f, -, rfl⟩
  · exact Nat.le_refl _
  · exact Nat.le_refl _
  · exact refused_producerStep_le s f
  · rw [State.refused, State.refused, (consumerStep_frame cap s f).2]

/-- The two moves of the process that pushes. -/
def Act.isProducer : Act → Bool
  | .callPush _ | .producer => true
  | .callPop _ | .consumer => false

/-- The producer leaves the pops alone. -/
theorem producer_frame {a : Act} (ha : a.isProducer = true) (h : step cap s a = some t) :
    t.pop = s.pop ∧ t.pops = s.pops := by
  cases a with
  | callPush record =>
    simp only [step, Option.ite_none_right_eq_some, Option.some.injEq] at h
    obtain ⟨-, rfl⟩ := h
    unfold startPush
    split <;> exact ⟨rfl, rfl⟩
  | producer =>
    obtain ⟨f, -, rfl⟩ := Option.map_eq_some_iff.mp h
    unfold producerStep
    split
    split <;> exact ⟨rfl, rfl⟩
  | callPop out | consumer => cases ha

/-- The consumer leaves the pushes alone; its call goes on, or it has returned with one entry. -/
structure ConsumerMoves (s t : State) : Prop where
  push : t.push = s.push
  pushes : t.pushes = s.pushes
  pops : (∃ f, t.pop = some f) ∧ t.pops = s.pops ∨ t.pop = none ∧ ∃ c, t.pops = s.pops ++ [c]

theorem consumer_frame {a : Act} (ha : a.isProducer = false) (h : step cap s a = some t) :
    ConsumerMoves s t := by
  cases a with
  | callPush record | producer => cases ha
  | callPop out =>
    simp only [step, Option.ite_none_right_eq_some, Option.some.injEq,
      Option.isNone_iff_eq_none] at h
    obtain ⟨hidle, rfl⟩ := h
    unfold startPop
    split
    · exact ⟨rfl, rfl, .inr ⟨hidle, _, rfl⟩⟩
    · exact ⟨rfl, rfl, .inl ⟨⟨_, rfl⟩, rfl⟩⟩
  | consumer =>
    obtain ⟨f, -, rfl⟩ := Option.map_eq_some_iff.mp h
    obtain ⟨hpush, hpushes⟩ := consumerStep_frame cap s f
    refine ⟨hpush, hpushes, ?_⟩
    unfold consumerStep
    split
    split
    · exact .inl ⟨⟨_, rfl⟩, rfl⟩
    · exact .inr ⟨rfl, _, rfl⟩

theorem ConsumerMoves.refused (h : ConsumerMoves s t) : t.refused = s.refused := by
  rw [State.refused, State.refused, h.pushes]

theorem ConsumerMoves.published (h : ConsumerMoves s t) : t.published = s.published := by
  rw [State.published, State.published, h.pushes]

theorem counted_of_pushes (hpush : t.push = s.push) (hpushes : t.pushes = s.pushes)
    (h : s.Counted) : t.Counted := by
  simpa only [State.Counted, State.bytes, State.refused, State.published, hpush, hpushes] using h

/-- A call of `push` that has returned has published its record, or was refused. -/
theorem length_pushes (s : State) : s.pushes.length = s.published.length + s.refused := by
  unfold State.published State.refused
  induction s.pushes with
  | nil => rfl
  | cons c pushes ih =>
    obtain ⟨record, returned, ops⟩ := c
    cases returned <;> simp [PushDone.published?] at ih ⊢ <;> omega

/-- Every record pushed has the property, and so has the one of the push that runs. -/
def State.Pushed (P : Bytes → Prop) (s : State) : Prop :=
  (∀ c ∈ s.pushes, P c.record) ∧ ∀ f, s.push = some f → P f.record

theorem State.Pushed.step {P : Bytes → Prop} {a : Act} (hs : s.Pushed P)
    (hact : ∀ record, a = .callPush record → P record) (h : Ring.step cap s a = some t) :
    t.Pushed P := by
  obtain ⟨hpushes, hpush⟩ := hs
  cases a with
  | callPush record =>
    simp only [Ring.step, Option.ite_none_right_eq_some, Option.some.injEq] at h
    obtain ⟨-, rfl⟩ := h
    unfold startPush
    split
    · refine ⟨fun c hc => ?_, hpush⟩
      rcases List.mem_append.mp hc with hc | hc
      · exact hpushes c hc
      · rw [List.mem_singleton.mp hc]
        exact hact record rfl
    · refine ⟨hpushes, fun f hf => ?_⟩
      cases hf
      exact hact record rfl
  | producer =>
    obtain ⟨f, hf, rfl⟩ := Option.map_eq_some_iff.mp h
    unfold producerStep
    split
    split
    · refine ⟨hpushes, fun g hg => ?_⟩
      cases hg
      exact hpush f hf
    · refine ⟨fun c hc => ?_, fun g hg => by cases hg⟩
      rcases List.mem_append.mp hc with hc | hc
      · exact hpushes c hc
      · rw [List.mem_singleton.mp hc]
        exact hpush f hf
  | callPop out | consumer =>
    have hmoves := consumer_frame rfl h
    rw [State.Pushed, hmoves.push, hmoves.pushes]
    exact ⟨hpushes, hpush⟩

theorem State.Pushed.published {P : Bytes → Prop} (hs : s.Pushed P) :
    ∀ record ∈ s.published, P record := by
  intro record hrecord
  obtain ⟨c, hc, hpublished⟩ := List.mem_filterMap.mp hrecord
  unfold PushDone.published? at hpublished
  split at hpublished
  · cases hpublished
    exact hs.1 c hc
  · cases hpublished

theorem popped_concat_of_pops {c : PopDone} (h : t.pops = s.pops ++ [c]) :
    t.popped = s.popped ++ c.popped?.toList := by
  rw [State.popped, h, List.filterMap_append]
  cases hc : c.popped? <;> simp [State.popped, hc]

theorem Inv.popped_append_queue (h : Inv cap s) : s.popped ++ s.queue = s.published := by
  obtain ⟨rest, hrest⟩ := h.order
  simp [State.queue, ← hrest]

theorem Inv.used_eq (h : Inv cap s) :
    s.shared.writeOffset - s.shared.readOffset = (stream s.queue).length := by
  rw [h.write_eq, h.read_eq, ← h.popped_append_queue]
  simp

/-! ## Push -/

/-- The call has returned `returned`, and nothing else has happened. -/
structure PushReturns (s t : State) (record : Bytes) (returned : Bool) : Prop where
  push : t.push = none
  pop : t.pop = s.pop
  pops : t.pops = s.pops
  pushes : ∃ ops, t.pushes = s.pushes ++ [⟨record, returned, ops⟩]

/-- How far a push of `len` bytes past its space check is from its end. -/
def PushPc.rank (len : Nat) : PushPc → Option Nat
  | .writeLen _ i => some (4 - i + len + 2)
  | .writeRecord _ i => some (len - i + 1)
  | .publish _ => some 0
  | _ => none

theorem push_copies {f : PushFrame} {n : Nat} (hf : s.push = some f)
    (hn : f.pc.rank f.record.length = some n) :
    ∃ k t, Run.exec (step cap) s (List.replicate k .producer) = some t ∧
      PushReturns s t f.record true := by
  induction n using Nat.strong_induction_on generalizing s f with
  | _ n ih =>
    -- a step that copies a byte leaves a call of lower rank
    have hgoes : ∀ (m : Nat) (pc : PushPc), (f.next cap s.shared).2 = .inl pc →
        pc.rank f.record.length = some m → m < n →
        ∃ k t, Run.exec (step cap) s (List.replicate k .producer) = some t ∧
          PushReturns s t f.record true := by
      intro m pc hnext hrank hm
      obtain ⟨u, hstep, hu⟩ : ∃ u, step cap s .producer = some u ∧
          u = { s with
            shared := (f.next cap s.shared).1.apply s.shared
            push := some { f with pc := pc, ops := f.ops ++ [(f.next cap s.shared).1] } } := by
        simp only [step, hf, Option.map_some, producerStep, hnext, Option.some.injEq,
          exists_eq_left']
      obtain ⟨k, t, hrun, hret⟩ := ih m hm (s := u) (by rw [hu]) hrank
      subst hu
      refine ⟨k + 1, t, ?_, hret.push, hret.pop, hret.pops, hret.pushes⟩
      rw [List.replicate_succ, Run.exec_cons]
      exact ⟨_, hstep, hrun⟩
    cases hpc : f.pc with
    | loadWrite | loadRead _ | countDrop => simp [PushPc.rank, hpc] at hn
    | publish w =>
      refine ⟨1, producerStep cap s f, by simp [Run.exec, step, hf], ?_⟩
      simp only [producerStep, PushFrame.next, hpc]
      exact ⟨rfl, rfl, rfl, _, rfl⟩
    | writeLen w i =>
      simp only [PushPc.rank, hpc, Option.some.injEq] at hn
      by_cases hi : i + 1 < 4
      · exact hgoes _ (.writeLen w (i + 1)) (by simp [PushFrame.next, hpc, hi]) rfl (by omega)
      · by_cases hempty : f.record.isEmpty = true
        · exact hgoes _ (.publish w) (by simp [PushFrame.next, hpc, hi, hempty]) rfl (by omega)
        · exact hgoes _ (.writeRecord w 0) (by simp [PushFrame.next, hpc, hi, hempty]) rfl
            (by omega)
    | writeRecord w i =>
      simp only [PushPc.rank, hpc, Option.some.injEq] at hn
      by_cases hi : i + 1 < f.record.length
      · exact hgoes _ (.writeRecord w (i + 1)) (by simp [PushFrame.next, hpc, hi]) rfl (by omega)
      · exact hgoes _ (.publish w) (by simp [PushFrame.next, hpc, hi]) rfl (by omega)

theorem push_refuses {f : PushFrame} (hf : s.push = some f) (hpc : f.pc = .countDrop) :
    ∃ k t, Run.exec (step cap) s (List.replicate k .producer) = some t ∧
      PushReturns s t f.record false := by
  refine ⟨1, producerStep cap s f, by simp [Run.exec, step, hf], ?_⟩
  simp only [producerStep, PushFrame.next, hpc]
  exact ⟨rfl, rfl, rfl, _, rfl⟩

theorem published_of_returns {record : Bytes} {returned : Bool}
    (h : PushReturns s t record returned) :
    t.published = if returned then s.published ++ [record] else s.published := by
  obtain ⟨ops, hpushes⟩ := h.pushes
  cases returned <;> simp [State.published, hpushes, PushDone.published?]

theorem counted_of_returns {record : Bytes} {returned : Bool} (h : PushReturns s t record returned)
    (hbytes : (stream s.published).length + total record < 2 ^ 64)
    (hrefused : s.refused + 1 < 2 ^ 64) : t.Counted := by
  obtain ⟨ops, hpushes⟩ := h.pushes
  constructor
  · have hpublished := published_of_returns h
    simp only [State.bytes, h.push, Option.elim_none, hpublished]
    cases returned
    · simp only [Bool.false_eq_true, if_false]; omega
    · simp only [if_true, stream_append, stream_cons, stream_nil, List.append_nil,
        List.length_append, length_frame]
      omega
  · cases returned <;> simp [State.refused, hpushes] at hrefused ⊢ <;> omega

theorem queue_of_returns {record : Bytes} {returned : Bool} (hs : Inv cap s)
    (h : PushReturns s t record returned) :
    t.queue = if returned then s.queue ++ [record] else s.queue := by
  have hpopped : t.popped = s.popped := by simp [State.popped, h.pops]
  have hle : s.popped.length ≤ s.published.length := hs.order.length_le
  rw [State.queue, hpopped, published_of_returns h]
  cases returned
  · rfl
  · simp [State.queue, List.drop_append_of_le_length hle]

/-- The space check of a push, in terms of the queue. -/
theorem Inv.space_check (hs : Inv cap s) {record : Bytes}
    (hbytes : (stream s.published).length + total record < 2 ^ 64) :
    addW 64 (subW 64 s.shared.writeOffset s.shared.readOffset) (total record) > cap ↔
      fits cap s.queue record = false := by
  have hwrite := hs.write_eq
  have hle : s.shared.writeOffset - s.shared.readOffset ≤ s.shared.writeOffset := Nat.sub_le _ _
  rw [subW_of_le hs.read_le_write (by omega), addW_of_lt (by omega), hs.used_eq]
  simp [fits]

/-- **A push appends its record to the queue when it fits**, and returns `false` otherwise. -/
theorem push_call (hcap : 0 < cap) {record : Bytes} (hs : Inv cap s) (hidle : s.push = none)
    (hshort : record.length < 2 ^ 32) (hbytes : (stream s.published).length + total record < 2 ^ 64)
    (hrefused : s.refused + 1 < 2 ^ 64) :
    ∃ k t, Run.exec (step cap) s (.callPush record :: List.replicate k .producer) = some t ∧
      Inv cap t ∧ PushReturns s t record (fits cap s.queue record) ∧
      t.queue = if fits cap s.queue record then s.queue ++ [record] else s.queue := by
  have hcheck := hs.space_check hbytes
  obtain ⟨k, t, hrun, hret⟩ : ∃ k t, Run.exec (step cap)
      { s with push := some ⟨record,
        if fits cap s.queue record then .writeLen s.shared.writeOffset 0 else .countDrop,
        [.loadWriteOffset, .loadReadOffset]⟩ } (List.replicate k .producer) = some t ∧
      PushReturns s t record (fits cap s.queue record) := by
    cases hfits : fits cap s.queue record with
    | true =>
      obtain ⟨k, t, hrun, hret⟩ := @push_copies cap { s with push := some ⟨record,
        .writeLen s.shared.writeOffset 0, [.loadWriteOffset, .loadReadOffset]⟩ } _ _ rfl rfl
      exact ⟨k, t, hrun, hret.push, hret.pop, hret.pops, hret.pushes⟩
    | false =>
      obtain ⟨k, t, hrun, hret⟩ := @push_refuses cap { s with push := some ⟨record,
        .countDrop, [.loadWriteOffset, .loadReadOffset]⟩ } _ rfl rfl
      exact ⟨k, t, hrun, hret.push, hret.pop, hret.pops, hret.pushes⟩
  -- the call and its two loads come before
  have hfull : Run.exec (step cap) s (.callPush record :: List.replicate (k + 2) .producer) =
      some t := by
    have hpc : (if addW 64 (subW 64 s.shared.writeOffset s.shared.readOffset) (total record) > cap
        then PushPc.countDrop else .writeLen s.shared.writeOffset 0) =
        if fits cap s.queue record then .writeLen s.shared.writeOffset 0 else .countDrop := by
      simp only [hcheck]
      cases fits cap s.queue record <;> rfl
    rw [← hrun, ← hpc]
    simp [Run.exec, step, hidle, startPush, Nat.ne_of_gt hcap, List.replicate_succ, producerStep,
      PushFrame.next, Op.apply]
  have hinv : Inv cap t := by
    refine exec_inv hcap ?_ hfull hs (counted_of_returns hret hbytes hrefused)
    intro r hr
    simp only [List.mem_cons, Act.callPush.injEq, List.mem_replicate] at hr
    rcases hr with rfl | ⟨-, hr⟩
    · exact hshort
    · cases hr
  exact ⟨k + 2, t, hfull, hinv, hret, queue_of_returns hs hret⟩

/-! ## Pop -/

/-- The call has returned with the entry `c`, and nothing else has happened. -/
structure PopReturns (s t : State) (seen : Nat) (c : PopDone) : Prop where
  pop : t.pop = none
  push : t.push = s.push
  pushes : t.pushes = s.pushes
  pops : t.pops = s.pops ++ [c]
  seen : c.seen = seen
  poppedBefore : c.poppedBefore = s.popped.length

/-- From every state in which it is running, the call returns. -/
def PopFrame.Ends (cap : Nat) (f : PopFrame) : Prop :=
  ∀ s : State, s.pop = some f → ∃ k t c,
    Run.exec (step cap) s (List.replicate k .consumer) = some t ∧ PopReturns s t f.seen c

/-- A call past its first load ends when it does wherever it goes on after one operation. -/
theorem PopFrame.Ends.of_next {f : PopFrame} (hpc : f.pc ≠ .loadWrite)
    (hnext : ∀ sh pc, (f.next cap sh).2 = .inl pc →
      ∀ ops, Ends cap { f with pc := pc, ops := ops }) :
    f.Ends cap := by
  intro s hf
  have hseen : f.seenAfter (f.next cap s.shared).1 s.published.length = f.seen := by
    unfold PopFrame.seenAfter
    cases h : f.pc <;> simp_all [PopFrame.next]
  have hstep : step cap s .consumer = some (consumerStep cap s f) := by simp [step, hf]
  cases hcase : (f.next cap s.shared).2 with
  | inl pc =>
    have hpop : (consumerStep cap s f).pop =
        some { f with pc := pc, ops := f.ops ++ [(f.next cap s.shared).1] } := by
      simp only [consumerStep, hcase, hseen]
    have hpops : (consumerStep cap s f).pops = s.pops := by simp only [consumerStep, hcase]
    obtain ⟨hpush, hpushes⟩ := consumerStep_frame cap s f
    obtain ⟨k, t, c, hrun, hret⟩ := hnext s.shared pc hcase _ _ hpop
    refine ⟨k + 1, t, c, ?_, hret.pop, hret.push.trans hpush, hret.pushes.trans hpushes,
      hpops ▸ hret.pops, hret.seen, ?_⟩
    · rw [List.replicate_succ, Run.exec_cons]
      exact ⟨_, hstep, hrun⟩
    · rw [hret.poppedBefore, State.popped, State.popped, hpops]
  | inr r =>
    refine ⟨1, consumerStep cap s f, ⟨f.out, f.out ++ r.2, r.1,
      f.ops ++ [(f.next cap s.shared).1], f.seen, s.popped.length⟩, by simp [Run.exec, hstep], ?_⟩
    simp only [consumerStep, hcase, hseen]
    exact ⟨rfl, rfl, rfl, rfl, rfl, rfl⟩

theorem ends_consume {out copied : Bytes} {r len seen : Nat} {ops : List Op} :
    PopFrame.Ends cap ⟨out, .consume r len copied, ops, seen⟩ :=
  .of_next nofun fun sh pc h => by simp [PopFrame.next] at h

theorem ends_afterRecordByte {out copied : Bytes} {r len seen : Nat} {ops : List Op} :
    PopFrame.Ends cap ⟨out, afterRecordByte r len copied, ops, seen⟩ := by
  induction hn : len - copied.length generalizing copied ops with
  | zero =>
    rw [afterRecordByte, if_neg (by omega)]
    exact ends_consume
  | succ n ih =>
    rw [afterRecordByte, if_pos (by omega)]
    refine .of_next nofun ?_
    intro sh pc h ops
    simp only [PopFrame.next, Sum.inl.injEq] at h
    subst h
    exact ih (by simp; omega)

theorem ends_readLen {out lenBuf : Bytes} {available r seen : Nat} {ops : List Op} :
    PopFrame.Ends cap ⟨out, .readLen available r lenBuf, ops, seen⟩ := by
  induction hn : 4 - lenBuf.length generalizing lenBuf ops with
  | zero =>
    refine .of_next nofun ?_
    intro sh pc h ops
    simp only [PopFrame.next, List.length_append, List.length_singleton] at h
    rw [if_neg (by omega)] at h
    split at h
    · cases h
    · cases h; exact ends_afterRecordByte
  | succ n ih =>
    refine .of_next nofun ?_
    intro sh pc h ops
    simp only [PopFrame.next, List.length_append, List.length_singleton] at h
    split at h
    · cases h; exact ih (by simp; omega)
    · split at h
      · cases h
      · cases h; exact ends_afterRecordByte

theorem ends_loadRead {out : Bytes} {w seen : Nat} {ops : List Op} :
    PopFrame.Ends cap ⟨out, .loadRead w, ops, seen⟩ := by
  refine .of_next nofun ?_
  intro sh pc h ops
  simp only [PopFrame.next] at h
  split at h
  · cases h
  · cases h; exact ends_readLen

/-- **A pop returns the first record of the queue**, and `false` when the queue is empty. -/
theorem pop_call (hcap : 0 < cap) (out : Bytes) (hs : Inv cap s) (hidle : s.pop = none)
    (hcounted : s.Counted) :
    ∃ k t c, Run.exec (step cap) s (.callPop out :: List.replicate k .consumer) = some t ∧
      Inv cap t ∧ t.pop = none ∧ t.push = s.push ∧ t.pushes = s.pushes ∧
      t.pops = s.pops ++ [c] ∧ c.popped? = s.queue.head? ∧ t.queue = s.queue.tail := by
  obtain ⟨k, t, c, hrun, hret⟩ := @ends_loadRead cap out s.shared.writeOffset s.published.length
    [.loadWriteOffset] { s with pop := some ⟨out, .loadRead s.shared.writeOffset,
      [.loadWriteOffset], s.published.length⟩ } rfl
  have hfull : Run.exec (step cap) s (.callPop out :: List.replicate (k + 1) .consumer) =
      some t := by
    rw [← hrun]
    simp [Run.exec, step, hidle, startPop, Nat.ne_of_gt hcap, List.replicate_succ, consumerStep,
      PopFrame.next, Op.apply, PopFrame.seenAfter, State.published]
  have hinv : Inv cap t := by
    refine exec_inv hcap ?_ hfull hs ?_
    · intro r hr
      simp at hr
    · exact counted_of_pushes hret.push hret.pushes hcounted
  refine ⟨k + 1, t, c, hfull, hinv, hret.pop, hret.push, hret.pushes, hret.pops, ?_⟩
  have hpublished : t.published = s.published := by simp [State.published, hret.pushes]
  have hpopped := popped_concat_of_pops hret.pops
  have hqueue := hs.popped_append_queue
  have hqueue' := hinv.popped_append_queue
  rw [hpublished, hpopped, ← hqueue, List.append_assoc] at hqueue'
  have hsplit := List.append_cancel_left hqueue'
  cases hc : c.popped? with
  | some record =>
    simp only [hc, Option.toList_some, List.singleton_append] at hsplit
    simp [← hsplit]
  | none =>
    -- a pop that returned `false` had seen no record that was not popped
    have hfalse : c.returned = false := by
      simpa [PopDone.popped?] using hc
    have hseen := (hinv.emptyPop c (by simp [hret.pops]) hfalse).2.2
    rw [hret.seen, hret.poppedBefore] at hseen
    have hempty : s.queue = [] := List.drop_eq_nil_of_le hseen
    simp only [hc, Option.toList_none, List.nil_append, hempty] at hsplit
    simp [hempty, hsplit]

end Calls

end NgxOtel.Ring
