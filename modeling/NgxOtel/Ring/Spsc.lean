import NgxOtel.Lib.Cyclic
import NgxOtel.Ring.Model
import Mathlib.Data.List.GetD

/-!
# One producer, one consumer: the ring is a queue of records

The invariant `Inv` ties the byte window `[read_offset, write_offset)` to the framed records that
are published and not yet popped, for every capacity and every interleaving of the operations of
`NgxOtel.Ring.step`.

* `frame`, `stream` — the bytes a record, and a list of records, occupy.
* `PushOk`, `PopOk` — what a running call knows at each of its operations.
* `producerStep_inv`, `consumerStep_inv`, `step_inv` — one move keeps the invariant.
* `spsc_queue` — **the ring is a lossless, ordered queue**, refusals are counted, refused calls
  have no other effect, and no byte outside the payload is touched.

The offsets are 64-bit words that only grow, so the results are about runs that publish fewer than
`2 ^ 64` bytes (`State.bytes`) and refuse fewer than `2 ^ 64` pushes.
-/

set_option autoImplicit false

namespace NgxOtel.Ring

open Word Cyclic

/-! ## Framed records -/

/-- The bytes of a record in the ring: its length, then its contents. -/
def frame (record : Bytes) : Bytes := lenBytes record ++ record

/-- The bytes of consecutive records. -/
def stream (records : List Bytes) : Bytes := records.flatMap frame

@[simp] theorem length_lenBytes (record : Bytes) : (lenBytes record).length = 4 := by
  simp [lenBytes]

@[simp] theorem length_frame (record : Bytes) : (frame record).length = total record := by
  simp [frame, total]

@[simp] theorem stream_append (xs ys : List Bytes) : stream (xs ++ ys) = stream xs ++ stream ys := by
  simp [stream]

@[simp] theorem stream_cons (record : Bytes) (rest : List Bytes) :
    stream (record :: rest) = frame record ++ stream rest := rfl

@[simp] theorem stream_nil : stream [] = [] := rfl

/-- The records up to the next one to pop. -/
theorem prefix_split {popped published : List Bytes} {record : Bytes} (h : popped <+: published)
    (hr : published[popped.length]? = some record) : popped ++ [record] <+: published := by
  obtain ⟨rest, rfl⟩ := h
  cases rest with
  | nil => simp at hr
  | cons r rest =>
    simp only [List.getElem?_append_right (Nat.le_refl _), Nat.sub_self,
      List.getElem?_cons_zero, Option.some.injEq] at hr
    exact ⟨rest, by simp [hr]⟩

theorem stream_length_le {xs ys : List Bytes} (h : xs <+: ys) :
    (stream xs).length ≤ (stream ys).length := by
  obtain ⟨rest, rfl⟩ := h
  simp

/-- Byte `j` of the next record to pop, read off the window. -/
theorem window_frame {cap j : Nat} {mem : Nat → UInt8} {popped published : List Bytes}
    {record extra : Bytes} (hw : Window cap mem (stream published ++ extra) (stream popped).length)
    (hpre : popped <+: published) (hr : published[popped.length]? = some record)
    (hj : j < total record) :
    mem (((stream popped).length + j) % cap) = (frame record).getD j 0 := by
  have hnext : stream popped ++ frame record <+: stream published ++ extra := by
    obtain ⟨rest, hrest⟩ := prefix_split hpre hr
    exact ⟨stream rest ++ extra, by simp [← hrest]⟩
  refine (hw.of_prefix hnext) _ _ (Nat.le_add_right _ _) ?_
  have hlt : j < (frame record).length := by simpa using hj
  rw [List.getElem?_append_right (Nat.le_add_right _ _), Nat.add_sub_cancel_left,
    List.getElem?_eq_getElem hlt, List.getD_eq_getElem _ _ hlt]

/-- Copying byte `j` of a frame behind the published stream. -/
theorem window_write {cap lo j : Nat} {mem : Nat → UInt8} {st : Bytes} {record : Bytes}
    (hw : Window cap mem (st ++ (frame record).take j) lo) (hj : j < total record)
    (hfit : st.length + total record ≤ lo + cap) :
    Window cap (Function.update mem ((st.length + j) % cap) ((frame record).getD j 0))
      (st ++ (frame record).take (j + 1)) lo := by
  have hlt : j < (frame record).length := by simpa using hj
  have hlen : (st ++ (frame record).take j).length = st.length + j := by
    rw [List.length_append, List.length_take, Nat.min_eq_left (Nat.le_of_lt hlt)]
  have hpush := hw.push (by rw [hlen]; omega) ((frame record).getD j 0)
  rw [hlen] at hpush
  rw [List.take_add_one, List.getElem?_eq_getElem hlt, Option.toList_some, ← List.append_assoc]
  rwa [List.getD_eq_getElem _ _ hlt] at hpush ⊢

theorem frame_getD_len {record : Bytes} {i : Nat} (hi : i < 4) :
    (frame record).getD i 0 = (lenBytes record).getD i 0 := by
  unfold frame
  rw [List.getD_append _ _ _ _ (by simpa using hi)]

theorem frame_getD_record {record : Bytes} {i : Nat} :
    (frame record).getD (4 + i) 0 = record.getD i 0 := by
  unfold frame
  rw [List.getD_append_right _ _ _ _ (by simp)]
  simp

/-! ## The invariant -/

/-- The bytes of its frame that a running push has copied. -/
def PushFrame.written (f : PushFrame) : Bytes :=
  match f.pc with
  | .writeLen _ i => (frame f.record).take i
  | .writeRecord _ i => (frame f.record).take (4 + i)
  | .publish _ => frame f.record
  | _ => []

/-- The bytes that a push past its space check is about to publish. -/
def PushFrame.reserved (f : PushFrame) : Nat :=
  match f.pc with
  | .writeLen _ _ | .writeRecord _ _ | .publish _ => total f.record
  | _ => 0

/-- The bytes published so far, the 4-byte lengths included and a push past its space check
counted as published. -/
def State.bytes (s : State) : Nat :=
  (stream s.published).length + s.push.elim 0 PushFrame.reserved

/-- What a running push knows: its `write_offset` is the ring's own, and past the space check its
whole frame lies within one lap of the consumer. -/
def PushOk (cap : Nat) (sh : Shared) (f : PushFrame) : Prop :=
  match f.pc with
  | .loadWrite => f.ops = []
  | .loadRead w => w = sh.writeOffset ∧ f.ops = [.loadWriteOffset]
  | .countDrop => f.ops = [.loadWriteOffset, .loadReadOffset]
  | .writeLen w i => w = sh.writeOffset ∧ w + total f.record ≤ sh.readOffset + cap ∧ i < 4
  | .writeRecord w i =>
      w = sh.writeOffset ∧ w + total f.record ≤ sh.readOffset + cap ∧ i < f.record.length
  | .publish w => w = sh.writeOffset ∧ w + total f.record ≤ sh.readOffset + cap

/-- What a running pop knows, given the records published and popped: past its checks there is a
next record, and the bytes copied so far are its first ones. -/
def PopOk (cap : Nat) (sh : Shared) (published popped : List Bytes) (f : PopFrame) : Prop :=
  f.ops.filter Op.isWrite = [] ∧
  match f.pc with
  | .loadWrite => True
  | .loadRead w =>
      popped.length ≤ f.seen ∧ f.seen ≤ published.length ∧
        w = (stream (published.take f.seen)).length
  | .readLen available r lenBuf =>
      r = sh.readOffset ∧ ∃ record, published[popped.length]? = some record ∧
        total record ≤ available ∧ available ≤ cap ∧
        lenBuf = (lenBytes record).take lenBuf.length ∧ lenBuf.length < 4
  | .readRecord r len copied =>
      r = sh.readOffset ∧ ∃ record, published[popped.length]? = some record ∧
        total record ≤ cap ∧ len = record.length ∧
        copied = record.take copied.length ∧ copied.length < len
  | .consume r len copied =>
      r = sh.readOffset ∧ published[popped.length]? = some copied ∧ len = copied.length

/-- **The ring invariant.** -/
structure Inv (cap : Nat) (s : State) : Prop where
  short : ∀ record ∈ s.published, record.length < 2 ^ 32
  callShort : ∀ f, s.push = some f → f.record.length < 2 ^ 32
  order : s.popped <+: s.published
  write_eq : s.shared.writeOffset = (stream s.published).length
  read_eq : s.shared.readOffset = (stream s.popped).length
  width : s.shared.writeOffset ≤ s.shared.readOffset + cap
  dropped_eq : s.shared.dropped = s.refused
  window : Window cap s.shared.payload
    (stream s.published ++ s.push.elim [] PushFrame.written) s.shared.readOffset
  pushOk : ∀ f, s.push = some f → PushOk cap s.shared f
  popOk : ∀ f, s.pop = some f → PopOk cap s.shared s.published s.popped f
  refusedPush : ∀ c ∈ s.pushes, c.returned = false → c.ops.filter Op.isWrite = [.fetchAddDropped]
  emptyPop : ∀ c ∈ s.pops, c.returned = false →
    c.ops.filter Op.isWrite = [] ∧ c.result = c.out ∧ c.seen ≤ c.poppedBefore
  bounds : ∀ op ∈ s.ops, op.InBounds cap

theorem Inv.read_le_write {cap : Nat} {s : State} (h : Inv cap s) :
    s.shared.readOffset ≤ s.shared.writeOffset := by
  rw [h.read_eq, h.write_eq]
  exact stream_length_le h.order

/-- After a move that executes `op`, every operation is `op` or an earlier one. -/
theorem Inv.bounds_after {cap : Nat} {s t : State} {op : Op} (h : Inv cap s)
    (hb : op.InBounds cap) (hops : ∀ x ∈ t.ops, x ∈ s.ops ∨ x = op) :
    ∀ x ∈ t.ops, x.InBounds cap := by
  intro x hx
  rcases hops x hx with hx | rfl
  · exact h.bounds x hx
  · exact hb

/-- The ring fits every frame that passed the space check, so `write_wrap` and `read_wrap` visit
consecutive positions modulo `cap`. -/
theorem wrapAddress_eq {cap offset len i : Nat} (hlen : len ≤ cap) (hi : i < len) :
    wrapAddress cap offset len i = (offset + i) % cap :=
  seg_address hlen hi

theorem inv_initial (cap : Nat) (payload : Nat → UInt8) : Inv cap (initial payload) where
  short := by simp [initial, State.published]
  callShort := by simp [initial]
  order := by simp [initial, State.published, State.popped]
  write_eq := by simp [initial, State.published]
  read_eq := by simp [initial, State.popped]
  width := by simp [initial]
  dropped_eq := by simp [initial, State.refused]
  window := by simpa [initial, State.published] using Window.nil cap payload 0
  pushOk := by simp [initial]
  popOk := by simp [initial]
  refusedPush := by simp [initial]
  emptyPop := by simp [initial]
  bounds := by simp [initial, State.ops]

/-! ## What one call leaves of the other's knowledge -/

theorem PushOk.mono {cap : Nat} {sh sh' : Shared} {f : PushFrame} (h : PushOk cap sh f)
    (hw : sh'.writeOffset = sh.writeOffset) (hr : sh.readOffset ≤ sh'.readOffset) :
    PushOk cap sh' f := by
  unfold PushOk at h ⊢
  rw [hw]
  cases hpc : f.pc with
  | loadWrite => simpa only [hpc] using h
  | loadRead w => simpa only [hpc] using h
  | countDrop => simpa only [hpc] using h
  | writeLen w i => simp only [hpc] at h ⊢; omega
  | writeRecord w i => simp only [hpc] at h ⊢; omega
  | publish w => simp only [hpc] at h ⊢; omega

theorem getElem?_of_prefix {α : Type*} {xs ys : List α} {i : Nat} {x : α} (h : xs <+: ys)
    (hx : xs[i]? = some x) : ys[i]? = some x := by
  obtain ⟨rest, rfl⟩ := h
  rw [List.getElem?_append_left (List.getElem?_eq_some_iff.mp hx).1, hx]

theorem PopOk.mono {cap : Nat} {sh sh' : Shared} {published published' popped : List Bytes}
    {f : PopFrame} (h : PopOk cap sh published popped f) (hr : sh'.readOffset = sh.readOffset)
    (hpub : published <+: published') : PopOk cap sh' published' popped f := by
  obtain ⟨hops, h⟩ := h
  refine ⟨hops, ?_⟩
  rw [hr]
  cases hpc : f.pc with
  | loadWrite => trivial
  | loadRead w =>
    simp only [hpc] at h ⊢
    obtain ⟨hle, hseen, hw⟩ := h
    obtain ⟨rest, rfl⟩ := hpub
    refine ⟨hle, by rw [List.length_append]; omega, ?_⟩
    rwa [List.take_append_of_le_length hseen]
  | readLen available r lenBuf =>
    simp only [hpc] at h ⊢
    obtain ⟨hread, record, hrec, hrest⟩ := h
    exact ⟨hread, record, getElem?_of_prefix hpub hrec, hrest⟩
  | readRecord r len copied =>
    simp only [hpc] at h ⊢
    obtain ⟨hread, record, hrec, hrest⟩ := h
    exact ⟨hread, record, getElem?_of_prefix hpub hrec, hrest⟩
  | consume r len copied =>
    simp only [hpc] at h ⊢
    exact ⟨h.1, getElem?_of_prefix hpub h.2.1, h.2.2⟩

/-! ## The producer's moves -/

section Producer

variable {cap : Nat} {s : State} {f : PushFrame} {op : Op}

/-- A move of a running push that leaves the header alone. -/
theorem Inv.pushGoesOn {pc : PushPc} (h : Inv cap s) (hf : s.push = some f)
    (hw : (op.apply s.shared).writeOffset = s.shared.writeOffset)
    (hr : (op.apply s.shared).readOffset = s.shared.readOffset)
    (hd : (op.apply s.shared).dropped = s.shared.dropped)
    (hwin : Window cap (op.apply s.shared).payload
      (stream s.published ++ PushFrame.written ⟨f.record, pc, f.ops ++ [op]⟩) s.shared.readOffset)
    (hok : PushOk cap (op.apply s.shared) ⟨f.record, pc, f.ops ++ [op]⟩)
    (hb : op.InBounds cap) :
    Inv cap { s with shared := op.apply s.shared, push := some ⟨f.record, pc, f.ops ++ [op]⟩ } where
  short := h.short
  callShort := by
    rintro g hg
    cases hg
    exact h.callShort f hf
  order := h.order
  write_eq := hw.trans h.write_eq
  read_eq := hr.trans h.read_eq
  width := by simpa only [hw, hr] using h.width
  dropped_eq := hd.trans h.dropped_eq
  window := hr.symm ▸ hwin
  pushOk := by
    rintro g hg
    cases hg
    exact hok
  popOk := fun g hg => (h.popOk g hg).mono hr (List.prefix_rfl)
  refusedPush := h.refusedPush
  emptyPop := h.emptyPop
  bounds := h.bounds_after hb fun x hx => by
    simp only [State.ops, hf, Option.elim_some, List.mem_append, List.mem_singleton] at hx ⊢
    grind

/-- The space check: `write_offset` and `read_offset` are loaded, in this order. -/
theorem Inv.push_loadRead {w : Nat} (h : Inv cap s) (hf : s.push = some f)
    (hpc : f.pc = .loadRead w)
    (hbudget : (producerStep cap s f).bytes < 2 ^ 64) : Inv cap (producerStep cap s f) := by
  have hok := h.pushOk f hf
  have hwin := h.window
  simp only [PushOk, hpc] at hok
  simp only [hf, Option.elim_some, PushFrame.written, hpc] at hwin
  simp only [producerStep, PushFrame.next, hpc] at hbudget ⊢
  obtain ⟨hw, hops⟩ := hok
  by_cases hfull : addW 64 (subW 64 w s.shared.readOffset) (total f.record) > cap
  · rw [if_pos hfull]
    exact h.pushGoesOn hf rfl rfl rfl hwin (by simp [PushOk, hops]) trivial
  · rw [if_neg hfull] at hbudget ⊢
    refine h.pushGoesOn hf rfl rfl rfl (by simpa [PushFrame.written, Op.apply] using hwin) ?_ trivial
    have hle := h.read_le_write
    have hbytes : w + total f.record < 2 ^ 64 := by
      rw [hw, h.write_eq]
      exact hbudget
    rw [subW_of_le (by omega) (by omega), addW_of_lt (by omega)] at hfull
    exact ⟨hw, by simp only [Op.apply]; omega, by omega⟩

/-- Past the space check a frame fits in the ring. -/
theorem Inv.total_le_cap {w : Nat} (h : Inv cap s) (hw : w = s.shared.writeOffset)
    (hfit : w + total f.record ≤ s.shared.readOffset + cap) : total f.record ≤ cap := by
  have hle := h.read_le_write
  omega

/-- Byte `j` of the frame goes to its place in the ring. -/
theorem Inv.push_storeByte {w j : Nat} {pc : PushPc} (h : Inv cap s) (hf : s.push = some f)
    (hw : w = s.shared.writeOffset) (hfit : w + total f.record ≤ s.shared.readOffset + cap)
    (hj : j < total f.record) (hold : f.written = (frame f.record).take j)
    (hop : op = .storeByte ((w + j) % cap) ((frame f.record).getD j 0))
    (hnew : PushFrame.written ⟨f.record, pc, f.ops ++ [op]⟩ = (frame f.record).take (j + 1))
    (hok : PushOk cap s.shared ⟨f.record, pc, f.ops ++ [op]⟩) :
    Inv cap { s with shared := op.apply s.shared, push := some ⟨f.record, pc, f.ops ++ [op]⟩ } := by
  have hcap := h.total_le_cap hw hfit
  have hwin := h.window
  rw [hf, Option.elim_some, hold] at hwin
  have hlen : (stream s.published).length = w := by rw [hw, h.write_eq]
  have hput := window_write hwin hj (by rw [hlen]; exact hfit)
  subst hop
  refine h.pushGoesOn hf rfl rfl rfl ?_ (hok.mono rfl (Nat.le_refl _)) ?_
  · rw [hnew]
    simpa only [hlen, Op.apply] using hput
  · exact Nat.mod_lt _ (by have : 4 ≤ total f.record := Nat.le_add_right 4 _; omega)

theorem Inv.push_writeLen {w i : Nat} (h : Inv cap s) (hf : s.push = some f)
    (hpc : f.pc = .writeLen w i) : Inv cap (producerStep cap s f) := by
  have hok := h.pushOk f hf
  simp only [PushOk, hpc] at hok
  obtain ⟨hw, hfit, hi⟩ := hok
  have htotal : 4 ≤ total f.record := Nat.le_add_right 4 _
  have hcap := h.total_le_cap hw hfit
  have hop : Op.storeByte (wrapAddress cap w 4 i) ((lenBytes f.record).getD i 0)
      = .storeByte ((w + i) % cap) ((frame f.record).getD i 0) := by
    rw [wrapAddress_eq (by omega) hi, frame_getD_len hi]
  simp only [producerStep, PushFrame.next, hpc]
  refine h.push_storeByte hf hw hfit (by omega) (by simp [PushFrame.written, hpc]) hop ?_ ?_
  · by_cases hlast : i + 1 < 4
    · simp [PushFrame.written, hlast]
    · have hi3 : i + 1 = 4 := by omega
      by_cases hempty : f.record.isEmpty
      · have htake : (frame f.record).take 4 = frame f.record :=
          List.take_of_length_le (by simp_all [total])
        simp [PushFrame.written, hi3, hempty, htake]
      · simp [PushFrame.written, hi3, hempty]
  · by_cases hlast : i + 1 < 4
    · simpa [PushOk, hlast] using ⟨hw, hfit⟩
    · by_cases hempty : f.record.isEmpty
      · simpa [PushOk, hlast, hempty] using ⟨hw, hfit⟩
      · have hpos : 0 < f.record.length := by
          cases hrec : f.record with
          | nil => simp [hrec] at hempty
          | cons b bs => simp
        simpa [PushOk, hlast, hempty] using ⟨hw, hfit, hpos⟩

theorem Inv.push_writeRecord {w i : Nat} (h : Inv cap s) (hf : s.push = some f)
    (hpc : f.pc = .writeRecord w i) (hbudget : s.bytes < 2 ^ 64) :
    Inv cap (producerStep cap s f) := by
  have hok := h.pushOk f hf
  simp only [PushOk, hpc] at hok
  obtain ⟨hw, hfit, hi⟩ := hok
  have htotal : total f.record = 4 + f.record.length := rfl
  have hcap := h.total_le_cap hw hfit
  have hbytes : w + total f.record < 2 ^ 64 := by
    simp only [State.bytes, hf, Option.elim_some, PushFrame.reserved, hpc] at hbudget
    rw [hw, h.write_eq]
    exact hbudget
  have hop : Op.storeByte (wrapAddress cap (addW 64 w 4) f.record.length i) (f.record.getD i 0)
      = .storeByte ((w + (4 + i)) % cap) ((frame f.record).getD (4 + i) 0) := by
    rw [wrapAddress_eq (by omega) hi, frame_getD_record, addW_of_lt (by omega), Nat.add_assoc]
  simp only [producerStep, PushFrame.next, hpc]
  refine h.push_storeByte hf hw hfit (by omega) (by simp [PushFrame.written, hpc]) hop ?_ ?_
  · by_cases hlast : i + 1 < f.record.length
    · simp [PushFrame.written, hlast, Nat.add_assoc]
    · have htake : (frame f.record).take (4 + i + 1) = frame f.record :=
        List.take_of_length_le (by simp [htotal]; omega)
      simp [PushFrame.written, hlast, htake]
  · by_cases hlast : i + 1 < f.record.length
    · simpa [PushOk, hlast] using ⟨hw, hfit⟩
    · simpa [PushOk, hlast] using ⟨hw, hfit⟩

theorem published_concat (s : State) (sh : Shared) (c : PushDone) :
    State.published ⟨sh, none, s.pop, s.pushes ++ [c], s.pops⟩
      = s.published ++ c.published?.toList := by
  cases hc : c.published? <;> simp [State.published, hc]

/-- The last move of a push: the finished call joins the history. -/
theorem Inv.pushReturns {c : PushDone} (h : Inv cap s) (hf : s.push = some f)
    (hops : c.ops = f.ops ++ [op]) (hrec : c.record = f.record)
    (hr : (op.apply s.shared).readOffset = s.shared.readOffset)
    (hw : (op.apply s.shared).writeOffset = (stream (s.published ++ c.published?.toList)).length)
    (hwidth : (op.apply s.shared).writeOffset ≤ s.shared.readOffset + cap)
    (hd : (op.apply s.shared).dropped = s.refused + if c.returned then 0 else 1)
    (hwin : Window cap (op.apply s.shared).payload (stream (s.published ++ c.published?.toList))
      s.shared.readOffset)
    (hrefused : c.returned = false → c.ops.filter Op.isWrite = [.fetchAddDropped])
    (hb : op.InBounds cap) :
    Inv cap { s with shared := op.apply s.shared, push := none, pushes := s.pushes ++ [c] } where
  short := by
    rw [published_concat]
    intro r hmem
    rcases List.mem_append.mp hmem with hmem | hmem
    · exact h.short r hmem
    · have heq : r = f.record := by
        simp only [PushDone.published?, Option.mem_toList] at hmem
        split at hmem
        · simpa [hrec] using hmem.symm
        · cases hmem
      exact heq ▸ h.callShort f hf
  callShort := nofun
  order := by
    rw [published_concat]
    exact h.order.trans (List.prefix_append _ _)
  write_eq := by rw [published_concat]; exact hw
  read_eq := hr.trans h.read_eq
  width := by rw [hr]; exact hwidth
  dropped_eq := by
    rw [hd]
    cases hret : c.returned <;> simp [State.refused, hret]
  window := by
    rw [published_concat, hr, Option.elim_none, List.append_nil]
    exact hwin
  pushOk := nofun
  popOk := fun g hg => by
    rw [published_concat]
    exact (h.popOk g hg).mono hr (List.prefix_append _ _)
  refusedPush := by
    intro d hd hret
    rcases List.mem_append.mp hd with hd | hd
    · exact h.refusedPush d hd hret
    · cases List.mem_singleton.mp hd
      exact hrefused hret
  emptyPop := h.emptyPop
  bounds := h.bounds_after hb fun x hx => by
    simp only [State.ops, hf, Option.elim_some, Option.elim_none, List.flatMap_append,
      List.flatMap_cons, List.flatMap_nil, List.mem_append, hops, List.mem_singleton] at hx ⊢
    grind

theorem Inv.push_countDrop (h : Inv cap s) (hf : s.push = some f) (hpc : f.pc = .countDrop)
    (hbudget : s.refused + 1 < 2 ^ 64) : Inv cap (producerStep cap s f) := by
  have hok := h.pushOk f hf
  have hwin := h.window
  simp only [PushOk, hpc] at hok
  simp only [hf, Option.elim_some, PushFrame.written, hpc] at hwin
  simp only [producerStep, PushFrame.next, hpc]
  refine h.pushReturns hf rfl rfl rfl ?_ ?_ ?_ ?_ ?_ trivial
  · simpa [PushDone.published?, Op.apply] using h.write_eq
  · exact h.width
  · simpa [Op.apply, h.dropped_eq] using addW_of_lt hbudget
  · simpa [PushDone.published?, Op.apply] using hwin
  · intro _
    rw [hok]
    rfl

theorem Inv.push_publish {w : Nat} (h : Inv cap s) (hf : s.push = some f)
    (hpc : f.pc = .publish w) (hbudget : s.bytes < 2 ^ 64) : Inv cap (producerStep cap s f) := by
  have hok := h.pushOk f hf
  have hwin := h.window
  simp only [PushOk, hpc] at hok
  obtain ⟨hw, hfit⟩ := hok
  simp only [hf, Option.elim_some, PushFrame.written, hpc] at hwin
  have hlen : (stream s.published).length = w := by rw [hw, h.write_eq]
  simp only [State.bytes, hf, Option.elim_some, PushFrame.reserved, hpc, hlen] at hbudget
  have hstore : addW 64 w (total f.record) = w + total f.record := addW_of_lt hbudget
  simp only [producerStep, PushFrame.next, hpc]
  refine h.pushReturns hf rfl rfl rfl ?_ ?_ ?_ ?_ nofun trivial
  · simp [PushDone.published?, Op.apply, hstore, hlen]
  · simpa [Op.apply, hstore] using hfit
  · simpa [Op.apply] using h.dropped_eq
  · simpa [PushDone.published?, Op.apply] using hwin

/-- **One operation of the producer keeps the invariant.** -/
theorem producerStep_inv (h : Inv cap s) (hf : s.push = some f)
    (hbytes : (producerStep cap s f).bytes < 2 ^ 64)
    (hbytes' : s.bytes < 2 ^ 64) (hrefused : (producerStep cap s f).refused < 2 ^ 64) :
    Inv cap (producerStep cap s f) := by
  cases hpc : f.pc with
  | loadWrite =>
    have hok := h.pushOk f hf
    have hwin := h.window
    simp only [PushOk, hpc] at hok
    simp only [hf, Option.elim_some, PushFrame.written, hpc] at hwin
    simp only [producerStep, PushFrame.next, hpc]
    exact h.pushGoesOn hf rfl rfl rfl hwin ⟨rfl, by rw [hok]; rfl⟩ trivial
  | loadRead w => exact h.push_loadRead hf hpc hbytes
  | countDrop =>
    refine h.push_countDrop hf hpc ?_
    simpa [producerStep, PushFrame.next, hpc, State.refused] using hrefused
  | writeLen w i => exact h.push_writeLen hf hpc
  | writeRecord w i => exact h.push_writeRecord hf hpc hbytes'
  | publish w => exact h.push_publish hf hpc hbytes'

end Producer

/-! ## The consumer's moves -/

section Consumer

variable {cap : Nat} {s : State} {f : PopFrame} {op : Op}

theorem Op.apply_of_load {sh : Shared} (h : op.isWrite = false) : op.apply sh = sh := by
  cases op <;> first | rfl | cases h

theorem filter_isWrite_concat {ops : List Op} (hops : ops.filter Op.isWrite = [])
    (hop : op.isWrite = false) : (ops ++ [op]).filter Op.isWrite = [] := by
  simp [List.filter_append, hops, hop]

/-- A load of a running pop. -/
theorem Inv.popGoesOn {pc : PopPc} {seen : Nat} (h : Inv cap s) (hf : s.pop = some f)
    (hload : op.isWrite = false)
    (hok : PopOk cap s.shared s.published s.popped ⟨f.out, pc, f.ops ++ [op], seen⟩)
    (hb : op.InBounds cap) :
    Inv cap { s with shared := op.apply s.shared,
                     pop := some ⟨f.out, pc, f.ops ++ [op], seen⟩ } := by
  rw [Op.apply_of_load hload]
  refine ⟨h.short, h.callShort, h.order, h.write_eq, h.read_eq, h.width, h.dropped_eq, h.window,
    h.pushOk, ?_, h.refusedPush, h.emptyPop, ?_⟩
  · rintro g hg
    cases hg
    exact hok
  · refine h.bounds_after hb ?_
    intro x hx
    simp only [State.ops, hf, Option.elim_some, List.mem_append, List.mem_singleton] at hx ⊢
    grind

theorem popped_concat (s : State) (sh : Shared) (c : PopDone) :
    State.popped ⟨sh, s.push, none, s.pushes, s.pops ++ [c]⟩ = s.popped ++ c.popped?.toList := by
  cases hc : c.popped? <;> simp [State.popped, hc]

/-- The last move of a pop: the finished call joins the history. -/
theorem Inv.popReturns {c : PopDone} (h : Inv cap s) (hf : s.pop = some f)
    (hops : c.ops = f.ops ++ [op])
    (hw : (op.apply s.shared).writeOffset = s.shared.writeOffset)
    (hd : (op.apply s.shared).dropped = s.shared.dropped)
    (hp : (op.apply s.shared).payload = s.shared.payload)
    (hle : s.shared.readOffset ≤ (op.apply s.shared).readOffset)
    (hread : (op.apply s.shared).readOffset = (stream (s.popped ++ c.popped?.toList)).length)
    (horder : s.popped ++ c.popped?.toList <+: s.published)
    (hempty : c.returned = false →
      c.ops.filter Op.isWrite = [] ∧ c.result = c.out ∧ c.seen ≤ c.poppedBefore)
    (hb : op.InBounds cap) :
    Inv cap { s with shared := op.apply s.shared, pop := none, pops := s.pops ++ [c] } where
  short := h.short
  callShort := h.callShort
  order := by rw [popped_concat]; exact horder
  write_eq := hw.trans h.write_eq
  read_eq := by rw [popped_concat]; exact hread
  width := by
    rw [hw]
    exact Nat.le_trans h.width (Nat.add_le_add_right hle cap)
  dropped_eq := hd.trans h.dropped_eq
  window := by
    rw [hp]
    exact h.window.mono hle
  pushOk := fun g hg => (h.pushOk g hg).mono hw hle
  popOk := nofun
  refusedPush := h.refusedPush
  emptyPop := by
    intro d hd hret
    rcases List.mem_append.mp hd with hd | hd
    · exact h.emptyPop d hd hret
    · cases List.mem_singleton.mp hd
      exact hempty hret
  bounds := h.bounds_after hb fun x hx => by
    simp only [State.ops, hf, Option.elim_some, Option.elim_none, List.flatMap_append,
      List.flatMap_cons, List.flatMap_nil, List.mem_append, hops, List.mem_singleton] at hx ⊢
    grind

/-- The check for a length prefix fails only when all that was seen published has been popped. -/
theorem Inv.pop_loadRead {w : Nat} (h : Inv cap s) (hf : s.pop = some f)
    (hpc : f.pc = .loadRead w) (hbudget : s.bytes < 2 ^ 64) : Inv cap (consumerStep cap s f) := by
  obtain ⟨hops, hok⟩ := h.popOk f hf
  simp only [hpc] at hok
  obtain ⟨hle, hseen, hw⟩ := hok
  have htake : s.popped = s.published.take s.popped.length := List.prefix_iff_eq_take.mp h.order
  have hreadOffset : s.shared.readOffset = (stream s.popped).length := h.read_eq
  have hww : w ≤ s.shared.writeOffset := by
    rw [hw, h.write_eq]
    exact stream_length_le (List.take_prefix _ _)
  have hlt : w < 2 ^ 64 := by
    have hbytes : (stream s.published).length ≤ s.bytes := Nat.le_add_right _ _
    rw [h.write_eq] at hww
    omega
  simp only [consumerStep, PopFrame.next, PopFrame.seenAfter, hpc]
  rcases Nat.eq_or_lt_of_le hle with heq | hmore
  · -- everything seen has been popped: `available = 0`
    have hempty : subW 64 w s.shared.readOffset = 0 := by
      have hsame : w = s.shared.readOffset := by rw [hw, ← heq, ← htake, hreadOffset]
      rw [subW_of_le (Nat.le_of_eq hsame.symm) hlt, hsame, Nat.sub_self]
    simp only [hempty, Nat.zero_lt_succ, if_true]
    refine h.popReturns hf rfl rfl rfl rfl (Nat.le_refl _) ?_ ?_ ?_ trivial
    · simpa [PopDone.popped?, Op.apply] using hreadOffset
    · simpa [PopDone.popped?] using h.order
    · exact fun _ => ⟨filter_isWrite_concat hops rfl, by simp, by simp [heq]⟩
  · -- there is a next record, and all of its frame is available
    obtain ⟨record, hrec⟩ : ∃ record, s.published[s.popped.length]? = some record :=
      ⟨_, List.getElem?_eq_getElem (by omega)⟩
    have hnext : s.popped ++ [record] <+: s.published.take f.seen := by
      have hpre : s.popped <+: s.published.take f.seen :=
        List.prefix_of_prefix_length_le h.order (List.take_prefix _ _)
          (by rw [List.length_take]; omega)
      refine prefix_split hpre ?_
      rw [List.getElem?_take_of_lt hmore, hrec]
    have hroom : s.shared.readOffset + total record ≤ w := by
      have hlen := stream_length_le hnext
      simpa [← hw, ← hreadOffset] using hlen
    have havailable : subW 64 w s.shared.readOffset = w - s.shared.readOffset :=
      subW_of_le (by omega) hlt
    have htotal : 4 ≤ total record := Nat.le_add_right 4 _
    have hwidth := h.width
    rw [havailable, if_neg (by omega)]
    refine h.popGoesOn hf rfl ⟨filter_isWrite_concat hops rfl, rfl, record, hrec, ?_⟩ trivial
    exact ⟨by omega, by omega, by simp, by simp⟩

theorem take_concat_getD {xs : Bytes} {i : Nat} (hi : i < xs.length) :
    xs.take i ++ [xs.getD i 0] = xs.take (i + 1) := by
  rw [List.take_add_one, List.getElem?_eq_getElem hi, Option.toList_some,
    List.getD_eq_getElem _ _ hi]

/-- The byte at its place in the ring is byte `j` of the next record's frame. -/
theorem Inv.payload_eq {record : Bytes} {j : Nat} (h : Inv cap s)
    (hrec : s.published[s.popped.length]? = some record) (hj : j < total record) :
    s.shared.payload ((s.shared.readOffset + j) % cap) = (frame record).getD j 0 := by
  have hwin := h.window
  rw [h.read_eq] at hwin ⊢
  exact window_frame hwin h.order hrec hj

/-- The next record's frame ends within the published stream. -/
theorem Inv.frame_end {record : Bytes} (h : Inv cap s)
    (hrec : s.published[s.popped.length]? = some record) :
    s.shared.readOffset + total record ≤ (stream s.published).length := by
  simpa [h.read_eq] using stream_length_le (prefix_split h.order hrec)

/-- The bytes copied so far are the first ones of the record, and all of them in the end. -/
theorem popOk_afterRecordByte {sh : Shared} {published popped : List Bytes} {record copied : Bytes}
    {out : Bytes} {ops : List Op} {seen : Nat} (hops : ops.filter Op.isWrite = [])
    (hrec : published[popped.length]? = some record) (hcap : total record ≤ cap)
    (hcopied : copied = record.take copied.length) (hlen : copied.length ≤ record.length) :
    PopOk cap sh published popped
      ⟨out, afterRecordByte sh.readOffset record.length copied, ops, seen⟩ := by
  refine ⟨hops, ?_⟩
  unfold afterRecordByte
  by_cases hlt : copied.length < record.length
  · rw [if_pos hlt]
    exact ⟨rfl, record, hrec, hcap, rfl, hcopied, hlt⟩
  · rw [if_neg hlt]
    have hall : copied = record := by
      rw [hcopied, List.take_of_length_le (by omega)]
    exact ⟨rfl, by rw [hrec, hall], by rw [hall]⟩

theorem Inv.pop_readLen {available r : Nat} {lenBuf : Bytes} (h : Inv cap s)
    (hf : s.pop = some f) (hpc : f.pc = .readLen available r lenBuf) :
    Inv cap (consumerStep cap s f) := by
  obtain ⟨hops, hok⟩ := h.popOk f hf
  simp only [hpc] at hok
  obtain ⟨rfl, record, hrec, hroom, hcap, hbuf, hlen⟩ := hok
  have htotal : total record = 4 + record.length := rfl
  have haddr : wrapAddress cap s.shared.readOffset 4 lenBuf.length
      = (s.shared.readOffset + lenBuf.length) % cap := wrapAddress_eq (by omega) hlen
  have hbyte : lenBuf ++ [s.shared.payload ((s.shared.readOffset + lenBuf.length) % cap)]
      = (lenBytes record).take (lenBuf.length + 1) := by
    rw [h.payload_eq hrec (by omega), frame_getD_len hlen,
      ← take_concat_getD (by simpa using hlen), ← hbuf]
  have hbound : Op.InBounds cap (.loadByte ((s.shared.readOffset + lenBuf.length) % cap)) :=
    Nat.mod_lt _ (by omega)
  simp only [consumerStep, PopFrame.next, PopFrame.seenAfter, hpc, haddr, hbyte,
    List.length_take, length_lenBytes]
  by_cases hmore : min (lenBuf.length + 1) 4 < 4
  · simp only [if_pos hmore]
    refine h.popGoesOn hf rfl ⟨filter_isWrite_concat hops rfl, rfl, record, hrec, ?_⟩ hbound
    exact ⟨hroom, hcap, by rw [List.length_take, length_lenBytes, Nat.min_eq_left (by omega)],
      by simpa using hmore⟩
  · -- the four bytes spell the record's length, so the second check passes
    have hspell : ofBe ((lenBytes record).take (lenBuf.length + 1)) = record.length := by
      rw [List.take_of_length_le (by simp; omega)]
      exact ofBe_toBe (by simpa using h.short record (List.mem_of_getElem? hrec))
    simp only [if_neg hmore, hspell, if_neg (show ¬available < 4 + record.length by omega)]
    exact h.popGoesOn hf rfl
      (popOk_afterRecordByte (filter_isWrite_concat hops rfl) hrec (by omega) rfl (by simp)) hbound

theorem Inv.pop_readRecord {r len : Nat} {copied : Bytes} (h : Inv cap s) (hf : s.pop = some f)
    (hpc : f.pc = .readRecord r len copied) (hbudget : s.bytes < 2 ^ 64) :
    Inv cap (consumerStep cap s f) := by
  obtain ⟨hops, hok⟩ := h.popOk f hf
  simp only [hpc] at hok
  obtain ⟨rfl, record, hrec, hcap, rfl, hcopied, hlen⟩ := hok
  have htotal : total record = 4 + record.length := rfl
  have hend := h.frame_end hrec
  have hbytes : (stream s.published).length ≤ s.bytes := Nat.le_add_right _ _
  have haddr : wrapAddress cap (addW 64 s.shared.readOffset 4) record.length copied.length
      = (s.shared.readOffset + (4 + copied.length)) % cap := by
    rw [wrapAddress_eq (by omega) hlen, addW_of_lt (by omega), Nat.add_assoc]
  have hbyte : copied ++ [s.shared.payload ((s.shared.readOffset + (4 + copied.length)) % cap)]
      = record.take (copied.length + 1) := by
    rw [h.payload_eq hrec (by omega), frame_getD_record, ← take_concat_getD hlen, ← hcopied]
  simp only [consumerStep, PopFrame.next, PopFrame.seenAfter, hpc, haddr, hbyte]
  refine h.popGoesOn hf rfl (popOk_afterRecordByte (filter_isWrite_concat hops rfl) hrec hcap ?_ ?_)
    (Nat.mod_lt _ (by omega))
  · rw [List.length_take, Nat.min_eq_left (by omega)]
  · rw [List.length_take]; omega

theorem Inv.pop_consume {r len : Nat} {copied : Bytes} (h : Inv cap s) (hf : s.pop = some f)
    (hpc : f.pc = .consume r len copied) (hbudget : s.bytes < 2 ^ 64) :
    Inv cap (consumerStep cap s f) := by
  obtain ⟨hops, hok⟩ := h.popOk f hf
  simp only [hpc] at hok
  obtain ⟨rfl, hrec, rfl⟩ := hok
  have hend := h.frame_end hrec
  have hbytes : (stream s.published).length ≤ s.bytes := Nat.le_add_right _ _
  have hstore : addW 64 s.shared.readOffset (4 + copied.length)
      = s.shared.readOffset + total copied := addW_of_lt (by unfold total at hend; omega)
  simp only [consumerStep, PopFrame.next, PopFrame.seenAfter, hpc, hstore]
  refine h.popReturns hf rfl rfl rfl rfl ?_ ?_ ?_ nofun trivial
  · exact Nat.le_add_right _ _
  · simp [PopDone.popped?, Op.apply, h.read_eq]
  · simpa [PopDone.popped?] using prefix_split h.order hrec

/-- **One operation of the consumer keeps the invariant.** -/
theorem consumerStep_inv (h : Inv cap s) (hf : s.pop = some f) (hbytes : s.bytes < 2 ^ 64) :
    Inv cap (consumerStep cap s f) := by
  cases hpc : f.pc with
  | loadWrite =>
    have hops := (h.popOk f hf).1
    simp only [consumerStep, PopFrame.next, PopFrame.seenAfter, hpc]
    refine h.popGoesOn hf rfl ⟨filter_isWrite_concat hops rfl, ?_⟩ trivial
    exact ⟨by simpa using h.order.length_le, by simp, by simp [h.write_eq]⟩
  | loadRead w => exact h.pop_loadRead hf hpc hbytes
  | readLen available r lenBuf => exact h.pop_readLen hf hpc
  | readRecord r len copied => exact h.pop_readRecord hf hpc hbytes
  | consume r len copied => exact h.pop_consume hf hpc hbytes

end Consumer

/-! ## Runs -/

theorem bytes_producerStep_le {cap : Nat} {s : State} {f : PushFrame} (hf : s.push = some f) :
    s.bytes ≤ (producerStep cap s f).bytes := by
  cases hpc : f.pc with
  | publish w =>
    simp only [producerStep, PushFrame.next, hpc, State.bytes, published_concat, hf,
      Option.elim_some, PushFrame.reserved]
    simp [PushDone.published?]
  | countDrop =>
    simp only [producerStep, PushFrame.next, hpc, State.bytes, published_concat, hf,
      Option.elim_some, PushFrame.reserved]
    simp [PushDone.published?]
  | loadWrite => simp [producerStep, PushFrame.next, hpc, State.bytes, State.published, hf,
      PushFrame.reserved]
  | loadRead w | writeLen w i | writeRecord w i =>
    simp only [producerStep, PushFrame.next, hpc, State.bytes, State.published, hf,
      Option.elim_some, PushFrame.reserved]
    split_ifs <;> simp

theorem refused_producerStep_le {cap : Nat} (s : State) (f : PushFrame) :
    s.refused ≤ (producerStep cap s f).refused := by
  unfold producerStep
  split
  split
  · exact Nat.le_refl _
  · simp [State.refused]

theorem consumerStep_frame (cap : Nat) (s : State) (f : PopFrame) :
    (consumerStep cap s f).push = s.push ∧ (consumerStep cap s f).pushes = s.pushes := by
  unfold consumerStep
  split
  split <;> exact ⟨rfl, rfl⟩

/-- The bytes and the refusals of a run stay below `2 ^ 64`. -/
def State.Counted (s : State) : Prop := s.bytes < 2 ^ 64 ∧ s.refused < 2 ^ 64

/-- The moves of a ring that has a payload. -/
theorem step_cases {cap : Nat} (hcap : 0 < cap) {s t : State} {a : Act}
    (h : step cap s a = some t) :
    (∃ record, a = .callPush record ∧ s.push = none ∧
      t = { s with push := some ⟨record, .loadWrite, []⟩ }) ∨
    (∃ out, a = .callPop out ∧ s.pop = none ∧
      t = { s with pop := some ⟨out, .loadWrite, [], 0⟩ }) ∨
    (∃ f, s.push = some f ∧ t = producerStep cap s f) ∨
    (∃ f, s.pop = some f ∧ t = consumerStep cap s f) := by
  have hne : cap ≠ 0 := Nat.pos_iff_ne_zero.mp hcap
  cases a with
  | callPush record =>
    simp only [step, startPush, if_neg hne, Option.ite_none_right_eq_some,
      Option.isNone_iff_eq_none, Option.some.injEq] at h
    exact .inl ⟨record, rfl, h.1, h.2.symm⟩
  | callPop out =>
    simp only [step, startPop, if_neg hne, Option.ite_none_right_eq_some,
      Option.isNone_iff_eq_none, Option.some.injEq] at h
    exact .inr (.inl ⟨out, rfl, h.1, h.2.symm⟩)
  | producer =>
    obtain ⟨f, hf, rfl⟩ := Option.map_eq_some_iff.mp h
    exact .inr (.inr (.inl ⟨f, hf, rfl⟩))
  | consumer =>
    obtain ⟨f, hf, rfl⟩ := Option.map_eq_some_iff.mp h
    exact .inr (.inr (.inr ⟨f, hf, rfl⟩))

theorem counted_of_step {cap : Nat} (hcap : 0 < cap) {s t : State} {a : Act}
    (h : step cap s a = some t) (ht : t.Counted) : s.Counted := by
  rcases step_cases hcap h with ⟨record, -, hidle, rfl⟩ | ⟨out, -, -, rfl⟩ | ⟨f, hf, rfl⟩ |
    ⟨f, hf, rfl⟩
  · simpa [State.Counted, State.bytes, State.refused, State.published, hidle,
      PushFrame.reserved] using ht
  · exact ht
  · exact ⟨Nat.lt_of_le_of_lt (bytes_producerStep_le hf) ht.1,
      Nat.lt_of_le_of_lt (refused_producerStep_le s f) ht.2⟩
  · obtain ⟨hpush, hpushes⟩ := consumerStep_frame cap s f
    simpa only [State.Counted, State.bytes, State.refused, State.published, hpush, hpushes] using ht

/-- **One move of either process keeps the invariant.** -/
theorem step_inv {cap : Nat} (hcap : 0 < cap) {s t : State} {a : Act}
    (hshort : ∀ record, a = .callPush record → record.length < 2 ^ 32)
    (h : step cap s a = some t) (ht : t.Counted) (hs : Inv cap s) : Inv cap t := by
  have hcounted := counted_of_step hcap h ht
  rcases step_cases hcap h with ⟨record, rfl, hidle, rfl⟩ | ⟨out, rfl, hidle, rfl⟩ | ⟨f, hf, rfl⟩ |
    ⟨f, hf, rfl⟩
  · refine { hs with callShort := ?_, window := ?_, pushOk := ?_, bounds := ?_ }
    · rintro g hg
      cases hg
      exact hshort record rfl
    · simpa [State.published, PushFrame.written, hidle] using hs.window
    · rintro g hg
      cases hg
      rfl
    · simpa [State.ops, hidle] using hs.bounds
  · refine { hs with popOk := ?_, bounds := ?_ }
    · rintro g hg
      cases hg
      exact ⟨rfl, trivial⟩
    · simpa [State.ops, hidle] using hs.bounds
  · exact producerStep_inv hs hf ht.1 hcounted.1 ht.2
  · exact consumerStep_inv hs hf hcounted.1

/-- **Every run keeps the invariant** while the counters do not overflow. -/
theorem exec_inv {cap : Nat} (hcap : 0 < cap) {s t : State} {as : List Act}
    (hshort : ∀ record, .callPush record ∈ as → record.length < 2 ^ 32)
    (hrun : Run.exec (step cap) s as = some t) (hs : Inv cap s) (ht : t.Counted) : Inv cap t := by
  -- the counters only grow, so a run that ends within them never left them
  have hstep : ∀ s a u, (s.Counted → Inv cap s) →
      (∀ record, a = .callPush record → record.length < 2 ^ 32) → step cap s a = some u →
      (u.Counted → Inv cap u) :=
    fun s a u hs ha hu hc => step_inv hcap ha hu hc (hs (counted_of_step hcap hu hc))
  refine Run.exec_invariant_along hstep ?_ hrun (fun _ => hs) ht
  exact Run.along_of_forall_mem fun a ha record hrec => hshort record (hrec ▸ ha)

/-- **The ring is a queue.**  In every state of every interleaving of one producer and one
consumer, for every capacity:

* the records popped are, in order, the first ones of the records published;
* the window `[read_offset, write_offset)` is at most `cap` wide;
* `dropped` is the number of pushes that returned `false`;
* every payload access lies in the payload;
* a push that returned `false` wrote nothing but `dropped`;
* a pop that returned `false` wrote nothing, left `out` alone, and every record published when it
  loaded `write_offset` had been popped. -/
theorem spsc_queue {cap : Nat} (hcap : 0 < cap) {payload : Nat → UInt8} {as : List Act} {t : State}
    (hshort : ∀ record, .callPush record ∈ as → record.length < 2 ^ 32)
    (hrun : Run.exec (step cap) (initial payload) as = some t)
    (hbytes : t.bytes < 2 ^ 64) (hrefused : t.refused < 2 ^ 64) :
    t.popped <+: t.published ∧
    (t.shared.readOffset ≤ t.shared.writeOffset ∧
      t.shared.writeOffset - t.shared.readOffset ≤ cap) ∧
    t.shared.dropped = t.refused ∧
    (∀ op ∈ t.ops, op.InBounds cap) ∧
    (∀ c ∈ t.pushes, c.returned = false → c.ops.filter Op.isWrite = [.fetchAddDropped]) ∧
    (∀ c ∈ t.pops, c.returned = false →
      c.ops.filter Op.isWrite = [] ∧ c.result = c.out ∧ c.seen ≤ c.poppedBefore) := by
  have hinv := exec_inv hcap hshort hrun (inv_initial cap payload) ⟨hbytes, hrefused⟩
  have hwidth := hinv.width
  exact ⟨hinv.order, ⟨hinv.read_le_write, by omega⟩, hinv.dropped_eq, hinv.bounds,
    hinv.refusedPush, hinv.emptyPop⟩

/-- A run on a ring of 6 bytes: a record is pushed and popped, a second one wraps around the end of
the payload while a third one, longer than the ring, is refused, and the last pop finds nothing. -/
def wrappingRun : List Act :=
  .callPush [7] :: List.replicate 8 .producer ++ .callPop [] :: List.replicate 8 .consumer ++
  .callPush [8] :: List.replicate 8 .producer ++ .callPop [1] :: List.replicate 8 .consumer ++
  .callPush [1, 2, 3] :: List.replicate 3 .producer ++ .callPop [] :: List.replicate 2 .consumer

theorem wrappingRun_ends :
    (Run.exec (step 6) (initial fun _ => 0) wrappingRun).map
      (fun t => (t.published, t.popped, t.refused, t.bytes))
      = some ([[7], [8]], [[7], [8]], 1, 10) := by
  decide +kernel

theorem spsc_queue_wrappingRun : ∃ t,
    Run.exec (step 6) (initial fun _ => 0) wrappingRun = some t ∧
    t.published = [[7], [8]] ∧ t.refused = 1 ∧
    t.popped <+: t.published ∧ t.shared.dropped = t.refused := by
  obtain ⟨t, hrun, hends⟩ := Option.map_eq_some_iff.mp wrappingRun_ends
  simp only [Prod.mk.injEq] at hends
  obtain ⟨hpublished, -, hrefused, hbytes⟩ := hends
  have h := spsc_queue (by decide) (by simp [wrappingRun]) hrun (by omega) (by omega)
  exact ⟨t, hrun, hpublished, hrefused, h.1, h.2.2.1⟩

end NgxOtel.Ring
