import NgxOtel.Lib.Run
import NgxOtel.Lib.Word
import Mathlib.Logic.Function.Basic

/-!
# The worker ring, one atomic operation at a time

`logs/ring.rs`: one worker process pushes length-prefixed records into a byte ring in shared
memory, the exporter process pops them.  A ring is a header of three 64-bit words (`write_offset`,
`read_offset`, `dropped`), a constant `cap`, and `cap` bytes of payload.

## The machine

* `Shared` — the words and bytes both processes see; payload addresses are relative to
  `payload_ptr`, and nothing in the model keeps an address below `cap`.
* `Op` — one atomic operation on them: an offset load, an offset store, the drop increment, or the
  copy of one byte.  `Op.apply` is the only way shared memory changes.
* `PushFrame.next`, `PopFrame.next` — the next operation of a running `push` and `pop_into`, and
  how the call goes on; the local computation between two operations belongs to the first one.
* `step` — one move of the system: a call starts, or a running call executes one operation.

A finished call leaves an entry in `pushes` or `pops` with the operations it executed; these two
histories are what the results about the ring speak about, and no call ever reads them.
-/

set_option autoImplicit false

namespace NgxOtel.Ring

open Word

/-- `WorkerSignalRingHeader` without the constant `cap`, and the payload that follows it. -/
structure Shared where
  writeOffset : Nat
  readOffset : Nat
  dropped : Nat
  payload : Nat → UInt8

/-- The atomic operations on a ring. -/
inductive Op where
  | loadWriteOffset
  | loadReadOffset
  | storeWriteOffset (value : Nat)
  | storeReadOffset (value : Nat)
  | fetchAddDropped
  | storeByte (address : Nat) (byte : UInt8)
  | loadByte (address : Nat)
  deriving DecidableEq, Repr

/-- The effect of an operation on shared memory. -/
def Op.apply : Op → Shared → Shared
  | .storeWriteOffset v, sh => { sh with writeOffset := v }
  | .storeReadOffset v, sh => { sh with readOffset := v }
  | .fetchAddDropped, sh => { sh with dropped := addW 64 sh.dropped 1 }
  | .storeByte k b, sh => { sh with payload := Function.update sh.payload k b }
  | .loadWriteOffset, sh | .loadReadOffset, sh | .loadByte _, sh => sh

/-- The operations that change shared memory. -/
def Op.isWrite : Op → Bool
  | .loadWriteOffset | .loadReadOffset | .loadByte _ => false
  | _ => true

/-- The payload address that an operation touches lies in the payload. -/
def Op.InBounds (cap : Nat) : Op → Prop
  | .storeByte k _ | .loadByte k => k < cap
  | _ => True

/-- The address of byte `i` of a block of `len` bytes at `offset`, as `write_wrap` and `read_wrap`
copy it: in one piece if it ends before the payload does, else in two. -/
def wrapAddress (cap offset len i : Nat) : Nat :=
  let start := offset % cap
  let endSpace := cap - start
  if len ≤ endSpace then start + i
  else if i < endSpace then start + i else i - endSpace

/-- `(record_len as u32).to_be_bytes()`. -/
def lenBytes (record : Bytes) : Bytes := toBe 4 record.length

/-- `4 + record_len`. -/
def total (record : Bytes) : Nat := 4 + record.length

/-! ## `WorkerSignalRing::push` -/

/-- Where a running `push` stands; each constructor names the operation that comes next. -/
inductive PushPc where
  | loadWrite
  | loadRead (writeOff : Nat)
  | countDrop
  | writeLen (writeOff i : Nat)
  | writeRecord (writeOff i : Nat)
  | publish (writeOff : Nat)
  deriving DecidableEq, Repr

/-- A running `push(record)` and the operations it has executed. -/
structure PushFrame where
  record : Bytes
  pc : PushPc
  ops : List Op

/-- Execute one operation of a running `push`: the operation, and either where the call stands
after it or the value it returns. -/
def PushFrame.next (cap : Nat) (sh : Shared) (f : PushFrame) : Op × (PushPc ⊕ Bool) :=
  match f.pc with
  | .loadWrite => (.loadWriteOffset, .inl (.loadRead sh.writeOffset))
  | .loadRead w =>
      let used := subW 64 w sh.readOffset
      (.loadReadOffset,
        .inl (if addW 64 used (total f.record) > cap then .countDrop else .writeLen w 0))
  | .countDrop => (.fetchAddDropped, .inr false)
  | .writeLen w i =>
      (.storeByte (wrapAddress cap w 4 i) ((lenBytes f.record).getD i 0),
        .inl (if i + 1 < 4 then .writeLen w (i + 1)
          -- `write_wrap` returns at once on an empty record
          else if f.record.isEmpty then .publish w else .writeRecord w 0))
  | .writeRecord w i =>
      (.storeByte (wrapAddress cap (addW 64 w 4) f.record.length i) (f.record.getD i 0),
        .inl (if i + 1 < f.record.length then .writeRecord w (i + 1) else .publish w))
  | .publish w => (.storeWriteOffset (addW 64 w (total f.record)), .inr true)

/-! ## `WorkerSignalRing::pop_into` -/

/-- Where a running `pop_into` stands; the bytes copied so far are its local buffer. -/
inductive PopPc where
  | loadWrite
  | loadRead (writeOff : Nat)
  | readLen (available readOff : Nat) (lenBuf : Bytes)
  | readRecord (readOff recordLen : Nat) (copied : Bytes)
  | consume (readOff recordLen : Nat) (copied : Bytes)
  deriving DecidableEq, Repr

/-- A running `pop_into(out)`, the operations it has executed, and how many records were published
when it loaded `write_offset`. -/
structure PopFrame where
  out : Bytes
  pc : PopPc
  ops : List Op
  seen : Nat

/-- The copied bytes, once all of `record_len` are there, are consumed. -/
def afterRecordByte (readOff recordLen : Nat) (copied : Bytes) : PopPc :=
  if copied.length < recordLen then .readRecord readOff recordLen copied
  else .consume readOff recordLen copied

/-- Execute one operation of a running `pop_into`: the operation, and either where the call stands
after it or the value it returns, with the bytes appended to `out`. -/
def PopFrame.next (cap : Nat) (sh : Shared) (f : PopFrame) : Op × (PopPc ⊕ (Bool × Bytes)) :=
  match f.pc with
  | .loadWrite => (.loadWriteOffset, .inl (.loadRead sh.writeOffset))
  | .loadRead w =>
      let available := subW 64 w sh.readOffset
      (.loadReadOffset,
        if available < 4 then .inr (false, []) else .inl (.readLen available sh.readOffset []))
  | .readLen available r lenBuf =>
      let k := wrapAddress cap r 4 lenBuf.length
      let lenBuf := lenBuf ++ [sh.payload k]
      (.loadByte k,
        if lenBuf.length < 4 then .inl (.readLen available r lenBuf)
        else if available < 4 + ofBe lenBuf then .inr (false, [])
        else .inl (afterRecordByte r (ofBe lenBuf) []))
  | .readRecord r len copied =>
      let k := wrapAddress cap (addW 64 r 4) len copied.length
      (.loadByte k, .inl (afterRecordByte r len (copied ++ [sh.payload k])))
  | .consume r len copied => (.storeReadOffset (addW 64 r (4 + len)), .inr (true, copied))

/-! ## The system of one producer and one consumer -/

/-- A finished `push`. -/
structure PushDone where
  record : Bytes
  returned : Bool
  ops : List Op

/-- A finished `pop_into`: `out` before and after, and how many records were published when it
loaded `write_offset` and popped before it returned. -/
structure PopDone where
  out : Bytes
  result : Bytes
  returned : Bool
  ops : List Op
  seen : Nat
  poppedBefore : Nat

/-- Shared memory, the running calls, and the finished ones in the order they returned. -/
structure State where
  shared : Shared
  push : Option PushFrame
  pop : Option PopFrame
  pushes : List PushDone
  pops : List PopDone

/-- The record of a push that returned `true`. -/
def PushDone.published? (c : PushDone) : Option Bytes := if c.returned then some c.record else none

/-- The bytes that a pop that returned `true` appended to `out`. -/
def PopDone.popped? (c : PopDone) : Option Bytes :=
  if c.returned then some (c.result.drop c.out.length) else none

/-- The records published so far, in order. -/
def State.published (s : State) : List Bytes := s.pushes.filterMap PushDone.published?

/-- The records popped so far, in order. -/
def State.popped (s : State) : List Bytes := s.pops.filterMap PopDone.popped?

/-- How many pushes returned `false`. -/
def State.refused (s : State) : Nat := s.pushes.countP (fun c => !c.returned)

/-- All operations executed so far, by finished and by running calls. -/
def State.ops (s : State) : List Op :=
  s.pushes.flatMap (·.ops) ++ s.pops.flatMap (·.ops)
    ++ s.push.elim [] (·.ops) ++ s.pop.elim [] (·.ops)

/-- One move: a call starts when its process is idle, or a running call executes an operation. -/
inductive Act where
  | callPush (record : Bytes)
  | callPop (out : Bytes)
  | producer
  | consumer

/-- The producer executes one operation. -/
def producerStep (cap : Nat) (s : State) (f : PushFrame) : State :=
  let (op, next) := f.next cap s.shared
  let ops := f.ops ++ [op]
  match next with
  | .inl pc => { s with shared := op.apply s.shared, push := some { f with pc := pc, ops := ops } }
  | .inr returned =>
      { s with shared := op.apply s.shared, push := none,
               pushes := s.pushes ++ [{ record := f.record, returned := returned, ops := ops }] }

/-- How many records the call has seen published: fixed by its `write_offset` load. -/
def PopFrame.seenAfter (f : PopFrame) (op : Op) (published : Nat) : Nat :=
  if op = .loadWriteOffset then published else f.seen

/-- The consumer executes one operation. -/
def consumerStep (cap : Nat) (s : State) (f : PopFrame) : State :=
  let (op, next) := f.next cap s.shared
  let ops := f.ops ++ [op]
  let seen := f.seenAfter op s.published.length
  match next with
  | .inl pc =>
      { s with shared := op.apply s.shared,
               pop := some { f with pc := pc, ops := ops, seen := seen } }
  | .inr (returned, bytes) =>
      { s with shared := op.apply s.shared, pop := none,
               pops := s.pops ++ [{ out := f.out, result := f.out ++ bytes, returned := returned,
                                    ops := ops, seen := seen, poppedBefore := s.popped.length }] }

/-- A call starts; on a ring without payload it returns `false` at once. -/
def startPush (cap : Nat) (s : State) (record : Bytes) : State :=
  if cap = 0 then { s with pushes := s.pushes ++ [⟨record, false, []⟩] }
  else { s with push := some ⟨record, .loadWrite, []⟩ }

@[inherit_doc startPush]
def startPop (cap : Nat) (s : State) (out : Bytes) : State :=
  if cap = 0 then { s with pops := s.pops ++ [⟨out, out, false, [], 0, s.popped.length⟩] }
  else { s with pop := some ⟨out, .loadWrite, [], 0⟩ }

/-- The moves of the system. -/
def step (cap : Nat) (s : State) : Act → Option State
  | .callPush record => if s.push.isNone then some (startPush cap s record) else none
  | .callPop out => if s.pop.isNone then some (startPop cap s out) else none
  | .producer => s.push.map (producerStep cap s)
  | .consumer => s.pop.map (consumerStep cap s)

/-- A ring whose offsets and `dropped` are 0, over arbitrary payload bytes. -/
def initial (payload : Nat → UInt8) : State :=
  { shared := ⟨0, 0, 0, payload⟩, push := none, pop := none, pushes := [], pops := [] }

end NgxOtel.Ring
