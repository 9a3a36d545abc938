import NgxOtel.Lib.Run
import Mathlib.Data.List.Count
import Mathlib.Logic.Function.Basic

/-!
# The connections of the exporter under the event loop

`NgxConnIo` (`transport/hyper_http.rs`) is the socket that the HTTP and gRPC clients read and write.
It holds a pointer into the array of connections of nginx, where a closed entry is soon reused by
somebody else, and nginx holds a pointer back: `c.data`, through which the event handlers find the
wakers.  Tasks, handlers, timers and other users of the array take turns in any order.

`connect_peer` returns early on -1, -3 and -4, the last meant for `NGX_DECLINED`.  nginx's
`NGX_DECLINED` is -5: it comes with a null `pc.connection`, when `connect(2)` fails at once, and the
code goes on to write through it.  That ends the process (`crashed`), and the run.

* `Conn` — an entry of the array, as far as this code reads and writes it.
* `closeAndClear`, `connectPeer`, `pollConnect`, `pollRead`, `pollWrite`, `close` — the operations;
  what the system answers is an argument.  They act on whatever the entry holds, as the C code does.
* `connReadHandler`, `connWriteHandler` — the event handlers.
* `State` — the array and the objects, with the history: the accesses of objects to entries, the
  objects that handlers have reached, the openings and closings, the bytes and the tasks that wait.
* `step` — one move of a task, of the event loop or of another user of the array.

## Results

* `connections_owned` — **an object only ever touches and closes a connection of its own**: no
  double close, no use after reuse, no handler that reaches a dropped object; every opening is
  closed once, except the connections that objects still hold.  The one access that hits no
  connection is the write through null, and only a declined connect leads to it.
* `delivered_eq_received` — the bytes of the socket reach the reader, also when the re-arm fails.
-/

set_option autoImplicit false

namespace NgxOtel.Transport.ConnIo

abbrev Task := Nat

inductive IoError where
  | timedOut
  | os (errno : Nat)
  | connectionRefused
  | notConnected
  | unexpectedEof
  | writeZero
  deriving DecidableEq, Repr

inductive Poll (α : Type) where
  | ready (result : Except IoError α)
  | pending

/-- The two events of a connection. -/
inductive Dir where
  | read
  | write
  deriving DecidableEq, Repr

/-! ## Connections and objects -/

/-- An entry of the connection array. -/
structure Conn where
  inUse : Bool
  /-- the object in `c.data`; `none` if the entry is free or another part of nginx uses it -/
  data : Option Nat
  /-- the read and write handlers are the ones of this module -/
  handlers : Bool
  readTimedout : Bool
  writeTimedout : Bool
  /-- the timer of the read event runs -/
  timerSet : Bool
  deriving DecidableEq, Repr

/-- What `ngx_close_connection` leaves: no timer, no event, and `data` links the free list. -/
def Conn.free : Conn := ⟨false, none, false, false, false, false⟩

structure NgxConnIo where
  connection : Option Nat
  rev : Option Task
  wev : Option Task
  deriving DecidableEq, Repr

/-- An access of an object to an entry, with what the entry held. -/
structure Access where
  io : Nat
  slot : Nat
  inUse : Bool
  data : Option Nat
  deriving DecidableEq, Repr

/-- A task whose last poll in this direction returned `Pending`, and that was not woken since. -/
structure Wait where
  io : Nat
  dir : Dir
  task : Task
  deriving DecidableEq, Repr

structure State where
  conns : Nat → Conn
  ios : Nat → Option NgxConnIo
  /-- the task that each object was made for -/
  users : Nat → Task
  /-- the process has written through a null `pc.connection` -/
  crashed : Bool
  woken : List Task
  waits : List Wait
  opens : List Nat
  closes : List Access
  touches : List Access
  /-- the objects that handlers have dereferenced, and whether they were alive -/
  reaches : List (Nat × Bool)
  /-- what `recv` has put into the buffers of each object -/
  received : Nat → List UInt8
  /-- what the cursors of its readers were advanced over -/
  delivered : Nat → List UInt8

def initial : State :=
  { conns := fun _ => Conn.free, ios := fun _ => none, users := fun _ => 0, crashed := false,
    woken := [], waits := [], opens := [], closes := [], touches := [], reaches := [],
    received := fun _ => [], delivered := fun _ => [] }

/-! ## The operations -/

namespace State

def access (s : State) (i k : Nat) : Access := ⟨i, k, (s.conns k).inUse, (s.conns k).data⟩

def touch (s : State) (i k : Nat) : State := { s with touches := s.touches ++ [s.access i k] }

def setIo (s : State) (i : Nat) (io : NgxConnIo) : State :=
  { s with ios := Function.update s.ios i (some io) }

def setConn (s : State) (k : Nat) (c : Conn) : State :=
  { s with conns := Function.update s.conns k c }

/-- A poll of task `t` has returned for the directions `ds`: it waits there no longer. -/
def answered (s : State) (i : Nat) (t : Task) (ds : List Dir) : State :=
  { s with waits := s.waits.filter fun w => ¬ (w.io = i ∧ w.task = t ∧ w.dir ∈ ds) }

/-- A poll of task `t` has returned `Pending`. -/
def parked (s : State) (i : Nat) (t : Task) (ds : List Dir) : State :=
  { s with waits := s.waits ++ ds.map fun d => ⟨i, d, t⟩ }

/-- `close_and_clear`: the entry is closed, whoever uses it, and the pointer is nulled. -/
def closeAndClear (s : State) (i : Nat) (io : NgxConnIo) (k : Nat) : State :=
  { s with conns := Function.update s.conns k Conn.free
           closes := s.closes ++ [s.access i k]
           ios := Function.update s.ios i (some { io with connection := none }) }

/-- `connect_peer` when nginx has taken the entry `k`. -/
def connectPeer (s : State) (i : Nat) (io : NgxConnIo) (k : Nat) : State :=
  { s with conns := Function.update s.conns k ⟨true, some i, true, false, false, false⟩
           opens := s.opens ++ [k]
           ios := Function.update s.ios i (some { io with connection := some k }) }

/-- `NgxConnIo::close`. -/
def close (s : State) (i : Nat) (io : NgxConnIo) : State :=
  match io.connection with
  | some k => s.closeAndClear i io k
  | none => s

end State

/-- The result of `ngx_event_connect_peer`; after a failure `pc.connection` is null. -/
inductive Dial where
  /-- 0 -/
  | ok (k : Nat)
  /-- -2 -/
  | again (k : Nat)
  /-- -1, -3 or -4, for which `connect_peer` returns at once -/
  | failed
  /-- -5, for which it does not -/
  | declined
  deriving DecidableEq, Repr

def Dial.slot : Dial → Option Nat
  | .ok k | .again k => some k
  | .failed | .declined => none

/-- `poll_connect`; `soError` is what `socket_connect_error` finds.  Without a result it does not
return. -/
def pollConnect (s : State) (i : Nat) (io : NgxConnIo) (t : Task) (dial : Dial)
    (soError : Option Nat) : Option (Poll Unit) × State :=
  match io.connection with
  | some k =>
    let s := s.touch i k
    if (s.conns k).readTimedout || (s.conns k).writeTimedout then
      (some (.ready (.error .timedOut)), (s.closeAndClear i io k).answered i t [.read, .write])
    else match soError with
      | some err =>
        (some (.ready (.error (.os err))), (s.closeAndClear i io k).answered i t [.read, .write])
      | none =>
        (some (.ready (.ok ())),
          (s.setConn k { s.conns k with handlers := true }).answered i t [.read, .write])
  | none =>
    match dial with
    | .ok k => (some (.ready (.ok ())), (s.connectPeer i io k).answered i t [.read, .write])
    | .again k =>
      let s := s.connectPeer i io k
      let s := s.setConn k { s.conns k with timerSet := true }
      -- the one waker goes into both slots: either event completes the connect
      (some .pending, (s.setIo i ⟨some k, some t, some t⟩).parked i t [.read, .write])
    | .failed => (some (.ready (.error .connectionRefused)), s.answered i t [.read, .write])
    -- `(*c).data = …` with a null `c`
    | .declined => (none, { s with crashed := true })

/-- The result of `recv`; no bytes is the end of the stream. -/
inductive Recv where
  | bytes (bs : List UInt8)
  | again
  | error (errno : Nat)
  deriving DecidableEq, Repr

/-- The bytes that `recv` has written, `n` of them if `n > 0`. -/
def Recv.got : Recv → List UInt8
  | .bytes bs => bs
  | .again | .error _ => []

/-- The timer management of `poll_read`. -/
def Conn.manageTimer (c : Conn) (active : Bool) : Conn :=
  if active then { c with timerSet := true }
  else if c.timerSet then { c with timerSet := false }
  else c

/-- `buf.advance(n)` after `recv` has filled the buffer; without an advance the bytes are lost. -/
def State.advance (s : State) (i : Nat) (n : Recv) : State :=
  { s with delivered := Function.update s.delivered i (s.delivered i ++ n.got) }

def State.filled (s : State) (i : Nat) (n : Recv) : State :=
  { s with received := Function.update s.received i (s.received i ++ n.got) }

/-- `poll_read`; `rearmed` says whether `ngx_handle_read_event` succeeded, `active` is the bit of
the read event after it. -/
def pollRead (s : State) (i : Nat) (io : NgxConnIo) (t : Task) (n : Recv)
    (rearmed active : Bool) : Poll Unit × State :=
  match io.connection with
  | none => (.ready (.error .notConnected), s.answered i t [.read])
  | some k =>
    let s := s.touch i k
    if (s.conns k).readTimedout then (.ready (.error .timedOut), s.answered i t [.read])
    else
      let s := s.filled i n
      match n with
      | .error errno => (.ready (.error (.os errno)), s.answered i t [.read])
      | _ =>
        if ¬ rearmed then
          if n.got ≠ [] then (.ready (.ok ()), (s.advance i n).answered i t [.read])
          else (.ready (.error .unexpectedEof), s.answered i t [.read])
        else
          let s := s.setConn k ((s.conns k).manageTimer active)
          if n = .again then
            (.pending, (s.setIo i { io with rev := some t }).parked i t [.read])
          else if n.got ≠ [] then (.ready (.ok ()), (s.advance i n).answered i t [.read])
          else (.ready (.ok ()), s.answered i t [.read])

/-- The result of `send`. -/
inductive Send where
  | again
  | sent (n : Nat)
  | error
  deriving DecidableEq, Repr

/-- `poll_write`; it looks at no timeout and sets no timer. -/
def pollWrite (s : State) (i : Nat) (io : NgxConnIo) (t : Task) (n : Send) : Poll Nat × State :=
  match io.connection with
  | none => (.ready (.error .notConnected), s.answered i t [.write])
  | some k =>
    let s := s.touch i k
    match n with
    | .again => (.pending, (s.setIo i { io with wev := some t }).parked i t [.write])
    | .sent n =>
      if n > 0 then (.ready (.ok n), s.answered i t [.write])
      else (.ready (.error .writeZero), s.answered i t [.write])
    | .error => (.ready (.error .writeZero), s.answered i t [.write])

/-! ## The event handlers -/

/-- The waker slot of a direction. -/
def NgxConnIo.waker (io : NgxConnIo) : Dir → Option Task
  | .read => io.rev
  | .write => io.wev

/-- `take()` on a waker slot. -/
def NgxConnIo.takeWaker (io : NgxConnIo) : Dir → NgxConnIo
  | .read => { io with rev := none }
  | .write => { io with wev := none }

/-- A handler follows `c.data` to the object, takes its waker and wakes it. -/
def connHandler (d : Dir) (s : State) (k : Nat) : State :=
  match (s.conns k).data with
  | none => s
  | some i =>
    match s.ios i with
    | none => { s with reaches := s.reaches ++ [(i, false)] }
    | some io =>
      { s with
        reaches := s.reaches ++ [(i, true)]
        ios := Function.update s.ios i (some (io.takeWaker d))
        woken := s.woken ++ (io.waker d).toList
        waits := s.waits.filter fun w => ¬ (w.io = i ∧ w.dir = d ∧ io.waker d = some w.task) }

/-- What a handler does when the object it finds is alive. -/
theorem connHandler_of_data {d : Dir} {s : State} {k i : Nat} {io : NgxConnIo}
    (hdata : (s.conns k).data = some i) (hio : s.ios i = some io) :
    connHandler d s k =
      { s with
        reaches := s.reaches ++ [(i, true)]
        ios := Function.update s.ios i (some (io.takeWaker d))
        woken := s.woken ++ (io.waker d).toList
        waits := s.waits.filter fun w => ¬ (w.io = i ∧ w.dir = d ∧ io.waker d = some w.task) } := by
  simp only [connHandler, hdata, hio]

theorem connHandler_of_none {d : Dir} {s : State} {k : Nat} (hdata : (s.conns k).data = none) :
    connHandler d s k = s := by
  simp only [connHandler, hdata]

/-- `ngx_otel_conn_read_handler`. -/
def connReadHandler : State → Nat → State := connHandler .read

/-- `ngx_otel_conn_write_handler`; that it re-arms the event when no task waits changes nothing that
is modelled. -/
def connWriteHandler : State → Nat → State := connHandler .write

/-! ## The moves -/

inductive Act where
  /-- `NgxConnIo::new` in a task; the address may be one that a dropped object had -/
  | create (i : Nat) (t : Task)
  | pollConnect (i : Nat) (t : Task) (dial : Dial) (soError : Option Nat)
  | pollRead (i : Nat) (t : Task) (n : Recv) (rearmed active : Bool)
  | pollWrite (i : Nat) (t : Task) (n : Send)
  | pollShutdown (i : Nat) (t : Task)
  /-- `Drop`, and the memory of the object is free -/
  | drop (i : Nat)
  | readEvent (k : Nat)
  | writeEvent (k : Nat)
  /-- the timer of the read event expires -/
  | readTimer (k : Nat)
  /-- other parts of nginx take and close entries -/
  | otherOpen (k : Nat)
  | otherClose (k : Nat)
  deriving DecidableEq, Repr

/-- nginx hands out free entries only and runs the handlers of entries in use only. -/
def move (s : State) : Act → Option State
  | .create i t =>
    if s.ios i = none then
      some { s.setIo i ⟨none, none, none⟩ with users := Function.update s.users i t }
    else none
  | .pollConnect i t dial soError =>
    if ∀ k ∈ dial.slot, (s.conns k).inUse = false then
      (s.ios i).map fun io => (pollConnect s i io t dial soError).2
    else none
  | .pollRead i t n rearmed active =>
    (s.ios i).map fun io => (pollRead s i io t n rearmed active).2
  | .pollWrite i t n => (s.ios i).map fun io => (pollWrite s i io t n).2
  | .pollShutdown i t => (s.ios i).map fun io => (s.close i io).answered i t [.read, .write]
  | .drop i =>
    (s.ios i).map fun io =>
      let s := s.close i io
      { s with ios := Function.update s.ios i none
               waits := s.waits.filter fun w => w.io ≠ i }
  | .readEvent k =>
    if (s.conns k).inUse ∧ (s.conns k).handlers then some (connReadHandler s k) else none
  | .writeEvent k =>
    if (s.conns k).inUse ∧ (s.conns k).handlers then some (connWriteHandler s k) else none
  | .readTimer k =>
    if (s.conns k).inUse ∧ (s.conns k).handlers ∧ (s.conns k).timerSet then
      some (connReadHandler
        (s.setConn k { s.conns k with readTimedout := true, timerSet := false }) k)
    else none
  | .otherOpen k =>
    if (s.conns k).inUse then none else some (s.setConn k { Conn.free with inUse := true })
  | .otherClose k =>
    if (s.conns k).inUse ∧ (s.conns k).data = none then some (s.setConn k Conn.free) else none

/-- One move of a process that is still alive. -/
def step (s : State) (a : Act) : Option State := if s.crashed then none else move s a

theorem step_eq_some {s t : State} {a : Act} :
    step s a = some t ↔ s.crashed = false ∧ move s a = some t := by
  rw [step, Option.ite_none_left_eq_some, Bool.not_eq_true]

/-! ## Ownership -/

/-- The entry that an object points to. -/
def State.connectionOf (s : State) (i : Nat) : Option Nat := (s.ios i).bind NgxConnIo.connection

theorem State.connectionOf_of_ios {s : State} {i : Nat} {io : NgxConnIo} (h : s.ios i = some io) :
    s.connectionOf i = io.connection := by
  rw [connectionOf, h]
  rfl

/-- An access to a connection that the object itself has opened and not closed. -/
def Access.Own (a : Access) : Prop := a.inUse = true ∧ a.data = some a.io

/-- An entry whose events come to this module. -/
def Conn.Ours (c : Conn) : Prop := c.inUse = true ∧ c.handlers = true

/-- The two pointers agree, and nothing in the history went past an agreeing pair. -/
structure Owned (s : State) : Prop where
  agree : ∀ k i, (s.conns k).data = some i ↔ s.connectionOf i = some k
  ours : ∀ k, (s.conns k).data ≠ none → (s.conns k).Ours
  touches : ∀ a ∈ s.touches, a.Own
  closes : ∀ a ∈ s.closes, a.Own
  reaches : ∀ r ∈ s.reaches, r.2 = true
  balance : ∀ k, s.opens.count k =
    (s.closes.map Access.slot).count k + if (s.conns k).data.isSome then 1 else 0

theorem owned_initial : Owned initial where
  agree := fun _ _ => by simp [initial, Conn.free, State.connectionOf]
  ours := fun _ h => absurd rfl h
  touches := fun _ h => absurd h List.not_mem_nil
  closes := fun _ h => absurd h List.not_mem_nil
  reaches := fun _ h => absurd h List.not_mem_nil
  balance := fun _ => rfl

namespace Owned

variable {s : State} {i k : Nat} {io : NgxConnIo}

/-- What an object points to is its own. -/
theorem access_own (h : Owned s) (hk : s.connectionOf i = some k) : (s.access i k).Own := by
  have hdata := (h.agree k i).mpr hk
  exact ⟨(h.ours k (by rw [hdata]; exact Option.some_ne_none i)).1, hdata⟩

/-- A free entry is nobody's. -/
theorem data_of_free (h : Owned s) (hfree : (s.conns k).inUse = false) :
    (s.conns k).data = none := by
  by_contra hdata
  rw [(h.ours k hdata).1] at hfree
  cases hfree

theorem touch (h : Owned s) (hk : s.connectionOf i = some k) : Owned (s.touch i k) where
  agree := h.agree
  ours := h.ours
  touches := by
    intro a ha
    rcases List.mem_append.mp ha with ha | ha
    · exact h.touches a ha
    · rw [List.mem_singleton.mp ha]
      exact h.access_own hk
  closes := h.closes
  reaches := h.reaches
  balance := h.balance

theorem connectionOf_update (s : State) (i j : Nat) (o : Option NgxConnIo) :
    (Function.update s.ios i o j).bind NgxConnIo.connection =
      if j = i then o.bind NgxConnIo.connection else s.connectionOf j := by
  by_cases hj : j = i
  · rw [if_pos hj, hj, Function.update_self]
  · rw [if_neg hj, Function.update_of_ne hj]
    rfl

/-- Only the connection of an object matters, not its wakers. -/
theorem setIo (h : Owned s) (hio : io.connection = s.connectionOf i) : Owned (s.setIo i io) where
  agree := by
    intro k j
    show (s.conns k).data = some j ↔ (Function.update s.ios i (some io) j).bind _ = some k
    rw [connectionOf_update, h.agree k j]
    by_cases hj : j = i
    · rw [if_pos hj, hj, Option.bind_some, hio]
    · rw [if_neg hj]
  ours := h.ours
  touches := h.touches
  closes := h.closes
  reaches := h.reaches
  balance := h.balance

/-- Only who uses an entry matters, not its timer or handlers. -/
theorem setConn (h : Owned s) {c : Conn} (hdata : c.data = (s.conns k).data)
    (hours : c.data ≠ none → c.Ours) : Owned (s.setConn k c) := by
  have hsame : ∀ k', (Function.update s.conns k c k').data = (s.conns k').data := by
    intro k'
    by_cases hk : k' = k
    · rw [hk, Function.update_self, hdata]
    · rw [Function.update_of_ne hk]
  refine ⟨fun k' j => ?_, fun k' hne => ?_, h.touches, h.closes, h.reaches, fun k' => ?_⟩
  · show (Function.update s.conns k c k').data = some j ↔ s.connectionOf j = some k'
    rw [hsame]
    exact h.agree k' j
  · change (Function.update s.conns k c k').data ≠ none at hne
    show (Function.update s.conns k c k').Ours
    by_cases hk : k' = k
    · rw [hk, Function.update_self] at hne ⊢
      exact hours hne
    · rw [Function.update_of_ne hk] at hne ⊢
      exact h.ours k' hne
  · show _ = _ + if (Function.update s.conns k c k').data.isSome then 1 else 0
    rw [hsame]
    exact h.balance k'

theorem closeAndClear (h : Owned s) (hk : s.connectionOf i = some k) :
    Owned (s.closeAndClear i io k) where
  agree := by
    intro k' j
    show (Function.update s.conns k Conn.free k').data = some j ↔
      (Function.update s.ios i (some { io with connection := none }) j).bind _ = some k'
    rw [connectionOf_update]
    have hkj : ∀ {j}, s.connectionOf j = some k → j = i := fun hj =>
      Option.some.inj (((h.agree k _).mpr hj).symm.trans ((h.agree k i).mpr hk))
    by_cases hk' : k' = k <;> by_cases hj : j = i
    · rw [hk', Function.update_self, if_pos hj]
      exact ⟨nofun, nofun⟩
    · rw [hk', Function.update_self, if_neg hj]
      exact ⟨nofun, fun hc => absurd (hkj hc) hj⟩
    · rw [Function.update_of_ne hk', if_pos hj, hj, h.agree k' i, hk]
      exact ⟨fun heq => absurd (Option.some.inj heq).symm hk', nofun⟩
    · rw [Function.update_of_ne hk', if_neg hj]
      exact h.agree k' j
  ours := by
    intro k' hne
    change (Function.update s.conns k Conn.free k').data ≠ none at hne
    show (Function.update s.conns k Conn.free k').Ours
    by_cases hk' : k' = k
    · rw [hk', Function.update_self] at hne
      exact absurd rfl hne
    · rw [Function.update_of_ne hk'] at hne ⊢
      exact h.ours k' hne
  touches := h.touches
  closes := by
    intro a ha
    rcases List.mem_append.mp ha with ha | ha
    · exact h.closes a ha
    · rw [List.mem_singleton.mp ha]
      exact h.access_own hk
  reaches := h.reaches
  balance := by
    intro k'
    show s.opens.count k' = ((s.closes ++ [s.access i k]).map Access.slot).count k' +
      if (Function.update s.conns k Conn.free k').data.isSome then 1 else 0
    have hbal := h.balance k'
    rw [List.map_append, List.count_append]
    by_cases hk' : k' = k
    · -- the entry was counted as held, and is counted as closed now
      rw [hk', (h.agree k i).mpr hk] at hbal
      rw [hk', Function.update_self, hbal]
      simp [State.access, Conn.free]
    · rw [Function.update_of_ne hk', hbal]
      simp [State.access, Ne.symm hk']

theorem connectPeer (h : Owned s) (hnone : s.connectionOf i = none)
    (hfree : (s.conns k).inUse = false) : Owned (s.connectPeer i io k) where
  agree := by
    intro k' j
    show (Function.update s.conns k ⟨true, some i, true, false, false, false⟩ k').data = some j ↔
      (Function.update s.ios i (some { io with connection := some k }) j).bind _ = some k'
    rw [connectionOf_update]
    have hdata := h.data_of_free hfree
    by_cases hk' : k' = k <;> by_cases hj : j = i
    · rw [hk', Function.update_self, if_pos hj, hj]
      exact ⟨fun _ => rfl, fun _ => rfl⟩
    · rw [hk', Function.update_self, if_neg hj, ← h.agree k j, hdata]
      exact ⟨fun heq => absurd (Option.some.inj heq).symm hj, nofun⟩
    · rw [Function.update_of_ne hk', if_pos hj, hj, h.agree k' i, hnone]
      exact ⟨nofun, fun heq => absurd (Option.some.inj heq).symm hk'⟩
    · rw [Function.update_of_ne hk', if_neg hj]
      exact h.agree k' j
  ours := by
    intro k' hne
    change (Function.update s.conns k _ k').data ≠ none at hne
    show (Function.update s.conns k _ k').Ours
    by_cases hk' : k' = k
    · rw [hk', Function.update_self]
      exact ⟨rfl, rfl⟩
    · rw [Function.update_of_ne hk'] at hne ⊢
      exact h.ours k' hne
  touches := h.touches
  closes := h.closes
  reaches := h.reaches
  balance := by
    intro k'
    show (s.opens ++ [k]).count k' = (s.closes.map Access.slot).count k' +
      if (Function.update s.conns k ⟨true, some i, true, false, false, false⟩ k').data.isSome
        then 1 else 0
    have hbal := h.balance k'
    rw [List.count_append]
    by_cases hk' : k' = k
    · rw [hk', h.data_of_free hfree] at hbal
      rw [hk', Function.update_self, hbal]
      simp
    · rw [Function.update_of_ne hk', hbal]
      simp [Ne.symm hk']

/-- Who waits and who was woken is not part of ownership. -/
theorem answered (h : Owned s) (t : Task) (ds : List Dir) : Owned (s.answered i t ds) :=
  ⟨h.agree, h.ours, h.touches, h.closes, h.reaches, h.balance⟩

theorem parked (h : Owned s) (t : Task) (ds : List Dir) : Owned (s.parked i t ds) :=
  ⟨h.agree, h.ours, h.touches, h.closes, h.reaches, h.balance⟩

theorem filled (h : Owned s) (n : Recv) : Owned (s.filled i n) :=
  ⟨h.agree, h.ours, h.touches, h.closes, h.reaches, h.balance⟩

theorem advance (h : Owned s) (n : Recv) : Owned (s.advance i n) :=
  ⟨h.agree, h.ours, h.touches, h.closes, h.reaches, h.balance⟩

theorem close (h : Owned s) (hio : s.ios i = some io) : Owned (s.close i io) := by
  unfold State.close
  split
  · next k hk => exact h.closeAndClear ((State.connectionOf_of_ios hio).trans hk)
  · exact h

end Owned

/-- A closed object has no connection. -/
theorem State.connectionOf_close {s : State} {i : Nat} {io : NgxConnIo} (hio : s.ios i = some io) :
    (s.close i io).connectionOf i = none := by
  unfold close
  split
  · show (Function.update s.ios i _ i).bind _ = none
    rw [Function.update_self]
    rfl
  · next hnone => exact (connectionOf_of_ios hio).trans hnone

namespace Owned

variable {s : State} {i k : Nat} {io : NgxConnIo}

/-- The memory of an object without a connection can be freed. -/
theorem forget (h : Owned s) (hnone : s.connectionOf i = none) (waits : List Wait) :
    Owned { s with ios := Function.update s.ios i none, waits := waits } where
  agree := by
    intro k j
    show (s.conns k).data = some j ↔ (Function.update s.ios i none j).bind _ = some k
    rw [connectionOf_update, h.agree k j]
    by_cases hj : j = i
    · rw [if_pos hj, hj, hnone]
      rfl
    · rw [if_neg hj]
  ours := h.ours
  touches := h.touches
  closes := h.closes
  reaches := h.reaches
  balance := h.balance

theorem pollConnect (h : Owned s) (hio : s.ios i = some io) (t : Task) {dial : Dial}
    (hfree : ∀ k ∈ dial.slot, (s.conns k).inUse = false) (soError : Option Nat) :
    Owned (pollConnect s i io t dial soError).2 := by
  have hof := State.connectionOf_of_ios hio
  unfold ConnIo.pollConnect
  split
  · next k hk =>
    rw [hk] at hof
    have htouch := h.touch hof
    dsimp only
    split
    · exact (htouch.closeAndClear hof).answered t _
    · split
      · exact (htouch.closeAndClear hof).answered t _
      · apply Owned.answered
        exact htouch.setConn rfl fun hne => ⟨(htouch.ours k hne).1, rfl⟩
  · next hk =>
    rw [hk] at hof
    split
    · next k => exact (h.connectPeer hof (hfree k rfl)).answered t _
    · next k =>
      have hopen : Owned (s.connectPeer i io k) := h.connectPeer hof (hfree k rfl)
      apply Owned.parked
      apply Owned.setIo
      · exact hopen.setConn rfl (hopen.ours k)
      show some k = (Function.update s.ios i (some { io with connection := some k }) i).bind _
      rw [Function.update_self]
      rfl
    · exact h.answered t _
    · exact ⟨h.agree, h.ours, h.touches, h.closes, h.reaches, h.balance⟩

theorem manageTimer_data (c : Conn) (active : Bool) : (c.manageTimer active).data = c.data := by
  unfold Conn.manageTimer
  split
  · rfl
  · split <;> rfl

theorem manageTimer_ours {c : Conn} (h : c.Ours) (active : Bool) : (c.manageTimer active).Ours := by
  unfold Conn.manageTimer
  split
  · exact h
  · split <;> exact h

theorem pollRead (h : Owned s) (hio : s.ios i = some io) (t : Task) (n : Recv)
    (rearmed active : Bool) : Owned (pollRead s i io t n rearmed active).2 := by
  have hof := State.connectionOf_of_ios hio
  unfold ConnIo.pollRead
  split
  · exact h.answered t _
  · next k hk =>
    rw [hk] at hof
    have hfilled : Owned ((s.touch i k).filled i n) := (h.touch hof).filled n
    have htimer : Owned (((s.touch i k).filled i n).setConn k
        ((((s.touch i k).filled i n).conns k).manageTimer active)) := by
      refine hfilled.setConn (manageTimer_data _ _) fun hne => manageTimer_ours ?_ active
      exact hfilled.ours k (by rwa [manageTimer_data] at hne)
    dsimp only
    split
    · exact (h.touch hof).answered t _
    · split
      · exact hfilled.answered t _
      · split
        · split
          · exact (hfilled.advance n).answered t _
          · exact hfilled.answered t _
        · split
          · apply Owned.parked
            exact htimer.setIo (hk.trans hof.symm)
          · split
            · exact (htimer.advance n).answered t _
            · exact htimer.answered t _

theorem pollWrite (h : Owned s) (hio : s.ios i = some io) (t : Task) (n : Send) :
    Owned (pollWrite s i io t n).2 := by
  have hof := State.connectionOf_of_ios hio
  unfold ConnIo.pollWrite
  split
  · exact h.answered t _
  · next k hk =>
    rw [hk] at hof
    have htouch := h.touch hof
    dsimp only
    split
    · apply Owned.parked
      exact htouch.setIo (hk.trans hof.symm)
    · split
      · exact htouch.answered t _
      · exact htouch.answered t _
    · exact htouch.answered t _

theorem takeWaker_connection (io : NgxConnIo) (d : Dir) :
    (io.takeWaker d).connection = io.connection := by
  cases d <;> rfl

/-- The object that a handler reaches is alive: had it been dropped, its entry would be free. -/
theorem ios_of_data (h : Owned s) (hdata : (s.conns k).data = some i) :
    ∃ io, s.ios i = some io ∧ io.connection = some k := by
  have hof := (h.agree k i).mp hdata
  exact Option.bind_eq_some_iff.mp hof

theorem connHandler (h : Owned s) (d : Dir) : Owned (connHandler d s k) := by
  cases hdata : (s.conns k).data with
  | none =>
    rw [connHandler_of_none hdata]
    exact h
  | some i =>
    obtain ⟨io, hio, hk⟩ := h.ios_of_data hdata
    rw [connHandler_of_data hdata hio]
    have hset : Owned (s.setIo i (io.takeWaker d)) :=
      h.setIo ((takeWaker_connection io d).trans (State.connectionOf_of_ios hio).symm)
    refine ⟨hset.agree, hset.ours, hset.touches, hset.closes, fun r hr => ?_, hset.balance⟩
    rcases List.mem_append.mp hr with hr | hr
    · exact h.reaches r hr
    · rw [List.mem_singleton.mp hr]

end Owned

/-- **Every move keeps the ownership of connections.** -/
theorem step_owned (s : State) (a : Act) (t : State) (h : Owned s) (halive : step s a = some t) :
    Owned t := by
  have hstep := (step_eq_some.mp halive).2
  cases a with
  | create i task =>
    obtain ⟨hnone, hsome⟩ := Option.ite_none_right_eq_some.mp hstep
    cases hsome
    have hset : Owned (s.setIo i ⟨none, none, none⟩) := by
      refine h.setIo ?_
      rw [State.connectionOf, hnone]
      rfl
    exact ⟨hset.agree, hset.ours, hset.touches, hset.closes, hset.reaches, hset.balance⟩
  | pollConnect i task dial soError =>
    obtain ⟨hfree, hmap⟩ := Option.ite_none_right_eq_some.mp hstep
    obtain ⟨io, hio, rfl⟩ := Option.map_eq_some_iff.mp hmap
    exact h.pollConnect hio task hfree soError
  | pollRead i task n rearmed active =>
    obtain ⟨io, hio, rfl⟩ := Option.map_eq_some_iff.mp hstep
    exact h.pollRead hio task n rearmed active
  | pollWrite i task n =>
    obtain ⟨io, hio, rfl⟩ := Option.map_eq_some_iff.mp hstep
    exact h.pollWrite hio task n
  | pollShutdown i task =>
    obtain ⟨io, hio, rfl⟩ := Option.map_eq_some_iff.mp hstep
    exact (h.close hio).answered task _
  | drop i =>
    obtain ⟨io, hio, rfl⟩ := Option.map_eq_some_iff.mp hstep
    exact (h.close hio).forget (State.connectionOf_close hio) _
  | readEvent k =>
    obtain ⟨-, hsome⟩ := Option.ite_none_right_eq_some.mp hstep
    cases hsome
    exact h.connHandler .read
  | writeEvent k =>
    obtain ⟨-, hsome⟩ := Option.ite_none_right_eq_some.mp hstep
    cases hsome
    exact h.connHandler .write
  | readTimer k =>
    obtain ⟨-, hsome⟩ := Option.ite_none_right_eq_some.mp hstep
    cases hsome
    apply Owned.connHandler
    exact h.setConn rfl (h.ours k)
  | otherOpen k =>
    obtain ⟨hfree, hsome⟩ := Option.ite_none_left_eq_some.mp hstep
    cases hsome
    exact h.setConn (h.data_of_free (Bool.not_eq_true _ ▸ hfree)).symm fun hne => absurd rfl hne
  | otherClose k =>
    obtain ⟨⟨-, hdata⟩, hsome⟩ := Option.ite_none_right_eq_some.mp hstep
    cases hsome
    exact h.setConn hdata.symm fun hne => absurd rfl hne

theorem exec_owned {acts : List Act} {s : State} (h : Run.exec step initial acts = some s) :
    Owned s :=
  Run.exec_invariant step_owned h owned_initial

theorem crashed_close (s : State) (i : Nat) (io : NgxConnIo) :
    (s.close i io).crashed = s.crashed := by
  unfold State.close
  split <;> rfl

theorem crashed_connHandler (d : Dir) (s : State) (k : Nat) :
    (connHandler d s k).crashed = s.crashed := by
  unfold connHandler
  split
  · rfl
  · split <;> rfl

theorem crashed_pollRead (s : State) (i : Nat) (io : NgxConnIo) (t : Task) (n : Recv)
    (rearmed active : Bool) : (pollRead s i io t n rearmed active).2.crashed = s.crashed := by
  unfold pollRead
  split
  · rfl
  · dsimp only
    repeat' split
    all_goals rfl

theorem crashed_pollWrite (s : State) (i : Nat) (io : NgxConnIo) (t : Task) (n : Send) :
    (pollWrite s i io t n).2.crashed = s.crashed := by
  unfold pollWrite
  split
  · rfl
  · dsimp only
    repeat' split
    all_goals rfl

/-- Only a declined connect of an object without a connection ends the process. -/
theorem crashed_pollConnect {s : State} {i : Nat} {io : NgxConnIo} {t : Task} {dial : Dial}
    {soError : Option Nat} (hs : s.crashed = false)
    (h : (pollConnect s i io t dial soError).2.crashed = true) :
    dial = .declined ∧ io.connection = none := by
  have hno : ¬ s.crashed = true := by rw [hs]; decide
  unfold pollConnect at h
  split at h
  · dsimp only at h
    split at h
    · exact absurd h hno
    · split at h <;> exact absurd h hno
  · next hnone =>
    cases dial with
    | declined => exact ⟨rfl, hnone⟩
    | ok | again | failed => exact absurd h hno

/-- The process dies in a declined connect and nowhere else. -/
theorem crashed_of_step {s t : State} {a : Act} (hstep : step s a = some t)
    (hcrash : t.crashed = true) :
    ∃ i task soError, a = .pollConnect i task .declined soError ∧ s.connectionOf i = none := by
  obtain ⟨hs, hmove⟩ := step_eq_some.mp hstep
  have hkept (ht : t.crashed = s.crashed) : False := by
    rw [ht, hs] at hcrash
    cases hcrash
  cases a with
  | create i task =>
    obtain ⟨-, hsome⟩ := Option.ite_none_right_eq_some.mp hmove
    cases hsome
    exact (hkept rfl).elim
  | pollConnect i task dial soError =>
    obtain ⟨-, hmap⟩ := Option.ite_none_right_eq_some.mp hmove
    obtain ⟨io, hio, rfl⟩ := Option.map_eq_some_iff.mp hmap
    obtain ⟨rfl, hnone⟩ := crashed_pollConnect hs hcrash
    exact ⟨i, task, soError, rfl, (State.connectionOf_of_ios hio).trans hnone⟩
  | pollRead i task n rearmed active =>
    obtain ⟨io, -, rfl⟩ := Option.map_eq_some_iff.mp hmove
    exact (hkept (crashed_pollRead s i io task n rearmed active)).elim
  | pollWrite i task n =>
    obtain ⟨io, -, rfl⟩ := Option.map_eq_some_iff.mp hmove
    exact (hkept (crashed_pollWrite s i io task n)).elim
  | pollShutdown i task =>
    obtain ⟨io, -, rfl⟩ := Option.map_eq_some_iff.mp hmove
    exact (hkept (crashed_close s i io)).elim
  | drop i =>
    obtain ⟨io, -, rfl⟩ := Option.map_eq_some_iff.mp hmove
    exact (hkept (crashed_close s i io)).elim
  | readEvent k =>
    obtain ⟨-, hsome⟩ := Option.ite_none_right_eq_some.mp hmove
    cases hsome
    exact (hkept (crashed_connHandler .read s k)).elim
  | writeEvent k =>
    obtain ⟨-, hsome⟩ := Option.ite_none_right_eq_some.mp hmove
    cases hsome
    exact (hkept (crashed_connHandler .write s k)).elim
  | readTimer k =>
    obtain ⟨-, hsome⟩ := Option.ite_none_right_eq_some.mp hmove
    cases hsome
    exact (hkept (crashed_connHandler .read _ k)).elim
  | otherOpen k =>
    obtain ⟨-, hsome⟩ := Option.ite_none_left_eq_some.mp hmove
    cases hsome
    exact (hkept rfl).elim
  | otherClose k =>
    obtain ⟨-, hsome⟩ := Option.ite_none_right_eq_some.mp hmove
    cases hsome
    exact (hkept rfl).elim

/-- The run of a process that has died ends with the declined connect. -/
theorem crashed_of_exec {acts : List Act} {s : State} (h : Run.exec step initial acts = some s)
    (hcrash : s.crashed = true) :
    ∃ i task soError, acts.getLast? = some (.pollConnect i task .declined soError) := by
  rcases List.eq_nil_or_concat acts with rfl | ⟨before, a, rfl⟩
  · cases h
    cases hcrash
  · rw [List.concat_eq_append] at h ⊢
    obtain ⟨u, -, hstep⟩ := Run.exec_concat.mp h
    obtain ⟨i, task, soError, rfl, -⟩ := crashed_of_step hstep hcrash
    exact ⟨i, task, soError, List.getLast?_concat⟩

/-- **An object only ever touches and closes a connection of its own.**  In every run, whatever the
tasks, the event loop and the other users of the array do: each access and each close hits an entry
that is in use by that object, handlers reach live objects only, no two objects point to one entry,
and an entry has been opened as often as closed, once more if an object holds it.  The process
writes through a null pointer in no run but one that ends with a declined connect. -/
theorem connections_owned (acts : List Act) (s : State) (h : Run.exec step initial acts = some s) :
    (∀ a ∈ s.touches ++ s.closes, a.inUse = true ∧ a.data = some a.io) ∧
    (∀ r ∈ s.reaches, r.2 = true) ∧
    (∀ i j k, s.connectionOf i = some k → s.connectionOf j = some k → i = j) ∧
    (∀ k, s.opens.count k ≤ (s.closes.map Access.slot).count k + 1) ∧
    (∀ k, (∀ i, s.connectionOf i ≠ some k) →
      s.opens.count k = (s.closes.map Access.slot).count k) ∧
    (s.crashed = true →
      ∃ i t soError, acts.getLast? = some (.pollConnect i t .declined soError)) := by
  have hown := exec_owned h
  refine ⟨fun a ha => ?_, hown.reaches, fun i j k hi hj => ?_, fun k => ?_, fun k hk => ?_,
    crashed_of_exec h⟩
  · rcases List.mem_append.mp ha with ha | ha
    · exact hown.touches a ha
    · exact hown.closes a ha
  · exact Option.some.inj (((hown.agree k i).mpr hi).symm.trans ((hown.agree k j).mpr hj))
  · rw [hown.balance k]
    split <;> omega
  · rw [hown.balance k]
    cases hdata : (s.conns k).data with
    | none => rfl
    | some i => exact absurd ((hown.agree k i).mp hdata) (hk i)

/-- A connect times out, its entry is taken by somebody else before the object is dropped, and a new
object at the same address gets the entry again. -/
def recycledRun : List Act :=
  [.create 0 7, .pollConnect 0 7 (.again 5) none, .readTimer 5, .pollConnect 0 7 .failed none,
    .otherOpen 5, .drop 0, .otherClose 5, .create 0 8, .pollConnect 0 8 (.ok 5) none,
    .pollRead 0 8 (.bytes [72, 84]) false false, .pollWrite 0 8 (.sent 2)]

theorem connections_owned_recycledRun : ∃ s, Run.exec step initial recycledRun = some s ∧
    s.opens = [5, 5] ∧ s.closes.map Access.slot = [5] ∧ s.reaches = [(0, true)] ∧
    s.touches.length = 3 ∧ ∀ a ∈ s.touches ++ s.closes, a.inUse = true ∧ a.data = some a.io := by
  have hend : (Run.exec step initial recycledRun).map (fun s =>
      (s.opens, s.closes.map Access.slot, s.reaches, s.touches.length)) =
        some ([5, 5], [5], [(0, true)], 3) := by decide
  obtain ⟨s, hs, hvalue⟩ := Option.map_eq_some_iff.mp hend
  obtain ⟨hopens, hrest⟩ := Prod.mk.inj hvalue
  obtain ⟨hcloses, hrest⟩ := Prod.mk.inj hrest
  obtain ⟨hreaches, htouches⟩ := Prod.mk.inj hrest
  exact ⟨s, hs, hopens, hcloses, hreaches, htouches, (connections_owned recycledRun s hs).1⟩

-- The network is unreachable, so that `connect(2)` fails at once: the process is gone.
example : (Run.exec step initial [.create 0 7, .pollConnect 0 7 .declined none]).map
      State.crashed = some true ∧
    Run.exec step initial [.create 0 7, .pollConnect 0 7 .declined none, .drop 0] = none := by
  decide

/-! ## Bytes -/

/-- Every byte that `recv` has written was handed on. -/
def Lossless (s : State) : Prop := s.delivered = s.received

namespace Lossless

variable {s : State} {i : Nat}

theorem filled_advance (h : Lossless s) (n : Recv) : Lossless ((s.filled i n).advance i n) := by
  show Function.update s.delivered i (s.delivered i ++ n.got) =
    Function.update s.received i (s.received i ++ n.got)
  rw [h]

/-- Where the cursor is not advanced, `recv` has written nothing. -/
theorem filled (h : Lossless s) {n : Recv} (hn : n.got = []) : Lossless (s.filled i n) := by
  show s.delivered = Function.update s.received i (s.received i ++ n.got)
  rw [hn, List.append_nil, Function.update_eq_self]
  exact h

theorem pollRead (h : Lossless s) (io : NgxConnIo) (t : Task) (n : Recv) (rearmed active : Bool) :
    Lossless (pollRead s i io t n rearmed active).2 := by
  unfold ConnIo.pollRead
  split
  · exact h
  · next k _ =>
    have htouch : Lossless (s.touch i k) := h
    dsimp only
    split
    · exact h
    · split
      · exact htouch.filled rfl
      · split
        · split
          · exact htouch.filled_advance n
          · next hgot => exact htouch.filled (not_not.mp hgot)
        · split
          · next hagain => exact htouch.filled (by rw [hagain]; rfl)
          · split
            · exact htouch.filled_advance n
            · next hgot => exact htouch.filled (not_not.mp hgot)

theorem pollConnect (h : Lossless s) (io : NgxConnIo) (t : Task) (dial : Dial)
    (soError : Option Nat) : Lossless (pollConnect s i io t dial soError).2 := by
  unfold ConnIo.pollConnect
  split
  · dsimp only
    split
    · exact h
    · split <;> exact h
  · split <;> exact h

theorem pollWrite (h : Lossless s) (io : NgxConnIo) (t : Task) (n : Send) :
    Lossless (pollWrite s i io t n).2 := by
  unfold ConnIo.pollWrite
  split
  · exact h
  · dsimp only
    split
    · exact h
    · split <;> exact h
    · exact h

theorem close (h : Lossless s) (io : NgxConnIo) : Lossless (s.close i io) := by
  unfold State.close
  split <;> exact h

theorem connHandler (h : Lossless s) (d : Dir) (k : Nat) : Lossless (connHandler d s k) := by
  unfold ConnIo.connHandler
  split
  · exact h
  · split <;> exact h

end Lossless

theorem step_lossless (s : State) (a : Act) (t : State) (h : Lossless s)
    (halive : step s a = some t) : Lossless t := by
  have hstep := (step_eq_some.mp halive).2
  cases a with
  | create | otherClose =>
    obtain ⟨-, hsome⟩ := Option.ite_none_right_eq_some.mp hstep
    cases hsome
    exact h
  | otherOpen k =>
    obtain ⟨-, hsome⟩ := Option.ite_none_left_eq_some.mp hstep
    cases hsome
    exact h
  | pollConnect i task dial soError =>
    obtain ⟨-, hmap⟩ := Option.ite_none_right_eq_some.mp hstep
    obtain ⟨io, -, rfl⟩ := Option.map_eq_some_iff.mp hmap
    exact h.pollConnect io task dial soError
  | pollRead i task n rearmed active =>
    obtain ⟨io, -, rfl⟩ := Option.map_eq_some_iff.mp hstep
    exact h.pollRead io task n rearmed active
  | pollWrite i task n =>
    obtain ⟨io, -, rfl⟩ := Option.map_eq_some_iff.mp hstep
    exact h.pollWrite io task n
  | pollShutdown i task =>
    obtain ⟨io, -, rfl⟩ := Option.map_eq_some_iff.mp hstep
    exact h.close io
  | drop i =>
    obtain ⟨io, -, rfl⟩ := Option.map_eq_some_iff.mp hstep
    exact h.close io
  | readEvent k =>
    obtain ⟨-, hsome⟩ := Option.ite_none_right_eq_some.mp hstep
    cases hsome
    exact h.connHandler .read k
  | writeEvent k =>
    obtain ⟨-, hsome⟩ := Option.ite_none_right_eq_some.mp hstep
    cases hsome
    exact h.connHandler .write k
  | readTimer k =>
    obtain ⟨-, hsome⟩ := Option.ite_none_right_eq_some.mp hstep
    cases hsome
    exact Lossless.connHandler (s := s.setConn k _) h .read k

/-- **The bytes of the socket reach the reader**, in order and once, also when the re-arm after
`recv` fails. -/
theorem delivered_eq_received {acts : List Act} {s : State}
    (h : Run.exec step initial acts = some s) (i : Nat) : s.delivered i = s.received i :=
  congrFun (Run.exec_invariant step_lossless h rfl) i

end NgxOtel.Transport.ConnIo
