import NgxOtel.Transport.ConnIo

/-!
# Wake-ups of the tasks that wait for a connection

`poll_connect`, `poll_read` and `poll_write` of `NgxConnIo` (`transport/hyper_http.rs`) return
`Pending` without waking anybody: they leave the waker of the task in `rev` or `wev`, and the event
handlers wake what they find there.  A task is stuck for good if its waker is not in the slot when
the event comes, or if no event can come.

* `SingleTask` — an object is used by the task it was made for, as in the HTTP/1 client.
* `Wakeable s w io k` — the waker of the waiting task is where the handler looks, and a reader has a
  timer.
* `Frame i s t` — what an operation on object `i` leaves alone.

## Results

* `step_parked`, `exec_parked` — whoever waits is wakeable, after every move and every run.
* `waiting_task_woken` — **no wake-up is lost while one task uses an object**, in a process that is
  alive: a task that was told to wait is woken by the next event, and a reader at the latest by its
  timer, to find `TimedOut`.
* Limitation: with two tasks on one object the second waker replaces the first, and the first task
  sleeps through the event (shown after `waiting_task_woken`).
-/

set_option autoImplicit false

namespace NgxOtel.Transport.ConnIo

/-- Each object is used by the task it was made for, and a read event that was re-armed after
`NGX_AGAIN` is active. -/
def SingleTask (s : State) : Act → Prop
  | .pollConnect i t _ _ | .pollWrite i t _ | .pollShutdown i t => t = s.users i
  | .pollRead i t n rearmed active =>
    t = s.users i ∧ (n = .again → rearmed = true → active = true)
  | _ => True

instance (s : State) (a : Act) : Decidable (SingleTask s a) := by
  cases a <;> unfold SingleTask <;> infer_instance

/-- A waiting task can be woken: its waker is where the handler looks, the object has a connection,
and the timer of a reader runs. -/
structure Wakeable (s : State) (w : Wait) (io : NgxConnIo) (k : Nat) : Prop where
  object : s.ios w.io = some io
  waker : io.waker w.dir = some w.task
  connection : io.connection = some k
  timer : w.dir = .read → (s.conns k).timerSet = true

/-- Everyone who waits is the user of the object and can be woken. -/
def Parked (s : State) : Prop :=
  ∀ w ∈ s.waits, w.task = s.users w.io ∧ ∃ io k, Wakeable s w io k

/-- What the operations on one object leave alone: other objects, the entries that they hold and
the tasks that wait for them. -/
structure Frame (i : Nat) (s t : State) : Prop where
  ios : ∀ j, j ≠ i → t.ios j = s.ios j
  users : t.users = s.users
  conns : ∀ k j, j ≠ i → (s.conns k).data = some j → t.conns k = s.conns k
  waits : ∀ w ∈ t.waits, w.io ≠ i → w ∈ s.waits

namespace Frame

variable {s t u : State} {i k : Nat} {io : NgxConnIo}

theorem refl (s : State) : Frame i s s :=
  ⟨fun _ _ => rfl, rfl, fun _ _ _ _ => rfl, fun _ h _ => h⟩

theorem trans (h : Frame i s t) (h' : Frame i t u) : Frame i s u where
  ios := fun j hj => (h'.ios j hj).trans (h.ios j hj)
  users := h'.users.trans h.users
  conns := fun k j hj hdata => by
    have hsame := h.conns k j hj hdata
    rw [h'.conns k j hj (by rw [hsame]; exact hdata), hsame]
  waits := fun w hw hi => h.waits w (h'.waits w hw hi) hi

theorem touch (s : State) (i k : Nat) : Frame i s (s.touch i k) :=
  ⟨fun _ _ => rfl, rfl, fun _ _ _ _ => rfl, fun _ h _ => h⟩

theorem filled (s : State) (i : Nat) (n : Recv) : Frame i s (s.filled i n) :=
  ⟨fun _ _ => rfl, rfl, fun _ _ _ _ => rfl, fun _ h _ => h⟩

theorem advance (s : State) (i : Nat) (n : Recv) : Frame i s (s.advance i n) :=
  ⟨fun _ _ => rfl, rfl, fun _ _ _ _ => rfl, fun _ h _ => h⟩

theorem answered (s : State) (i : Nat) (task : Task) (ds : List Dir) :
    Frame i s (s.answered i task ds) :=
  ⟨fun _ _ => rfl, rfl, fun _ _ _ _ => rfl, fun _ h _ => (List.mem_filter.mp h).1⟩

theorem parked (s : State) (i : Nat) (task : Task) (ds : List Dir) :
    Frame i s (s.parked i task ds) := by
  refine ⟨fun _ _ => rfl, rfl, fun _ _ _ _ => rfl, fun w hw hi => ?_⟩
  rcases List.mem_append.mp hw with hw | hw
  · exact hw
  · obtain ⟨d, -, rfl⟩ := List.mem_map.mp hw
    exact absurd rfl hi

theorem setIo (s : State) (i : Nat) (io : NgxConnIo) : Frame i s (s.setIo i io) :=
  ⟨fun _ hj => Function.update_of_ne hj _ _, rfl, fun _ _ _ _ => rfl, fun _ h _ => h⟩

theorem setConn (c : Conn) (hk : ∀ j, j ≠ i → (s.conns k).data ≠ some j) :
    Frame i s (s.setConn k c) := by
  refine ⟨fun _ _ => rfl, rfl, fun k' j hj hdata => Function.update_of_ne ?_ _ _, fun _ h _ => h⟩
  rintro rfl
  exact hk j hj hdata

theorem closeAndClear (hk : ∀ j, j ≠ i → (s.conns k).data ≠ some j) :
    Frame i s (s.closeAndClear i io k) :=
  ⟨fun _ hj => Function.update_of_ne hj _ _, rfl, (setConn Conn.free hk).conns, fun _ h _ => h⟩

theorem connectPeer (hk : ∀ j, j ≠ i → (s.conns k).data ≠ some j) :
    Frame i s (s.connectPeer i io k) :=
  ⟨fun _ hj => Function.update_of_ne hj _ _, rfl, (setConn _ hk).conns, fun _ h _ => h⟩

/-- A task that waits for another object can be woken as before. -/
theorem wakeable (h : Frame i s t) (hown : Owned s) {w : Wait} (hi : w.io ≠ i)
    (hw : Wakeable s w io k) : Wakeable t w io k := by
  have hof := (State.connectionOf_of_ios hw.object).trans hw.connection
  have hsame := h.conns k w.io hi ((hown.agree k w.io).mpr hof)
  refine ⟨(h.ios w.io hi).trans hw.object, hw.waker, hw.connection, fun hread => ?_⟩
  rw [hsame]
  exact hw.timer hread

/-- After an operation on object `i` only the tasks that wait for `i` have to be looked at. -/
theorem parked_of (h : Frame i s t) (hown : Owned s) (hs : Parked s)
    (hi : ∀ w ∈ t.waits, w.io = i → w.task = s.users i ∧ ∃ io k, Wakeable t w io k) :
    Parked t := by
  intro w hw
  rw [h.users]
  by_cases hwi : w.io = i
  · rw [hwi]
    exact hi w hw hwi
  · obtain ⟨htask, io, k, hready⟩ := hs w (h.waits w hw hwi)
    exact ⟨htask, io, k, h.wakeable hown hwi hready⟩

end Frame

/-- Nobody but the object itself holds the entry it points to. -/
theorem Owned.only {s : State} {i k : Nat} (h : Owned s) (hk : s.connectionOf i = some k) :
    ∀ j, j ≠ i → (s.conns k).data ≠ some j := by
  intro j hj hdata
  exact hj (Option.some.inj (hdata.symm.trans ((h.agree k i).mpr hk)))

theorem Owned.nobody {s : State} {k : Nat} (h : Owned s) (hfree : (s.conns k).inUse = false)
    (i : Nat) : ∀ j, j ≠ i → (s.conns k).data ≠ some j := by
  intro j _ hdata
  rw [h.data_of_free hfree] at hdata
  cases hdata

namespace Parked

variable {s x : State} {i k : Nat} {io : NgxConnIo}

/-- A poll that has an answer for the directions `ds` only has to keep the others. -/
theorem answered (hs : Parked s) (hown : Owned s) (hx : Frame i s x)
    (hwaits : x.waits = s.waits) {ds : List Dir}
    (hother : ∀ w io k, w.io = i → w.dir ∉ ds → Wakeable s w io k →
      ∃ io' k', Wakeable x w io' k') : Parked (x.answered i (s.users i) ds) := by
  refine (hx.trans (Frame.answered x i (s.users i) ds)).parked_of hown hs fun w hw hi => ?_
  obtain ⟨hmem, hleft⟩ := List.mem_filter.mp hw
  rw [hwaits] at hmem
  obtain ⟨htask, io, k, hready⟩ := hs w hmem
  rw [hi] at htask
  have hdir : w.dir ∉ ds := fun hd => of_decide_eq_true hleft ⟨hi, htask, hd⟩
  obtain ⟨io', k', hready'⟩ := hother w io k hi hdir hready
  exact ⟨htask, io', k', ⟨hready'.object, hready'.waker, hready'.connection, hready'.timer⟩⟩

/-- An answer for both directions leaves nobody waiting. -/
theorem answered_both (hs : Parked s) (hown : Owned s) (hx : Frame i s x)
    (hwaits : x.waits = s.waits) : Parked (x.answered i (s.users i) [.read, .write]) := by
  refine hs.answered hown hx hwaits fun w _ _ _ hdir _ => ?_
  cases hd : w.dir <;> simp [hd] at hdir

/-- A poll that returns `Pending` for the directions `ds` has to leave a way to be woken there. -/
theorem parked (hs : Parked s) (hown : Owned s) (hx : Frame i s x)
    (hwaits : x.waits = s.waits) {ds : List Dir}
    (hnew : ∀ d ∈ ds, ∃ io k, Wakeable x ⟨i, d, s.users i⟩ io k)
    (hother : ∀ w io k, w.io = i → w.dir ∉ ds → Wakeable s w io k →
      ∃ io' k', Wakeable x w io' k') : Parked (x.parked i (s.users i) ds) := by
  have hkeep : ∀ {w io k}, Wakeable x w io k → Wakeable (x.parked i (s.users i) ds) w io k :=
    fun h => ⟨h.object, h.waker, h.connection, h.timer⟩
  refine (hx.trans (Frame.parked x i (s.users i) ds)).parked_of hown hs fun w hw hi => ?_
  rcases List.mem_append.mp hw with hw | hw
  · rw [hwaits] at hw
    obtain ⟨htask, io, k, hready⟩ := hs w hw
    rw [hi] at htask
    refine ⟨htask, ?_⟩
    by_cases hdir : w.dir ∈ ds
    · -- the same task waits in the same direction again
      obtain ⟨io', k', hready'⟩ := hnew w.dir hdir
      have hsame : (⟨i, w.dir, s.users i⟩ : Wait) = w := by rw [← htask, ← hi]
      rw [hsame] at hready'
      exact ⟨io', k', hkeep hready'⟩
    · obtain ⟨io', k', hready'⟩ := hother w io k hi hdir hready
      exact ⟨io', k', hkeep hready'⟩
  · obtain ⟨d, hd, rfl⟩ := List.mem_map.mp hw
    obtain ⟨io', k', hready'⟩ := hnew d hd
    exact ⟨rfl, io', k', hkeep hready'⟩

theorem pollConnect (hs : Parked s) (hown : Owned s) (hio : s.ios i = some io) {dial : Dial}
    (hfree : ∀ k ∈ dial.slot, (s.conns k).inUse = false) (soError : Option Nat) :
    Parked (pollConnect s i io (s.users i) dial soError).2 := by
  have hof := State.connectionOf_of_ios hio
  unfold ConnIo.pollConnect
  split
  · next k hk =>
    rw [hk] at hof
    have htouch := Frame.touch s i k
    have hclose : Frame i s ((s.touch i k).closeAndClear i io k) :=
      htouch.trans (Frame.closeAndClear (hown.only hof))
    dsimp only
    split
    · exact hs.answered_both hown hclose rfl
    · split
      · exact hs.answered_both hown hclose rfl
      · exact hs.answered_both hown (htouch.trans (Frame.setConn _ (hown.only hof))) rfl
  · next hk =>
    split
    · next k =>
      exact hs.answered_both hown (Frame.connectPeer (hown.nobody (hfree k rfl) i)) rfl
    · next k =>
      have hpeer : Frame i s (s.connectPeer i io k) :=
        Frame.connectPeer (hown.nobody (hfree k rfl) i)
      have hmine : ∀ j, j ≠ i → ((s.connectPeer i io k).conns k).data ≠ some j := by
        intro j hj hdata
        change (Function.update s.conns k _ k).data = some j at hdata
        rw [Function.update_self] at hdata
        exact hj (Option.some.inj hdata).symm
      refine hs.parked hown ((hpeer.trans (Frame.setConn _ hmine)).trans (Frame.setIo _ i _)) rfl
        (fun d _ => ?_) fun w _ _ _ hdir _ => ?_
      · refine ⟨⟨some k, some (s.users i), some (s.users i)⟩, k, ?_, ?_, rfl, fun _ => ?_⟩
        · exact Function.update_self _ _ _
        · cases d <;> rfl
        · simp [State.setIo, State.setConn]
      · cases hd : w.dir <;> simp [hd] at hdir
    · exact hs.answered_both hown (Frame.refl s) rfl
    · exact fun w hw => (hs w hw).imp id fun ⟨io, k, h⟩ => ⟨io, k, h.object, h.waker, h.connection,
        h.timer⟩

/-- A change of the read side leaves a task that waits to write. -/
theorem write_kept {w : Wait} {io' : NgxConnIo} {k' : Nat} (hio : s.ios i = some io)
    (hi : w.io = i) (hdir : w.dir ∉ [Dir.read]) (hready : Wakeable s w io' k') {r : Option Task}
    (hx : x.ios i = some { io with rev := r }) : ∃ io' k', Wakeable x w io' k' := by
  have hwrite : w.dir = .write := by
    cases hd : w.dir
    · simp [hd] at hdir
    · rfl
  have hobject := hready.object
  rw [hi, hio] at hobject
  cases hobject
  have hwaker := hready.waker
  rw [hwrite] at hwaker
  refine ⟨{ io with rev := r }, k', by rw [hi]; exact hx, ?_, hready.connection, ?_⟩
  · rw [hwrite]
    exact hwaker
  · rw [hwrite]
    nofun

theorem pollRead (hs : Parked s) (hown : Owned s) (hio : s.ios i = some io) {n : Recv}
    {rearmed active : Bool} (hactive : n = .again → rearmed = true → active = true) :
    Parked (pollRead s i io (s.users i) n rearmed active).2 := by
  have hof := State.connectionOf_of_ios hio
  unfold ConnIo.pollRead
  split
  · next hk => exact hs.answered hown (Frame.refl s) rfl fun w io' k' _ _ h => ⟨io', k', h⟩
  · next k hk =>
    rw [hk] at hof
    have hfilled : Frame i s ((s.touch i k).filled i n) :=
      (Frame.touch s i k).trans (Frame.filled _ i n)
    have htimer : Frame i s (((s.touch i k).filled i n).setConn k
        ((((s.touch i k).filled i n).conns k).manageTimer active)) :=
      hfilled.trans (Frame.setConn _ (hown.only hof))
    -- the wakers stay as they are in every case but `Pending`
    have hsame : s.ios i = some { io with rev := io.rev } := hio
    dsimp only
    split
    · exact hs.answered hown (Frame.touch s i k) rfl fun w io' k' hi hdir h =>
        write_kept hio hi hdir h hsame
    · split
      · exact hs.answered hown hfilled rfl fun w io' k' hi hdir h =>
          write_kept hio hi hdir h hsame
      · split
        · split
          · exact hs.answered hown (hfilled.trans (Frame.advance _ i n)) rfl
              fun w io' k' hi hdir h => write_kept hio hi hdir h hsame
          · exact hs.answered hown hfilled rfl fun w io' k' hi hdir h =>
              write_kept hio hi hdir h hsame
        · next hrearmed =>
          split
          · next hagain =>
            have hact := hactive hagain (by simpa using hrearmed)
            refine hs.parked hown (htimer.trans (Frame.setIo _ i _)) rfl (fun d hd => ?_)
              fun w io' k' hi hdir h => write_kept hio hi hdir h (Function.update_self i _ s.ios)
            rw [List.mem_singleton.mp hd]
            refine ⟨{ io with rev := some (s.users i) }, k, ?_, rfl, hk, fun _ => ?_⟩
            · exact Function.update_self i _ s.ios
            · show (Function.update s.conns k ((s.conns k).manageTimer active) k).timerSet = true
              rw [Function.update_self, Conn.manageTimer, if_pos hact]
          · split
            · exact hs.answered hown (htimer.trans (Frame.advance _ i n)) rfl
                fun w io' k' hi hdir h => write_kept hio hi hdir h hsame
            · exact hs.answered hown htimer rfl
                fun w io' k' hi hdir h => write_kept hio hi hdir h hsame

/-- A change of the write side leaves a task that waits to read. -/
theorem read_kept {w : Wait} {io' : NgxConnIo} {k' : Nat} (hio : s.ios i = some io)
    (hi : w.io = i) (hdir : w.dir ∉ [Dir.write]) (hready : Wakeable s w io' k') {r : Option Task}
    (hx : x.ios i = some { io with wev := r }) (hconns : x.conns = s.conns) :
    ∃ io' k', Wakeable x w io' k' := by
  have hread : w.dir = .read := by
    cases hd : w.dir
    · rfl
    · simp [hd] at hdir
  have hobject := hready.object
  rw [hi, hio] at hobject
  cases hobject
  have hwaker := hready.waker
  rw [hread] at hwaker
  refine ⟨{ io with wev := r }, k', by rw [hi]; exact hx, ?_, hready.connection, fun h => ?_⟩
  · rw [hread]
    exact hwaker
  · rw [hconns]
    exact hready.timer h

theorem pollWrite (hs : Parked s) (hown : Owned s) (hio : s.ios i = some io) (n : Send) :
    Parked (pollWrite s i io (s.users i) n).2 := by
  unfold ConnIo.pollWrite
  split
  · exact hs.answered hown (Frame.refl s) rfl fun w io' k' _ _ h => ⟨io', k', h⟩
  · next k hk =>
    have hanswer : Parked ((s.touch i k).answered i (s.users i) [.write]) :=
      hs.answered hown (Frame.touch s i k) rfl fun w io' k' hi hdir h =>
        read_kept hio hi hdir h (r := io.wev) hio rfl
    dsimp only
    split
    · refine hs.parked hown ((Frame.touch s i k).trans (Frame.setIo _ i _)) rfl (fun d hd => ?_)
        fun w io' k' hi hdir h => read_kept hio hi hdir h (Function.update_self i _ s.ios) rfl
      rw [List.mem_singleton.mp hd]
      exact ⟨{ io with wev := some (s.users i) }, k, Function.update_self i _ s.ios, rfl, hk, nofun⟩
    · split
      · exact hanswer
      · exact hanswer
    · exact hanswer

theorem waker_takeWaker {d d' : Dir} (io : NgxConnIo) (h : d' ≠ d) :
    (io.takeWaker d).waker d' = io.waker d' := by
  cases d <;> cases d' <;> first | rfl | exact absurd rfl h

/-- Entries that no object holds can change hands. -/
theorem setConn_other (hs : Parked s) (hown : Owned s) (c : Conn)
    (hdata : (s.conns k).data = none) : Parked (s.setConn k c) := by
  have hframe (i : Nat) : Frame i s (s.setConn k c) :=
    Frame.setConn c fun j _ hj => by rw [hdata] at hj; cases hj
  intro w hw
  obtain ⟨htask, io, k', hready⟩ := hs w hw
  exact ⟨htask, io, k', (hframe (w.io + 1)).wakeable hown (by omega) hready⟩

/-- A handler wakes whoever waits in its direction, so the entry may lose its timer on a read
event. -/
theorem connHandler (hs : Parked s) (hown : Owned s) {d : Dir} {c : Conn}
    (hdata : c.data = (s.conns k).data)
    (htimer : d = .read ∨ c.timerSet = (s.conns k).timerSet) :
    Parked (connHandler d (s.setConn k c) k) := by
  have hsame : ((s.setConn k c).conns k).data = (s.conns k).data := by
    show (Function.update s.conns k c k).data = _
    rw [Function.update_self, hdata]
  cases hi : (s.conns k).data with
  | none =>
    rw [connHandler_of_none (hsame.trans hi)]
    exact hs.setConn_other hown c hi
  | some i =>
    obtain ⟨io, hio, hk⟩ := hown.ios_of_data hi
    have hof := (hown.agree k i).mp hi
    have hio' : (s.setConn k c).ios i = some io := hio
    rw [connHandler_of_data (hsame.trans hi) hio']
    have hframe : Frame i s ((s.setConn k c).setIo i (io.takeWaker d)) :=
      (Frame.setConn c (hown.only hof)).trans (Frame.setIo _ i _)
    refine Frame.parked_of
      ⟨hframe.ios, hframe.users, hframe.conns, fun w hw _ => (List.mem_filter.mp hw).1⟩ hown hs
      fun w hw hwi => ?_
    obtain ⟨hmem, hleft⟩ := List.mem_filter.mp hw
    obtain ⟨htask, io', k', hready⟩ := hs w hmem
    have hobject := hready.object
    rw [hwi, hio] at hobject
    cases hobject
    -- the waker of this direction was taken, with everyone who waited for it
    have hdir : w.dir ≠ d := by
      intro hd
      have hwaker := hready.waker
      rw [hd] at hwaker
      exact of_decide_eq_true hleft ⟨hwi, hd, hwaker⟩
    have hk' : k' = k := Option.some.inj (hready.connection.symm.trans hk)
    subst hk'
    rw [hwi] at htask
    refine ⟨htask, io.takeWaker d, k', ?_, ?_, ?_, fun hread => ?_⟩
    · rw [hwi]
      exact Function.update_self i _ s.ios
    · rw [waker_takeWaker io hdir]
      exact hready.waker
    · exact (Owned.takeWaker_connection io d).trans hk
    · show (Function.update s.conns k' c k').timerSet = true
      rcases htimer with hd | hsame
      · exact absurd (hread.trans hd.symm) hdir
      · rw [Function.update_self, hsame]
        exact hready.timer hread

theorem close_frame (hown : Owned s) (hio : s.ios i = some io) : Frame i s (s.close i io) := by
  unfold State.close
  split
  · next k hk =>
    exact Frame.closeAndClear (hown.only ((State.connectionOf_of_ios hio).trans hk))
  · exact Frame.refl s

theorem close_waits (s : State) (i : Nat) (io : NgxConnIo) : (s.close i io).waits = s.waits := by
  unfold State.close
  split <;> rfl

end Parked

/-- **Every move of a single task and of the event loop keeps the waiting tasks wakeable.** -/
theorem step_parked (s : State) (a : Act) (t : State)
    (h : Owned s ∧ Parked s) (ha : SingleTask s a) (halive : step s a = some t) :
    Owned t ∧ Parked t := by
  obtain ⟨hown, hs⟩ := h
  refine ⟨step_owned s a t hown halive, ?_⟩
  have hstep := (step_eq_some.mp halive).2
  cases a with
  | create i task =>
    obtain ⟨hnone, hsome⟩ := Option.ite_none_right_eq_some.mp hstep
    cases hsome
    intro w hw
    obtain ⟨htask, io, k, hready⟩ := hs w hw
    -- nobody waits for the object that was here before
    have hi : w.io ≠ i := by
      intro hi
      have hobject := hready.object
      rw [hi, hnone] at hobject
      cases hobject
    refine ⟨htask.trans (Function.update_of_ne hi _ _).symm, io, k, ?_, hready.waker,
      hready.connection, hready.timer⟩
    exact (Function.update_of_ne hi _ _).trans hready.object
  | pollConnect i task dial soError =>
    obtain ⟨hfree, hmap⟩ := Option.ite_none_right_eq_some.mp hstep
    obtain ⟨io, hio, rfl⟩ := Option.map_eq_some_iff.mp hmap
    obtain rfl : task = s.users i := ha
    exact hs.pollConnect hown hio hfree soError
  | pollRead i task n rearmed active =>
    obtain ⟨io, hio, rfl⟩ := Option.map_eq_some_iff.mp hstep
    obtain ⟨rfl, hactive⟩ := ha
    exact hs.pollRead hown hio hactive
  | pollWrite i task n =>
    obtain ⟨io, hio, rfl⟩ := Option.map_eq_some_iff.mp hstep
    obtain rfl : task = s.users i := ha
    exact hs.pollWrite hown hio n
  | pollShutdown i task =>
    obtain ⟨io, hio, rfl⟩ := Option.map_eq_some_iff.mp hstep
    obtain rfl : task = s.users i := ha
    exact hs.answered_both hown (Parked.close_frame hown hio) (Parked.close_waits s i io)
  | drop i =>
    obtain ⟨io, hio, rfl⟩ := Option.map_eq_some_iff.mp hstep
    have hframe := Parked.close_frame hown hio
    refine Frame.parked_of (i := i)
      ⟨fun j hj => ?_, hframe.users, hframe.conns, fun w hw hi => ?_⟩ hown hs fun w hw hi => ?_
    · exact (Function.update_of_ne hj _ _).trans (hframe.ios j hj)
    · exact hframe.waits w (List.mem_filter.mp hw).1 hi
    · exact absurd hi (of_decide_eq_true (List.mem_filter.mp hw).2)
  | readEvent k =>
    obtain ⟨-, hsome⟩ := Option.ite_none_right_eq_some.mp hstep
    cases hsome
    have hkept := hs.connHandler hown (k := k) (d := .read) (c := s.conns k) rfl (.inl rfl)
    rwa [State.setConn, Function.update_eq_self] at hkept
  | writeEvent k =>
    obtain ⟨-, hsome⟩ := Option.ite_none_right_eq_some.mp hstep
    cases hsome
    have hkept := hs.connHandler hown (k := k) (d := .write) (c := s.conns k) rfl (.inr rfl)
    rwa [State.setConn, Function.update_eq_self] at hkept
  | readTimer k =>
    obtain ⟨-, hsome⟩ := Option.ite_none_right_eq_some.mp hstep
    cases hsome
    apply Parked.connHandler hs hown
    · rfl
    · exact .inl rfl
  | otherOpen k =>
    obtain ⟨hfree, hsome⟩ := Option.ite_none_left_eq_some.mp hstep
    cases hsome
    exact hs.setConn_other hown _ (hown.data_of_free (Bool.not_eq_true _ ▸ hfree))
  | otherClose k =>
    obtain ⟨⟨-, hdata⟩, hsome⟩ := Option.ite_none_right_eq_some.mp hstep
    cases hsome
    exact hs.setConn_other hown _ hdata

theorem exec_parked {acts : List Act} {s : State}
    (h : Run.exec step initial acts = some s)
    (hsingle : Run.Along step SingleTask initial acts) : Owned s ∧ Parked s :=
  Run.exec_invariant_along step_parked hsingle h
    ⟨owned_initial, fun _ hw => absurd hw List.not_mem_nil⟩

/-- The event of a direction. -/
def Act.event : Dir → Nat → Act
  | .read => .readEvent
  | .write => .writeEvent

/-- A handler wakes the task whose waker it finds. -/
theorem woken_connHandler {s : State} {i k : Nat} {io : NgxConnIo} {d : Dir} {t : Task}
    (hdata : (s.conns k).data = some i) (hio : s.ios i = some io) (hwaker : io.waker d = some t) :
    (connHandler d s k).woken = s.woken ++ [t] := by
  rw [connHandler_of_data hdata hio, hwaker]
  rfl

/-- A handler only takes wakers. -/
theorem conns_connHandler (d : Dir) (s : State) (k : Nat) :
    (connHandler d s k).conns = s.conns := by
  unfold connHandler
  split
  · rfl
  · split <;> rfl

theorem connectionOf_connHandler (d : Dir) (s : State) (k i : Nat) :
    (connHandler d s k).connectionOf i = s.connectionOf i := by
  unfold connHandler
  split
  · rfl
  · next j _ =>
    split
    · rfl
    · next io hio =>
      show (Function.update s.ios j (some (io.takeWaker d)) i).bind _ = _
      rw [Owned.connectionOf_update]
      by_cases hj : i = j
      · rw [if_pos hj, hj, State.connectionOf_of_ios hio]
        exact Owned.takeWaker_connection io d
      · rw [if_neg hj]

/-- The poll of a reader whose timer has expired. -/
theorem pollRead_timedout {s : State} {i k : Nat} {io : NgxConnIo} (hk : io.connection = some k)
    (htime : (s.conns k).readTimedout = true) (t : Task) (n : Recv) (rearmed active : Bool) :
    (pollRead s i io t n rearmed active).1 = .ready (.error .timedOut) := by
  unfold pollRead
  rw [hk]
  have htouch : ((s.touch i k).conns k).readTimedout = true := htime
  dsimp only
  rw [if_pos htouch]

/-- **No wake-up is lost while one task uses an object.**  In every such run of a process that is
alive, a task that was told to wait and was not woken since has a connection whose next event in that
direction wakes it; if it reads, the timer of the connection runs and wakes it as well, and its next
poll is `TimedOut`. -/
theorem waiting_task_woken (acts : List Act) (s : State)
    (h : Run.exec step initial acts = some s) (halive : s.crashed = false)
    (hsingle : Run.Along step SingleTask initial acts) (w : Wait) (hw : w ∈ s.waits) :
    ∃ k, s.connectionOf w.io = some k ∧
      (∃ t, step s (.event w.dir k) = some t ∧ t.woken = s.woken ++ [w.task]) ∧
      (w.dir = .read → ∃ t, step s (.readTimer k) = some t ∧ t.woken = s.woken ++ [w.task] ∧
        ∃ io, t.ios w.io = some io ∧ ∀ n rearmed active,
          (pollRead t w.io io w.task n rearmed active).1 = .ready (.error .timedOut)) := by
  obtain ⟨hown, hparked⟩ := exec_parked h hsingle
  obtain ⟨-, io, k, hready⟩ := hparked w hw
  have hof := (State.connectionOf_of_ios hready.object).trans hready.connection
  have hdata := (hown.agree k w.io).mpr hof
  have hours := hown.ours k (by rw [hdata]; exact Option.some_ne_none _)
  refine ⟨k, hof, ?_, fun hread => ?_⟩
  · refine ⟨connHandler w.dir s k, ?_, woken_connHandler hdata hready.object hready.waker⟩
    cases w.dir <;> exact step_eq_some.mpr ⟨halive, if_pos hours⟩
  · have hwaker := hready.waker
    rw [hread] at hwaker
    let expired := s.setConn k { s.conns k with readTimedout := true, timerSet := false }
    have hentry : expired.conns k = { s.conns k with readTimedout := true, timerSet := false } :=
      Function.update_self k _ s.conns
    have hdata' : (expired.conns k).data = some w.io := by rw [hentry]; exact hdata
    refine ⟨connReadHandler expired k,
      step_eq_some.mpr ⟨halive, if_pos ⟨hours.1, hours.2, hready.timer hread⟩⟩,
      woken_connHandler hdata' hready.object hwaker, ?_⟩
    have hof' : (connReadHandler expired k).connectionOf w.io = some k :=
      (connectionOf_connHandler .read expired k w.io).trans hof
    obtain ⟨io', hio', hk'⟩ := Option.bind_eq_some_iff.mp hof'
    refine ⟨io', hio', fun n rearmed active => pollRead_timedout hk' ?_ w.task n rearmed active⟩
    rw [connReadHandler, conns_connHandler, hentry]

/-- A task connects, sends and waits for the answer, while another one waits to connect with an
object at an address that a third one has used before. -/
def waitingRun : List Act :=
  [.create 0 7, .create 1 9, .pollConnect 1 9 .failed none, .drop 1, .create 1 8,
    .pollConnect 0 7 (.again 5) none, .pollConnect 1 8 (.again 6) none,
    .writeEvent 5, .pollConnect 0 7 .failed none, .pollWrite 0 7 (.sent 10),
    .pollRead 0 7 .again true true, .writeEvent 5]

theorem waiting_task_woken_waitingRun : ∃ s t, Run.exec step initial waitingRun = some s ∧
    s.waits = [⟨1, .read, 8⟩, ⟨1, .write, 8⟩, ⟨0, .read, 7⟩] ∧ s.woken = [7] ∧
    step s (.readEvent 5) = some t ∧ t.woken = [7, 7] := by
  have hend : (Run.exec step initial waitingRun).map (fun s =>
      (s.waits, s.woken, s.connectionOf 0, s.crashed)) =
        some ([⟨1, .read, 8⟩, ⟨1, .write, 8⟩, ⟨0, .read, 7⟩], [7], some 5, false) := by decide
  obtain ⟨s, hs, hvalue⟩ := Option.map_eq_some_iff.mp hend
  obtain ⟨hwaits, hrest⟩ := Prod.mk.inj hvalue
  obtain ⟨hwoken, hrest⟩ := Prod.mk.inj hrest
  obtain ⟨hof, halive⟩ := Prod.mk.inj hrest
  obtain ⟨k, hk, ⟨t, ht, hnext⟩, -⟩ := waiting_task_woken waitingRun s hs halive (by decide)
    ⟨0, .read, 7⟩ (by rw [hwaits]; decide)
  obtain rfl : k = 5 := Option.some.inj (hk.symm.trans hof)
  refine ⟨s, t, hs, hwaits, hwoken, ht, ?_⟩
  rw [hnext, hwoken]
  rfl

-- Two tasks read from one object: the second waker replaces the first, and the event leaves the
-- first task waiting with nothing that could wake it.
example : (Run.exec step initial [.create 0 7, .pollConnect 0 7 (.ok 5) none,
    .pollRead 0 7 .again true true, .pollRead 0 8 .again true true, .readEvent 5]).map
      (fun s => (s.woken, s.waits, (s.ios 0).map NgxConnIo.rev)) =
    some ([8], [⟨0, .read, 7⟩], some none) := by decide

end NgxOtel.Transport.ConnIo
