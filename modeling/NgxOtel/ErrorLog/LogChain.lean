import NgxOtel.Lib.LinkedList
import NgxOtel.Lib.Run

/-!
# Insertion into the chain of error logs

`otel_log_insert` (`logs/error_writer.rs`) puts the writer's log into nginx's chain of logs, which is
sorted by descending level.  The first cell of the chain is a part of `ngx_cycle_t`, its address is
fixed: a log of a higher level takes over that cell, and the old contents move to its own.

* `Contents` — the fields of an `ngx_log_t` other than `next`.
* `otelLogInsert` — the insertion, where an access through an address without a log is `none`.
* `Sorted`, `InsertedByLevel` — what the chain is before and after.

## Results

* `otelLogInsert_spec` — one insertion, and that it leaves other cells alone.
* `log_chain_stays_sorted` — **every sequence of insertions** keeps the chain sorted and terminated,
  with the same head, and adds one cell at a time in its place.
-/

set_option autoImplicit false

namespace NgxOtel.ErrorLog

open LinkedList

/-! ## The insertion -/

/-- The level of a log, and its other fields except `next`. -/
structure Contents (F : Type) where
  logLevel : Nat
  fields : F
  deriving DecidableEq, Repr

variable {A F : Type} [DecidableEq A]

/-- The memory that holds the logs. -/
abbrev Logs (A F : Type) := Heap A (Contents F)

/-- `(*log).next = next`. -/
def setNext (heap : Logs A F) (log : A) (next : Option A) : Option (Logs A F) := do
  let cell ← heap log
  some (Function.update heap log (some { cell with next }))

/-- `core::ptr::swap`: the whole cells, with their `next`. -/
def swap (heap : Logs A F) (a b : A) : Option (Logs A F) := do
  let cellA ← heap a
  let cellB ← heap b
  some (Function.update (Function.update heap a (some cellB)) b (some cellA))

/-- The walk of `otel_log_insert`, at the cell `log`.  It is given a number of turns, and does not
return if the chain is longer. -/
def insertLoop (newLog : A) : (turns : Nat) → (heap : Logs A F) → (log : A) → Option (Logs A F)
  | 0, _, _ => none
  | turns + 1, heap, log => do
    let cell ← heap log
    match cell.next with
    | none => setNext heap log (some newLog)
    | some next =>
      let newCell ← heap newLog
      let nextCell ← heap next
      if newCell.value.logLevel > nextCell.value.logLevel then
        let heap ← setNext heap newLog (some next)
        setNext heap log (some newLog)
      else insertLoop newLog turns heap next

/-- `otel_log_insert`. -/
def otelLogInsert (turns : Nat) (heap : Logs A F) (head newLog : A) : Option (Logs A F) := do
  let newCell ← heap newLog
  let headCell ← heap head
  if newCell.value.logLevel > headCell.value.logLevel then
    let heap ← swap heap head newLog
    setNext heap head (some newLog)
  else insertLoop newLog turns heap head

/-! ## What an insertion is for -/

/-- The levels do not increase along the chain. -/
def Sorted (nodes : List (A × Contents F)) : Prop :=
  (values nodes).Pairwise fun x y => y.logLevel ≤ x.logLevel

/-- The new contents are behind all contents of the same or a higher level, and before the others. -/
def InsertedByLevel (contents : Contents F) (old new : List (Contents F)) : Prop :=
  ∃ before behind, old = before ++ behind ∧ new = before ++ contents :: behind ∧
    (∀ x ∈ before, contents.logLevel ≤ x.logLevel) ∧ ∀ x ∈ behind, x.logLevel < contents.logLevel

/-- An insertion keeps the order. -/
theorem InsertedByLevel.pairwise {contents : Contents F} {old new : List (Contents F)}
    (h : InsertedByLevel contents old new)
    (hold : old.Pairwise fun x y => y.logLevel ≤ x.logLevel) :
    new.Pairwise fun x y => y.logLevel ≤ x.logLevel := by
  obtain ⟨before, behind, rfl, rfl, hbefore, hbehind⟩ := h
  obtain ⟨hfirst, hsecond, hcross⟩ := List.pairwise_append.mp hold
  refine List.pairwise_append.mpr ⟨hfirst, List.pairwise_cons.mpr ⟨?_, hsecond⟩, ?_⟩
  · intro x hx
    exact Nat.le_of_lt (hbehind x hx)
  · intro x hx y hy
    rcases List.mem_cons.mp hy with rfl | hy
    · exact hbefore x hx
    · exact hcross x hx y hy

/-! ## One insertion -/

theorem setNext_of_cell {heap : Logs A F} {log : A} {cell : Cell A (Contents F)}
    (h : heap log = some cell) (next : Option A) :
    setNext heap log next = some (Function.update heap log (some ⟨cell.value, next⟩)) := by
  rw [setNext, h]
  rfl

/-- After the walk from `log`, whose cells were `c` and `rest`, the new cell is between `before` and
`behind`. -/
structure Placed (heap heap' : Logs A F) (newLog : A) (contents : Contents F) (log : A)
    (c : Contents F) (rest before behind : List (A × Contents F)) : Prop where
  split : rest = before ++ behind
  chain : Chain heap' (some log) ((log, c) :: (before ++ (newLog, contents) :: behind))
  higher : ∀ x ∈ values before, contents.logLevel ≤ x.logLevel
  lower : ∀ x ∈ values behind, x.logLevel < contents.logLevel
  frame : ∀ a, a ∉ newLog :: addresses ((log, c) :: rest) → heap' a = heap a

section Walk

variable {heap heap' : Logs A F} {newLog log next : A} {c d contents : Contents F}
  {rest before behind : List (A × Contents F)}

/-- The cell is linked in behind `log`, before the rest of the chain. -/
theorem placed_here (contents : Contents F) {next : Option A} (hcell : heap log = some ⟨c, next⟩)
    (hrest : Chain heap next rest) (hlog : log ∉ addresses rest)
    (hfresh : newLog ∉ addresses ((log, c) :: rest))
    (hlower : ∀ x ∈ values rest, x.logLevel < contents.logLevel) :
    Placed heap (Function.update (Function.update heap newLog (some ⟨contents, next⟩)) log
      (some ⟨c, some newLog⟩)) newLog contents log c rest [] rest := by
  obtain ⟨hne, hnew⟩ : newLog ≠ log ∧ newLog ∉ addresses rest := by simpa using hfresh
  refine ⟨rfl, ?_, by simp [values], hlower, ?_⟩
  · refine .link (Function.update_self ..) (.link ?_ (hrest.frame ?_))
    · rw [Function.update_of_ne hne, Function.update_self]
    · intro a ha
      rw [Function.update_of_ne (by rintro rfl; exact hlog ha),
        Function.update_of_ne (by rintro rfl; exact hnew ha)]
  · intro a ha
    obtain ⟨hanew, halog, -⟩ : a ≠ newLog ∧ a ≠ log ∧ a ∉ addresses rest := by simpa using ha
    rw [Function.update_of_ne halog, Function.update_of_ne hanew]

omit [DecidableEq A] in
/-- A walk that goes on from the next cell leaves the cell before it alone. -/
theorem Placed.cons (h : Placed heap heap' newLog contents next d rest before behind)
    (hcell : heap log = some ⟨c, some next⟩) (hlog : log ∉ newLog :: addresses ((next, d) :: rest))
    (hhigher : contents.logLevel ≤ d.logLevel) :
    Placed heap heap' newLog contents log c ((next, d) :: rest) ((next, d) :: before) behind := by
  refine ⟨by rw [h.split]; rfl, ?_, ?_, h.lower, ?_⟩
  · exact .link (by rw [h.frame log hlog, hcell]) h.chain
  · intro x hx
    rcases List.mem_cons.mp hx with rfl | hx
    · exact hhigher
    · exact h.higher x hx
  · intro a ha
    refine h.frame a ?_
    simp only [addresses_cons, List.mem_cons, not_or] at ha ⊢
    exact ⟨ha.1, ha.2.2⟩

end Walk

/-- **The walk puts the new cell in its place.** -/
theorem insertLoop_spec {newLog : A} {contents : Contents F} {heap : Logs A F}
    (hnew : heap newLog = some ⟨contents, none⟩) :
    ∀ {rest : List (A × Contents F)} {log : A} {c : Contents F} {turns : Nat},
      Chain heap (some log) ((log, c) :: rest) → newLog ∉ addresses ((log, c) :: rest) →
      Sorted rest → rest.length < turns →
      ∃ heap' before behind, insertLoop newLog turns heap log = some heap' ∧
        Placed heap heap' newLog contents log c rest before behind
  | _, _, _, 0, _, _, _, hturns => absurd hturns (Nat.not_lt_zero _)
  | [], log, c, turns + 1, hchain, hfresh, _, _ => by
    obtain ⟨-, _, hcell, hrest⟩ := hchain.first
    cases hrest
    have hplaced := placed_here contents hcell .null (by simp) hfresh (by simp [values])
    have hsame : Function.update heap newLog (some ⟨contents, none⟩) = heap :=
      Function.update_eq_self_iff.mpr hnew.symm
    rw [hsame] at hplaced
    refine ⟨_, [], [], ?_, hplaced⟩
    rw [insertLoop, hcell]
    exact setNext_of_cell hcell _
  | (next, d) :: rest, log, c, turns + 1, hchain, hfresh, hsorted, hturns => by
    obtain ⟨hlog, -⟩ := List.nodup_cons.mp hchain.nodup
    obtain ⟨hne, hfresh'⟩ : newLog ≠ log ∧ newLog ∉ addresses ((next, d) :: rest) := by
      simpa using hfresh
    obtain ⟨hbelow, hsorted'⟩ := List.pairwise_cons.mp hsorted
    obtain ⟨-, _, hcell, hrest⟩ := hchain.first
    obtain ⟨rfl, after, hnext, -⟩ := hrest.first
    by_cases hlevel : contents.logLevel > d.logLevel
    · -- the next cell is the first of a lower level
      have hlower : ∀ x ∈ values ((next, d) :: rest), x.logLevel < contents.logLevel := by
        intro x hx
        rcases List.mem_cons.mp hx with rfl | hx
        · exact hlevel
        · exact Nat.lt_of_le_of_lt (hbelow x hx) hlevel
      refine ⟨_, [], _, ?_, placed_here contents hcell hrest hlog hfresh hlower⟩
      rw [insertLoop, hcell]
      simp only [bind, Option.bind_some, hnew, hnext, if_pos hlevel]
      rw [setNext_of_cell hnew, Option.bind_some]
      have hcell' : Function.update heap newLog (some ⟨contents, some next⟩) log =
          some ⟨c, some next⟩ := by
        rw [Function.update_of_ne hne.symm, hcell]
      exact setNext_of_cell hcell' _
    · obtain ⟨heap', before, behind, hloop, hplaced⟩ := insertLoop_spec hnew hrest hfresh' hsorted'
        (Nat.lt_of_succ_lt_succ hturns)
      refine ⟨heap', _, behind, ?_, hplaced.cons hcell ?_ (Nat.not_lt.mp hlevel)⟩
      · rw [insertLoop, hcell]
        simp only [bind, Option.bind_some, hnew, hnext, if_neg hlevel]
        exact hloop
      · exact List.not_mem_cons_of_ne_of_not_mem hne.symm hlog

/-- The head takes over the new contents, the new cell the old ones. -/
theorem swap_spec {heap : Logs A F} {head newLog : A} {c contents : Contents F}
    {next : Option A} (hcell : heap head = some ⟨c, next⟩)
    (hnew : heap newLog = some ⟨contents, none⟩) (hne : newLog ≠ head) :
    ∃ heap', (swap heap head newLog).bind (setNext · head (some newLog)) = some heap' ∧
      heap' head = some ⟨contents, some newLog⟩ ∧ heap' newLog = some ⟨c, next⟩ ∧
      ∀ a, a ≠ newLog → a ≠ head → heap' a = heap a := by
  have hswap : swap heap head newLog = some (Function.update
      (Function.update heap head (some ⟨contents, none⟩)) newLog (some ⟨c, next⟩)) := by
    rw [swap, hnew, hcell]
    rfl
  have hhead : Function.update (Function.update heap head (some ⟨contents, none⟩)) newLog
      (some ⟨c, next⟩) head = some ⟨contents, none⟩ := by
    rw [Function.update_of_ne hne.symm, Function.update_self]
  refine ⟨_, by rw [hswap, Option.bind_some, setNext_of_cell hhead], Function.update_self .., ?_, ?_⟩
  · rw [Function.update_of_ne hne, Function.update_self]
  · intro a hanew hahead
    rw [Function.update_of_ne hahead, Function.update_of_ne hanew, Function.update_of_ne hahead]

/-- **One insertion.**  The chain of the head has the new cell in its place, and other cells are as
they were. -/
theorem otelLogInsert_spec {heap : Logs A F} {head newLog : A} {contents : Contents F}
    {nodes : List (A × Contents F)} {turns : Nat} (hchain : Chain heap (some head) nodes)
    (hsorted : Sorted nodes) (hnew : heap newLog = some ⟨contents, none⟩)
    (hfresh : newLog ∉ addresses nodes) (hturns : nodes.length ≤ turns) :
    ∃ heap' nodes', otelLogInsert turns heap head newLog = some heap' ∧
      Chain heap' (some head) nodes' ∧
      (addresses nodes').Perm (newLog :: addresses nodes) ∧
      InsertedByLevel contents (values nodes) (values nodes') ∧
      ∀ a, a ∉ newLog :: addresses nodes → heap' a = heap a := by
  cases nodes with
  | nil => cases hchain
  | cons first rest =>
    obtain ⟨log, c⟩ := first
    obtain ⟨hlog, -⟩ := List.nodup_cons.mp hchain.nodup
    obtain ⟨hhead, next, hcell, hrest⟩ := hchain.first
    obtain rfl : head = log := Option.some.inj hhead
    obtain ⟨hne, hfresh'⟩ : newLog ≠ head ∧ newLog ∉ addresses rest := by simpa using hfresh
    obtain ⟨hbelow, hsorted'⟩ := List.pairwise_cons.mp hsorted
    by_cases hlevel : contents.logLevel > c.logLevel
    · -- the contents change places, the old ones are now in the new cell
      obtain ⟨heap', hswap, hhead', hnew', hframe⟩ := swap_spec hcell hnew hne
      have hsame : ∀ a ∈ addresses rest, heap' a = heap a := fun a ha =>
        hframe a (by rintro rfl; exact hfresh' ha) (by rintro rfl; exact hlog ha)
      refine ⟨heap', (head, contents) :: (newLog, c) :: rest, ?_,
        .link hhead' (.link hnew' (hrest.frame hsame)), List.Perm.swap .., ?_, ?_⟩
      · rw [otelLogInsert, hnew, hcell]
        simp only [bind, Option.bind_some, if_pos hlevel]
        exact hswap
      · refine ⟨[], c :: values rest, rfl, rfl, by simp, ?_⟩
        intro x hx
        rcases List.mem_cons.mp hx with rfl | hx
        · exact hlevel
        · exact Nat.lt_of_le_of_lt (hbelow x hx) hlevel
      · intro a ha
        simp only [addresses_cons, List.mem_cons, not_or] at ha
        exact hframe a ha.1 ha.2.1
    · obtain ⟨heap', before, behind, hloop, hplaced⟩ := insertLoop_spec hnew hchain hfresh hsorted'
        (Nat.lt_of_succ_le hturns)
      refine ⟨heap', _, ?_, hplaced.chain, ?_, ?_, hplaced.frame⟩
      · rw [otelLogInsert, hnew, hcell]
        simp only [bind, Option.bind_some, if_neg hlevel]
        exact hloop
      · rw [hplaced.split]
        simp only [addresses_cons, addresses_append]
        exact ((List.perm_middle).cons head).trans (List.Perm.swap ..)
      · refine ⟨c :: values before, values behind, ?_, ?_, ?_, hplaced.lower⟩
        · simp [hplaced.split]
        · simp
        · intro x hx
          rcases List.mem_cons.mp hx with rfl | hx
          · exact Nat.not_lt.mp hlevel
          · exact hplaced.higher x hx

/-! ## Sequences of insertions -/

/-- A call with a fresh log: its cell is filled in, and inserted. -/
def insertFresh (turns : Nat) (head : A) (heap : Logs A F) (call : A × Contents F) :
    Option (Logs A F) :=
  otelLogInsert turns (Function.update heap call.1 (some ⟨call.2, none⟩)) head call.1

theorem insertFresh_spec {heap : Logs A F} {head : A} {call : A × Contents F}
    {nodes : List (A × Contents F)} {turns : Nat} (hchain : Chain heap (some head) nodes)
    (hsorted : Sorted nodes) (hfresh : call.1 ∉ addresses nodes) (hturns : nodes.length ≤ turns) :
    ∃ heap' nodes', insertFresh turns head heap call = some heap' ∧
      Chain heap' (some head) nodes' ∧
      (addresses nodes').Perm (call.1 :: addresses nodes) ∧
      InsertedByLevel call.2 (values nodes) (values nodes') := by
  have hchain' : Chain (Function.update heap call.1 (some ⟨call.2, none⟩)) (some head) nodes :=
    hchain.frame fun a ha => Function.update_of_ne (by rintro rfl; exact hfresh ha) ..
  obtain ⟨heap', nodes', hinsert, hchain'', hperm, hinserted, -⟩ :=
    otelLogInsert_spec hchain' hsorted (Function.update_self ..) hfresh hturns
  exact ⟨heap', nodes', hinsert, hchain'', hperm, hinserted⟩

/-- The chain after a sequence of calls has one cell more for each of them. -/
theorem exec_insertFresh {head : A} {turns : Nat} : ∀ {calls : List (A × Contents F)}
    {heap : Logs A F} {nodes : List (A × Contents F)}, Chain heap (some head) nodes →
    Sorted nodes → (addresses nodes ++ addresses calls).Nodup →
    nodes.length + calls.length ≤ turns →
    ∃ heap' nodes', Run.exec (insertFresh turns head) heap calls = some heap' ∧
      Chain heap' (some head) nodes' ∧ Sorted nodes' ∧
      (addresses nodes').Perm (addresses nodes ++ addresses calls)
  | [], heap, nodes, hchain, hsorted, _, _ =>
    ⟨heap, nodes, rfl, hchain, hsorted, by rw [addresses_nil, List.append_nil]⟩
  | call :: calls, heap, nodes, hchain, hsorted, hfresh, hturns => by
    have hmiddle : (addresses nodes ++ addresses (call :: calls)).Perm
        (call.1 :: addresses nodes ++ addresses calls) := List.perm_middle
    have hfresh' := hmiddle.nodup_iff.mp hfresh
    have hcall : call.1 ∉ addresses nodes := fun hmem =>
      (List.nodup_cons.mp hfresh').1 (List.mem_append_left _ hmem)
    rw [List.length_cons] at hturns
    have hroom : nodes.length ≤ turns := by omega
    obtain ⟨heap₁, nodes₁, hinsert, hchain₁, hperm₁, hinserted⟩ :=
      insertFresh_spec hchain hsorted hcall hroom
    have hlength : nodes₁.length = nodes.length + 1 := by
      simpa [addresses] using hperm₁.length_eq
    have hroom₁ : nodes₁.length + calls.length ≤ turns := by omega
    have happend := hperm₁.append_right (addresses calls)
    obtain ⟨heap', nodes', hrun, hchain', hsorted', hperm'⟩ :=
      exec_insertFresh hchain₁ (hinserted.pairwise hsorted) (happend.nodup_iff.mpr hfresh') hroom₁
    refine ⟨heap', nodes', Run.exec_cons.mpr ⟨heap₁, hinsert, hrun⟩, hchain', hsorted', ?_⟩
    exact hperm'.trans (happend.trans hmiddle.symm)

/-- **The chain of logs over every sequence of insertions.**  After each call the chain from the
same head ends, has no cycle and is sorted; it has the cells that it had and the new one, and the
new contents in their place. -/
theorem log_chain_stays_sorted {heap : Logs A F} {head : A} {nodes : List (A × Contents F)}
    (hchain : Chain heap (some head) nodes) (hsorted : Sorted nodes)
    {calls : List (A × Contents F)} {call : A × Contents F}
    (hfresh : (addresses nodes ++ addresses (calls ++ [call])).Nodup) {turns : Nat}
    (hturns : nodes.length + calls.length ≤ turns) :
    ∃ heap₁ nodes₁ heap₂ nodes₂,
      Run.exec (insertFresh turns head) heap calls = some heap₁ ∧
      Chain heap₁ (some head) nodes₁ ∧
      insertFresh turns head heap₁ call = some heap₂ ∧
      Chain heap₂ (some head) nodes₂ ∧
      (addresses nodes₂).Nodup ∧ Sorted nodes₂ ∧
      (addresses nodes₂).Perm (call.1 :: addresses nodes₁) ∧
      InsertedByLevel call.2 (values nodes₁) (values nodes₂) := by
  rw [addresses_append, ← List.append_assoc] at hfresh
  obtain ⟨hbefore, -, hlast⟩ := List.nodup_append.mp hfresh
  obtain ⟨heap₁, nodes₁, hrun, hchain₁, hsorted₁, hperm₁⟩ :=
    exec_insertFresh hchain hsorted hbefore hturns
  have hcall : call.1 ∉ addresses nodes₁ := fun hmem =>
    hlast call.1 (hperm₁.mem_iff.mp hmem) call.1 (by simp) rfl
  have hlength : nodes₁.length = nodes.length + calls.length := by
    simpa [addresses] using hperm₁.length_eq
  have hroom : nodes₁.length ≤ turns := by omega
  obtain ⟨heap₂, nodes₂, hinsert, hchain₂, hperm₂, hinserted⟩ :=
    insertFresh_spec hchain₁ hsorted₁ hcall hroom
  exact ⟨heap₁, nodes₁, heap₂, nodes₂, hrun, hchain₁, hinsert, hchain₂, hchain₂.nodup,
    hinserted.pairwise hsorted₁, hperm₂, hinserted⟩

/-- Two insertions into a chain of one log: a higher level at the head, then one between. -/
theorem log_chain_two_insertions :
    ∃ (heap₁ : Logs Nat Unit) (nodes₁ : List (Nat × Contents Unit)) (heap₂ : Logs Nat Unit)
      (nodes₂ : List (Nat × Contents Unit)),
      Run.exec (insertFresh 2 0)
        (Function.update (fun _ => none) 0 (some ⟨⟨4, ()⟩, none⟩)) [(1, ⟨8, ()⟩)] = some heap₁ ∧
      Chain heap₁ (some 0) nodes₁ ∧
      insertFresh 2 0 heap₁ (2, ⟨6, ()⟩) = some heap₂ ∧
      Chain heap₂ (some 0) nodes₂ ∧
      (addresses nodes₂).Nodup ∧ Sorted nodes₂ ∧
      (addresses nodes₂).Perm (2 :: addresses nodes₁) ∧
      InsertedByLevel ⟨6, ()⟩ (values nodes₁) (values nodes₂) :=
  log_chain_stays_sorted (show Chain _ (some 0) [(0, ⟨4, ()⟩)] from .link rfl .null)
    (List.pairwise_singleton _ _) (by decide) (by decide)

end NgxOtel.ErrorLog
