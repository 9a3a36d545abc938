import NgxOtel.Lib.Memory
import NgxOtel.Traces.Traceparent

/-!
# Setting the outbound `traceparent` header

`inject_traceparent_header` (`metric_source/span_start.rs`) looks for a `traceparent` in the list of
request headers and overwrites its value, or pushes a new entry.  The list is nginx's: entries in
parts, each entry with pointers to its key and value, which live in request memory.

* `TableElt`, `HeaderList` — `ngx_table_elt_t` and `ngx_list_t`.
* `findHeaderIn` — the walk over the parts.
* `Answers` — what nginx returns from its pool and from `ngx_list_push`, null pointers included.
* `injectTraceparentHeader` — the update in place, or the push.
* `Header`, `injectHeader` — the abstract list: what the entries say, and how injection changes it.

## Results

* `inject_outcome` — one entry is updated, or one is pushed, and no other string changes.
* `inject_refines` — the abstract list after the call is `injectHeader` of the one before.
* `activeCount_injectHeader` — injection leaves as many active `traceparent` entries as there were, or one.
* `inject_one_iff` — **exactly one active `traceparent` is left precisely when at most one was
  there**: only the first of several is found and rewritten.
-/

set_option autoImplicit false

namespace NgxOtel.Traces

open Word Wire Memory

/-! ## The header list -/

/-- `ngx_table_elt_t`. -/
structure TableElt where
  hash : Nat
  key : Str
  value : Str
  lowcaseKey : Nat
  deriving DecidableEq, Repr

/-- `ngx_list_t`: the first part is in the list head, the others are linked behind it. -/
structure HeaderList where
  first : List TableElt
  rest : List (List TableElt)
  deriving DecidableEq, Repr

/-- All entries in order. -/
def HeaderList.entries (l : HeaderList) : List TableElt := l.first ++ l.rest.flatten

/-- `u8::to_ascii_lowercase`. -/
def toAsciiLowercase (b : UInt8) : UInt8 := if 0x41 ≤ b ∧ b ≤ 0x5a then b + 0x20 else b

/-- `eq_ignore_ascii_case`. -/
def EqIgnoreAsciiCase (a b : Bytes) : Prop := a.map toAsciiLowercase = b.map toAsciiLowercase

instance (a b : Bytes) : Decidable (EqIgnoreAsciiCase a b) := by
  unfold EqIgnoreAsciiCase
  infer_instance

/-- `traceparent`. -/
def TRACEPARENT : Bytes := [0x74, 0x72, 0x61, 0x63, 0x65, 0x70, 0x61, 0x72, 0x65, 0x6e, 0x74]

/-- The test of `find_header_in`: an active entry with the given name. -/
def TableElt.isActive (m : Mem) (name : Bytes) (e : TableElt) : Bool :=
  e.hash ≠ 0 ∧ e.key.len = name.length ∧ e.key.data ≠ 0 ∧
    EqIgnoreAsciiCase (load m e.key.data name.length) name

/-- One part, from its first entry on. -/
def scanPart (p : TableElt → Bool) : List TableElt → Option (Nat × TableElt)
  | [] => none
  | e :: es => if p e then some (0, e) else (scanPart p es).map fun x => (x.1 + 1, x.2)

/-- `find_header_in`: the place of the entry, as part and index, with the entry.  The loop reads the
first entry of a later part without a look at its length. -/
def findHeaderIn (m : Mem) (name : Bytes) (part : List TableElt) :
    List (List TableElt) → Except Fault (Option ((Nat × Nat) × TableElt))
  | [] => .ok ((scanPart (TableElt.isActive m name) part).map fun x => ((0, x.1), x.2))
  | next :: parts =>
    match scanPart (TableElt.isActive m name) part with
    | some x => .ok (some ((0, x.1), x.2))
    | none =>
      if next = [] then .error .outOfBounds
      else (findHeaderIn m name next parts).map (Option.map fun x => ((x.1.1 + 1, x.1.2), x.2))

/-- Write to an entry in place. -/
def HeaderList.modify (l : HeaderList) (pos : Nat × Nat) (f : TableElt → TableElt) : HeaderList :=
  match pos.1 with
  | 0 => { l with first := l.first.modify pos.2 f }
  | j + 1 => { l with rest := l.rest.modify j fun part => part.modify pos.2 f }

/-- Where `ngx_list_push` finds room. -/
inductive Room where
  | lastPart
  | newPart
  deriving DecidableEq, Repr

/-- `ngx_list_push`: a new entry behind all others. -/
def HeaderList.push (l : HeaderList) (e : TableElt) : Room → HeaderList
  | .newPart => { l with rest := l.rest ++ [[e]] }
  | .lastPart =>
    match l.rest.getLast? with
    | none => { l with first := l.first ++ [e] }
    | some last => { l with rest := l.rest.dropLast ++ [last ++ [e]] }

/-- What nginx returns: buffers (0 for out of memory) and the room for a new entry. -/
structure Answers where
  updateBuf : Nat
  keyBuf : Nat
  valBuf : Nat
  room : Option Room

/-- The entry is kept active. -/
def TableElt.activate (e : TableElt) : TableElt := if e.hash = 0 then { e with hash := 1 } else e

/-- The entry found gets the value: in its own buffer if the length fits, else in a fresh one. -/
def updateEntry (nginx : Answers) (m : Mem) (l : HeaderList) (value : Bytes) (pos : Nat × Nat)
    (existing : TableElt) : Mem × HeaderList :=
  if existing.value.len = 55 ∧ existing.value.data ≠ 0 then
    (store m existing.value.data value, l.modify pos TableElt.activate)
  else if nginx.updateBuf = 0 then (m, l)
  else
    (store m nginx.updateBuf value,
      l.modify pos fun e => TableElt.activate { e with value := ⟨55, nginx.updateBuf⟩ })

/-- A new entry with key and value in fresh buffers. -/
def pushEntry (nginx : Answers) (m : Mem) (l : HeaderList) (value : Bytes) : Mem × HeaderList :=
  if nginx.keyBuf = 0 ∨ nginx.valBuf = 0 then (m, l)
  else
    let m := store (store m nginx.keyBuf TRACEPARENT) nginx.valBuf value
    match nginx.room with
    | none => (m, l)
    | some room => (m, l.push ⟨1, ⟨11, nginx.keyBuf⟩, ⟨55, nginx.valBuf⟩, nginx.keyBuf⟩ room)

/-- `inject_traceparent_header`: request memory and the header list behind it. -/
def injectTraceparentHeader (nginx : Answers) (m : Mem) (l : HeaderList) (traceId : Octets 16)
    (spanId : Octets 8) (traceFlags : UInt8) : Except Fault (Mem × HeaderList) :=
  let value := buildTraceparentValue traceId spanId traceFlags
  match findHeaderIn m TRACEPARENT l.first l.rest with
  | .error fault => .error fault
  | .ok (some (pos, existing)) => .ok (updateEntry nginx m l value pos existing)
  | .ok none => .ok (pushEntry nginx m l value)

/-! ## What the entries say -/

/-- An entry with the bytes that its pointers lead to, `none` for a null pointer. -/
structure Header where
  hash : Nat
  key : Option Bytes
  value : Option Bytes
  lowcaseKey : Option Bytes
  deriving DecidableEq, Repr

/-- The lower-case key has the length of the key. -/
def TableElt.lowcase (e : TableElt) : Str := ⟨e.key.len, e.lowcaseKey⟩

def TableElt.view (m : Mem) (e : TableElt) : Header :=
  ⟨e.hash, e.key.bytes m, e.value.bytes m, e.lowcase.bytes m⟩

/-- The key of the header, ignoring case. -/
def Header.Named (name : Bytes) (h : Header) : Prop :=
  ∃ key ∈ h.key, EqIgnoreAsciiCase key name

instance (name : Bytes) (h : Header) : Decidable (h.Named name) :=
  match hk : h.key with
  | none => isFalse fun ⟨_, hmem, _⟩ => by rw [hk] at hmem; cases hmem
  | some key =>
    decidable_of_iff (EqIgnoreAsciiCase key name)
      ⟨fun heq => ⟨key, hk, heq⟩, fun ⟨_, hmem, heq⟩ => by
        rw [hk, Option.mem_some_iff] at hmem
        rw [hmem]
        exact heq⟩

/-- A header that is sent on under the given name. -/
def Header.Active (name : Bytes) (h : Header) : Prop := h.hash ≠ 0 ∧ h.Named name

instance (name : Bytes) (h : Header) : Decidable (h.Active name) := by
  unfold Header.Active
  infer_instance

theorem EqIgnoreAsciiCase.length_eq {a b : Bytes} (h : EqIgnoreAsciiCase a b) :
    a.length = b.length := by
  have hlen := congrArg List.length h
  rwa [List.length_map, List.length_map] at hlen

/-- The test of `find_header_in` in terms of the bytes. -/
theorem isActive_iff (m : Mem) (name : Bytes) (e : TableElt) :
    e.isActive m name = true ↔ (e.view m).Active name := by
  unfold TableElt.isActive Header.Active Header.Named TableElt.view Str.bytes
  rw [decide_eq_true_iff]
  constructor
  · rintro ⟨hhash, hlen, hdata, hkey⟩
    refine ⟨hhash, load m e.key.data e.key.len, ?_, ?_⟩
    · show _ ∈ if e.key.data = 0 then none else _
      rw [if_neg hdata]
      rfl
    · rw [hlen]
      exact hkey
  · rintro ⟨hhash, key, hmem, hkey⟩
    by_cases hdata : e.key.data = 0
    · simp [hdata] at hmem
    · simp only [hdata, if_false, Option.mem_some_iff] at hmem
      have hlen : e.key.len = name.length := by
        rw [← hkey.length_eq, ← hmem, length_load]
      refine ⟨hhash, hlen, hdata, ?_⟩
      rw [← hlen, hmem]
      exact hkey

/-! ## The abstract list -/

/-- The entry that is pushed when there is no `traceparent`. -/
def pushedHeader (value : Bytes) : Header :=
  ⟨1, some TRACEPARENT, some value, some TRACEPARENT⟩

/-- Injection: the first active `traceparent` gets the value, else an entry is added. -/
def injectHeader (value : Bytes) : List Header → List Header
  | [] => [pushedHeader value]
  | h :: hs =>
    if h.Active TRACEPARENT then { h with value := some value } :: hs
    else h :: injectHeader value hs

theorem pushedHeader_active (value : Bytes) : (pushedHeader value).Active TRACEPARENT :=
  ⟨Nat.one_ne_zero, TRACEPARENT, rfl, rfl⟩

theorem injectHeader_of_none {value : Bytes} : ∀ {hs : List Header},
    (∀ h ∈ hs, ¬ h.Active TRACEPARENT) → injectHeader value hs = hs ++ [pushedHeader value]
  | [], _ => rfl
  | h :: hs, hnone => by
    rw [injectHeader, if_neg (hnone h List.mem_cons_self),
      injectHeader_of_none fun x hx => hnone x (List.mem_cons_of_mem h hx)]
    rfl

theorem injectHeader_of_first {value : Bytes} {h : Header} {post : List Header}
    (hactive : h.Active TRACEPARENT) : ∀ {pre : List Header},
    (∀ x ∈ pre, ¬ x.Active TRACEPARENT) →
      injectHeader value (pre ++ h :: post) = pre ++ { h with value := some value } :: post
  | [], _ => by
    show injectHeader value (h :: post) = _
    rw [injectHeader, if_pos hactive]
    rfl
  | x :: pre, hpre => by
    show injectHeader value (x :: (pre ++ h :: post)) = _
    rw [injectHeader, if_neg (hpre x List.mem_cons_self),
      injectHeader_of_first hactive fun y hy => hpre y (List.mem_cons_of_mem x hy)]
    rfl

/-- The number of active `traceparent` entries. -/
def activeCount (hs : List Header) : Nat := hs.countP fun h => h.Active TRACEPARENT

/-- Injection never removes a `traceparent`. -/
theorem activeCount_injectHeader (value : Bytes) (hs : List Header) :
    activeCount (injectHeader value hs) = max 1 (activeCount hs) := by
  unfold activeCount
  induction hs with
  | nil => simp [injectHeader, pushedHeader_active]
  | cons h hs ih =>
    by_cases hactive : h.Active TRACEPARENT
    · have hset : ({ h with value := some value } : Header).Active TRACEPARENT := hactive
      rw [injectHeader, if_pos hactive, List.countP_cons_of_pos (by simpa using hset),
        List.countP_cons_of_pos (by simpa using hactive)]
      omega
    · rw [injectHeader, if_neg hactive, List.countP_cons_of_neg (by simpa using hactive),
        List.countP_cons_of_neg (by simpa using hactive), ih]

/-- With at most one `traceparent` before, the one that is left has the value. -/
theorem value_of_active_injectHeader {value : Bytes} : ∀ {hs : List Header},
    activeCount hs ≤ 1 → ∀ h ∈ injectHeader value hs, h.Active TRACEPARENT → h.value = some value
  | [], _, h, hmem, _ => by
    rw [injectHeader, List.mem_singleton] at hmem
    rw [hmem]
    rfl
  | x :: hs, hcount, h, hmem, hactive => by
    unfold activeCount at hcount
    rw [injectHeader] at hmem
    by_cases hx : x.Active TRACEPARENT
    · rw [if_pos hx, List.mem_cons] at hmem
      rw [List.countP_cons_of_pos (by simpa using hx)] at hcount
      rcases hmem with rfl | hmem
      · rfl
      · -- a second active entry would be counted
        have hpos : 0 < hs.countP fun h => h.Active TRACEPARENT :=
          List.countP_pos_iff.mpr ⟨h, hmem, by simpa using hactive⟩
        omega
    · rw [if_neg hx, List.mem_cons] at hmem
      rw [List.countP_cons_of_neg (by simpa using hx)] at hcount
      rcases hmem with rfl | hmem
      · exact absurd hactive hx
      · exact value_of_active_injectHeader hcount h hmem hactive

/-! ## The walk over the parts -/

theorem scanPart_eq_none {p : TableElt → Bool} : ∀ {part : List TableElt},
    scanPart p part = none → ∀ e ∈ part, p e = false
  | [], _, _, hmem => by cases hmem
  | x :: part, hscan, e, hmem => by
    rw [scanPart] at hscan
    by_cases hx : p x = true
    · rw [if_pos hx] at hscan
      cases hscan
    · rw [if_neg hx, Option.map_eq_none_iff] at hscan
      rcases List.mem_cons.mp hmem with rfl | hmem
      · exact Bool.eq_false_of_not_eq_true hx
      · exact scanPart_eq_none hscan e hmem

theorem scanPart_eq_some {p : TableElt → Bool} : ∀ {part : List TableElt} {i : Nat} {e : TableElt},
    scanPart p part = some (i, e) →
      ∃ pre post, part = pre ++ e :: post ∧ pre.length = i ∧ p e = true ∧ ∀ x ∈ pre, p x = false
  | [], _, _, hscan => by cases hscan
  | x :: part, i, e, hscan => by
    rw [scanPart] at hscan
    by_cases hx : p x = true
    · rw [if_pos hx] at hscan
      cases hscan
      exact ⟨[], part, rfl, rfl, hx, by simp⟩
    · rw [if_neg hx, Option.map_eq_some_iff] at hscan
      obtain ⟨⟨i', e'⟩, hscan, heq⟩ := hscan
      cases heq
      obtain ⟨pre, post, hpart, hlen, he, hpre⟩ := scanPart_eq_some hscan
      refine ⟨x :: pre, post, by rw [hpart]; rfl, by rw [List.length_cons, hlen], he, ?_⟩
      intro y hy
      rcases List.mem_cons.mp hy with rfl | hy
      · exact Bool.eq_false_of_not_eq_true hx
      · exact hpre y hy

theorem modify_at_length {α : Type} (f : α → α) (e : α) (post : List α) : ∀ pre : List α,
    (pre ++ e :: post).modify pre.length f = pre ++ f e :: post
  | [] => rfl
  | x :: pre => congrArg (List.cons x) (modify_at_length f e post pre)

/-- The entry at a place, with what stands before and behind it. -/
structure FoundAt (l : HeaderList) (pos : Nat × Nat) (pre : List TableElt) (e : TableElt)
    (post : List TableElt) : Prop where
  entries : l.entries = pre ++ e :: post
  modify : ∀ f, (l.modify pos f).entries = pre ++ f e :: post

theorem foundAt_first {pre post : List TableElt} {e : TableElt} (rest : List (List TableElt)) :
    FoundAt ⟨pre ++ e :: post, rest⟩ (0, pre.length) pre e (post ++ rest.flatten) where
  entries := by
    show (pre ++ e :: post) ++ rest.flatten = _
    rw [List.append_assoc, List.cons_append]
  modify f := by
    show (pre ++ e :: post).modify pre.length f ++ rest.flatten = _
    rw [modify_at_length, List.append_assoc, List.cons_append]

theorem FoundAt.later {part next : List TableElt} {parts : List (List TableElt)} {pos : Nat × Nat}
    {pre post : List TableElt} {e : TableElt} (h : FoundAt ⟨next, parts⟩ pos pre e post) :
    FoundAt ⟨part, next :: parts⟩ (pos.1 + 1, pos.2) (part ++ pre) e post where
  entries := by
    show part ++ (next ++ parts.flatten) = _
    rw [List.append_assoc]
    exact congrArg (part ++ ·) h.entries
  modify f := by
    have hnext := h.modify f
    obtain ⟨j, i⟩ := pos
    rw [List.append_assoc, ← hnext]
    cases j with
    | zero => rfl
    | succ j => rfl

/-- **What `find_header_in` finds** in a list with no empty part behind the first: the first active
entry of that name, or that there is none. -/
theorem findHeaderIn_spec (m : Mem) (name : Bytes) : ∀ (parts : List (List TableElt))
    (part : List TableElt), (∀ p ∈ parts, p ≠ []) →
      (findHeaderIn m name part parts = .ok none ∧
        ∀ e ∈ part ++ parts.flatten, e.isActive m name = false) ∨
      ∃ pos pre e post, findHeaderIn m name part parts = .ok (some (pos, e)) ∧
        FoundAt ⟨part, parts⟩ pos pre e post ∧ e.isActive m name = true ∧
        ∀ x ∈ pre, x.isActive m name = false
  | [], part, _ => by
    unfold findHeaderIn
    cases hscan : scanPart (TableElt.isActive m name) part with
    | none =>
      refine .inl ⟨rfl, ?_⟩
      rw [List.flatten_nil, List.append_nil]
      exact scanPart_eq_none hscan
    | some x =>
      obtain ⟨pre, post, rfl, hlen, he, hpre⟩ := scanPart_eq_some hscan
      refine .inr ⟨(0, x.1), pre, x.2, post ++ [].flatten, rfl, ?_, he, hpre⟩
      rw [← hlen]
      exact foundAt_first []
  | next :: parts, part, hparts => by
    unfold findHeaderIn
    cases hscan : scanPart (TableElt.isActive m name) part with
    | some x =>
      obtain ⟨pre, post, rfl, hlen, he, hpre⟩ := scanPart_eq_some hscan
      refine .inr ⟨(0, x.1), pre, x.2, post ++ (next :: parts).flatten, rfl, ?_, he, hpre⟩
      rw [← hlen]
      exact foundAt_first _
    | none =>
      have hpart := scanPart_eq_none hscan
      have hnext : next ≠ [] := hparts next List.mem_cons_self
      dsimp only
      rw [if_neg hnext]
      rcases findHeaderIn_spec m name parts next
          fun p hp => hparts p (List.mem_cons_of_mem next hp) with
        ⟨hfind, hnone⟩ | ⟨pos, pre, e, post, hfind, hat, he, hpre⟩
      · refine .inl ⟨by rw [hfind]; rfl, ?_⟩
        intro e he
        rcases List.mem_append.mp he with he | he
        · exact hpart e he
        · exact hnone e he
      · refine .inr ⟨(pos.1 + 1, pos.2), part ++ pre, e, post, by rw [hfind]; rfl, hat.later, he, ?_⟩
        intro x hx
        rcases List.mem_append.mp hx with hx | hx
        · exact hpart x hx
        · exact hpre x hx

theorem entries_push (l : HeaderList) (e : TableElt) (room : Room) :
    (l.push e room).entries = l.entries ++ [e] := by
  obtain ⟨first, rest⟩ := l
  cases room with
  | newPart =>
    show first ++ (rest ++ [[e]]).flatten = first ++ rest.flatten ++ [e]
    rw [List.flatten_append, List.append_assoc]
    rfl
  | lastPart =>
    rcases List.eq_nil_or_concat rest with rfl | ⟨init, last, rfl⟩
    · show first ++ [e] ++ [] = first ++ [] ++ [e]
      rw [List.append_nil, List.append_nil]
    · simp [HeaderList.push, HeaderList.entries]

/-! ## Request memory -/

/-- A buffer that no string of the entry overlaps. -/
def ApartFrom (buf : Str) (e : TableElt) : Prop :=
  buf.Apart e.key ∧ buf.Apart e.value ∧ buf.Apart e.lowcase

instance (buf : Str) (e : TableElt) : Decidable (ApartFrom buf e) := by
  unfold ApartFrom
  infer_instance

/-- No value buffer is shared: it is no part of another entry, and not the key of its own. -/
structure Unshared (es : List TableElt) : Prop where
  others : es.Pairwise fun a b => ApartFrom a.value b ∧ ApartFrom b.value a
  keys : ∀ e ∈ es, e.value.Apart e.key ∧ e.value.Apart e.lowcase

/-- All allocations succeed, with memory that no entry uses. -/
structure Answers.Fresh (nginx : Answers) (es : List TableElt) : Prop where
  updateBuf : nginx.updateBuf ≠ 0
  keyBuf : nginx.keyBuf ≠ 0
  valBuf : nginx.valBuf ≠ 0
  room : nginx.room ≠ none
  update_apart : ∀ e ∈ es, ApartFrom ⟨55, nginx.updateBuf⟩ e
  key_apart : ∀ e ∈ es, ApartFrom ⟨11, nginx.keyBuf⟩ e
  val_apart : ∀ e ∈ es, ApartFrom ⟨55, nginx.valBuf⟩ e
  key_val : Str.Apart ⟨55, nginx.valBuf⟩ ⟨11, nginx.keyBuf⟩

/-- A store into a buffer apart from an entry leaves the entry as it was. -/
theorem ApartFrom.view_store {buf : Str} {e : TableElt} {m : Mem} {bytes : Bytes}
    (h : ApartFrom buf e) (hbuf : buf.data ≠ 0) (hlen : bytes.length = buf.len) :
    e.view (store m buf.data bytes) = e.view m := by
  obtain ⟨hkey, hvalue, hlowcase⟩ := h
  unfold TableElt.view
  rw [hkey.bytes_store hbuf hlen, hvalue.bytes_store hbuf hlen, hlowcase.bytes_store hbuf hlen]

theorem activate_of_active {m : Mem} {name : Bytes} {e : TableElt} (h : e.isActive m name = true)
    (v : Str) : TableElt.activate { e with value := v } = { e with value := v } :=
  if_neg ((isActive_iff m name e).mp h).1

/-- An entry whose value is stored into a buffer apart from its key. -/
theorem view_store_value {e : TableElt} {buf : Str} {m : Mem} {bytes : Bytes}
    (hkey : buf.Apart e.key) (hlowcase : buf.Apart e.lowcase) (hbuf : buf.data ≠ 0)
    (hlen : bytes.length = buf.len) :
    TableElt.view (store m buf.data bytes) { e with value := buf } =
      { e.view m with value := some bytes } := by
  show Header.mk e.hash (e.key.bytes _) (buf.bytes _) (e.lowcase.bytes _) = _
  rw [hkey.bytes_store hbuf hlen, hlowcase.bytes_store hbuf hlen, Str.bytes_store_self hbuf hlen]
  rfl

/-! ## What the call does -/

/-- The first active `traceparent` gets the value. -/
structure Updates (value : Bytes) (m : Mem) (es : List TableElt) (m' : Mem) (es' : List TableElt)
    (pre post : List TableElt) (e e' : TableElt) : Prop where
  before : es = pre ++ e :: post
  after : es' = pre ++ e' :: post
  none_before : ∀ x ∈ pre, ¬ (x.view m).Active TRACEPARENT
  active : (e.view m).Active TRACEPARENT
  frame : ∀ x ∈ pre ++ post, x.view m' = x.view m
  value : e'.view m' = { e.view m with value := some value }

/-- An entry is added to a list without one. -/
structure Pushes (value : Bytes) (m : Mem) (es : List TableElt) (m' : Mem) (es' : List TableElt)
    (e' : TableElt) : Prop where
  none : ∀ x ∈ es, ¬ (x.view m).Active TRACEPARENT
  after : es' = es ++ [e']
  frame : ∀ x ∈ es, x.view m' = x.view m
  value : e'.view m' = pushedHeader value

section Inject

variable {nginx : Answers} {m : Mem} {l : HeaderList} {value : Bytes}

/-- The value buffer of an entry is apart from all other entries. -/
theorem Unshared.apart_others {es pre post : List TableElt} {e : TableElt} (h : Unshared es)
    (hes : es = pre ++ e :: post) : ∀ x ∈ pre ++ post, ApartFrom e.value x := by
  have hpair := h.others
  rw [hes, List.pairwise_append, List.pairwise_cons] at hpair
  obtain ⟨-, ⟨hpost, -⟩, hpre⟩ := hpair
  intro x hx
  rcases List.mem_append.mp hx with hx | hx
  · exact (hpre x hx e List.mem_cons_self).2
  · exact (hpost x hx).1

theorem mem_of_mem_split {es pre post : List TableElt} {e x : TableElt}
    (hes : es = pre ++ e :: post) (hx : x ∈ pre ++ post) : x ∈ es := by
  rw [hes]
  rcases List.mem_append.mp hx with hx | hx
  · exact List.mem_append_left _ hx
  · exact List.mem_append_right _ (List.mem_cons_of_mem e hx)

theorem updateEntry_spec {pos : Nat × Nat} {pre post : List TableElt} {e : TableElt}
    (hunshared : Unshared l.entries) (hfresh : nginx.Fresh l.entries) (hlen : value.length = 55)
    (hat : FoundAt l pos pre e post) (hactive : e.isActive m TRACEPARENT = true)
    (hpre : ∀ x ∈ pre, ¬ (x.view m).Active TRACEPARENT) :
    ∃ e', Updates value m l.entries (updateEntry nginx m l value pos e).1
      (updateEntry nginx m l value pos e).2.entries pre post e e' := by
  have hview := (isActive_iff m _ e).mp hactive
  have hmem : e ∈ l.entries := by
    rw [hat.entries]
    exact List.mem_append_right pre List.mem_cons_self
  unfold updateEntry
  by_cases hplace : e.value.len = 55 ∧ e.value.data ≠ 0
  · -- the value is overwritten in place; the buffer is the entry's own
    obtain ⟨hkey, hlowcase⟩ := hunshared.keys e hmem
    have hbuf : value.length = e.value.len := hlen.trans hplace.1.symm
    rw [if_pos hplace]
    refine ⟨e, hat.entries, ?_, hpre, hview, ?_, view_store_value hkey hlowcase hplace.2 hbuf⟩
    · exact (hat.modify _).trans (by rw [activate_of_active hactive e.value])
    · intro x hx
      exact (hunshared.apart_others hat.entries x hx).view_store hplace.2 hbuf
  · -- the entry is re-pointed at a fresh buffer
    obtain ⟨hkey, -, hlowcase⟩ := hfresh.update_apart e hmem
    rw [if_neg hplace, if_neg hfresh.updateBuf]
    refine ⟨{ e with value := ⟨55, nginx.updateBuf⟩ }, hat.entries, ?_, hpre, hview, ?_,
      view_store_value hkey hlowcase hfresh.updateBuf hlen⟩
    · exact (hat.modify _).trans (by rw [activate_of_active hactive])
    · intro x hx
      exact (hfresh.update_apart x (mem_of_mem_split hat.entries hx)).view_store
        hfresh.updateBuf hlen

theorem pushEntry_spec (hfresh : nginx.Fresh l.entries) (hlen : value.length = 55)
    (hnone : ∀ x ∈ l.entries, ¬ (x.view m).Active TRACEPARENT) :
    ∃ e', Pushes value m l.entries (pushEntry nginx m l value).1
      (pushEntry nginx m l value).2.entries e' := by
  obtain ⟨room, hroom⟩ := Option.ne_none_iff_exists'.mp hfresh.room
  have hbufs : ¬ (nginx.keyBuf = 0 ∨ nginx.valBuf = 0) :=
    not_or.mpr ⟨hfresh.keyBuf, hfresh.valBuf⟩
  unfold pushEntry
  rw [if_neg hbufs, hroom]
  refine ⟨_, hnone, entries_push _ _ _, ?_, ?_⟩
  · intro x hx
    exact ((hfresh.val_apart x hx).view_store hfresh.valBuf hlen).trans
      ((hfresh.key_apart x hx).view_store hfresh.keyBuf rfl)
  · have hkey : Str.bytes (store (store m nginx.keyBuf TRACEPARENT) nginx.valBuf value)
        ⟨11, nginx.keyBuf⟩ = some TRACEPARENT :=
      (hfresh.key_val.bytes_store hfresh.valBuf hlen).trans
        (Str.bytes_store_self (s := ⟨11, nginx.keyBuf⟩) hfresh.keyBuf rfl)
    have hvalue : Str.bytes (store (store m nginx.keyBuf TRACEPARENT) nginx.valBuf value)
        ⟨55, nginx.valBuf⟩ = some value :=
      Str.bytes_store_self (s := ⟨55, nginx.valBuf⟩) hfresh.valBuf hlen
    show Header.mk 1 (Str.bytes _ ⟨11, nginx.keyBuf⟩) (Str.bytes _ ⟨55, nginx.valBuf⟩)
      (Str.bytes _ ⟨11, nginx.keyBuf⟩) = _
    rw [hkey, hvalue]
    rfl

/-- **The outcome of injection**: one entry is updated or pushed, every other entry keeps its
strings. -/
theorem inject_outcome (hparts : ∀ part ∈ l.rest, part ≠ []) (hunshared : Unshared l.entries)
    (hfresh : nginx.Fresh l.entries) (traceId : Octets 16) (spanId : Octets 8)
    (traceFlags : UInt8) : ∃ m' l',
      injectTraceparentHeader nginx m l traceId spanId traceFlags = .ok (m', l') ∧
        ((∃ pre post e e', Updates (buildTraceparentValue traceId spanId traceFlags) m l.entries
            m' l'.entries pre post e e') ∨
          ∃ e', Pushes (buildTraceparentValue traceId spanId traceFlags) m l.entries m'
            l'.entries e') := by
  have hlen := length_buildTraceparentValue traceId spanId traceFlags
  have hinactive : ∀ x : TableElt, x.isActive m TRACEPARENT = false →
      ¬ (x.view m).Active TRACEPARENT := by
    intro x hx hview
    exact Bool.false_ne_true (hx.symm.trans ((isActive_iff m _ x).mpr hview))
  unfold injectTraceparentHeader
  rcases findHeaderIn_spec m TRACEPARENT l.rest l.first hparts with
    ⟨hfind, hnone⟩ | ⟨pos, pre, e, post, hfind, hat, hactive, hpre⟩
  · rw [hfind]
    exact ⟨_, _, rfl, .inr (pushEntry_spec hfresh hlen fun x hx => hinactive x (hnone x hx))⟩
  · rw [hfind]
    exact ⟨_, _, rfl, .inl ⟨pre, post, e, updateEntry_spec hunshared hfresh hlen hat hactive
      fun x hx => hinactive x (hpre x hx)⟩⟩

theorem Updates.refines {m' : Mem} {es es' pre post : List TableElt} {e e' : TableElt}
    (h : Updates value m es m' es' pre post e e') :
    es'.map (TableElt.view m') = injectHeader value (es.map (TableElt.view m)) := by
  have hpre : ∀ x ∈ pre.map (TableElt.view m), ¬ x.Active TRACEPARENT := by
    intro x hx
    obtain ⟨e, he, rfl⟩ := List.mem_map.mp hx
    exact h.none_before e he
  have hframe : (pre ++ post).map (TableElt.view m') = (pre ++ post).map (TableElt.view m) :=
    List.map_congr_left h.frame
  rw [List.map_append, List.map_append] at hframe
  obtain ⟨hpreMap, hpostMap⟩ := List.append_inj hframe (by rw [List.length_map, List.length_map])
  rw [h.before, h.after, List.map_append, List.map_append, List.map_cons, List.map_cons,
    injectHeader_of_first h.active hpre, hpreMap, hpostMap, h.value]

theorem Pushes.refines {m' : Mem} {es es' : List TableElt} {e' : TableElt}
    (h : Pushes value m es m' es' e') :
    es'.map (TableElt.view m') = injectHeader value (es.map (TableElt.view m)) := by
  have hnone : ∀ x ∈ es.map (TableElt.view m), ¬ x.Active TRACEPARENT := by
    intro x hx
    obtain ⟨e, he, rfl⟩ := List.mem_map.mp hx
    exact h.none e he
  rw [h.after, List.map_append, injectHeader_of_none hnone, List.map_congr_left h.frame,
    List.map_singleton, h.value]

/-- Entries that are not a `traceparent` are left as they are, struct and strings. -/
def Unchanged (m : Mem) (es : List TableElt) (m' : Mem) (es' : List TableElt) : Prop :=
  ∀ (i : Nat) (e : TableElt), es[i]? = some e → ¬ (e.view m).Named TRACEPARENT →
    es'[i]? = some e ∧ e.view m' = e.view m

theorem Updates.unchanged {m' : Mem} {es es' pre post : List TableElt} {e e' : TableElt}
    (h : Updates value m es m' es' pre post e e') : Unchanged m es m' es' := by
  intro i x hx hnamed
  rw [h.before] at hx
  rw [h.after]
  rcases Nat.lt_trichotomy i pre.length with hi | hi | hi
  · rw [List.getElem?_append_left hi] at hx ⊢
    exact ⟨hx, h.frame x (List.mem_append_left post (List.mem_of_getElem? hx))⟩
  · -- the entry that was found has the name
    subst hi
    rw [List.getElem?_append_right (Nat.le_refl _), Nat.sub_self] at hx
    cases hx
    exact absurd h.active.2 hnamed
  · obtain ⟨k, hk⟩ := Nat.exists_eq_add_of_lt hi
    have hsub : i - pre.length = k + 1 := by omega
    rw [List.getElem?_append_right (by omega), hsub] at hx ⊢
    exact ⟨hx, h.frame x (List.mem_append_right pre (List.mem_of_getElem? hx))⟩

theorem Pushes.unchanged {m' : Mem} {es es' : List TableElt} {e' : TableElt}
    (h : Pushes value m es m' es' e') : Unchanged m es m' es' := by
  intro i x hx _
  obtain ⟨hi, -⟩ := List.getElem?_eq_some_iff.mp hx
  rw [h.after, List.getElem?_append_left hi]
  exact ⟨hx, h.frame x (List.mem_of_getElem? hx)⟩

/-- **The call refines injection on the abstract list.** -/
theorem inject_refines (hparts : ∀ part ∈ l.rest, part ≠ []) (hunshared : Unshared l.entries)
    (hfresh : nginx.Fresh l.entries) (traceId : Octets 16) (spanId : Octets 8)
    (traceFlags : UInt8) : ∃ m' l',
      injectTraceparentHeader nginx m l traceId spanId traceFlags = .ok (m', l') ∧
        l'.entries.map (TableElt.view m') =
          injectHeader (buildTraceparentValue traceId spanId traceFlags)
            (l.entries.map (TableElt.view m)) ∧
        Unchanged m l.entries m' l'.entries := by
  obtain ⟨m', l', hcall, ⟨pre, post, e, e', hupdate⟩ | ⟨e', hpush⟩⟩ :=
    inject_outcome (m := m) hparts hunshared hfresh traceId spanId traceFlags
  · exact ⟨m', l', hcall, hupdate.refines, hupdate.unchanged⟩
  · exact ⟨m', l', hcall, hpush.refines, hpush.unchanged⟩

end Inject

/-! ## Exactly one `traceparent` -/

/-- The headers as they should be: one active `traceparent`, with the value, and nothing else
touched. -/
structure Injected (value : Bytes) (m : Mem) (es : List TableElt) (m' : Mem)
    (es' : List TableElt) : Prop where
  one : activeCount (es'.map (TableElt.view m')) = 1
  value : ∀ e ∈ es', (e.view m').Active TRACEPARENT → (e.view m').value = some value
  unchanged : Unchanged m es m' es'

/-- **One `traceparent` is left precisely when at most one was there.**  The list is any list without
an empty part behind the first and without shared value buffers, and all allocations succeed. -/
theorem inject_one_iff {nginx : Answers} {m : Mem} {l : HeaderList}
    (hparts : ∀ part ∈ l.rest, part ≠ []) (hunshared : Unshared l.entries)
    (hfresh : nginx.Fresh l.entries) (traceId : Octets 16) (spanId : Octets 8)
    (traceFlags : UInt8) : ∃ m' l',
      injectTraceparentHeader nginx m l traceId spanId traceFlags = .ok (m', l') ∧
        (Injected (buildTraceparentValue traceId spanId traceFlags) m l.entries m' l'.entries ↔
          activeCount (l.entries.map (TableElt.view m)) ≤ 1) := by
  obtain ⟨m', l', hcall, hrefines, hunchanged⟩ :=
    inject_refines (m := m) hparts hunshared hfresh traceId spanId traceFlags
  have hcount := activeCount_injectHeader (buildTraceparentValue traceId spanId traceFlags)
    (l.entries.map (TableElt.view m))
  rw [← hrefines] at hcount
  refine ⟨m', l', hcall, ?_, ?_⟩
  · intro h
    have hone := h.one
    omega
  · intro hle
    refine ⟨by omega, ?_, hunchanged⟩
    intro e he hactive
    have hmem : e.view m' ∈ injectHeader (buildTraceparentValue traceId spanId traceFlags)
        (l.entries.map (TableElt.view m)) := by
      rw [← hrefines]
      exact List.mem_map_of_mem he
    exact value_of_active_injectHeader hle _ hmem hactive

/-- Request memory with two `traceparent` keys and one `x-id` key. -/
def requestMem : Mem :=
  store (store (store (fun _ => 0) 100 TRACEPARENT) 300 TRACEPARENT) 500 [0x78, 0x2d, 0x69, 0x64]

/-- A pool that has memory from 1000 on. -/
def amplePool : Answers := ⟨1000, 2000, 3000, some .newPart⟩

/-- A request with a short `traceparent` in its third part, behind an empty first part. -/
def sentOnce : HeaderList := ⟨[], [[⟨7, ⟨4, 500⟩, ⟨3, 600⟩, 500⟩], [⟨9, ⟨11, 100⟩, ⟨20, 200⟩, 100⟩]]⟩

/-- A request with two `traceparent` headers. -/
def sentTwice : HeaderList := ⟨[⟨9, ⟨11, 100⟩, ⟨55, 200⟩, 100⟩, ⟨9, ⟨11, 300⟩, ⟨55, 400⟩, 300⟩], []⟩

def someTraceId : Octets 16 := ⟨List.replicate 16 1, rfl⟩
def someSpanId : Octets 8 := ⟨List.replicate 8 2, rfl⟩

theorem inject_one_iff_sentOnce : ∃ m' l',
    injectTraceparentHeader amplePool requestMem sentOnce someTraceId someSpanId 1 = .ok (m', l') ∧
      Injected (buildTraceparentValue someTraceId someSpanId 1) requestMem sentOnce.entries m'
        l'.entries := by
  have hunshared : Unshared sentOnce.entries := ⟨by decide, by decide⟩
  have hfresh : amplePool.Fresh sentOnce.entries :=
    ⟨by decide, by decide, by decide, by decide, by decide, by decide, by decide, by decide⟩
  obtain ⟨m', l', hcall, hiff⟩ := inject_one_iff (m := requestMem) (l := sentOnce) (by decide)
    hunshared hfresh someTraceId someSpanId 1
  exact ⟨m', l', hcall, hiff.mpr (by decide)⟩

/-- A client that sends two `traceparent` headers gets both forwarded: the first is rewritten, the
second stays active as it came. -/
theorem second_traceparent_stays : (∀ part ∈ sentTwice.rest, part ≠ []) ∧
    Unshared sentTwice.entries ∧ amplePool.Fresh sentTwice.entries ∧ ∃ m' l',
      injectTraceparentHeader amplePool requestMem sentTwice someTraceId someSpanId 1 =
        .ok (m', l') ∧
      ¬ Injected (buildTraceparentValue someTraceId someSpanId 1) requestMem sentTwice.entries m'
        l'.entries := by
  have hparts : ∀ part ∈ sentTwice.rest, part ≠ [] := by decide
  have hunshared : Unshared sentTwice.entries := ⟨by decide, by decide⟩
  have hfresh : amplePool.Fresh sentTwice.entries :=
    ⟨by decide, by decide, by decide, by decide, by decide, by decide, by decide, by decide⟩
  have htwo : activeCount (sentTwice.entries.map (TableElt.view requestMem)) = 2 := by decide
  obtain ⟨m', l', hcall, hrefines, -⟩ := inject_refines (m := requestMem) hparts hunshared hfresh
    someTraceId someSpanId 1
  refine ⟨hparts, hunshared, hfresh, m', l', hcall, ?_⟩
  intro h
  have hone := h.one
  rw [hrefines, activeCount_injectHeader, htwo] at hone
  omega

end NgxOtel.Traces
