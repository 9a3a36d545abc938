import NgxOtel.Coalesce.Runs
import NgxOtel.ErrorLog.Record
import NgxOtel.Ring.Calls

/-!
# One worker's error path

The writer hook `ngx_otel_error_writer` (`logs/error_writer.rs`) and the error half of
`collect_log_records` (`drain/mod.rs`), interleaved in whole steps: a writer event, the drain of the
coalescer table, one `pop_into`, the orphan pass.

* `Entry` — a record in the error ring, with the whole line that it was made from.
* `Phase` — where the exporter's collection stands.
* `step` — one step of the worker or of the exporter.
* `State.events`, `State.exported`, `State.lost` — the history: the templates of the lines logged,
  the records exported, and the templates of the untracked lines that the ring refused.

## Results

* `push_entry`, `pop_entry` — **the byte ring does what the queue of this model does.**
-/

set_option autoImplicit false

namespace NgxOtel.ErrorLog

open Word Coalesce DataModel

variable {F : Type}

/-- What makes two lines the same to the coalescer: severity and stable core. -/
abbrev Template := UInt8 × Bytes

def templateOf (severity : UInt8) (line : Bytes) : Template := (severity, stableCore line)

/-- The pair under which the coalescer table holds a template. -/
def Template.pair (template : Template) : Pair := (coalesceKey template.1 template.2, template.1)

/-- A record in the error ring; its bytes carry the beginning of the line only. -/
structure Entry where
  tsNs : UInt64
  ngxLevel : UInt8
  templateHash : UInt64
  line : Bytes

def Entry.bytes (e : Entry) : Bytes := errorRecord e.tsNs e.ngxLevel e.templateHash e.line

def Entry.template (e : Entry) : Template := templateOf e.ngxLevel e.line

/-! ## The machine -/

/-- The locals of a collection: `now`, `counts_vec`, `consumed_hashes`, `drained`. -/
structure Collection where
  now : UInt64
  counts : Counts
  consumed : List UInt64
  drained : Nat

inductive Phase where
  | idle
  | popping (c : Collection)
  /-- the ring was found empty -/
  | orphaning (c : Collection)

/-- What an exported record stands for: a line of a template, or a count of the table. -/
inductive Origin where
  | line (template : Template)
  | orphan (p : Pair)

structure Exported (F : Type) where
  record : LogRecord F
  origin : Origin

structure State (F : Type) where
  history : History
  ring : List Entry
  phase : Phase
  events : List Template
  exported : List (Exported F)
  lost : List Template

def State.start : State F := ⟨.start, [], .idle, [], [], []⟩

/-- A step of the worker or of the exporter. -/
inductive Act where
  | event (tsNs : UInt64) (severity : UInt8) (line : Bytes)
  | drain (now : UInt64)
  | pop
  | orphan

def MAX_ERROR_RECORDS_PER_WORKER_PER_DRAIN : Nat := 50000

/-- The room left in a ring of `cap` bytes. -/
def State.fits (cap : Nat) (s : State F) (e : Entry) : Bool :=
  Ring.fits cap (s.ring.map Entry.bytes) e.bytes

/-- `push_error_record`; an untracked line that is refused is lost without a trace. -/
def State.pushErrorRecord (cap : Nat) (s : State F) (e : Entry) : State F :=
  if s.fits cap e then { s with ring := s.ring ++ [e] }
  else if e.templateHash = 0 then { s with lost := s.lost ++ [e.template] }
  else s

/-- The part of `ngx_otel_error_writer` behind its guards. -/
def State.event (cap : Nat) (s : State F) (tsNs : UInt64) (severity : UInt8) (line : Bytes) :
    State F :=
  let logged := { s with history := s.history.call severity line
                         events := s.events ++ [templateOf severity line] }
  match (coalesce s.history.table severity line true).1 with
  | .coalesced => logged
  | .emitVerbatim templateHash => logged.pushErrorRecord cap ⟨tsNs, severity, templateHash, line⟩

/-- The body of the pop loop: only a record that parses marks its hash consumed. -/
def State.popped (dec : Decoding F) (s : State F) (c : Collection) (e : Entry)
    (rest : List Entry) : State F :=
  match parseErrorRecordConsuming dec e.bytes c.now c.counts with
  | (some lr, consumed) =>
    { s with
      ring := rest
      phase := .popping { c with consumed := consumed.toList ++ c.consumed, drained := c.drained + 1 }
      exported := s.exported ++ [⟨lr, .line e.template⟩] }
  | (none, _) => { s with ring := rest, phase := .popping { c with drained := c.drained + 1 } }

/-- The synthetic records of the orphan pass. -/
def State.orphaned (s : State F) (c : Collection) : State F :=
  { s with
    phase := .idle
    exported := s.exported ++ List.zipWith Exported.mk (orphanPass c.now c.counts c.consumed).1
      ((orphans c.counts c.consumed).map fun x => .orphan (x.1, x.2.1)) }

/-- The steps, the exporter's in the order of `collect_log_records`. -/
def step (dec : Decoding F) (cap : Nat) (s : State F) : Act → Option (State F)
  | .event tsNs severity line => some (s.event cap tsNs severity line)
  | .drain now =>
    match s.phase with
    | .idle =>
      some { s with history := s.history.drain
                    phase := .popping ⟨now, (drainCoalesceTable s.history.table).1, [], 0⟩ }
    | _ => none
  | .pop =>
    match s.phase with
    | .popping c =>
      if c.drained < MAX_ERROR_RECORDS_PER_WORKER_PER_DRAIN then
        match s.ring with
        | [] => some { s with phase := .orphaning c }
        | e :: rest => some (s.popped dec c e rest)
      else none
    | _ => none
  | .orphan =>
    match s.phase with
    | .orphaning c => some (s.orphaned c)
    | .popping c =>
      if c.drained < MAX_ERROR_RECORDS_PER_WORKER_PER_DRAIN then none else some (s.orphaned c)
    | .idle => none

/-! ## The byte ring below -/

section ByteRing

variable {cap : Nat} {r : Ring.State}

/-- A byte ring between calls that holds the entries of the model. -/
structure Holds (cap : Nat) (r : Ring.State) (ring : List Entry) : Prop where
  inv : Ring.Inv cap r
  push : r.push = none
  pop : r.pop = none
  queue : r.queue = ring.map Entry.bytes

theorem length_bytes_lt (e : Entry) : e.bytes.length < 2 ^ 32 := by
  unfold Entry.bytes
  rw [length_errorRecord]
  simp only [ERROR_RECORD_HDR, MAX_ERROR_BODY_LEN]
  omega

/-- **A `push` of the byte ring does what `pushErrorRecord` does.** -/
theorem push_entry (hcap : 0 < cap) {s : State F} (h : Holds cap r s.ring) (e : Entry)
    (hbytes : (Ring.stream r.published).length + Ring.total e.bytes < 2 ^ 64)
    (hrefused : r.refused + 1 < 2 ^ 64) :
    ∃ k t, Run.exec (Ring.step cap) r (.callPush e.bytes :: List.replicate k .producer) = some t ∧
      Holds cap t (s.pushErrorRecord cap e).ring := by
  obtain ⟨k, t, hrun, hinv, hret, hqueue⟩ :=
    Ring.push_call hcap h.inv h.push (length_bytes_lt e) hbytes hrefused
  refine ⟨k, t, hrun, hinv, hret.push, hret.pop.trans h.pop, ?_⟩
  rw [hqueue, h.queue]
  unfold State.pushErrorRecord State.fits
  split
  · simp
  · split <;> rfl

/-- **A `pop_into` of the byte ring returns the bytes of the first entry**, if there is one. -/
theorem pop_entry (hcap : 0 < cap) {ring : List Entry} (h : Holds cap r ring)
    (hcounted : r.Counted) :
    ∃ k t c, Run.exec (Ring.step cap) r (.callPop [] :: List.replicate k .consumer) = some t ∧
      t.pops = r.pops ++ [c] ∧ c.popped? = ring.head?.map Entry.bytes ∧ Holds cap t ring.tail := by
  obtain ⟨k, t, c, hrun, hinv, hpop, hpush, -, hpops, hhead, htail⟩ :=
    Ring.pop_call hcap [] h.inv h.pop hcounted
  refine ⟨k, t, c, hrun, hpops, ?_, hinv, hpush.trans h.push, hpop, ?_⟩
  · rw [hhead, h.queue, List.head?_map]
  · rw [htail, h.queue, List.map_tail]

end ByteRing

end NgxOtel.ErrorLog
