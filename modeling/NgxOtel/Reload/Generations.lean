import NgxOtel.Lib.Run
import NgxOtel.Lib.Word
import Mathlib.Logic.Function.Basic

/-!
# Exporter generations

The master and the exporters of successive reloads as processes that move one at a time:
`ngx_otel_init_module` (`lib.rs`), `ControlShm` (`exporter/control_shm.rs`), `export_loop` and
`periodic_tick` (`drain/mod.rs`), `graceful_drain` and `successor_announced` (`drain/graceful.rs`).

On a reload the master bumps `successor_gen`, then forks the exporter of the next generation; if the
fork fails it takes the bump back.  An exporter remembers in `my_gen` the value it found when it
started, and leaves the rings to its successor once `successor_gen > my_gen`.

* `Pc` — the points at which an exporter is suspended; every `.await` is one of them.  The
  generation of an exporter is its index: 0 for the first one, `n` for the one of the `n`th fork.
* `Exporter.advance` — what an exporter does up to its next suspension.  Everything else about it
  (the sends, deferrals, shutdown flags and configuration) is the environment's `Choice`.
* `step` — one move of the master or of one exporter.
* `State.pops`, `State.checks` — the history: who popped a ring or drained a coalescer table, and
  what each `successor_announced` check returned.
-/

set_option autoImplicit false

namespace NgxOtel.Reload

open Word

/-- Where an exporter is suspended. -/
inductive Pc where
  /-- not forked yet -/
  | unborn
  /-- started, crash back-off and set-up included, before the `my_gen` snapshot -/
  | booting
  /-- the top of the loop in `export_loop` -/
  | top
  /-- the chunked sleep of `periodic_tick` -/
  | asleep
  /-- the retry sends, the ring pops and the fresh send of the logs lane -/
  | logsRetry
  | logsCollect
  | logsSend
  | spansRetry
  | spansCollect
  | spansSend
  /-- the metrics lane, which pops no ring -/
  | metricsLane
  /-- `graceful_drain`, lane by lane -/
  | drainMetrics
  | drainLogs
  | drainLogsCollect
  | drainLogsSend
  | drainSpans
  | drainSpansCollect
  | drainSpansSend
  | gone
  deriving DecidableEq, Repr

/-- An exporter's locals; `snapForked` records how many forks had succeeded at its snapshot. -/
structure Exporter where
  pc : Pc
  myGen : Nat
  abdicated : Bool
  hasSuccessor : Bool
  snapForked : Nat
  deriving DecidableEq, Repr

/-- A process that has just started. -/
def Exporter.boot : Exporter := ⟨.booting, 0, false, false, 0⟩

/-- `successor_announced`. -/
def successorAnnounced (successorGen myGen : Nat) : Bool := myGen < successorGen

/-- What the environment decides when an exporter is resumed. -/
inductive Choice where
  /-- go on -/
  | go
  /-- `ngx_quit` or `ngx_terminate` is set at the next check -/
  | quit
  | terminate
  /-- collect the lane's rings, or not: deferred, not configured, or no zone -/
  | collect
  | skip
  /-- pop one ring record or drain one coalescer table -/
  | pop
  /-- the sleep interval is over -/
  | boundary
  deriving DecidableEq, Repr

/-- Where a shutdown is noticed. -/
def Pc.interruptible : Pc → Bool
  | .top | .asleep | .logsRetry | .logsSend | .spansRetry | .spansSend => true
  | _ => false

/-- Where rings are popped. -/
def Pc.collecting : Pc → Bool
  | .logsCollect | .spansCollect | .drainLogsCollect | .drainSpansCollect => true
  | _ => false

/-- The control flow of an exporter. -/
def Pc.next : Pc → Choice → Option Pc
  | .top, .go => some .asleep
  | .asleep, .go => some .logsRetry
  | .logsRetry, .collect => some .logsCollect
  | .logsRetry, .skip => some .spansRetry
  | .logsCollect, .go => some .logsSend
  | .logsSend, .go => some .spansRetry
  | .spansRetry, .collect => some .spansCollect
  | .spansRetry, .skip => some .spansSend
  | .spansCollect, .go => some .spansSend
  | .spansSend, .go => some .asleep
  | .spansSend, .boundary => some .metricsLane
  | .metricsLane, .go => some .top
  | .drainMetrics, .go => some .drainLogs
  | .drainLogs, .collect => some .drainLogsCollect
  | .drainLogs, .skip => some .drainSpans
  | .drainLogsCollect, .go => some .drainLogsSend
  | .drainLogsSend, .go => some .drainSpans
  | .drainSpans, .collect => some .drainSpansCollect
  | .drainSpans, .skip => some .gone
  | .drainSpansCollect, .go => some .drainSpansSend
  | .drainSpansSend, .go => some .gone
  | pc, .pop => if pc.collecting then some pc else none
  | pc, .quit => if pc.interruptible then some .drainMetrics else none
  | pc, .terminate => if pc.interruptible then some .gone else none
  | _, _ => none

/-- The guards of the collections: the latch in the periodic path, the check made at its start in
`graceful_drain`. -/
def Exporter.barred (e : Exporter) (c : Choice) : Bool :=
  match e.pc, c with
  | .logsRetry, .collect | .spansRetry, .collect => e.abdicated
  | .drainLogs, .collect | .drainSpans, .collect => e.hasSuccessor
  | _, _ => false

/-- Run up to the next suspension, with `announced` as the result of the check on the way, if there
is one.  The latch is one-way. -/
def Exporter.advance (e : Exporter) (announced : Bool) (c : Choice) : Option Exporter :=
  if e.barred c then none
  else (e.pc.next c).map fun pc =>
    { e with
      pc := pc
      abdicated := e.abdicated || (e.pc = .asleep && c = .go && announced)
      hasSuccessor := if c = .quit then announced else e.hasSuccessor }

/-- Whether the run up to the next suspension makes a check: a tick of an exporter that has not
abdicated, and the start of `graceful_drain`. -/
def Exporter.makesCheck (e : Exporter) : Choice → Bool
  | .go => e.pc = .asleep && !e.abdicated
  | .quit => e.pc.interruptible
  | _ => false

/-! ## The system -/

/-- A `successor_announced` check of generation `gen`, when `forked` forks had succeeded. -/
structure Check where
  gen : Nat
  forked : Nat
  result : Bool
  deriving DecidableEq, Repr

/-- `announced`: the master is between `announce_successor` and the outcome of the fork. -/
structure State where
  successorGen : Nat
  announced : Bool
  forked : Nat
  exporters : Nat → Exporter
  pops : List Nat
  checks : List Check

/-- A move of the master or of an exporter. -/
inductive Act where
  | announce
  | fork
  | rollback
  | snapshot (g : Nat)
  /-- the process dies; the master respawns it unless a reload has replaced it -/
  | crash (g : Nat)
  | run (g : Nat) (c : Choice)
  deriving DecidableEq, Repr

/-- The processes that exist. -/
def Pc.alive : Pc → Bool
  | .unborn | .gone => false
  | _ => true

/-- Resume exporter `g`. -/
def State.resume (s : State) (g : Nat) (c : Choice) : Option State :=
  let e := s.exporters g
  let announced := successorAnnounced s.successorGen e.myGen
  (e.advance announced c).map fun e' =>
    { s with exporters := Function.update s.exporters g e'
             pops := if c = .pop then s.pops ++ [g] else s.pops
             checks := if e.makesCheck c then s.checks ++ [⟨g, s.forked, announced⟩]
               else s.checks }

/-- The moves of the system. -/
def step (s : State) : Act → Option State
  | .announce =>
    if s.announced then none
    else some { s with announced := true, successorGen := addW 64 s.successorGen 1 }
  | .fork =>
    if s.announced then
      some { s with announced := false, forked := s.forked + 1,
                    exporters := Function.update s.exporters (s.forked + 1) .boot }
    else none
  | .rollback =>
    if s.announced then
      some { s with announced := false, successorGen := subW 64 s.successorGen 1 }
    else none
  | .snapshot g =>
    if (s.exporters g).pc = .booting then
      some { s with exporters := Function.update s.exporters g
                      ⟨.top, s.successorGen, false, false, s.forked⟩ }
    else none
  | .crash g =>
    if (s.exporters g).pc.alive then
      some { s with exporters := Function.update s.exporters g
                      (if g = s.forked then .boot else { s.exporters g with pc := .gone }) }
    else none
  | .run g c => s.resume g c

/-- The first start: `successor_gen` is 0 and the exporter of generation 0 is starting. -/
def initial : State :=
  { successorGen := 0, announced := false, forked := 0,
    exporters := Function.update (fun _ => ⟨.unborn, 0, false, false, 0⟩) 0 .boot,
    pops := [], checks := [] }

end NgxOtel.Reload
