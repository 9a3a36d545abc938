import NgxOtel.Coalesce.Table
import NgxOtel.Reload.Handover

/-!
# Shared-memory zones across reloads

Which rings an exporter drains after a reload: the sizes that `MainConfig::register_logs_zone` and
its siblings register (`config/mod.rs`, `shm/mod.rs`), `check_zone_sizing` (`lib.rs`) and
`get_n_workers` (`drain/mod.rs`), on top of the exporters of `NgxOtel.Reload.step`.

* `Site` — what a reload does not change; `Config` — the `worker_processes` directive of one reload.
* `Cycle` — what one configuration leaves to its workers and to its exporter: the active worker
  count and the zones.  nginx keeps a zone's pages when the registered size is unchanged and maps
  fresh ones otherwise (`remap`).
* `deployStep` — a successful reload, a push by a worker of any cycle, a pop, or a move of an
  exporter.

## Results

* `rings_covered` — when every reload keeps the registered sizes and does not lower
  `worker_processes`, **every ring that holds a record is drained by a running exporter that the
  reloads so far leave in charge**.
* `shrunk_reload_strands`, `resized_reload_strands` — a reload that lowers `worker_processes`, and
  one that changes the registered size, leave a record in a ring that nobody drains.
-/

set_option autoImplicit false

namespace NgxOtel.Reload

open Coalesce (COALESCE_CAPACITY)

/-! ## Sizes -/

/-- What stays fixed: the machine, the layout and the directives other than `worker_processes`. -/
structure Site where
  ncpu : Nat
  /-- `size_of::<ngx_slab_pool_t>()` and `size_of::<WorkerSlots>()` -/
  dataOffset : Nat
  workerSlots : Nat
  metricsEnabled : Bool
  logsEnabled : Bool

/-- `worker_processes`, and whether the directive stands before the `http` block. -/
structure Config where
  workerProcesses : Nat
  beforeHttp : Bool
  deriving DecidableEq, Repr

def RING_HEADER_SIZE : Nat := 32
def DEFAULT_LOG_RING_CAP : Nat := 512 * 1024
def DEFAULT_SPAN_RING_CAP : Nat := 256 * 1024
def USIZE_MAX : Nat := 2 ^ 64 - 1

def ringSizeBytes (cap : Nat) : Nat := RING_HEADER_SIZE + cap

/-- A `CoalesceSlot` takes 24 bytes. -/
def coalesceTableBytes : Nat := COALESCE_CAPACITY * 24

def logsSlotSize (cap : Nat) : Nat := 2 * ringSizeBytes cap + coalesceTableBytes
def spansSlotSize (cap : Nat) : Nat := ringSizeBytes cap

def zoneSizeFor (site : Site) (nWorkers : Nat) : Nat := site.dataOffset + nWorkers * site.workerSlots

def logsZoneSizeFor (site : Site) (nWorkers cap : Nat) : Nat :=
  site.dataOffset + nWorkers * logsSlotSize cap

def spansZoneSizeFor (site : Site) (nWorkers cap : Nat) : Nat :=
  site.dataOffset + nWorkers * spansSlotSize cap

/-- `None` while the directive has not been parsed. -/
def nWorkersFromCf (cfg : Config) : Option Nat :=
  if cfg.beforeHttp ∧ 1 ≤ cfg.workerProcesses then some cfg.workerProcesses else none

def nWorkersToReserve (site : Site) (cfg : Config) : Nat :=
  (nWorkersFromCf cfg).getD (if 0 < site.ncpu then site.ncpu else 1)

def workerProcessesFromCycle (cfg : Config) : Option Nat :=
  if cfg.workerProcesses < 1 then none else some cfg.workerProcesses

/-- The registered sizes; a zone that is not configured has none. -/
structure Sizes where
  metrics : Option Nat
  logs : Option Nat
  spans : Option Nat
  deriving DecidableEq, Repr

/-- What `postconfiguration` registers. -/
def registeredSizes (site : Site) (cfg : Config) : Sizes :=
  let n := nWorkersToReserve site cfg
  { metrics := if site.metricsEnabled then some (zoneSizeFor site n) else none
    logs := if site.logsEnabled then some (logsZoneSizeFor site n DEFAULT_LOG_RING_CAP) else none
    spans := some (spansZoneSizeFor site n DEFAULT_SPAN_RING_CAP) }

/-- `reserved_logs` and `reserved_spans`: the slots a zone has room for. -/
def reservedSlots (site : Site) (slot : Nat) : Option Nat → Nat
  | none => USIZE_MAX
  | some size => if slot = 0 then USIZE_MAX else (size - site.dataOffset) / slot

/-- `reserved_metrics`. -/
def reservedMetrics (site : Site) : Option Nat → Nat
  | none => USIZE_MAX
  | some size => (size - site.dataOffset) / site.workerSlots

/-- `check_zone_sizing`: the active count that it records, or the message that it logs. -/
def checkZoneSizing (site : Site) (cfg : Config) : Except String Nat :=
  let sizes := registeredSizes site cfg
  let actualWorkers := (workerProcessesFromCycle cfg).getD 1
  let minReserved := min (min (reservedMetrics site sizes.metrics)
    (reservedSlots site (logsSlotSize DEFAULT_LOG_RING_CAP) sizes.logs))
    (reservedSlots site (spansSlotSize DEFAULT_SPAN_RING_CAP) sizes.spans)
  if actualWorkers ≤ minReserved then .ok actualWorkers
  else .error ("otel: shm zones were reserved for " ++ toString minReserved ++
    " worker slots (ngx_ncpu at parse time) but worker_processes=" ++ toString actualWorkers ++
    "; move the worker_processes directive BEFORE the http\x7b\x7d block, or reduce it to ≤ " ++
    toString minReserved ++ ", and reload")

/-- `get_n_workers`. -/
def getNWorkers (nActive avail : Nat) (fromAvail : Nat → Nat) : Nat :=
  if 0 < nActive then nActive else fromAvail avail

def logsNWorkersFromZone (cap zoneDataBytes : Nat) : Nat := max (zoneDataBytes / logsSlotSize cap) 1

def spansNWorkersFromZone (cap zoneDataBytes : Nat) : Nat :=
  max (zoneDataBytes / spansSlotSize cap) 1

/-! ## Zones and rings -/

inductive RingKind where
  | access
  | error
  | span
  deriving DecidableEq, Repr

/-- A mapped zone; `pages` names the physical pages. -/
structure Zone where
  size : Nat
  pages : Nat
  deriving DecidableEq, Repr

/-- A ring is found by its kind, the pages of its zone and the id of its worker. -/
structure RingId where
  kind : RingKind
  pages : Nat
  worker : Nat
  deriving DecidableEq, Repr

/-- What a configuration leaves to its workers and its exporter. -/
structure Cycle where
  nActiveWorkers : Nat
  logs : Option Zone
  spans : Option Zone
  deriving DecidableEq, Repr

def Cycle.zone (c : Cycle) : RingKind → Option Zone
  | .access | .error => c.logs
  | .span => c.spans

/-- The ring that worker `worker` of the cycle pushes to. -/
def Cycle.ring (c : Cycle) (kind : RingKind) (worker : Nat) : Option RingId :=
  if worker < c.nActiveWorkers then (c.zone kind).map fun z => ⟨kind, z.pages, worker⟩ else none

/-- How many workers' rings of a kind the cycle's exporter goes through. -/
def Cycle.drainedWorkers (c : Cycle) (site : Site) (z : Zone) : RingKind → Nat
  | .access | .error =>
    getNWorkers c.nActiveWorkers (z.size - site.dataOffset)
      (logsNWorkersFromZone DEFAULT_LOG_RING_CAP)
  | .span =>
    getNWorkers c.nActiveWorkers (z.size - site.dataOffset)
      (spansNWorkersFromZone DEFAULT_SPAN_RING_CAP)

/-- The rings that the cycle's exporter goes through. -/
def Cycle.drains (c : Cycle) (site : Site) (r : RingId) : Bool :=
  match c.zone r.kind with
  | some z => z.pages = r.pages && r.worker < c.drainedWorkers site z r.kind
  | none => false

/-- nginx keeps the pages of a zone whose registered size is unchanged. -/
def remap (old : Option Zone) (size : Option Nat) (fresh : Nat) : Option Zone :=
  size.map fun n =>
    match old with
    | some z => if z.size = n then z else ⟨n, fresh⟩
    | none => ⟨n, fresh⟩

/-- The cycle that a configuration builds on the previous one. -/
def Cycle.next (site : Site) (old : Cycle) (cfg : Config) (nActive fresh : Nat) : Cycle :=
  { nActiveWorkers := nActive
    logs := remap old.logs (registeredSizes site cfg).logs fresh
    spans := remap old.spans (registeredSizes site cfg).spans (fresh + 1) }

/-! ## The deployment -/

/-- The exporters, the cycle of each generation, the records in each ring, and the first page name
not in use. -/
structure Deployment where
  sys : State
  cycles : Nat → Cycle
  pending : RingId → Nat
  fresh : Nat

/-- A move of the deployment. -/
inductive Event where
  /-- a reload that succeeds: `announce_successor`, then the fork -/
  | reload (cfg : Config)
  /-- a worker of cycle `g` pushes a record -/
  | push (g : Nat) (kind : RingKind) (worker : Nat)
  /-- exporter `g` pops a record -/
  | pop (g : Nat) (r : RingId)
  /-- a snapshot or a crash of an exporter, or another move of it -/
  | snapshot (g : Nat)
  | crash (g : Nat)
  | run (g : Nat) (c : Choice)
  deriving DecidableEq, Repr

/-- The lane an exporter is collecting. -/
def Pc.collects : Pc → RingKind → Bool
  | .logsCollect, .access | .logsCollect, .error => true
  | .drainLogsCollect, .access | .drainLogsCollect, .error => true
  | .spansCollect, .span | .drainSpansCollect, .span => true
  | _, _ => false

/-- Choices that end the periodic path; only a superseded exporter is told to quit. -/
def Choice.shutsDown : Choice → Bool
  | .quit | .terminate => true
  | _ => false

/-- `ngx_otel_init_module` on a reload whose fork succeeds. -/
def Deployment.reload (site : Site) (s : Deployment) (cfg : Config) : Option Deployment :=
  match checkZoneSizing site cfg with
  | .error _ => none
  | .ok nActive =>
    (step s.sys .announce).bind fun announced => (step announced .fork).map fun sys =>
      { s with
        sys := sys
        cycles := Function.update s.cycles sys.forked
          (Cycle.next site (s.cycles s.sys.forked) cfg nActive s.fresh)
        fresh := s.fresh + 2 }

/-- The moves of the deployment. -/
def deployStep (site : Site) (s : Deployment) : Event → Option Deployment
  | .reload cfg => s.reload site cfg
  | .push g kind worker =>
    if g ≤ s.sys.forked then
      ((s.cycles g).ring kind worker).map fun r =>
        { s with pending := Function.update s.pending r (s.pending r + 1) }
    else none
  | .pop g r =>
    if (s.sys.exporters g).pc.collects r.kind ∧ (s.cycles g).drains site r ∧ 0 < s.pending r then
      (step s.sys (.run g .pop)).map fun sys =>
        { s with sys := sys, pending := Function.update s.pending r (s.pending r - 1) }
    else none
  | .snapshot g => (step s.sys (.snapshot g)).map fun sys => { s with sys := sys }
  | .crash g => (step s.sys (.crash g)).map fun sys => { s with sys := sys }
  | .run g c =>
    if c = .pop ∨ c.shutsDown ∧ g = s.sys.forked then none
    else (step s.sys (.run g c)).map fun sys => { s with sys := sys }

/-- The first start. -/
def Deployment.start (site : Site) (cfg : Config) : Option Deployment :=
  match checkZoneSizing site cfg with
  | .error _ => none
  | .ok nActive =>
    some { sys := initial
           cycles := fun _ => Cycle.next site ⟨0, none, none⟩ cfg nActive 0
           pending := fun _ => 0
           fresh := 2 }

/-! ## The exporter in charge -/

/-- On the periodic path, or on the way to it. -/
def Pc.ticking : Pc → Bool
  | .booting | .top | .asleep | .logsRetry | .logsCollect | .logsSend | .spansRetry
  | .spansCollect | .spansSend | .metricsLane => true
  | _ => false

/-- The exporter ticks, its latch is clear, and its checks at the present count leave it so. -/
structure InCharge (s : State) (g : Nat) : Prop where
  ticking : (s.exporters g).pc.ticking = true
  clear : (s.exporters g).abdicated = false
  current : (s.exporters g).pc.running = true → s.successorGen ≤ (s.exporters g).myGen

theorem next_ticking {pc pc' : Pc} {c : Choice} (h : pc.next c = some pc')
    (hc : c.shutsDown = false) (hpc : pc.ticking = true) : pc'.ticking = true := by
  cases pc <;> cases c <;>
    simp_all [Pc.next, Pc.collecting, Pc.ticking, Choice.shutsDown]
  all_goals subst h; rfl

/-- The moves of exporters. -/
def Act.ofExporter : Act → Bool
  | .announce | .fork | .rollback => false
  | .snapshot _ | .crash _ | .run _ _ => true

/-- The master's variables change at the master's moves only. -/
theorem step_master {s t : State} {a : Act} (h : step s a = some t) (ha : a.ofExporter = true) :
    t.successorGen = s.successorGen ∧ t.announced = s.announced ∧ t.forked = s.forked := by
  cases step_move h with
  | announce _ | fork _ | rollback _ => cases ha
  | snapshot _ | crash _ | run _ => exact ⟨rfl, rfl, rfl⟩

/-- The latest exporter stays in charge until the next reload: it starts again after a crash, and
its checks compare `successor_gen` with itself. -/
theorem step_inCharge {s t : State} {a : Act} (h : step s a = some t) (ha : a.ofExporter = true)
    (hquit : ∀ c, a = .run s.forked c → c.shutsDown = false) (hs : InCharge s s.forked) :
    InCharge t t.forked := by
  obtain ⟨hgen, -, hforked⟩ := step_master h ha
  obtain ⟨hticking, hclear, hcurrent⟩ := hs
  have hpart := step_part h s.forked
  rw [hforked]
  suffices he : (t.exporters s.forked).pc.ticking = true ∧
      (t.exporters s.forked).abdicated = false ∧
      ((t.exporters s.forked).pc.running = true →
        s.successorGen ≤ (t.exporters s.forked).myGen) from
    ⟨he.1, he.2.1, hgen ▸ he.2.2⟩
  generalize t.exporters s.forked = e at hpart ⊢
  cases hpart with
  | none => exact ⟨hticking, hclear, hcurrent⟩
  | fork heq => omega
  | snapshot _ => exact ⟨rfl, rfl, fun _ => le_rfl⟩
  | crash _ =>
    rw [if_pos rfl]
    exact ⟨rfl, rfl, fun h => by simp [Exporter.boot, Pc.running] at h⟩
  | run hadvance =>
    obtain ⟨-, hnext, hmy, -, habdicated, -⟩ := advance_spec hadvance
    have hle := hcurrent (next_running hnext)
    have hblind : successorAnnounced s.successorGen (s.exporters s.forked).myGen = false := by
      simpa [successorAnnounced] using hle
    refine ⟨next_ticking hnext (hquit _ rfl) hticking, ?_, fun _ => hmy ▸ hle⟩
    simp [habdicated, hclear, hblind]

theorem inCharge_initial : InCharge initial initial.forked := by
  refine ⟨rfl, rfl, ?_⟩
  intro h
  simp [initial, Exporter.boot, Pc.running] at h

/-! ## Coverage -/

/-- Every ring that holds a record is drained by an exporter in charge. -/
def Covered (site : Site) (s : Deployment) : Prop :=
  ∀ r, 0 < s.pending r →
    ∃ g ≤ s.sys.forked, (s.cycles g).drains site r = true ∧ InCharge s.sys g

/-- A reload keeps the registered sizes and does not lower `worker_processes`. -/
def KeepsRings (site : Site) (s : Deployment) : Event → Prop
  | .reload cfg =>
    (registeredSizes site cfg).logs = (s.cycles s.sys.forked).logs.map Zone.size ∧
    (registeredSizes site cfg).spans = (s.cycles s.sys.forked).spans.map Zone.size ∧
    (s.cycles s.sys.forked).nActiveWorkers ≤ (workerProcessesFromCycle cfg).getD 1
  | _ => True

instance (site : Site) (s : Deployment) : (e : Event) → Decidable (KeepsRings site s e)
  | .reload _ => inferInstanceAs (Decidable (_ ∧ _ ∧ _))
  | .push _ _ _ | .pop _ _ | .snapshot _ | .crash _ | .run _ _ => isTrue trivial

theorem checkZoneSizing_ok {site : Site} {cfg : Config} {n : Nat}
    (h : checkZoneSizing site cfg = .ok n) :
    n = (workerProcessesFromCycle cfg).getD 1 ∧ 0 < n := by
  simp only [checkZoneSizing] at h
  split at h
  · cases h
    refine ⟨rfl, ?_⟩
    unfold workerProcessesFromCycle
    split
    · decide
    · simp only [Option.getD_some]; omega
  · cases h

theorem remap_same {old : Option Zone} {size : Option Nat} (fresh : Nat)
    (h : size = old.map Zone.size) : remap old size fresh = old := by
  subst h
  cases old <;> simp [remap]

/-- An exporter goes through the rings of all workers of its cycle. -/
theorem Cycle.drains_ring {c : Cycle} {kind : RingKind} {worker : Nat} {r : RingId} (site : Site)
    (h : c.ring kind worker = some r) : c.drains site r = true := by
  simp only [Cycle.ring, Option.ite_none_right_eq_some, Option.map_eq_some_iff] at h
  obtain ⟨hlt, z, hz, rfl⟩ := h
  have hpos : 0 < c.nActiveWorkers := by omega
  cases kind <;> simp [Cycle.drains, hz, Cycle.drainedWorkers, getNWorkers, hpos, hlt]

/-- The ring of a worker stays one of the cycle's rings in a cycle with the same zones and no fewer
workers. -/
theorem Cycle.ring_mono {c c' : Cycle} {kind : RingKind} {worker : Nat} {r : RingId}
    (hlogs : c.logs = c'.logs) (hspans : c.spans = c'.spans)
    (hle : c.nActiveWorkers ≤ c'.nActiveWorkers) (h : c.ring kind worker = some r) :
    c'.ring kind worker = some r := by
  have hzone : c'.zone kind = c.zone kind := by cases kind <;> simp [Cycle.zone, hlogs, hspans]
  simp only [Cycle.ring, Option.ite_none_right_eq_some] at h ⊢
  exact ⟨Nat.lt_of_lt_of_le h.1 hle, by rw [hzone]; exact h.2⟩

/-- The latest cycle has every ring that any cycle's workers push to. -/
structure Sound (s : Deployment) : Prop where
  charge : InCharge s.sys s.sys.forked
  ring : ∀ g ≤ s.sys.forked, ∀ kind worker r, (s.cycles g).ring kind worker = some r →
    (s.cycles s.sys.forked).ring kind worker = some r
  pushed : ∀ r, 0 < s.pending r →
    ∃ kind worker, (s.cycles s.sys.forked).ring kind worker = some r

theorem Sound.covered {site : Site} {s : Deployment} (h : Sound s) : Covered site s := by
  intro r hr
  obtain ⟨kind, worker, hring⟩ := h.pushed r hr
  exact ⟨s.sys.forked, le_rfl, Cycle.drains_ring site hring, h.charge⟩

theorem reload_spec {site : Site} {s t : Deployment} {cfg : Config}
    (h : s.reload site cfg = some t) :
    ∃ nActive, checkZoneSizing site cfg = .ok nActive ∧ t.sys.forked = s.sys.forked + 1 ∧
      t.sys.exporters (s.sys.forked + 1) = .boot ∧ t.pending = s.pending ∧
      t.cycles = Function.update s.cycles (s.sys.forked + 1)
        (Cycle.next site (s.cycles s.sys.forked) cfg nActive s.fresh) := by
  unfold Deployment.reload at h
  split at h
  case h_1 => cases h
  case h_2 nActive hsize =>
    simp only [Option.bind_eq_some_iff, Option.map_eq_some_iff] at h
    obtain ⟨mid, hannounce, sys, hfork, rfl⟩ := h
    cases step_move hannounce
    cases step_move hfork
    exact ⟨nActive, hsize, rfl, by simp, rfl, rfl⟩

theorem reload_sound {site : Site} {s t : Deployment} {cfg : Config}
    (h : s.reload site cfg = some t) (hs : Sound s) (hkeeps : KeepsRings site s (.reload cfg)) :
    Sound t := by
  obtain ⟨nActive, hsize, hforked, hboot, hpending, hcycles⟩ := reload_spec h
  obtain ⟨hlogs, hspans, hworkers⟩ := hkeeps
  have hlast : t.cycles t.sys.forked =
      ⟨nActive, (s.cycles s.sys.forked).logs, (s.cycles s.sys.forked).spans⟩ := by
    simp only [hforked, hcycles, Function.update_self, Cycle.next, remap_same _ hlogs,
      remap_same _ hspans]
  have hgrown : ∀ kind worker r, (s.cycles s.sys.forked).ring kind worker = some r →
      (t.cycles t.sys.forked).ring kind worker = some r := by
    intro kind worker r hring
    have hmore : (s.cycles s.sys.forked).nActiveWorkers ≤ nActive := by
      rw [(checkZoneSizing_ok hsize).1]; exact hworkers
    rw [hlast]
    exact Cycle.ring_mono (c := s.cycles s.sys.forked) rfl rfl hmore hring
  refine ⟨?_, ?_, ?_⟩
  · rw [hforked]
    exact ⟨by rw [hboot]; rfl, by rw [hboot]; rfl, fun hr => by
      simp [hboot, Exporter.boot, Pc.running] at hr⟩
  · intro g hg kind worker r hring
    by_cases hlatest : g = t.sys.forked
    · exact hlatest ▸ hring
    · have hold : g ≤ s.sys.forked := by omega
      rw [hcycles, Function.update_of_ne (by omega)] at hring
      exact hgrown kind worker r (hs.ring g hold kind worker r hring)
  · intro r hr
    obtain ⟨kind, worker, hring⟩ := hs.pushed r (hpending ▸ hr)
    exact ⟨kind, worker, hgrown kind worker r hring⟩

/-- A move of an exporter changes nothing that the rings depend on. -/
theorem exporter_sound {s : Deployment} {sys : State} {a : Act} {pending : RingId → Nat}
    (h : step s.sys a = some sys) (hs : Sound s) (ha : a.ofExporter = true)
    (hquit : ∀ c, a = .run s.sys.forked c → c.shutsDown = false)
    (hpending : ∀ r, pending r ≤ s.pending r) :
    Sound { s with sys := sys, pending := pending } := by
  obtain ⟨-, -, hforked⟩ := step_master h ha
  refine ⟨step_inCharge h ha hquit hs.charge, ?_, ?_⟩
  · rw [hforked]; exact hs.ring
  · intro r hr
    rw [hforked]; exact hs.pushed r (Nat.lt_of_lt_of_le hr (hpending r))

theorem step_sound {site : Site} {s t : Deployment} {e : Event} (h : deployStep site s e = some t)
    (hs : Sound s) (hkeeps : KeepsRings site s e) : Sound t := by
  cases e with
  | reload cfg => exact reload_sound h hs hkeeps
  | push g kind worker =>
    simp only [deployStep, Option.ite_none_right_eq_some, Option.map_eq_some_iff] at h
    obtain ⟨hg, r, hring, rfl⟩ := h
    refine ⟨hs.charge, hs.ring, ?_⟩
    intro r' hr'
    by_cases heq : r' = r
    · exact ⟨kind, worker, heq ▸ hs.ring g hg kind worker r hring⟩
    · exact hs.pushed r' (by simpa [Function.update_of_ne heq] using hr')
  | pop g r =>
    simp only [deployStep, Option.ite_none_right_eq_some, Option.map_eq_some_iff] at h
    obtain ⟨-, sys, hstep, rfl⟩ := h
    refine exporter_sound hstep hs rfl ?_ ?_
    · intro c hc
      cases hc; rfl
    · intro r'
      by_cases heq : r' = r
      · subst heq; simp
      · simp [Function.update_of_ne heq]
  | snapshot g =>
    simp only [deployStep, Option.map_eq_some_iff] at h
    obtain ⟨sys, hstep, rfl⟩ := h
    exact exporter_sound hstep hs rfl nofun fun _ => le_rfl
  | crash g =>
    simp only [deployStep, Option.map_eq_some_iff] at h
    obtain ⟨sys, hstep, rfl⟩ := h
    exact exporter_sound hstep hs rfl nofun fun _ => le_rfl
  | run g c =>
    simp only [deployStep, Option.ite_none_left_eq_some, Option.map_eq_some_iff] at h
    obtain ⟨hc, sys, hstep, rfl⟩ := h
    refine exporter_sound hstep hs rfl ?_ fun _ => le_rfl
    intro c' hc'
    cases hc'
    simpa using fun hdown => hc (.inr ⟨hdown, rfl⟩)

theorem start_sound {site : Site} {cfg : Config} {s : Deployment}
    (h : Deployment.start site cfg = some s) : Sound s := by
  unfold Deployment.start at h
  split at h
  · cases h
  · cases h
    exact ⟨inCharge_initial, fun _ _ _ _ _ hring => hring, fun r hr => absurd hr (Nat.lt_irrefl 0)⟩

/-- **Reloads that keep the registered sizes and never lower `worker_processes` leave no ring
behind**: in every state of every run of such reloads, a ring that holds a record is drained by a
ticking exporter that the reloads so far leave in charge. -/
theorem rings_covered {site : Site} {cfg : Config} {s t : Deployment} {events : List Event}
    (hstart : Deployment.start site cfg = some s)
    (hrun : Run.exec (deployStep site) s events = some t)
    (hkeeps : Run.Along (deployStep site) (KeepsRings site) s events) : Covered site t :=
  (Run.exec_invariant_along (fun _ _ _ hs hk h => step_sound h hs hk) hkeeps hrun
    (start_sound hstart)).covered

/-- A machine of two processors. -/
def twoCpus : Site := ⟨2, 256, 4096, true, true⟩

/-- The state that a run from the first start with `cfg` reaches. -/
def deployed (site : Site) (cfg : Config) (events : List Event) : Option Deployment :=
  (Deployment.start site cfg).bind (Run.exec (deployStep site) · events)

/-- What a reader needs to see that the only record of a run with one reload is lost: the record is
in `r`, exporter 0 is superseded, and exporter 1 does not drain `r`. -/
def stranded (site : Site) (r : RingId) (t : Deployment) : Bool :=
  0 < t.pending r && t.sys.forked = 1 && (t.sys.exporters 0).pc.running &&
    (t.sys.exporters 0).myGen < t.sys.successorGen && !(t.cycles 1).drains site r

theorem not_covered_of_stranded {site : Site} {r : RingId} {t : Deployment}
    (h : stranded site r t = true) : ¬ Covered site t := by
  simp only [stranded, Bool.and_eq_true, decide_eq_true_eq, Bool.not_eq_true'] at h
  obtain ⟨⟨⟨⟨hr, hforked⟩, hrunning⟩, hbehind⟩, hdrains⟩ := h
  intro hcovered
  obtain ⟨g, hg, hdrained, hcharge⟩ := hcovered r hr
  have hcases : g = 0 ∨ g = 1 := by omega
  rcases hcases with rfl | rfl
  · have := hcharge.current hrunning
    omega
  · simp [hdrains] at hdrained

/-- Worker 1 has logged a request when a reload lowers `worker_processes` from 2 to 1. -/
def shrinkingEvents : List Event :=
  [.snapshot 0, .push 0 .access 1, .reload ⟨1, false⟩]

theorem shrunk_reload_strands : ∃ t, deployed twoCpus ⟨2, false⟩ shrinkingEvents = some t ∧
    ¬ Covered twoCpus t := by
  have hends : (deployed twoCpus ⟨2, false⟩ shrinkingEvents).map
      (stranded twoCpus ⟨.access, 0, 1⟩) = some true := by decide +kernel
  obtain ⟨t, hrun, ht⟩ := Option.map_eq_some_iff.mp hends
  exact ⟨t, hrun, not_covered_of_stranded ht⟩

/-- Worker 0 has a span in its ring when a reload raises `worker_processes`, which stands before the
`http` block, from 1 to 2: the zones are mapped anew. -/
def resizingEvents : List Event :=
  [.snapshot 0, .push 0 .span 0, .reload ⟨2, true⟩]

theorem resized_reload_strands : ∃ t, deployed twoCpus ⟨1, true⟩ resizingEvents = some t ∧
    ¬ Covered twoCpus t := by
  have hends : (deployed twoCpus ⟨1, true⟩ resizingEvents).map
      (stranded twoCpus ⟨.span, 1, 0⟩) = some true := by decide +kernel
  obtain ⟨t, hrun, ht⟩ := Option.map_eq_some_iff.mp hends
  exact ⟨t, hrun, not_covered_of_stranded ht⟩

/-- A reload raises `worker_processes` from 1 to 2 within the reserved slots. -/
def growingEvents : List Event :=
  [.snapshot 0, .push 0 .error 0, .reload ⟨2, false⟩, .push 1 .error 1]

theorem rings_covered_growingEvents : ∃ s t, Deployment.start twoCpus ⟨1, false⟩ = some s ∧
    Run.exec (deployStep twoCpus) s growingEvents = some t ∧ t.pending ⟨.error, 0, 1⟩ = 1 ∧
    Covered twoCpus t := by
  have hends : (Deployment.start twoCpus ⟨1, false⟩).map (fun s =>
      (decide (Run.Along (deployStep twoCpus) (KeepsRings twoCpus) s growingEvents),
        (Run.exec (deployStep twoCpus) s growingEvents).map (·.pending ⟨.error, 0, 1⟩))) =
      some (true, some 1) := by decide +kernel
  obtain ⟨s, hstart, hs⟩ := Option.map_eq_some_iff.mp hends
  simp only [Prod.mk.injEq, decide_eq_true_eq] at hs
  obtain ⟨t, hrun, hpending⟩ := Option.map_eq_some_iff.mp hs.2
  exact ⟨s, t, hstart, hrun, hpending, rings_covered hstart hrun hs.1⟩

end NgxOtel.Reload
