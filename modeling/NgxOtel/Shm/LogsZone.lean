import NgxOtel.Lib.Memory
import NgxOtel.Lib.Tiling
import NgxOtel.Reload.Zones

/-!
# The layout of the logs zone

`shm/mod.rs`: the logs zone holds, behind the slab-pool header and for every worker, an access
ring, an error ring and a coalescer table.  `logs_shm_zone_init` lays the zone out from the
configuration and stamps the capacity into every ring header; the accessors of the workers and of
the exporter compute their addresses from the capacity they read back from the first header.

* `ringSizeBytes`, `logsSlotSize`, `logsZoneSizeFor`, `logsNWorkersFromZone` — sizes in `usize`
  arithmetic; `Reload.logsSlotSize` and its siblings are the same without overflow.
* `logsShmZoneInit` — what the callback does to the zone, on a fresh start and on a reload.
* `logsAccessRing`, `logsErrorRing`, `logsErrorRingPtr`, `logsCoalesceTable` — the accessors;
  an address is an offset from the start of the zone.
* `sections` — the regions a worker's accessors lead to, each ring as long as its header says.

## Results

* `stampCaps_spec` — the stamping loop leaves the capacity in every header of its slots.
* `logs_zone_layout` — **after a fresh start the regions of all workers tile the zone**.
-/

set_option autoImplicit false

namespace NgxOtel.Shm

open Word Memory Tiling
open Reload (RING_HEADER_SIZE coalesceTableBytes)

/-! ## Sizes -/

def ringSizeBytes (cap : Nat) : Nat := addW 64 RING_HEADER_SIZE cap

def logsSlotSize (cap : Nat) : Nat := addW 64 (mulW 64 2 (ringSizeBytes cap)) coalesceTableBytes

def logsZoneSizeFor (dataOffset nWorkers cap : Nat) : Nat :=
  addW 64 dataOffset (mulW 64 nWorkers (logsSlotSize cap))

/-- `checked_div`: `none` for a divisor 0. -/
def checkedDiv (a b : Nat) : Option Nat := if b = 0 then none else some (a / b)

def logsNWorkersFromZone (zoneDataBytes cap : Nat) : Nat :=
  max ((checkedDiv zoneDataBytes (logsSlotSize cap)).getD 0) 1

/-! ## Initialisation -/

/-- `ZoneInitData`; `cycle` is the `worker_processes` of the cycle that `cycle_addr` points at,
`none` when the cycle or its core configuration is null. -/
structure ZoneInitData where
  ringCap : Nat
  cycle : Option Int
  deriving DecidableEq, Repr

/-- What the callback reads of `ngx_shm_zone_t`. -/
structure ShmZone where
  size : Nat
  data : Option ZoneInitData
  deriving DecidableEq, Repr

/-- `wp_from_cycle`. -/
def wpFromCycle (cycle : Option Int) : Option Nat :=
  match cycle with
  | none => none
  | some wp => if 1 ≤ wp then some wp.toNat else none

/-- Where `WorkerSignalRingHeader` holds `cap`, behind three words. -/
def CAP_OFFSET : Nat := 24

/-- One turn of the stamping loop. -/
def stampCap (base cap slotSz : Nat) (m : Mem) (w : Nat) : Mem :=
  let slotOff := mulW 64 w slotSz
  let m := storeWord m (base + slotOff + CAP_OFFSET) cap
  storeWord m (base + addW 64 slotOff (ringSizeBytes cap) + CAP_OFFSET) cap

/-- Stamp `cap` into the ring headers of the first `n` slots. -/
def stampCaps (base cap slotSz n : Nat) (m : Mem) : Mem :=
  (List.range n).foldl (stampCap base cap slotSz) m

/-- The slots that get initialised. -/
def nActive (zid : ZoneInitData) (zoneDataBytes slotSz : Nat) : Nat :=
  let nReserved := zoneDataBytes / slotSz
  max (min ((wpFromCycle zid.cycle).getD nReserved) nReserved) 1

/-- `logs_shm_zone_init`; `oldData` says whether the callback gets the data of an old zone. -/
def logsShmZoneInit (dataOffset : Nat) (zone : ShmZone) (oldData : Bool) (m : Mem) : Mem :=
  let zoneDataBytes := zone.size - dataOffset
  if oldData then
    -- the pages and the ring offsets carry over; only the capacities are stamped
    match zone.data with
    | none => m
    | some zid =>
      let slotSz := logsSlotSize zid.ringCap
      if slotSz = 0 ∨ zoneDataBytes = 0 then m
      else stampCaps dataOffset zid.ringCap slotSz (nActive zid zoneDataBytes slotSz) m
  else if zoneDataBytes = 0 then m
  else
    match zone.data with
    | none => m
    | some zid =>
      let slotSz := logsSlotSize zid.ringCap
      if slotSz = 0 then m
      else
        let n := nActive zid zoneDataBytes slotSz
        stampCaps dataOffset zid.ringCap slotSz n (fill m dataOffset (mulW 64 n slotSz) 0)

/-! ## Accessors -/

/-- `WorkerSignalRing::cap` of the ring whose header is at `ring`. -/
def ringCap (m : Mem) (ring : Nat) : Nat := loadWord m (ring + CAP_OFFSET)

/-- `logs_zone_cap`. -/
def logsZoneCap (m : Mem) (base : Nat) : Nat := ringCap m base

def strideCap (m : Mem) (base cap : Nat) : Nat :=
  let hdrCap := logsZoneCap m base
  if hdrCap > 0 then hdrCap else cap

def logsAccessRing (m : Mem) (base workerId cap : Nat) : Nat :=
  let strideCap := strideCap m base cap
  base + mulW 64 workerId (logsSlotSize strideCap)

def logsErrorRing (m : Mem) (base workerId cap : Nat) : Nat :=
  let strideCap := strideCap m base cap
  let slotOff := mulW 64 workerId (logsSlotSize strideCap)
  base + addW 64 slotOff (ringSizeBytes strideCap)

def logsErrorRingPtr (m : Mem) (base workerId cap : Nat) : Nat :=
  let strideCap := strideCap m base cap
  let slotOff := mulW 64 workerId (logsSlotSize strideCap)
  base + addW 64 slotOff (ringSizeBytes strideCap)

def logsCoalesceTable (m : Mem) (base workerId cap : Nat) : Nat :=
  let strideCap := strideCap m base cap
  let slotOff := mulW 64 workerId (logsSlotSize strideCap)
  base + addW 64 slotOff (mulW 64 2 (ringSizeBytes strideCap))

/-- The header of a ring and the payload behind it. -/
def ringRegions (m : Mem) (ring : Nat) : List Region :=
  [⟨ring, RING_HEADER_SIZE⟩, ⟨ring + RING_HEADER_SIZE, ringCap m ring⟩]

/-- What the accessors give a worker. -/
def sections (m : Mem) (base cap workerId : Nat) : List Region :=
  ringRegions m (logsAccessRing m base workerId cap) ++
    (ringRegions m (logsErrorRing m base workerId cap) ++
      [⟨logsCoalesceTable m base workerId cap, coalesceTableBytes⟩])

/-! ## The arithmetic stays below `2 ^ 64` -/

/-- A zone whose size is below `2 ^ 63`. -/
structure Fits (dataOffset n cap : Nat) : Prop where
  workers : 1 ≤ n
  size : dataOffset + n * Reload.logsSlotSize cap < 2 ^ 63

section Sizes

variable {dataOffset n cap : Nat}

theorem slotSize_eq (cap : Nat) : Reload.logsSlotSize cap = 2 * cap + 6208 := by
  show 2 * (32 + cap) + 256 * 24 = _
  omega

/-- The slots of the workers follow one another inside the zone. -/
theorem slot_end_le {w : Nat} (size : Nat) (hw : w < n) : w * size + size ≤ n * size := by
  rw [← Nat.succ_mul]
  exact Nat.mul_le_mul_right size hw

variable (h : Fits dataOffset n cap)
include h

theorem Fits.slot_lt : Reload.logsSlotSize cap < 2 ^ 63 := by
  have hone := Nat.mul_le_mul_right (Reload.logsSlotSize cap) h.workers
  have hsize := h.size
  omega

theorem Fits.ringSizeBytes_eq : ringSizeBytes cap = 32 + cap := by
  have hslot := h.slot_lt
  rw [slotSize_eq] at hslot
  exact addW_of_lt (by show 32 + cap < _; omega)

theorem Fits.logsSlotSize_eq : logsSlotSize cap = Reload.logsSlotSize cap := by
  have hslot := h.slot_lt
  rw [slotSize_eq] at hslot ⊢
  have htwo : mulW 64 2 (32 + cap) = 2 * (32 + cap) := mulW_of_lt (by omega)
  have htable : coalesceTableBytes = 6144 := rfl
  rw [logsSlotSize, h.ringSizeBytes_eq, htwo, htable, addW_of_lt (by omega)]
  omega

theorem Fits.mulW_slot {w : Nat} (hw : w ≤ n) :
    mulW 64 w (logsSlotSize cap) = w * Reload.logsSlotSize cap := by
  have hle := Nat.mul_le_mul_right (Reload.logsSlotSize cap) hw
  have hsize := h.size
  rw [h.logsSlotSize_eq, mulW_of_lt (by omega)]

theorem Fits.logsZoneSizeFor_eq :
    logsZoneSizeFor dataOffset n cap = dataOffset + n * Reload.logsSlotSize cap := by
  have hsize := h.size
  rw [logsZoneSizeFor, h.mulW_slot (Nat.le_refl n), addW_of_lt (by omega)]

/-- The offsets within a slot. -/
theorem Fits.addW_slot {w k : Nat} (hw : w < n) (hk : k ≤ Reload.logsSlotSize cap) :
    addW 64 (w * Reload.logsSlotSize cap) k = w * Reload.logsSlotSize cap + k := by
  have hle := slot_end_le (Reload.logsSlotSize cap) hw
  have hsize := h.size
  exact addW_of_lt (by omega)

end Sizes

/-! ## The stamps -/

section Stamps

variable {dataOffset n cap : Nat} (h : Fits dataOffset n cap)
include h

/-- Where one turn of the loop writes. -/
theorem Fits.stampCap_eq (m : Mem) {w : Nat} (hw : w < n) :
    stampCap dataOffset cap (logsSlotSize cap) m w =
      storeWord (storeWord m (dataOffset + w * Reload.logsSlotSize cap + 24) cap)
        (dataOffset + (w * Reload.logsSlotSize cap + (32 + cap)) + 24) cap := by
  have hring : 32 + cap ≤ Reload.logsSlotSize cap := by
    rw [slotSize_eq]
    omega
  unfold stampCap
  dsimp only
  rw [h.mulW_slot (Nat.le_of_lt hw), h.ringSizeBytes_eq, h.addW_slot hw hring]
  rfl

/-- **The loop leaves the capacity in both headers of every slot it visited**: a later turn writes
behind the slots before it. -/
theorem Fits.stampCaps_spec (m : Mem) : ∀ {k : Nat}, k ≤ n → ∀ w < k,
    let stamped := stampCaps dataOffset cap (logsSlotSize cap) k m
    ringCap stamped (dataOffset + w * Reload.logsSlotSize cap) = cap ∧
      ringCap stamped (dataOffset + (w * Reload.logsSlotSize cap + (32 + cap))) = cap
  | 0, _, w, hw => absurd hw (Nat.not_lt_zero w)
  | k + 1, hk, w, hw => by
    have hcap : cap < 2 ^ 64 := by
      have hslot := h.slot_lt
      rw [slotSize_eq] at hslot
      omega
    have hslot := slotSize_eq cap
    have hturn : stampCaps dataOffset cap (logsSlotSize cap) (k + 1) m =
        stampCap dataOffset cap (logsSlotSize cap)
          (stampCaps dataOffset cap (logsSlotSize cap) k m) k := by
      rw [stampCaps, List.range_succ, List.foldl_append]
      rfl
    dsimp only
    rw [hturn, h.stampCap_eq _ hk]
    unfold ringCap CAP_OFFSET
    by_cases hlast : w = k
    · subst hlast
      refine ⟨?_, loadWord_storeWord_self _ _ hcap⟩
      rw [loadWord_storeWord_apart _ _ (by omega), loadWord_storeWord_self _ _ hcap]
    · have hbefore : w < k := by omega
      have hend := slot_end_le (Reload.logsSlotSize cap) hbefore
      obtain ⟨haccess, herror⟩ := Fits.stampCaps_spec m (Nat.le_of_succ_le hk) w hbefore
      constructor
      · rw [loadWord_storeWord_apart _ _ (by omega), loadWord_storeWord_apart _ _ (by omega)]
        exact haccess
      · rw [loadWord_storeWord_apart _ _ (by omega), loadWord_storeWord_apart _ _ (by omega)]
        exact herror

/-- A fresh start on a zone of the registered size stamps the slots of all workers. -/
theorem Fits.init_eq (m : Mem) :
    logsShmZoneInit dataOffset ⟨logsZoneSizeFor dataOffset n cap, some ⟨cap, some n⟩⟩ false m =
      stampCaps dataOffset cap (logsSlotSize cap) n
        (fill m dataOffset (mulW 64 n (logsSlotSize cap)) 0) := by
  have hworkers := h.workers
  have hpos : 0 < Reload.logsSlotSize cap := by
    rw [slotSize_eq]
    omega
  have hdata : logsZoneSizeFor dataOffset n cap - dataOffset = n * logsSlotSize cap := by
    rw [h.logsZoneSizeFor_eq, h.logsSlotSize_eq, Nat.add_sub_cancel_left]
  have hactive : nActive ⟨cap, some n⟩ (n * logsSlotSize cap) (logsSlotSize cap) = n := by
    have hwp : wpFromCycle (some (n : Int)) = some n := if_pos (by omega)
    unfold nActive
    rw [h.logsSlotSize_eq, Nat.mul_div_cancel _ hpos]
    dsimp only
    rw [hwp, Option.getD_some]
    omega
  have hbytes : n * logsSlotSize cap ≠ 0 := by
    rw [h.logsSlotSize_eq]
    exact Nat.mul_ne_zero (by omega) (by omega)
  have hslot : logsSlotSize cap ≠ 0 := by
    rw [h.logsSlotSize_eq]
    omega
  unfold logsShmZoneInit
  dsimp only
  rw [hdata, if_neg (by decide), if_neg hbytes, if_neg hslot, hactive]

end Stamps

/-! ## The layout -/

section Layout

variable {dataOffset n cap : Nat} {m : Mem}

/-- The accessors once the first header holds the capacity. -/
theorem Fits.accessors (h : Fits dataOffset n cap) (hstride : strideCap m dataOffset cap = cap)
    {w : Nat} (hw : w < n) :
    logsAccessRing m dataOffset w cap = dataOffset + w * Reload.logsSlotSize cap ∧
      logsErrorRing m dataOffset w cap =
        dataOffset + (w * Reload.logsSlotSize cap + (32 + cap)) ∧
      logsCoalesceTable m dataOffset w cap =
        dataOffset + (w * Reload.logsSlotSize cap + 2 * (32 + cap)) := by
  have hslot := slotSize_eq cap
  have hlt := h.slot_lt
  have htwo : mulW 64 2 (32 + cap) = 2 * (32 + cap) := mulW_of_lt (by omega)
  unfold logsAccessRing logsErrorRing logsCoalesceTable
  dsimp only
  rw [hstride, h.mulW_slot (Nat.le_of_lt hw), h.ringSizeBytes_eq, htwo,
    h.addW_slot hw (by omega), h.addW_slot hw (by omega)]
  exact ⟨rfl, rfl, rfl⟩

/-- The regions of a worker when its headers hold the capacity. -/
theorem Fits.sections_eq (h : Fits dataOffset n cap) (hstride : strideCap m dataOffset cap = cap)
    {w slot : Nat} (hw : w < n) (hslot : dataOffset + w * Reload.logsSlotSize cap = slot)
    (hcaps : ringCap m slot = cap ∧ ringCap m (slot + (32 + cap)) = cap) :
    sections m dataOffset cap w =
      [⟨slot, 32⟩, ⟨slot + 32, cap⟩, ⟨slot + (32 + cap), 32⟩, ⟨slot + (32 + cap) + 32, cap⟩,
        ⟨slot + 2 * (32 + cap), 6144⟩] := by
  obtain ⟨haccess, herror, htable⟩ := h.accessors hstride hw
  rw [← Nat.add_assoc, hslot] at herror htable
  rw [hslot] at haccess
  unfold sections ringRegions
  rw [haccess, herror, htable, hcaps.1, hcaps.2]
  rfl

/-- These regions follow one another through the slot. -/
theorem sections_tile (slot cap : Nat) :
    Tiles slot [⟨slot, 32⟩, ⟨slot + 32, cap⟩, ⟨slot + (32 + cap), 32⟩,
      ⟨slot + (32 + cap) + 32, cap⟩, ⟨slot + 2 * (32 + cap), 6144⟩]
      (slot + Reload.logsSlotSize cap) := by
  rw [slotSize_eq]
  refine ⟨rfl, rfl, ?_, ?_, ?_, ?_⟩
  all_goals
    dsimp only [Tiles]
    omega

end Layout

/-- **The logs zone after a fresh start.**  For `n ≥ 1` workers and a capacity that is a positive
multiple of 8, on a zone of the registered size (below `2 ^ 63`, the slab-pool header a multiple of
8): the regions that the accessors give the workers are pairwise apart, start at multiples of 8 and
cover exactly the zone behind its header; every ring header holds the capacity; the two accessors
of the error ring agree; and the worker count is recovered from the size. -/
theorem logs_zone_layout {dataOffset n cap : Nat} (hn : 1 ≤ n) (hcap : 0 < cap)
    (haligned : cap % 8 = 0) (hoffset : dataOffset % 8 = 0)
    (hsize : dataOffset + n * Reload.logsSlotSize cap < 2 ^ 63) (before : Mem) :
    let zone : ShmZone := ⟨logsZoneSizeFor dataOffset n cap, some ⟨cap, some n⟩⟩
    let m := logsShmZoneInit dataOffset zone false before
    let regions := (List.range n).flatMap (sections m dataOffset cap)
    regions.Pairwise Region.Apart ∧ (∀ r ∈ regions, r.start % 8 = 0) ∧
      (∀ x, (∃ r ∈ regions, r.Holds x) ↔ dataOffset ≤ x ∧ x < zone.size) ∧
      (∀ w < n, ringCap m (logsAccessRing m dataOffset w cap) = cap ∧
        ringCap m (logsErrorRing m dataOffset w cap) = cap) ∧
      (∀ w < n, logsErrorRingPtr m dataOffset w cap = logsErrorRing m dataOffset w cap) ∧
      logsNWorkersFromZone (zone.size - dataOffset) cap = n := by
  have h : Fits dataOffset n cap := ⟨hn, hsize⟩
  intro zone m regions
  have hpos : 0 < Reload.logsSlotSize cap := by
    rw [slotSize_eq]
    omega
  have hstamped : ∀ w < n, ringCap m (dataOffset + w * Reload.logsSlotSize cap) = cap ∧
      ringCap m (dataOffset + w * Reload.logsSlotSize cap + (32 + cap)) = cap := by
    intro w hw
    rw [Nat.add_assoc dataOffset, show m = _ from h.init_eq before]
    exact h.stampCaps_spec _ (Nat.le_refl n) w hw
  -- the stride comes from the header of worker 0
  have hstride : strideCap m dataOffset cap = cap := by
    have hfirst := (hstamped 0 hn).1
    rw [Nat.zero_mul, Nat.add_zero] at hfirst
    unfold strideCap logsZoneCap
    rw [hfirst]
    exact if_pos hcap
  have hsections := fun w (hw : w < n) => h.sections_eq hstride hw rfl (hstamped w hw)
  have htiles : Tiles dataOffset regions (dataOffset + n * Reload.logsSlotSize cap) := by
    apply Tiles.stride
    intro w hw
    rw [hsections w hw, show dataOffset + (w + 1) * Reload.logsSlotSize cap =
      dataOffset + w * Reload.logsSlotSize cap + Reload.logsSlotSize cap by
        rw [Nat.succ_mul, Nat.add_assoc]]
    exact sections_tile _ cap
  refine ⟨htiles.pairwise_apart, ?_, ?_, ?_, fun w _ => rfl, ?_⟩
  · intro r hr
    obtain ⟨w, hw, hmem⟩ := List.mem_flatMap.mp hr
    rw [hsections w (List.mem_range.mp hw)] at hmem
    have hslot : w * Reload.logsSlotSize cap % 8 = 0 := by
      rw [Nat.mul_mod, slotSize_eq, show (2 * cap + 6208) % 8 = 0 by omega, Nat.mul_zero]
    simp only [List.mem_cons, List.not_mem_nil, or_false] at hmem
    rcases hmem with rfl | rfl | rfl | rfl | rfl <;> dsimp only <;> omega
  · intro x
    rw [htiles.covers x, show zone.size = _ from h.logsZoneSizeFor_eq]
  · intro w hw
    obtain ⟨haccess, herror, -⟩ := h.accessors hstride hw
    rw [haccess, herror, ← Nat.add_assoc]
    exact hstamped w hw
  · rw [show zone.size = _ from h.logsZoneSizeFor_eq, Nat.add_sub_cancel_left,
      logsNWorkersFromZone, h.logsSlotSize_eq, checkedDiv, if_neg (by omega),
      Nat.mul_div_cancel _ hpos, Option.getD_some]
    exact Nat.max_eq_left hn

/-- Two workers with rings of 4096 bytes behind a header of 200. -/
theorem logs_zone_layout_twoWorkers :
    let zone : ShmZone := ⟨logsZoneSizeFor 200 2 4096, some ⟨4096, some 2⟩⟩
    let m := logsShmZoneInit 200 zone false fun _ => 0
    ∀ w < 2, ringCap m (logsAccessRing m 200 w 4096) = 4096 ∧
      ringCap m (logsErrorRing m 200 w 4096) = 4096 :=
  (@logs_zone_layout 200 2 4096 (by decide) (by decide) (by decide) (by decide) (by decide)
    fun _ => 0).2.2.2.1

end NgxOtel.Shm
