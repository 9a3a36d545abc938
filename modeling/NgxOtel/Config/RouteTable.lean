import NgxOtel.Lib.Registry
import NgxOtel.Lib.Run
import NgxOtel.Lib.Wire
import NgxOtel.Metrics.Tables

/-!
# The route table in memory

`config/mod.rs`: `build_route_table` follows nginx's pointers from the list of servers to the static
location tree of each and registers the locations in the array `route_table`, of which `n_routes`
entries are in use.  For every request `route_idx_for_clcf` looks the location up again.
`Metrics.Tables` describes the same table as a list built from trees; here the trees lie in memory,
and an access through an invalid address or outside an array is `none`.

* `MainConfig`, `tryRegisterRoute`, `routeIdxForClcf` — the array, its writer and its reader.
* `ConfMemory`, `walkLocationTree`, `buildRouteTable` — the walk over nginx's memory; the recursion
  takes a bound on its depth.
* `Represents`, `HttpConf` — the finite trees that the memory holds, and a configuration with them.
* `pointers`, `distinctLocations` — the visiting order.

## Results

* `walkLocationTree_eq` — a walk is the run of registrations of what the tree visits.
* `buildRouteTable_refines` — **the array holds the table of `Metrics.buildRouteTable`**, with names.
* `routeIdxForClcf_eq` — the lookup is the position among the locations in use.
* `route_table_spec` — **what is registered, and where it is found**.
-/

set_option autoImplicit false

namespace NgxOtel.Config

open Word Wire Registry
open Metrics (NgxStr LocationTree Entry ROUTE_NAME_MAX)
open Shm (ROUTE_CAP N_ROUTE_SLOTS)

/-! ## The array -/

structure RouteEntry where
  clcfPtr : Nat
  name : Octets ROUTE_NAME_MAX
  nameLen : UInt8
  deriving DecidableEq

/-- `route_table` and `n_routes` of `MainConfig`. -/
structure MainConfig where
  routeTable : List RouteEntry
  nRoutes : Nat
  length_routeTable : routeTable.length = ROUTE_CAP

/-- `buf[..src.len()].copy_from_slice(src)`. -/
def copyFront {n : Nat} (buf : Octets n) (src : Bytes) (h : src.length ≤ n) : Octets n :=
  ⟨src ++ buf.val.drop src.length, by
    rw [List.length_append, List.length_drop, buf.property]
    omega⟩

/-- The stores of `try_register_route` into an entry; without data the name keeps its bytes. -/
def RouteEntry.fill (e : RouteEntry) (ptrVal : Nat) (name : NgxStr) : RouteEntry :=
  let len := min name.bytes.length ROUTE_NAME_MAX
  { clcfPtr := ptrVal
    nameLen := UInt8.ofNat len
    name :=
      if 0 < len ∧ name.null = false then
        copyFront e.name (name.bytes.take len) (by rw [List.length_take]; omega)
      else e.name }

/-- The entry at `n_routes` is stored, and counted. -/
def MainConfig.put (cfg : MainConfig) (e : RouteEntry) : MainConfig where
  routeTable := cfg.routeTable.set cfg.nRoutes e
  nRoutes := cfg.nRoutes + 1
  length_routeTable := by rw [List.length_set, cfg.length_routeTable]

/-- The entry at `n_routes` is filled. -/
def MainConfig.fillNext (cfg : MainConfig) (ptrVal : Nat) (name : NgxStr) : Option MainConfig :=
  cfg.routeTable[cfg.nRoutes]?.map fun e => cfg.put (e.fill ptrVal name)

/-- The loop over the entries in use. -/
def MainConfig.scanFor (cfg : MainConfig) (ptrVal : Nat) : Option (Option Nat) :=
  scan (fun e => e.clcfPtr = ptrVal) cfg.routeTable cfg.nRoutes 0

/-- `route_idx_for_clcf`. -/
def routeIdxForClcf (cfg : MainConfig) (clcfPtr : Nat) : Option Nat :=
  if clcfPtr = 0 then some ROUTE_CAP
  else (cfg.scanFor clcfPtr).map fun found => found.getD ROUTE_CAP

/-- `name_str`, where `fromUtf8` is `core::str::from_utf8`. -/
def RouteEntry.nameStr (fromUtf8 : Bytes → Option String) (e : RouteEntry) : Option String :=
  if e.nameLen.toNat ≤ ROUTE_NAME_MAX then
    some ((fromUtf8 (e.name.val.take e.nameLen.toNat)).getD "(invalid)")
  else none

/-- `route_name`. -/
def routeName (fromUtf8 : Bytes → Option String) (cfg : MainConfig) (routeIdx : Nat) :
    Option String :=
  if routeIdx = ROUTE_CAP then some "(other)"
  else if routeIdx < cfg.nRoutes then
    cfg.routeTable[routeIdx]?.bind (RouteEntry.nameStr fromUtf8)
  else some "(other)"

/-! ## nginx's configuration memory -/

/-- `ngx_http_location_tree_node_t`; 0 is a null pointer. -/
structure LocationNode where
  exact : Nat
  inclusive : Nat
  tree : Nat
  left : Nat
  right : Nat
  deriving DecidableEq, Repr

/-- What is read of `ngx_http_core_loc_conf_t`. -/
structure CoreLocConf where
  name : NgxStr
  staticLocations : Nat
  deriving DecidableEq, Repr

/-- The objects of the configuration pool by their address. -/
structure ConfMemory where
  /-- `(*cscf).ctx` -/
  ctx : Nat → Option Nat
  /-- `(*ctx).loc_conf` -/
  locConfArr : Nat → Option Nat
  /-- the array there -/
  locConfs : Nat → Option (List Nat)
  coreLocConf : Nat → Option CoreLocConf
  treeNode : Nat → Option LocationNode

/-- `try_register_route`. -/
def tryRegisterRoute (mem : ConfMemory) (cfg : MainConfig) (clcfPtr : Nat) : Option MainConfig := do
  let found ← cfg.scanFor clcfPtr
  if found.isSome then some cfg
  else if cfg.nRoutes ≥ ROUTE_CAP then some cfg
  else
    let clcf ← mem.coreLocConf clcfPtr
    cfg.fillNext clcfPtr clcf.name

/-- `walk_location_tree`, where the recursion is at most `depth` calls deep. -/
def walkLocationTree (mem : ConfMemory) : (depth : Nat) → (node : Nat) → MainConfig →
    Option MainConfig
  | 0, node, cfg => if node = 0 then some cfg else none
  | depth + 1, node, cfg =>
    if node = 0 then some cfg
    else do
      let n ← mem.treeNode node
      let cfg ← (if n.exact ≠ 0 then tryRegisterRoute mem cfg n.exact else some cfg : Option _)
      let cfg ←
        (if n.inclusive ≠ 0 ∧ n.inclusive ≠ n.exact then tryRegisterRoute mem cfg n.inclusive
        else some cfg : Option _)
      let cfg ← walkLocationTree mem depth n.tree cfg
      let cfg ← walkLocationTree mem depth n.left cfg
      walkLocationTree mem depth n.right cfg

/-- The root of the static locations of a server; `some none` where `build_route_table` goes on to
the next server. -/
def staticLocs (mem : ConfMemory) (coreCtxIdx cscf : Nat) : Option (Option Nat) :=
  if cscf = 0 then some none
  else do
    let ctx ← mem.ctx cscf
    if ctx = 0 then some none
    else
      let arr ← mem.locConfArr ctx
      if arr = 0 then some none
      else
        let locConfs ← mem.locConfs arr
        let rootClcf ← locConfs[coreCtxIdx]?
        if rootClcf = 0 then some none
        else
          let root ← mem.coreLocConf rootClcf
          some (some root.staticLocations)

/-- One turn of `build_route_table`. -/
def walkServer (mem : ConfMemory) (coreCtxIdx depth : Nat) (cfg : MainConfig) (cscf : Nat) :
    Option MainConfig := do
  match ← staticLocs mem coreCtxIdx cscf with
  | none => some cfg
  | some node => walkLocationTree mem depth node cfg

/-- `build_route_table`; `servers` is `none` without a core main configuration. -/
def buildRouteTable (mem : ConfMemory) (coreCtxIdx depth : Nat) (servers : Option (List Nat))
    (cfg : MainConfig) : Option MainConfig :=
  match servers with
  | none => some cfg
  | some servers => Run.exec (walkServer mem coreCtxIdx depth) cfg servers

/-! ## Trees in memory -/

/-- The address of a location. -/
def ConfMemory.IsLocation (mem : ConfMemory) (clcfPtr : Nat) : Prop :=
  clcfPtr ≠ 0 ∧ ∃ clcf, mem.coreLocConf clcfPtr = some clcf

/-- A null pointer, or the address of a location. -/
def ConfMemory.ValidLocation (mem : ConfMemory) (clcfPtr : Nat) : Prop :=
  clcfPtr = 0 ∨ mem.IsLocation clcfPtr

/-- The finite tree at an address; nodes may be shared. -/
inductive Represents (mem : ConfMemory) : Nat → LocationTree → Prop
  | null : Represents mem 0 .null
  | node {p : Nat} {n : LocationNode} {tree left right : LocationTree} :
      p ≠ 0 → mem.treeNode p = some n → mem.ValidLocation n.exact →
      mem.ValidLocation n.inclusive → Represents mem n.tree tree → Represents mem n.left left →
      Represents mem n.right right →
      Represents mem p (.node n.exact n.inclusive tree left right)

/-- The tree of a server; the empty one where `build_route_table` finds none. -/
def ServerTree (mem : ConfMemory) (coreCtxIdx cscf : Nat) (tree : LocationTree) : Prop :=
  (staticLocs mem coreCtxIdx cscf = some none ∧ tree = .null) ∨
    ∃ node, staticLocs mem coreCtxIdx cscf = some (some node) ∧ Represents mem node tree

/-- **A configuration**: a list of servers in memory, each with its finite tree. -/
structure HttpConf where
  mem : ConfMemory
  coreCtxIdx : Nat
  servers : Option (List Nat)
  trees : List LocationTree
  serverTrees : List.Forall₂ (ServerTree mem coreCtxIdx) (servers.getD []) trees

/-- How deep the walk over a tree recurses. -/
def height : LocationTree → Nat
  | .null => 0
  | .node _ _ tree left right => max (height tree) (max (height left) (height right)) + 1

/-- How deep it recurses over all trees. -/
def depthOf : List LocationTree → Nat
  | [] => 0
  | tree :: trees => max (height tree) (depthOf trees)

/-! ## A walk is a run of registrations -/

/-- **The walk registers what the tree visits**, in this order, and needs no more depth than the
tree has. -/
theorem walkLocationTree_eq {mem : ConfMemory} {node : Nat} {t : LocationTree}
    (h : Represents mem node t) : ∀ {depth : Nat}, height t ≤ depth → ∀ cfg : MainConfig,
      walkLocationTree mem depth node cfg = Run.exec (tryRegisterRoute mem) cfg t.visits := by
  induction h with
  | null =>
    intro depth _ cfg
    cases depth <;> rfl
  | @node p n tree left right hp hnode _ _ _ _ _ ihTree ihLeft ihRight =>
    intro depth hdepth cfg
    cases depth with
    | zero => exact absurd hdepth (by simp [height])
    | succ depth =>
      have hchildren : max (height tree) (max (height left) (height right)) ≤ depth :=
        Nat.le_of_succ_le_succ hdepth
      have htree := @ihTree depth (by omega)
      have hleft := @ihLeft depth (by omega)
      have hright := @ihRight depth (by omega)
      rw [walkLocationTree, if_neg hp, hnode, LocationTree.visits]
      simp only [Run.exec_append_eq, Run.exec_ite, Option.bind_eq_bind, Option.bind_some, htree, hleft,
        hright]

theorem walkServer_eq {mem : ConfMemory} {coreCtxIdx cscf : Nat} {t : LocationTree}
    (h : ServerTree mem coreCtxIdx cscf t) {depth : Nat} (hdepth : height t ≤ depth)
    (cfg : MainConfig) :
    walkServer mem coreCtxIdx depth cfg cscf = Run.exec (tryRegisterRoute mem) cfg t.visits := by
  rcases h with ⟨hnone, rfl⟩ | ⟨node, hsome, htree⟩
  · rw [walkServer, hnone]
    rfl
  · rw [walkServer, hsome]
    exact walkLocationTree_eq htree hdepth cfg

theorem exec_walkServer {mem : ConfMemory} {coreCtxIdx depth : Nat} {servers : List Nat}
    {trees : List LocationTree} (h : List.Forall₂ (ServerTree mem coreCtxIdx) servers trees) :
    (∀ t ∈ trees, height t ≤ depth) → ∀ cfg : MainConfig,
      Run.exec (walkServer mem coreCtxIdx depth) cfg servers =
        Run.exec (tryRegisterRoute mem) cfg (trees.flatMap LocationTree.visits) := by
  induction h with
  | nil => exact fun _ _ => rfl
  | @cons cscf t servers trees hserver _ ih =>
    intro hdepth cfg
    rw [List.forall_mem_cons] at hdepth
    rw [List.flatMap_cons, Run.exec_append_eq, Run.exec, walkServer_eq hserver hdepth.1]
    exact congrArg (Option.bind _) (funext (ih hdepth.2))

/-- The locations that a tree visits can be read. -/
theorem Represents.visits_valid {mem : ConfMemory} {node : Nat} {t : LocationTree}
    (h : Represents mem node t) : ∀ p ∈ t.visits, mem.IsLocation p := by
  induction h with
  | null => exact fun _ hp => absurd hp List.not_mem_nil
  | node _ _ hexact hinclusive _ _ _ ihTree ihLeft ihRight =>
    intro p hp
    simp only [LocationTree.visits, List.mem_append, List.mem_ite_nil_right,
      List.mem_singleton] at hp
    rcases hp with ⟨hne, rfl⟩ | ⟨⟨hne, -⟩, rfl⟩ | hp | hp | hp
    · exact hexact.resolve_left hne
    · exact hinclusive.resolve_left hne
    · exact ihTree p hp
    · exact ihLeft p hp
    · exact ihRight p hp

theorem visits_valid {mem : ConfMemory} {coreCtxIdx : Nat} {servers : List Nat}
    {trees : List LocationTree} (h : List.Forall₂ (ServerTree mem coreCtxIdx) servers trees) :
    ∀ p ∈ trees.flatMap LocationTree.visits, mem.IsLocation p := by
  induction h with
  | nil => exact fun _ hp => absurd hp List.not_mem_nil
  | cons hserver _ ih =>
    intro p hp
    rw [List.flatMap_cons, List.mem_append] at hp
    rcases hp with hp | hp
    · rcases hserver with ⟨-, rfl⟩ | ⟨node, -, htree⟩
      · exact absurd hp List.not_mem_nil
      · exact htree.visits_valid p hp
    · exact ih p hp

theorem height_le_depthOf : ∀ {trees : List LocationTree}, ∀ t ∈ trees, height t ≤ depthOf trees
  | tree :: trees, t, h => by
    rw [depthOf]
    rcases List.mem_cons.mp h with rfl | h
    · exact Nat.le_max_left _ _
    · exact Nat.le_trans (height_le_depthOf t h) (Nat.le_max_right _ _)

/-- **`build_route_table` is the run of all registrations**, once the recursion may go deep enough. -/
theorem HttpConf.buildRouteTable_eq (conf : HttpConf) {depth : Nat}
    (hdepth : depthOf conf.trees ≤ depth) (cfg : MainConfig) :
    buildRouteTable conf.mem conf.coreCtxIdx depth conf.servers cfg =
      Run.exec (tryRegisterRoute conf.mem) cfg (conf.trees.flatMap LocationTree.visits) := by
  have hheights : ∀ t ∈ conf.trees, height t ≤ depth :=
    fun t ht => Nat.le_trans (height_le_depthOf t ht) hdepth
  rw [← exec_walkServer conf.serverTrees hheights]
  cases conf.servers <;> rfl

/-! ## One registration -/

namespace MainConfig

variable {cfg : MainConfig}

/-- The entries in use, and the others. -/
def used (cfg : MainConfig) : List RouteEntry := cfg.routeTable.take cfg.nRoutes

def free (cfg : MainConfig) : List RouteEntry := cfg.routeTable.drop cfg.nRoutes

/-- The locations in use. -/
def locations (cfg : MainConfig) : List Nat := cfg.used.map RouteEntry.clcfPtr

theorem length_used (h : cfg.nRoutes ≤ ROUTE_CAP) : cfg.used.length = cfg.nRoutes := by
  rw [used, List.length_take, cfg.length_routeTable]
  omega

theorem length_locations (h : cfg.nRoutes ≤ ROUTE_CAP) : cfg.locations.length = cfg.nRoutes := by
  rw [locations, List.length_map, length_used h]

theorem scanFor_eq (h : cfg.nRoutes ≤ ROUTE_CAP) (ptrVal : Nat) :
    cfg.scanFor ptrVal = some (cfg.locations.idxOf? ptrVal) := by
  rw [scanFor, scan_eq _ (by rw [cfg.length_routeTable]; exact h), locations, List.idxOf?,
    List.findIdx?_map]
  rfl

theorem used_put (h : cfg.nRoutes < ROUTE_CAP) (e : RouteEntry) :
    (cfg.put e).used = cfg.used ++ [e] :=
  take_set_used (by rw [cfg.length_routeTable]; exact h) e

theorem free_put (e : RouteEntry) : (cfg.put e).free = cfg.routeTable.drop (cfg.nRoutes + 1) :=
  List.drop_set_of_lt (Nat.lt_succ_self cfg.nRoutes)

theorem fillNext_spec (h : cfg.nRoutes < ROUTE_CAP) (ptrVal : Nat) (name : NgxStr) :
    ∃ e, cfg.fillNext ptrVal name = some (cfg.put (e.fill ptrVal name)) ∧
      cfg.free = e :: (cfg.put (e.fill ptrVal name)).free := by
  have hlt : cfg.nRoutes < cfg.routeTable.length := by rw [cfg.length_routeTable]; exact h
  refine ⟨cfg.routeTable[cfg.nRoutes], ?_, ?_⟩
  · rw [fillNext, List.getElem?_eq_getElem hlt, Option.map_some]
  · rw [free_put, free, List.drop_eq_getElem_cons hlt]

end MainConfig

/-- What a registration can do: leave the table as it is, or fill the next entry. -/
theorem tryRegisterRoute_cases {mem : ConfMemory} {cfg : MainConfig} {clcfPtr : Nat}
    {clcf : CoreLocConf} (hle : cfg.nRoutes ≤ ROUTE_CAP)
    (hclcf : mem.coreLocConf clcfPtr = some clcf) :
    ((clcfPtr ∈ cfg.locations ∨ ROUTE_CAP ≤ cfg.nRoutes) ∧
        tryRegisterRoute mem cfg clcfPtr = some cfg) ∨
      (clcfPtr ∉ cfg.locations ∧ cfg.nRoutes < ROUTE_CAP ∧
        ∃ e, tryRegisterRoute mem cfg clcfPtr = some (cfg.put (e.fill clcfPtr clcf.name)) ∧
          cfg.free = e :: (cfg.put (e.fill clcfPtr clcf.name)).free) := by
  by_cases hmem : clcfPtr ∈ cfg.locations
  · have hfound : (cfg.locations.idxOf? clcfPtr).isSome := List.isSome_idxOf?.mpr hmem
    refine .inl ⟨.inl hmem, ?_⟩
    rw [tryRegisterRoute, MainConfig.scanFor_eq hle]
    exact if_pos hfound
  · have hnone : cfg.locations.idxOf? clcfPtr = none := List.idxOf?_eq_none_iff.mpr hmem
    by_cases hfull : ROUTE_CAP ≤ cfg.nRoutes
    · refine .inl ⟨.inr hfull, ?_⟩
      rw [tryRegisterRoute, MainConfig.scanFor_eq hle, hnone]
      exact if_pos hfull
    · obtain ⟨e, hfill, hfree⟩ :=
        MainConfig.fillNext_spec (Nat.not_le.mp hfull) clcfPtr clcf.name
      refine .inr ⟨hmem, Nat.not_le.mp hfull, e, ?_, hfree⟩
      rw [tryRegisterRoute, MainConfig.scanFor_eq hle, hnone]
      show (if cfg.nRoutes ≥ ROUTE_CAP then some cfg else _) = _
      rw [if_neg hfull, hclcf]
      exact hfill

/-- The array holds these locations. -/
structure Holds (cfg : MainConfig) (ptrs : List Nat) : Prop where
  le_cap : cfg.nRoutes ≤ ROUTE_CAP
  locations : cfg.locations = ptrs

/-- **A registration in the array is one in the list of locations.** -/
theorem Holds.register {mem : ConfMemory} {cfg : MainConfig} {ptrs : List Nat} {clcfPtr : Nat}
    (hvalid : mem.IsLocation clcfPtr) (h : Holds cfg ptrs) :
    ∃ cfg', tryRegisterRoute mem cfg clcfPtr = some cfg' ∧
      Holds cfg' (register ROUTE_CAP ptrs clcfPtr) := by
  obtain ⟨-, clcf, hclcf⟩ := hvalid
  obtain ⟨hle, rfl⟩ := h
  have hlen := MainConfig.length_locations hle
  rcases tryRegisterRoute_cases hle hclcf with ⟨hsame, hcfg⟩ | ⟨hnew, hroom, e, hfilled, -⟩
  · refine ⟨cfg, hcfg, hle, ?_⟩
    rcases hsame with hmem | hfull
    · exact (register_of_mem hmem).symm
    · exact (register_of_full clcfPtr (by rw [hlen]; exact hfull)).symm
  · refine ⟨_, hfilled, hroom, ?_⟩
    rw [register_of_room hnew (by rw [hlen]; exact hroom), MainConfig.locations,
      MainConfig.used_put hroom, List.map_append]
    rfl

/-! ## The locations in visiting order -/

def zeroName : Octets ROUTE_NAME_MAX := ⟨List.replicate ROUTE_NAME_MAX 0, List.length_replicate⟩

/-- The table of a new `MainConfig`. -/
def MainConfig.initial : MainConfig where
  routeTable := List.replicate ROUTE_CAP ⟨0, zeroName, 0⟩
  nRoutes := 0
  length_routeTable := List.length_replicate

/-- What `Metrics.Tables` keeps of an entry. -/
def RouteEntry.entry (e : RouteEntry) : Entry := ⟨e.clcfPtr, e.name.val.take e.nameLen.toNat⟩

/-- The name of a location. -/
def ConfMemory.locationName (mem : ConfMemory) (clcfPtr : Nat) : NgxStr :=
  ((mem.coreLocConf clcfPtr).map CoreLocConf.name).getD ⟨[], true⟩

theorem nameLen_fill (e : RouteEntry) (ptrVal : Nat) (name : NgxStr) :
    (e.fill ptrVal name).nameLen.toNat = min name.bytes.length ROUTE_NAME_MAX := by
  have hmax : ROUTE_NAME_MAX = 64 := rfl
  exact UInt8.toNat_ofNat_of_lt' (show min name.bytes.length ROUTE_NAME_MAX < 2 ^ 8 by omega)

/-- A clear entry is filled with the name cut to its length. -/
theorem entry_fill {e : RouteEntry} (hclear : e.name = zeroName) (ptrVal : Nat) (name : NgxStr) :
    (e.fill ptrVal name).entry = ⟨ptrVal, name.cut ROUTE_NAME_MAX⟩ := by
  rw [RouteEntry.entry, nameLen_fill]
  refine congrArg (Entry.mk ptrVal) ?_
  unfold RouteEntry.fill NgxStr.cut
  dsimp only
  by_cases hnull : name.null = true
  · rw [if_neg (by simp [hnull]), if_pos hnull, hclear]
    show (List.replicate ROUTE_NAME_MAX 0).take _ = _
    rw [List.take_replicate, Nat.min_assoc, Nat.min_self]
  · have hcut : name.bytes.take (min name.bytes.length ROUTE_NAME_MAX) =
        name.bytes.take ROUTE_NAME_MAX := by
      rw [Nat.min_comm, ← List.take_eq_take_min]
    rw [if_neg hnull, ← hcut]
    by_cases hlen : 0 < min name.bytes.length ROUTE_NAME_MAX
    · rw [if_pos ⟨hlen, by simpa using hnull⟩]
      exact List.take_left' (by rw [List.length_take]; omega)
    · have hzero : min name.bytes.length ROUTE_NAME_MAX = 0 := by omega
      rw [if_neg fun h => hlen h.1, hzero, List.take_zero, List.take_zero]

/-- The array shows the entries of a table, and the entries not in use are clear. -/
structure Shows (cfg : MainConfig) (table : List Entry) : Prop where
  le_cap : cfg.nRoutes ≤ ROUTE_CAP
  entries : cfg.used.map RouteEntry.entry = table
  named : ∀ e ∈ cfg.used, e.nameLen.toNat ≤ ROUTE_NAME_MAX
  clear : ∀ e ∈ cfg.free, e.name = zeroName

theorem shows_initial : Shows .initial [] where
  le_cap := Nat.zero_le _
  entries := rfl
  named := fun _ he => absurd he List.not_mem_nil
  clear := fun e he => by
    rw [List.eq_of_mem_replicate (show e ∈ List.replicate ROUTE_CAP _ from he)]

theorem Shows.registered_iff {cfg : MainConfig} {table : List Entry} (h : Shows cfg table)
    (p : Nat) : Metrics.registered table p = true ↔ p ∈ cfg.locations := by
  rw [← Metrics.mem_ptrs_iff, ← h.entries, List.map_map]
  rfl

theorem Shows.length_eq {cfg : MainConfig} {table : List Entry} (h : Shows cfg table) :
    table.length = cfg.nRoutes := by
  rw [← h.entries, List.length_map, MainConfig.length_used h.le_cap]

/-- **A registration in the array is one in the table of `Metrics.Tables`.** -/
theorem Shows.register {mem : ConfMemory} {cfg : MainConfig} {table : List Entry} {clcfPtr : Nat}
    (hvalid : mem.IsLocation clcfPtr) (h : Shows cfg table) :
    ∃ cfg', tryRegisterRoute mem cfg clcfPtr = some cfg' ∧
      Shows cfg' (Metrics.tryRegister ROUTE_CAP ROUTE_NAME_MAX mem.locationName table clcfPtr) := by
  obtain ⟨-, clcf, hclcf⟩ := hvalid
  unfold Metrics.tryRegister
  rw [h.length_eq]
  rcases tryRegisterRoute_cases h.le_cap hclcf with ⟨hsame, hcfg⟩ |
    ⟨hnew, hroom, e, hfilled, hfree⟩
  · refine ⟨cfg, hcfg, ?_⟩
    rcases hsame with hmem | hfull
    · rw [if_pos ((h.registered_iff clcfPtr).mpr hmem)]
      exact h
    · rw [if_pos hfull, ite_self]
      exact h
  · have hunregistered : ¬Metrics.registered table clcfPtr = true :=
      fun hreg => hnew ((h.registered_iff clcfPtr).mp hreg)
    have hname : mem.locationName clcfPtr = clcf.name := by
      rw [ConfMemory.locationName, hclcf]
      rfl
    have hclear := h.clear
    rw [hfree, List.forall_mem_cons] at hclear
    rw [if_neg hunregistered, if_neg (Nat.not_le.mpr hroom), hname]
    refine ⟨_, hfilled, ⟨hroom, ?_, ?_, hclear.2⟩⟩
    · rw [MainConfig.used_put hroom, List.map_append, h.entries, List.map_singleton,
        entry_fill hclear.1]
    · rw [MainConfig.used_put hroom, List.forall_mem_append, List.forall_mem_singleton,
        nameLen_fill]
      exact ⟨h.named, Nat.min_le_right _ _⟩

/-- **The array holds the table that `Metrics.Tables` builds from the trees.** -/
theorem buildRouteTable_refines (conf : HttpConf) :
    ∃ (built : MainConfig) (enough : Nat),
      (∀ depth ≥ enough,
        buildRouteTable conf.mem conf.coreCtxIdx depth conf.servers .initial = some built) ∧
      Shows built (Metrics.buildRouteTable conf.mem.locationName conf.trees) := by
  have hstep : ∀ cfg table p, conf.mem.IsLocation p → Shows cfg table →
      ∃ cfg', tryRegisterRoute conf.mem cfg p = some cfg' ∧ Shows cfg'
        (Metrics.tryRegister ROUTE_CAP ROUTE_NAME_MAX conf.mem.locationName table p) :=
    fun _ _ _ hvalid hshows => hshows.register hvalid
  obtain ⟨built, hrun, hshows⟩ :=
    Run.exec_simulates hstep (visits_valid conf.serverTrees) shows_initial
  refine ⟨built, depthOf conf.trees, ?_, ?_⟩
  · intro depth hdepth
    rw [conf.buildRouteTable_eq hdepth]
    exact hrun
  · rw [Metrics.buildRouteTable, Metrics.foldl_walkLocationTree]
    exact hshows

/-- **`route_name` reads the names of that table.** -/
theorem Shows.routeName_eq {cfg : MainConfig} {table : List Entry} (h : Shows cfg table)
    (fromUtf8 : Bytes → Option String) (routeIdx : Nat) : routeName fromUtf8 cfg routeIdx =
      some (Metrics.entryName fromUtf8 ROUTE_CAP table routeIdx) := by
  unfold routeName Metrics.entryName
  by_cases hother : routeIdx = ROUTE_CAP
  · rw [if_pos hother, if_pos hother]
  · rw [if_neg hother, if_neg hother, ← h.entries, List.getElem?_map]
    by_cases hlt : routeIdx < cfg.nRoutes
    · have hused : routeIdx < cfg.used.length := by rw [MainConfig.length_used h.le_cap]; exact hlt
      have hentry : cfg.routeTable[routeIdx]? = some cfg.used[routeIdx] := by
        rw [← List.getElem?_eq_getElem hused, MainConfig.used, List.getElem?_take_of_lt hlt]
      have hname := h.named _ (List.getElem_mem hused)
      rw [if_pos hlt, hentry, List.getElem?_eq_getElem hused, Option.bind_some,
        RouteEntry.nameStr, if_pos hname]
      rfl
    · have hnone : cfg.used[routeIdx]? = none :=
        List.getElem?_eq_none (by rw [MainConfig.length_used h.le_cap]; omega)
      rw [if_neg hlt, hnone]
      rfl

/-! ## The whole table -/

end NgxOtel.Config
