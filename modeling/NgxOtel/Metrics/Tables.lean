import NgxOtel.Lib.Registry
import NgxOtel.Shm.Dimensions

/-!
# The route and upstream tables

At `postconfiguration` the module numbers the locations and the upstream zones of the configuration
(`config/mod.rs`): `build_route_table` walks the static location tree of every server,
`build_upstream_table` the list of upstreams.  A slot belongs to a configuration pointer, tables
are capped, and a slot keeps its name cut to a fixed length.

* `Entry`, `tryRegister` — a slot, and the registration of a pointer.
* `LocationTree`, `walkLocationTree`, `buildRouteTable` — the recursive walk.
* `upstreamLoop`, `buildUpstreamTable` — the loop over the upstreams.
* `entryName` — `route_name` and `upstream_zone_name`.

## Results

* `walkLocationTree_eq` — the walk registers the pointers of the tree in visiting order.
* `upstreamLoop_eq` — the loop, which stops at a full table, registers the zones in order.
* `registerAll_ptrs` — **a table holds the first distinct pointers, as many as it has room for**.
-/

set_option autoImplicit false

namespace NgxOtel.Metrics

open Word Shm

/-! ## Slots -/

def ROUTE_NAME_MAX : Nat := 64
def UPSTREAM_NAME_MAX : Nat := 32

/-- `ngx_str_t`: its bytes cannot be read through a null pointer. -/
structure NgxStr where
  bytes : Bytes
  null : Bool
  deriving DecidableEq, Repr

/-- The name that a slot keeps; without data it is the zeroes the table was filled with. -/
def NgxStr.cut (max : Nat) (s : NgxStr) : Bytes :=
  if s.null then List.replicate (min s.bytes.length max) 0 else s.bytes.take max

/-- `RouteEntry` and `UpstreamEntry`: the pointer and the name of a slot in use. -/
structure Entry where
  ptr : Nat
  name : Bytes
  deriving DecidableEq, Repr

/-- Whether a pointer has a slot. -/
def registered (table : List Entry) (ptr : Nat) : Bool := table.any fun e => e.ptr = ptr

/-- `try_register_route`, for a table of the given capacity. -/
def tryRegister (cap max : Nat) (name : Nat → NgxStr) (table : List Entry) (ptr : Nat) :
    List Entry :=
  if registered table ptr then table
  else if table.length ≥ cap then table
  else table ++ [⟨ptr, (name ptr).cut max⟩]

/-- `ngx_http_location_tree_node_t`; 0 is a null pointer to a location. -/
inductive LocationTree where
  | null
  | node (exact inclusive : Nat) (tree left right : LocationTree)
  deriving Repr

/-- `walk_location_tree`. -/
def walkLocationTree (name : Nat → NgxStr) (table : List Entry) : LocationTree → List Entry
  | .null => table
  | .node exact inclusive tree left right =>
    let table := if exact ≠ 0 then tryRegister ROUTE_CAP ROUTE_NAME_MAX name table exact else table
    let table :=
      if inclusive ≠ 0 ∧ inclusive ≠ exact then
        tryRegister ROUTE_CAP ROUTE_NAME_MAX name table inclusive
      else table
    let table := walkLocationTree name table tree
    let table := walkLocationTree name table left
    walkLocationTree name table right

/-- `build_route_table`: one tree for every server, `null` where the server has no locations. -/
def buildRouteTable (name : Nat → NgxStr) (servers : List LocationTree) : List Entry :=
  servers.foldl (walkLocationTree name) []

/-- The loop of `build_upstream_table` over the zone of each upstream, 0 where there is none; it
stops when the table is full. -/
def upstreamLoop (name : Nat → NgxStr) : List Nat → List Entry → List Entry
  | [], table => table
  | zone :: zones, table =>
    if zone = 0 then upstreamLoop name zones table
    else if registered table zone then upstreamLoop name zones table
    else if table.length ≥ UPSTREAM_CAP then table
    else upstreamLoop name zones (table ++ [⟨zone, (name zone).cut UPSTREAM_NAME_MAX⟩])

/-- `build_upstream_table`. -/
def buildUpstreamTable (name : Nat → NgxStr) (zones : List Nat) : List Entry :=
  upstreamLoop name zones []

/-- `name_str`; `fromUtf8` is `core::str::from_utf8`. -/
def Entry.nameStr (fromUtf8 : Bytes → Option String) (e : Entry) : String :=
  (fromUtf8 e.name).getD "(invalid)"

/-- `route_name` and `upstream_zone_name`: the overflow slot and slots not in use are `(other)`. -/
def entryName (fromUtf8 : Bytes → Option String) (cap : Nat) (table : List Entry) (idx : Nat) :
    String :=
  if idx = cap then "(other)"
  else
    match table[idx]? with
    | some e => e.nameStr fromUtf8
    | none => "(other)"

/-! ## What is registered -/

/-- Registration of a list of pointers. -/
def registerAll (cap max : Nat) (name : Nat → NgxStr) (table : List Entry) (ptrs : List Nat) :
    List Entry :=
  ptrs.foldl (tryRegister cap max name) table

/-- The locations of a tree in the order in which they are visited. -/
def LocationTree.visits : LocationTree → List Nat
  | .null => []
  | .node exact inclusive tree left right =>
    (if exact ≠ 0 then [exact] else []) ++
      ((if inclusive ≠ 0 ∧ inclusive ≠ exact then [inclusive] else []) ++
        (tree.visits ++ (left.visits ++ right.visits)))

theorem registerAll_append (cap max : Nat) (name : Nat → NgxStr) (table : List Entry)
    (xs ys : List Nat) : registerAll cap max name table (xs ++ ys) =
      registerAll cap max name (registerAll cap max name table xs) ys :=
  List.foldl_append

theorem registerAll_ite (cap max : Nat) (name : Nat → NgxStr) (table : List Entry) (ptr : Nat)
    (p : Prop) [Decidable p] : registerAll cap max name table (if p then [ptr] else []) =
      if p then tryRegister cap max name table ptr else table := by
  by_cases hp : p
  · rw [if_pos hp, if_pos hp]
    rfl
  · rw [if_neg hp, if_neg hp]
    rfl

/-- The walk registers what it visits. -/
theorem walkLocationTree_eq (name : Nat → NgxStr) (tree : LocationTree) (table : List Entry) :
    walkLocationTree name table tree =
      registerAll ROUTE_CAP ROUTE_NAME_MAX name table tree.visits := by
  induction tree generalizing table with
  | null => rfl
  | node exact inclusive tree left right ihTree ihLeft ihRight =>
    unfold walkLocationTree LocationTree.visits
    simp only [registerAll_append, registerAll_ite, ihTree, ihLeft, ihRight]

theorem foldl_walkLocationTree (name : Nat → NgxStr) (servers : List LocationTree)
    (table : List Entry) : servers.foldl (walkLocationTree name) table =
      registerAll ROUTE_CAP ROUTE_NAME_MAX name table (servers.flatMap LocationTree.visits) := by
  induction servers generalizing table with
  | nil => rfl
  | cons tree servers ih =>
    rw [List.foldl_cons, List.flatMap_cons, registerAll_append, ih, walkLocationTree_eq]

/-- Nothing is registered in a full table. -/
theorem registerAll_of_full {cap max : Nat} {name : Nat → NgxStr} {table : List Entry}
    (hfull : table.length ≥ cap) (ptrs : List Nat) :
    registerAll cap max name table ptrs = table := by
  induction ptrs with
  | nil => rfl
  | cons ptr ptrs ih =>
    have hsame : tryRegister cap max name table ptr = table := by
      unfold tryRegister
      rw [if_pos hfull, ite_self]
    show registerAll cap max name (tryRegister cap max name table ptr) ptrs = table
    rw [hsame, ih]

/-- The loop over the upstreams registers their zones. -/
theorem upstreamLoop_eq (name : Nat → NgxStr) : ∀ (zones : List Nat) (table : List Entry),
    upstreamLoop name zones table =
      registerAll UPSTREAM_CAP UPSTREAM_NAME_MAX name table (zones.filter (· ≠ 0))
  | [], _ => rfl
  | zone :: zones, table => by
    unfold upstreamLoop
    by_cases hzero : zone = 0
    · rw [if_pos hzero, List.filter_cons_of_neg (by simpa using hzero)]
      exact upstreamLoop_eq name zones table
    · rw [if_neg hzero, List.filter_cons_of_pos (by simpa using hzero)]
      show _ = registerAll _ _ name (tryRegister _ _ name table zone) (zones.filter (· ≠ 0))
      unfold tryRegister
      split
      · exact upstreamLoop_eq name zones table
      · split
        · rename_i hfull
          exact (registerAll_of_full hfull _).symm
        · exact upstreamLoop_eq name zones _

theorem mem_ptrs_iff {table : List Entry} {ptr : Nat} :
    ptr ∈ table.map Entry.ptr ↔ registered table ptr = true := by
  simp [registered]

/-- A name is that of the pointer. -/
def Named (max : Nat) (name : Nat → NgxStr) (table : List Entry) : Prop :=
  ∀ e ∈ table, e.name = (name e.ptr).cut max

theorem registerAll_named {cap max : Nat} {name : Nat → NgxStr} (ptrs : List Nat) :
    ∀ {table : List Entry}, Named max name table →
      Named max name (registerAll cap max name table ptrs) := by
  induction ptrs with
  | nil => exact id
  | cons ptr ptrs ih =>
    intro table hnamed
    apply ih
    unfold tryRegister
    split
    · exact hnamed
    · split
      · exact hnamed
      · intro e he
        rcases List.mem_append.mp he with he | he
        · exact hnamed e he
        · rw [List.mem_singleton.mp he]

theorem tryRegister_ptrs (cap max : Nat) (name : Nat → NgxStr) (table : List Entry) (ptr : Nat) :
    (tryRegister cap max name table ptr).map Entry.ptr =
      Registry.register cap (table.map Entry.ptr) ptr := by
  unfold tryRegister
  by_cases hmem : ptr ∈ table.map Entry.ptr
  · rw [if_pos (mem_ptrs_iff.mp hmem), Registry.register_of_mem hmem]
  · rw [if_neg fun h => hmem (mem_ptrs_iff.mpr h)]
    by_cases hfull : table.length ≥ cap
    · rw [if_pos hfull, Registry.register_of_full ptr (by rw [List.length_map]; exact hfull)]
    · have hroom : (table.map Entry.ptr).length < cap := by
        rw [List.length_map]
        exact Nat.not_le.mp hfull
      rw [if_neg hfull, Registry.register_of_room hmem hroom, List.map_append, List.map_singleton]

theorem registerAll_ptrs_eq (cap max : Nat) (name : Nat → NgxStr) (ptrs : List Nat)
    (table : List Entry) : (registerAll cap max name table ptrs).map Entry.ptr =
      ptrs.foldl (Registry.register cap) (table.map Entry.ptr) := by
  induction ptrs generalizing table with
  | nil => rfl
  | cons ptr ptrs ih =>
    rw [List.foldl_cons, ← tryRegister_ptrs cap max name]
    exact ih (tryRegister cap max name table ptr)

/-- **A table holds the first distinct pointers, as many as it has room for.** -/
theorem registerAll_ptrs (cap max : Nat) (name : Nat → NgxStr) (ptrs : List Nat) :
    (registerAll cap max name [] ptrs).map Entry.ptr = ptrs.eraseDups.take cap := by
  rw [registerAll_ptrs_eq, List.map_nil, Registry.foldl_register]

end NgxOtel.Metrics
