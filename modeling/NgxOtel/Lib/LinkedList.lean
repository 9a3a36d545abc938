import Mathlib.Data.List.Basic
import Mathlib.Logic.Function.Basic

/-!
# Null-terminated lists in a heap

A heap maps addresses to cells, a cell has a value and the address of the next one.

* `Chain heap p nodes` — from `p` the heap holds exactly the cells `nodes`, addresses with values,
  up to a null pointer.

## Results

* `Chain.unique` — a pointer determines its chain.
* `Chain.nodup` — a chain that ends has no cycle.
* `Chain.frame` — a chain only depends on the cells at its addresses.
-/

set_option autoImplicit false

namespace LinkedList

variable {A V : Type}

/-- A value and the address of the next cell. -/
structure Cell (A V : Type) where
  value : V
  next : Option A
  deriving DecidableEq, Repr

/-- No cell is at an address outside the heap. -/
abbrev Heap (A V : Type) := A → Option (Cell A V)

/-- The cells from a pointer to the end. -/
inductive Chain (heap : Heap A V) : Option A → List (A × V) → Prop
  | null : Chain heap none []
  | link {a : A} {v : V} {next : Option A} {nodes : List (A × V)} :
      heap a = some ⟨v, next⟩ → Chain heap next nodes → Chain heap (some a) ((a, v) :: nodes)

/-- The addresses of the cells. -/
def addresses (nodes : List (A × V)) : List A := nodes.map Prod.fst

/-- The values of the cells. -/
def values (nodes : List (A × V)) : List V := nodes.map Prod.snd

@[simp] theorem addresses_nil : addresses ([] : List (A × V)) = [] := rfl

@[simp] theorem addresses_cons (n : A × V) (nodes : List (A × V)) :
    addresses (n :: nodes) = n.1 :: addresses nodes := rfl

@[simp] theorem addresses_append (nodes nodes' : List (A × V)) :
    addresses (nodes ++ nodes') = addresses nodes ++ addresses nodes' := List.map_append

@[simp] theorem values_cons (n : A × V) (nodes : List (A × V)) :
    values (n :: nodes) = n.2 :: values nodes := rfl

@[simp] theorem values_append (nodes nodes' : List (A × V)) :
    values (nodes ++ nodes') = values nodes ++ values nodes' := List.map_append

namespace Chain

variable {heap heap' : Heap A V} {p : Option A} {nodes nodes' : List (A × V)}

/-- The first cell of a chain that is not empty. -/
theorem first {a : A} {v : V} (h : Chain heap p ((a, v) :: nodes)) :
    p = some a ∧ ∃ next, heap a = some ⟨v, next⟩ ∧ Chain heap next nodes := by
  cases h with
  | link hcell hrest => exact ⟨rfl, _, hcell, hrest⟩

/-- A cell has one value and one next. -/
theorem unique (h : Chain heap p nodes) (h' : Chain heap p nodes') : nodes = nodes' := by
  induction h generalizing nodes' with
  | null => cases h'; rfl
  | link hcell _ ih =>
    cases h' with
    | link hcell' hrest' =>
      rw [hcell] at hcell'
      cases hcell'
      rw [ih hrest']

/-- A part of a chain is the chain of its first cell. -/
theorem suffix {front : List (A × V)} {a : A} {v : V} {rest : List (A × V)}
    (h : Chain heap p (front ++ (a, v) :: rest)) : Chain heap (some a) ((a, v) :: rest) := by
  induction front generalizing p with
  | nil =>
    obtain ⟨rfl, -⟩ := h.first
    exact h
  | cons n front ih =>
    obtain ⟨-, _, -, hrest⟩ := Chain.first h
    exact ih hrest

/-- **A chain that ends is acyclic.** -/
theorem nodup (h : Chain heap p nodes) : (addresses nodes).Nodup := by
  induction h with
  | null => exact List.nodup_nil
  | @link a v next nodes hcell hrest ih =>
    refine List.nodup_cons.mpr ⟨?_, ih⟩
    intro hmem
    obtain ⟨⟨b, v'⟩, hn, hb⟩ := List.mem_map.mp hmem
    obtain ⟨front, rest, rfl⟩ := List.append_of_mem hn
    -- the same cell would start a chain and a shorter one
    obtain rfl : b = a := hb
    have hshort := hrest.suffix
    have hlen := congrArg List.length ((Chain.link hcell hrest).unique hshort)
    simp at hlen
    omega

/-- Cells elsewhere can change. -/
theorem frame (h : Chain heap p nodes) (hsame : ∀ a ∈ addresses nodes, heap' a = heap a) :
    Chain heap' p nodes := by
  induction h with
  | null => exact .null
  | link hcell _ ih =>
    refine .link ?_ (ih fun a ha => hsame a (List.mem_cons_of_mem _ ha))
    rw [hsame _ List.mem_cons_self, hcell]

end Chain

end LinkedList
