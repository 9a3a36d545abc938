import NgxOtel.Lib.Word

/-!
# Byte-addressed memory

Memory is a byte for every address.  A string is a length and a pointer, with 0 for the null
pointer; strings may overlap, and what a store leaves alone is said by `Str.Apart`.

* `load`, `store`, `fill` — read, write and set consecutive bytes.
* `loadWord`, `storeWord` — a word of 64 bits.
* `Str.bytes` — the bytes of a string, `none` for a null pointer.

## Results

* `load_store_self` — what was stored is read back.
* `load_store_apart` — a store changes no string that is apart from where it writes.
* `loadWord_storeWord_self`, `loadWord_storeWord_apart` — the same of words.
-/

set_option autoImplicit false

namespace Memory

open Word

abbrev Mem := Nat → UInt8

/-- `n` bytes at an address. -/
def load (m : Mem) (addr n : Nat) : Bytes := (List.range n).map fun i => m (addr + i)

/-- Copy bytes to an address. -/
def store (m : Mem) (addr : Nat) (bytes : Bytes) : Mem := fun x =>
  if addr ≤ x ∧ x < addr + bytes.length then bytes.getD (x - addr) 0 else m x

/-- A length and a pointer. -/
structure Str where
  len : Nat
  data : Nat
  deriving DecidableEq, Repr

/-- The bytes of a string that is not null. -/
def Str.bytes (m : Mem) (s : Str) : Option Bytes :=
  if s.data = 0 then none else some (load m s.data s.len)

/-- Two strings with no address in common; a null pointer has none. -/
def Str.Apart (s t : Str) : Prop :=
  s.data = 0 ∨ t.data = 0 ∨ s.data + s.len ≤ t.data ∨ t.data + t.len ≤ s.data

instance (s t : Str) : Decidable (s.Apart t) := by
  unfold Str.Apart
  infer_instance

@[simp] theorem length_load (m : Mem) (addr n : Nat) : (load m addr n).length = n := by
  simp [load]

theorem load_store_self (m : Mem) (addr : Nat) (bytes : Bytes) :
    load (store m addr bytes) addr bytes.length = bytes := by
  apply List.ext_getElem
  · simp
  · intro i hleft hright
    simp [load, store, List.getD_eq_getElem?_getD, hright]

theorem load_congr {m m' : Mem} {addr n : Nat}
    (h : ∀ x, addr ≤ x → x < addr + n → m' x = m x) : load m' addr n = load m addr n := by
  unfold load
  apply List.map_congr_left
  intro i hi
  rw [List.mem_range] at hi
  exact h (addr + i) (by omega) (by omega)

theorem load_store_apart {m : Mem} {addr n dst : Nat} {bytes : Bytes}
    (h : dst + bytes.length ≤ addr ∨ addr + n ≤ dst) :
    load (store m dst bytes) addr n = load m addr n := by
  apply load_congr
  intro x hlow hhigh
  unfold store
  rw [if_neg (by omega)]

/-- A store into one string leaves a string apart from it as it was. -/
theorem Str.Apart.bytes_store {s t : Str} {m : Mem} {bytes : Bytes} (h : s.Apart t)
    (hs : s.data ≠ 0) (hlen : bytes.length = s.len) :
    t.bytes (store m s.data bytes) = t.bytes m := by
  unfold Str.bytes
  by_cases ht : t.data = 0
  · rw [if_pos ht, if_pos ht]
  · have hranges : s.data + bytes.length ≤ t.data ∨ t.data + t.len ≤ s.data := by
      rw [hlen]
      rcases h with hnull | hnull | hranges
      · exact absurd hnull hs
      · exact absurd hnull ht
      · exact hranges
    rw [if_neg ht, if_neg ht, load_store_apart hranges]

theorem Str.bytes_store_self {s : Str} {m : Mem} {bytes : Bytes} (hs : s.data ≠ 0)
    (hlen : bytes.length = s.len) : s.bytes (store m s.data bytes) = some bytes := by
  unfold Str.bytes
  rw [if_neg hs, ← hlen, load_store_self]

/-! ## Words -/

/-- The word at an address.  Everybody who shares the memory has one byte order; which one makes
no difference to what is read back. -/
def loadWord (m : Mem) (addr : Nat) : Nat := ofBe (load m addr 8)

def storeWord (m : Mem) (addr v : Nat) : Mem := store m addr (toBe 8 v)

/-- Set `n` bytes. -/
def fill (m : Mem) (addr n : Nat) (b : UInt8) : Mem := fun x =>
  if addr ≤ x ∧ x < addr + n then b else m x

theorem loadWord_storeWord_self (m : Mem) (addr : Nat) {v : Nat} (h : v < 2 ^ 64) :
    loadWord (storeWord m addr v) addr = v := by
  have hload : load (store m addr (toBe 8 v)) addr 8 = toBe 8 v := by
    simpa using load_store_self m addr (toBe 8 v)
  rw [loadWord, storeWord, hload, ofBe_toBe (by omega)]

theorem loadWord_storeWord_apart (m : Mem) {addr dst : Nat} (v : Nat)
    (h : dst + 8 ≤ addr ∨ addr + 8 ≤ dst) :
    loadWord (storeWord m dst v) addr = loadWord m addr := by
  unfold loadWord storeWord
  rw [load_store_apart (by rwa [length_toBe])]

end Memory
