import NgxOtel.Lib.Word

/-!
# Writing into a fixed buffer, reading through a cursor

The two sides of a record format.  A writer copies chunks one after the other into a buffer of fixed
size, where a copy past its end is a fault.  A reader walks over the bytes with a cursor; it can find
that too little is left (and reject the record, or go on without a field), and it can read, where a
read past the end is a fault.

* `writeAll cap chunks` — the bytes written, `none` after a fault.
* `Reader`, `need`, `has`, `take`, `u64` — the cursor is the unread rest of the buffer.
* `Decodes p enc a` — on any buffer that starts with `enc`, the reader `p` consumes `enc` and returns
  `a`.

## Results

* `writeAll_of_le` — chunks that fit are all written.
* `Decodes.bind`, `Decodes.need`, `Decodes.has`, … — how a reader and the encoding it undoes are
  composed field by field.
-/

set_option autoImplicit false

namespace Wire

open Word

variable {α β : Type}

/-- A byte string of fixed length. -/
abbrev Octets (n : Nat) := { bs : Bytes // bs.length = n }

/-! ## Writing -/

/-- Copy a chunk behind what is already in the buffer. -/
def put (cap : Nat) (buf chunk : Bytes) : Option Bytes :=
  if buf.length + chunk.length ≤ cap then some (buf ++ chunk) else none

/-- Copy chunks one after the other. -/
def writeAll (cap : Nat) (chunks : List Bytes) : Option Bytes := chunks.foldlM (put cap) []

theorem foldlM_put {cap : Nat} : ∀ {chunks : List Bytes} {buf : Bytes},
    buf.length + chunks.flatten.length ≤ cap →
      chunks.foldlM (put cap) buf = some (buf ++ chunks.flatten)
  | [], buf, _ => by simp
  | chunk :: chunks, buf, hfits => by
    simp only [List.flatten_cons, List.length_append] at hfits
    have hput : put cap buf chunk = some (buf ++ chunk) := if_pos (by omega)
    have hrest : (buf ++ chunk).length + chunks.flatten.length ≤ cap := by
      rw [List.length_append]
      omega
    rw [List.foldlM_cons, hput]
    simpa using foldlM_put hrest

/-- Chunks that fit are written without a fault. -/
theorem writeAll_of_le {cap : Nat} {chunks : List Bytes} (h : chunks.flatten.length ≤ cap) :
    writeAll cap chunks = some chunks.flatten := by
  have hstart : ([] : Bytes).length + chunks.flatten.length ≤ cap := by simpa using h
  simpa [writeAll] using foldlM_put hstart

/-! ## Reading -/

/-- Why a reader stops: the record is rejected, or it read past the end. -/
inductive Fault where
  | rejected
  | outOfBounds
  deriving DecidableEq, Repr

/-- A reader returns its value and the unread rest. -/
def Reader (α : Type) := Bytes → Except Fault (α × Bytes)

instance : Monad Reader where
  pure a := fun rest => .ok (a, rest)
  bind p f := fun rest =>
    match p rest with
    | .error e => .error e
    | .ok (a, rest) => f a rest

/-- Reject the record. -/
def reject : Reader α := fun _ => .error .rejected

/-- `if pos + n > buf.len() { return None }`. -/
def need (n : Nat) : Reader Unit := fun rest =>
  if n ≤ rest.length then .ok ((), rest) else .error .rejected

/-- `pos + n <= buf.len()`. -/
def has (n : Nat) : Reader Bool := fun rest => .ok (n ≤ rest.length, rest)

/-- `buf[pos..pos + n]`, and the cursor behind it. -/
def take (n : Nat) : Reader Bytes := fun rest =>
  if n ≤ rest.length then .ok (rest.take n, rest.drop n) else .error .outOfBounds

/-- A big-endian integer of `k` bytes. -/
def word (k : Nat) : Reader Nat := do
  let bytes ← take k
  pure (ofBe bytes)

/-- `buf[pos]`. -/
def byte : Reader UInt8 := do
  let bytes ← take 1
  pure (bytes.headD 0)

/-- `u16::from_be_bytes`, and the wider integers. -/
def u16 : Reader UInt16 := do
  let n ← word 2
  pure (UInt16.ofNat n)

def u32 : Reader UInt32 := do
  let n ← word 4
  pure (UInt32.ofNat n)

def u64 : Reader UInt64 := do
  let n ← word 8
  pure (UInt64.ofNat n)

/-- A byte string of fixed length. -/
def octets (n : Nat) : Reader (Octets n) := fun rest =>
  if h : n ≤ rest.length then .ok (⟨rest.take n, List.length_take_of_le h⟩, rest.drop n)
  else .error .outOfBounds

theorem bind_of_ok {p : Reader α} {f : α → Reader β} {rest rest' : Bytes} {a : α}
    (h : p rest = .ok (a, rest')) : (p >>= f) rest = f a rest' := by
  simp only [Bind.bind, h]

/-- The reader undoes the encoding, whatever follows it. -/
def Decodes (p : Reader α) (enc : Bytes) (a : α) : Prop :=
  ∀ rest, p (enc ++ rest) = .ok (a, rest)

theorem Decodes.pure (a : α) : Decodes (Pure.pure a) [] a := fun _ => rfl

/-- One field, then the others. -/
theorem Decodes.bind {p : Reader α} {f : α → Reader β} {enc enc' : Bytes} {a : α} {b : β}
    (hp : Decodes p enc a) (hf : Decodes (f a) enc' b) : Decodes (p >>= f) (enc ++ enc') b := by
  intro rest
  have hfirst : p (enc ++ enc' ++ rest) = .ok (a, enc' ++ rest) := by
    rw [List.append_assoc, hp]
  rw [bind_of_ok hfirst, hf]

/-- The last field, and what is made of it. -/
theorem Decodes.last {p : Reader α} {g : α → β} {enc : Bytes} {a : α} (hp : Decodes p enc a) :
    Decodes (p >>= fun a => Pure.pure (g a)) enc (g a) := by
  intro rest
  rw [bind_of_ok (hp rest)]
  rfl

/-- A check that the fields behind it satisfy. -/
theorem Decodes.need {f : Unit → Reader β} {enc : Bytes} {b : β} {n : Nat} (hn : n ≤ enc.length)
    (hf : Decodes (f ()) enc b) : Decodes (Wire.need n >>= f) enc b := by
  intro rest
  have hcheck : Wire.need n (enc ++ rest) = .ok ((), enc ++ rest) := by
    rw [Wire.need, if_pos (by rw [List.length_append]; omega)]
  rw [bind_of_ok hcheck, hf]

/-- A test that the fields behind it satisfy. -/
theorem Decodes.has {f : Bool → Reader β} {enc : Bytes} {b : β} {n : Nat} (hn : n ≤ enc.length)
    (hf : Decodes (f true) enc b) : Decodes (Wire.has n >>= f) enc b := by
  intro rest
  have htest : Wire.has n (enc ++ rest) = .ok (true, enc ++ rest) := by
    rw [Wire.has, decide_eq_true (by rw [List.length_append]; omega)]
  rw [bind_of_ok htest, hf]

theorem Decodes.take {n : Nat} {bytes : Bytes} (h : bytes.length = n) :
    Decodes (Wire.take n) bytes bytes := by
  intro rest
  subst h
  simp [Wire.take]

theorem Decodes.word {k n : Nat} (h : n < 256 ^ k) : Decodes (Wire.word k) (toBe k n) n := by
  intro rest
  rw [Wire.word, bind_of_ok (Decodes.take (length_toBe k n) rest), ofBe_toBe h]
  rfl

theorem Decodes.byte (b : UInt8) : Decodes Wire.byte [b] b := fun _ => rfl

theorem Decodes.u16 (n : UInt16) : Decodes Wire.u16 (toBe 2 n.toNat) n := by
  have hword : Decodes (Wire.word 2) (toBe 2 n.toNat) n.toNat := Decodes.word n.toNat_lt
  have hread := hword.last (g := UInt16.ofNat)
  rw [UInt16.ofNat_toNat] at hread
  exact hread

theorem Decodes.u32 (n : UInt32) : Decodes Wire.u32 (toBe 4 n.toNat) n := by
  have hword : Decodes (Wire.word 4) (toBe 4 n.toNat) n.toNat := Decodes.word n.toNat_lt
  have hread := hword.last (g := UInt32.ofNat)
  rw [UInt32.ofNat_toNat] at hread
  exact hread

theorem Decodes.u64 (n : UInt64) : Decodes Wire.u64 (toBe 8 n.toNat) n := by
  have hword : Decodes (Wire.word 8) (toBe 8 n.toNat) n.toNat := Decodes.word n.toNat_lt
  have hread := hword.last (g := UInt64.ofNat)
  rw [UInt64.ofNat_toNat] at hread
  exact hread

theorem Decodes.octets {n : Nat} (bytes : Octets n) : Decodes (Wire.octets n) bytes.val bytes := by
  obtain ⟨bytes, rfl⟩ := bytes
  intro rest
  unfold Wire.octets
  rw [dif_pos (by simp)]
  simp

/-- A decoder that undoes an encoding returns its value on the encoding alone. -/
theorem Decodes.alone {p : Reader α} {enc : Bytes} {a : α} (h : Decodes p enc a) :
    (p enc).map Prod.fst = .ok a := by
  have hend := h []
  rw [List.append_nil] at hend
  rw [hend]
  rfl

/-! ## Length-prefixed byte strings -/

/-- `data[..max]` behind its length as a 16-bit integer. -/
def capped (max : Nat) (data : Bytes) : List Bytes :=
  [toBe 2 (data.take max).length, data.take max]

/-- Read a byte string behind its length, rejecting a record that ends before it does. -/
def cappedBytes : Reader Bytes := do
  need 2
  let len ← word 2
  need len
  take len

@[simp] theorem length_flatten_capped (max : Nat) (data : Bytes) :
    (capped max data).flatten.length = 2 + min max data.length := by
  simp [capped]

theorem length_flatten_capped_le (max : Nat) (data : Bytes) :
    (capped max data).flatten.length ≤ 2 + max := by
  rw [length_flatten_capped]
  omega

theorem le_length_flatten_capped (max : Nat) (data : Bytes) :
    2 ≤ (capped max data).flatten.length := by
  rw [length_flatten_capped]
  exact Nat.le_add_right 2 _

/-- **A capped byte string is read back cut to its cap.** -/
theorem Decodes.capped {max : Nat} (hmax : max < 2 ^ 16) (data : Bytes) :
    Decodes cappedBytes (capped max data).flatten (data.take max) := by
  have hlen : (data.take max).length < 256 ^ 2 := by
    rw [List.length_take]
    omega
  unfold cappedBytes
  refine Decodes.need (le_length_flatten_capped max data) ?_
  rw [Wire.capped, List.flatten_cons, List.flatten_singleton]
  refine (Decodes.word hlen).bind ?_
  refine Decodes.need (Nat.le_refl _) ?_
  exact Decodes.take rfl

end Wire
