import NgxOtel.Lib.Wire

/-!
# Pre- and postconditions of a reader

`Wire.Decodes` says what a reader makes of an encoding.  This module says what a reader makes of an
arbitrary buffer: it stays inside the buffer, and what it returns was there.

* `Yields p rest Q` — run on `rest`, the reader `p` does not read past the end, and when it returns a
  value, value and unread rest satisfy `Q`.
* `InOrder fields buf` — the fields are sub-slices of the buffer that do not overlap and appear in it
  in this order.

## Results

* `Yields.bind`, `Yields.need`, `Yields.has`, `Yields.take`, … — one rule per operation.
* `InOrder.field`, `InOrder.skip` — how the order of fields follows the cursor.
-/

set_option autoImplicit false

namespace Wire

open Word

variable {α β : Type}

/-! ## Postconditions -/

/-- A rejected record satisfies every postcondition, a read past the end none. -/
def Yields (p : Reader α) (rest : Bytes) (Q : α → Bytes → Prop) : Prop :=
  match p rest with
  | .ok (a, rest') => Q a rest'
  | .error .rejected => True
  | .error .outOfBounds => False

/-- A reader with a postcondition stays inside the buffer. -/
theorem Yields.ne_outOfBounds {p : Reader α} {rest : Bytes} {Q : α → Bytes → Prop}
    (h : Yields p rest Q) : p rest ≠ .error .outOfBounds := by
  intro hfault
  simp [Yields, hfault] at h

/-- What is returned satisfies the postcondition. -/
theorem Yields.of_ok {p : Reader α} {rest rest' : Bytes} {Q : α → Bytes → Prop} {a : α}
    (h : Yields p rest Q) (hok : p rest = .ok (a, rest')) : Q a rest' := by
  simpa [Yields, hok] using h

/-- The same for what is made of the value at the end. -/
theorem Yields.map {p : Reader α} {buf : Bytes} {g : α × Bytes → β}
    {Q : α → Bytes → Prop} (h : Yields p buf Q) :
    (p buf).map g ≠ .error .outOfBounds ∧
      ∀ b, (p buf).map g = .ok b → ∃ a rest, b = g (a, rest) ∧ Q a rest := by
  cases hrun : p buf with
  | error fault =>
    refine ⟨?_, by rintro b ⟨⟩⟩
    rintro ⟨⟩
    exact h.ne_outOfBounds hrun
  | ok result =>
    obtain ⟨a, rest⟩ := result
    refine ⟨by rintro ⟨⟩, ?_⟩
    rintro b ⟨⟩
    exact ⟨a, rest, rfl, h.of_ok hrun⟩

theorem Yields.weaken {p : Reader α} {rest : Bytes} {P Q : α → Bytes → Prop} (h : Yields p rest P)
    (hPQ : ∀ a rest', P a rest' → Q a rest') : Yields p rest Q := by
  unfold Yields at h ⊢
  cases hrun : p rest with
  | error fault =>
    rw [hrun] at h
    cases fault with
    | rejected => trivial
    | outOfBounds => exact h
  | ok result =>
    rw [hrun] at h
    exact hPQ _ _ h

theorem Yields.pure {a : α} {rest : Bytes} {Q : α → Bytes → Prop} (h : Q a rest) :
    Yields (Pure.pure a) rest Q := h

theorem Yields.reject {rest : Bytes} {Q : α → Bytes → Prop} : Yields Wire.reject rest Q := trivial

/-- One reader, then the next. -/
theorem Yields.bind {p : Reader α} {f : α → Reader β} {rest : Bytes} {P : α → Bytes → Prop}
    {Q : β → Bytes → Prop} (hp : Yields p rest P)
    (hf : ∀ a rest', P a rest' → Yields (f a) rest' Q) : Yields (p >>= f) rest Q := by
  unfold Yields at hp ⊢
  simp only [Bind.bind]
  cases hrun : p rest with
  | error fault =>
    rw [hrun] at hp
    cases fault with
    | rejected => trivial
    | outOfBounds => exact hp
  | ok result =>
    obtain ⟨a, rest'⟩ := result
    rw [hrun] at hp
    exact hf a rest' hp

/-- Behind a check, its condition holds. -/
theorem Yields.need {n : Nat} {rest : Bytes} {f : Unit → Reader β} {Q : β → Bytes → Prop}
    (h : n ≤ rest.length → Yields (f ()) rest Q) : Yields (Wire.need n >>= f) rest Q := by
  refine Yields.bind (P := fun _ rest' => n ≤ rest'.length ∧ rest' = rest) ?_ ?_
  · unfold Yields Wire.need
    by_cases hn : n ≤ rest.length
    · rw [if_pos hn]
      exact ⟨hn, rfl⟩
    · rw [if_neg hn]
      trivial
  · rintro ⟨⟩ rest' ⟨hn, rfl⟩
    exact h hn

/-- A test splits the run. -/
theorem Yields.has {n : Nat} {rest : Bytes} {f : Bool → Reader β} {Q : β → Bytes → Prop}
    (hyes : n ≤ rest.length → Yields (f true) rest Q)
    (hno : rest.length < n → Yields (f false) rest Q) : Yields (Wire.has n >>= f) rest Q := by
  refine Yields.bind (P := fun b rest' => b = decide (n ≤ rest.length) ∧ rest' = rest)
    ⟨rfl, rfl⟩ ?_
  rintro b rest' ⟨rfl, rfl⟩
  by_cases hn : n ≤ rest'.length
  · rw [decide_eq_true hn]
    exact hyes hn
  · rw [decide_eq_false hn]
    exact hno (Nat.not_le.mp hn)

/-- A read inside the buffer returns the bytes at the cursor. -/
theorem Yields.take {n : Nat} {rest : Bytes} (h : n ≤ rest.length) :
    Yields (Wire.take n) rest fun bytes rest' => rest = bytes ++ rest' ∧ bytes.length = n := by
  unfold Yields Wire.take
  rw [if_pos h]
  exact ⟨(List.take_append_drop n rest).symm, List.length_take_of_le h⟩

theorem Yields.byte {rest : Bytes} (h : 1 ≤ rest.length) :
    Yields Wire.byte rest fun b rest' => rest = [b] ++ rest' := by
  refine (Yields.take h).bind ?_
  rintro bytes rest' ⟨hrest, hlen⟩
  obtain ⟨b, rfl⟩ := List.length_eq_one_iff.mp hlen
  exact Yields.pure hrest

theorem Yields.octets {n : Nat} {rest : Bytes} (h : n ≤ rest.length) :
    Yields (Wire.octets n) rest fun bytes rest' => rest = bytes.val ++ rest' := by
  unfold Yields Wire.octets
  rw [dif_pos h]
  exact (List.take_append_drop n rest).symm

/-! ## Readers of fixed length -/

/-- The reader consumes `n` bytes if they are there. -/
def Passes (n : Nat) (p : Reader α) : Prop :=
  ∀ rest : Bytes, n ≤ rest.length →
    Yields p rest fun _ rest' => ∃ bytes, rest = bytes ++ rest' ∧ bytes.length = n

/-- Converting what was read consumes nothing. -/
theorem Passes.convert {n : Nat} {p : Reader α} (hp : Passes n p) (g : α → β) :
    Passes n (p >>= fun a => Pure.pure (g a)) := by
  intro rest hn
  exact (hp rest hn).bind fun _ _ hrest => Yields.pure hrest

theorem Passes.take (n : Nat) : Passes n (Wire.take n) :=
  fun _ hn => (Yields.take hn).weaken fun bytes _ hbytes => ⟨bytes, hbytes⟩

theorem Passes.word (k : Nat) : Passes k (Wire.word k) := (Passes.take k).convert _

theorem Passes.u16 : Passes 2 Wire.u16 := (Passes.word 2).convert _

theorem Passes.u32 : Passes 4 Wire.u32 := (Passes.word 4).convert _

theorem Passes.u64 : Passes 8 Wire.u64 := (Passes.word 8).convert _

/-! ## Fields in order -/

/-- The fields appear one behind the other, with gaps between them. -/
def InOrder : List Bytes → Bytes → Prop
  | [], _ => True
  | field :: fields, buf => ∃ gap rest, buf = gap ++ field ++ rest ∧ InOrder fields rest

/-- The cursor is at the first field. -/
theorem InOrder.field {field buf rest : Bytes} {fields : List Bytes} (h : buf = field ++ rest)
    (hrest : InOrder fields rest) : InOrder (field :: fields) buf :=
  ⟨[], rest, by rw [h, List.nil_append], hrest⟩

/-- The cursor is at bytes that are not part of a field. -/
theorem InOrder.skip {skipped buf rest : Bytes} {fields : List Bytes} (h : buf = skipped ++ rest)
    (hrest : InOrder fields rest) : InOrder fields buf := by
  cases fields with
  | nil => trivial
  | cons field fields =>
    obtain ⟨gap, behind, hbuf, hfields⟩ := hrest
    exact ⟨skipped ++ gap, behind, by rw [h, hbuf]; simp, hfields⟩

end Wire
