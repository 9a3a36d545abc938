import Mathlib.Data.List.Basic

/-!
# The partition point of a slice

`slice::partition_point`: a bisection for the first element that fails a predicate, on a slice whose
elements that satisfy it come first.

* `bisect` — the loop: `size` elements from `base` on are left, and it halves them.
* `partitionPoint` — the index it returns.
* `partitionPoint_le_length` — it is an index or the length, for any slice.
* `lt_partitionPoint_iff` — **on a partitioned slice, an element lies before the partition point iff
  it satisfies the predicate.**
-/

set_option autoImplicit false

namespace PartitionPoint

variable {α : Type*}

/-- Does the element at an index satisfy the predicate? -/
def holdsAt (xs : List α) (pred : α → Bool) (i : Nat) : Bool := xs[i]?.any pred

/-- The loop of the bisection.  It halves `size`, so `size` turns are enough fuel. -/
def bisect (at_ : Nat → Bool) : (fuel size base : Nat) → Nat
  | 0, _, base => base
  | fuel + 1, size, base =>
    if size ≤ 1 then base
    else
      let half := size / 2
      let mid := base + half
      bisect at_ fuel (size - half) (if at_ mid then mid else base)

/-- `slice::partition_point`. -/
def partitionPoint (xs : List α) (pred : α → Bool) : Nat :=
  if xs.length = 0 then 0
  else
    let base := bisect (holdsAt xs pred) xs.length xs.length 0
    base + if holdsAt xs pred base then 1 else 0

theorem bisect_lt (at_ : Nat → Bool) {n : Nat} :
    ∀ {fuel size base : Nat}, 0 < size → base + size ≤ n → bisect at_ fuel size base < n := by
  intro fuel
  induction fuel with
  | zero =>
    intro size base hsize hn
    simp only [bisect]
    omega
  | succ fuel ih =>
    intro size base hsize hn
    unfold bisect
    by_cases hone : size ≤ 1
    · rw [if_pos hone]
      omega
    · rw [if_neg hone]
      apply ih (by omega)
      split <;> omega

theorem partitionPoint_le_length (xs : List α) (pred : α → Bool) :
    partitionPoint xs pred ≤ xs.length := by
  unfold partitionPoint
  by_cases hempty : xs.length = 0
  · simp [hempty]
  · have hlt : bisect (holdsAt xs pred) xs.length xs.length 0 < xs.length :=
      bisect_lt (holdsAt xs pred) (Nat.pos_of_ne_zero hempty) (Nat.le_of_eq (Nat.zero_add _))
    simp only [hempty, if_false]
    split <;> omega

/-- What the bisection knows: the elements up to `base` satisfy the predicate (unless `base` is the
start), those from `base + size` on do not. -/
structure Bracket (at_ : Nat → Bool) (n size base : Nat) : Prop where
  size_pos : 0 < size
  within : base + size ≤ n
  below : base = 0 ∨ at_ base = true
  above : ∀ i, base + size ≤ i → i < n → at_ i = false

theorem bisect_bracket {at_ : Nat → Bool} {n : Nat}
    (hpart : ∀ i j, i ≤ j → j < n → at_ j = true → at_ i = true) :
    ∀ {fuel size base : Nat}, size ≤ fuel → Bracket at_ n size base →
      Bracket at_ n 1 (bisect at_ fuel size base) := by
  intro fuel
  induction fuel with
  | zero =>
    intro size base hfuel h
    exact absurd h.size_pos (by omega)
  | succ fuel ih =>
    intro size base hfuel h
    obtain ⟨hpos, hwithin, hbelow, habove⟩ := h
    unfold bisect
    by_cases hone : size ≤ 1
    · rw [if_pos hone]
      have hsize : size = 1 := by omega
      subst hsize
      exact ⟨hpos, hwithin, hbelow, habove⟩
    · rw [if_neg hone]
      apply ih (by omega)
      by_cases hmid : at_ (base + size / 2) = true
      · -- the answer lies above the middle: everything from the old end on still fails
        simp only [hmid, if_true]
        exact ⟨by omega, by omega, Or.inr hmid, fun i hi => habove i (by omega)⟩
      · simp only [hmid, Bool.false_eq_true, if_false]
        refine ⟨by omega, by omega, hbelow, ?_⟩
        intro i hi hin
        by_contra htrue
        exact hmid (hpart _ i (by omega) hin (by simpa using htrue))

/-- **Before the partition point the predicate holds, from it on it fails.** -/
theorem lt_partitionPoint_iff {xs : List α} {pred : α → Bool}
    (hpart : ∀ i j, i ≤ j → j < xs.length → holdsAt xs pred j = true → holdsAt xs pred i = true)
    {i : Nat} (hi : i < xs.length) :
    i < partitionPoint xs pred ↔ holdsAt xs pred i = true := by
  have hpos : 0 < xs.length := by omega
  have hstart : Bracket (holdsAt xs pred) xs.length xs.length 0 :=
    ⟨hpos, by omega, Or.inl rfl, fun j hj hjn => by omega⟩
  obtain ⟨-, hwithin, hbelow, habove⟩ := bisect_bracket hpart (Nat.le_refl _) hstart
  unfold partitionPoint
  rw [if_neg (by omega)]
  generalize bisect (holdsAt xs pred) xs.length xs.length 0 = base at hwithin hbelow habove
  by_cases hbase : holdsAt xs pred base = true
  · simp only [hbase, if_true]
    constructor
    · intro hlt
      exact hpart i base (by omega) (by omega) hbase
    · intro htrue
      by_contra hge
      have hfalse := habove i (by omega) hi
      rw [htrue] at hfalse
      cases hfalse
  · -- nothing satisfies the predicate: the bisection never left the start
    have hzero : base = 0 := hbelow.resolve_right hbase
    subst hzero
    simp only [hbase, Bool.false_eq_true, if_false, Nat.add_zero, Nat.not_lt_zero, false_iff]
    intro htrue
    exact hbase (hpart 0 i (Nat.zero_le i) hi htrue)

end PartitionPoint
