import Mathlib.Data.List.Basic
import Mathlib.Tactic.Ring

/-!
# Regions laid end to end

A region is a start and a length.  `Tiles lo regions hi` says that the regions follow one another
from `lo` to `hi` with no gap; what is usually asked of a memory layout follows from it.

## Results

* `Tiles.append`, `Tiles.stride` — tilings in sequence, and one tiling for every turn of a loop
  with a fixed stride.
* `Tiles.covers` — **the regions cover `lo` to `hi` and nothing else**.
* `Tiles.pairwise_apart` — **no two of them share an address**.
-/

set_option autoImplicit false

namespace Tiling

structure Region where
  start : Nat
  len : Nat
  deriving DecidableEq, Repr

/-- The addresses of a region. -/
def Region.Holds (r : Region) (x : Nat) : Prop := r.start ≤ x ∧ x < r.start + r.len

/-- Two regions with no address in common. -/
def Region.Apart (r s : Region) : Prop := ∀ x, r.Holds x → ¬s.Holds x

/-- The regions follow one another from `lo` to `hi`. -/
def Tiles : Nat → List Region → Nat → Prop
  | lo, [], hi => lo = hi
  | lo, r :: rest, hi => r.start = lo ∧ Tiles (lo + r.len) rest hi

theorem Tiles.append : ∀ {lo mid hi : Nat} {left right : List Region}, Tiles lo left mid →
    Tiles mid right hi → Tiles lo (left ++ right) hi
  | _, _, _, [], _, hleft, hright => by
    cases hleft
    exact hright
  | _, _, _, _ :: _, _, ⟨hstart, hrest⟩, hright => ⟨hstart, hrest.append hright⟩

/-- A tiling for every turn of a loop that moves on by `size`. -/
theorem Tiles.stride {lo size : Nat} {regions : Nat → List Region} : ∀ {n : Nat},
    (∀ w < n, Tiles (lo + w * size) (regions w) (lo + (w + 1) * size)) →
      Tiles lo ((List.range n).flatMap regions) (lo + n * size)
  | 0, _ => by simp [Tiles]
  | n + 1, h => by
    rw [List.range_succ, List.flatMap_append, List.flatMap_singleton]
    exact (Tiles.stride fun w hw => h w (Nat.lt_succ_of_lt hw)).append (h n (Nat.lt_succ_self n))

theorem Tiles.le : ∀ {lo hi : Nat} {regions : List Region}, Tiles lo regions hi → lo ≤ hi
  | _, _, [], h => Nat.le_of_eq h
  | _, _, _ :: _, ⟨_, hrest⟩ => Nat.le_trans (Nat.le_add_right _ _) hrest.le

/-- The regions of a tiling hold the addresses from `lo` to `hi`. -/
theorem Tiles.covers : ∀ {lo hi : Nat} {regions : List Region}, Tiles lo regions hi →
    ∀ x, (∃ r ∈ regions, r.Holds x) ↔ lo ≤ x ∧ x < hi
  | _, _, [], h, x => by
    cases h
    simp only [List.not_mem_nil, false_and, exists_false, false_iff]
    omega
  | _, _, r :: rest, ⟨hstart, hrest⟩, x => by
    have hle := hrest.le
    simp only [List.mem_cons, exists_eq_or_imp, hrest.covers x]
    unfold Region.Holds
    omega

/-- A region of a tiling lies behind every region before it. -/
theorem Tiles.pairwise_apart : ∀ {lo hi : Nat} {regions : List Region}, Tiles lo regions hi →
    regions.Pairwise Region.Apart
  | _, _, [], _ => List.Pairwise.nil
  | _, _, r :: rest, ⟨hstart, hrest⟩ => by
    refine List.Pairwise.cons ?_ hrest.pairwise_apart
    intro s hs x hr hx
    have hlow := ((hrest.covers x).mp ⟨s, hs, hx⟩).1
    unfold Region.Holds at hr
    omega

end Tiling
