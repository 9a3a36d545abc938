import Mathlib.Data.List.Basic
import Mathlib.Logic.Function.Basic

/-!
# Counters spread over processes

Every process bumps 64-bit counters of its own, its shard, and a reader adds the shards up.

* `total n shard` — the sum over the shards `0 .. n - 1`, counter by counter.

## Results

* `total_bump` — **it does not matter which shard a bump goes to**: the total grows by it.
* `total_congr`, `total_zero` — the total depends on the shards it covers; of zeroes it is zero.
-/

set_option autoImplicit false

namespace Shards

variable {φ : Type*}

/-- The shards added up, one after the other. -/
def total (n : Nat) (shard : Nat → φ → UInt64) : φ → UInt64 :=
  (List.range n).foldl (fun agg i f => agg f + shard i f) fun _ => 0

theorem total_succ (n : Nat) (shard : Nat → φ → UInt64) (f : φ) :
    total (n + 1) shard f = total n shard f + shard n f := by
  rw [total, List.range_succ, List.foldl_append]
  rfl

theorem total_congr {n : Nat} {shard shard' : Nat → φ → UInt64}
    (h : ∀ i < n, shard i = shard' i) : total n shard = total n shard' := by
  funext f
  induction n with
  | zero => rfl
  | succ n ih =>
    rw [total_succ, total_succ, ih fun i hi => h i (Nat.lt_succ_of_lt hi), h n (Nat.lt_succ_self n)]

theorem total_zero {n : Nat} {shard : Nat → φ → UInt64} (h : ∀ i < n, ∀ f, shard i f = 0) (f : φ) :
    total n shard f = 0 := by
  induction n with
  | zero => rfl
  | succ n ih =>
    rw [total_succ, ih fun i hi => h i (Nat.lt_succ_of_lt hi), h n (Nat.lt_succ_self n) f]
    rfl

/-- **A bump of one shard is a bump of the total.** -/
theorem total_bump {n w : Nat} {shard : Nat → φ → UInt64} {v : φ → UInt64} {d : UInt64} {f : φ}
    (hw : w < n) (hv : v f = shard w f + d) :
    total n (Function.update shard w v) f = total n shard f + d := by
  induction n with
  | zero => exact absurd hw (Nat.not_lt_zero w)
  | succ n ih =>
    rw [total_succ, total_succ]
    rcases Nat.lt_succ_iff_lt_or_eq.mp hw with hlt | rfl
    · rw [ih hlt, Function.update_of_ne (Nat.ne_of_gt hlt), UInt64.add_assoc,
        UInt64.add_comm d, ← UInt64.add_assoc]
    · have hbelow : total w (Function.update shard w v) = total w shard :=
        total_congr fun i hi => Function.update_of_ne (Nat.ne_of_lt hi) _ _
      rw [hbelow, Function.update_self, hv, UInt64.add_assoc]

end Shards
