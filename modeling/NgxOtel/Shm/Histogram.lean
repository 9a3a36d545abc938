import NgxOtel.Lib.Counters
import NgxOtel.Lib.PartitionPoint
import Mathlib.Data.Fintype.Sum
import Mathlib.Data.List.FinRange
import Mathlib.Order.Bounds.Basic
import Mathlib.Tactic.DeriveFintype

/-!
# Histogram slots in shared memory

`shm/histogram.rs`: a worker counts durations and sizes in slots of 64-bit atomics that the exporter
reads.

* `Field` — the words of a slot: its cells, the sum of the values, the number of observations.
* `recordOps` — the fetch-adds of a `record` call, in order: a cell, the sum, the count.
* `ExpHistogramSlot.record`, `Histogram.record` — the exponential and the explicit-boundary slot,
  which differ in how they choose the cell.
* `SECONDS_BUCKET_UPPER_US` — the upper bounds, in microseconds, of the exponential buckets.

## Results

* `bucketUpper_exact` — every entry of the table is the exact integer part of its bound.
* `bucketIdx_eq_min` — the bisection of the table finds the bucket that the exact arithmetic of the
  scale-3 mapping prescribes.
* `record_exact` — **a record changes one cell, the sum and the count, and nothing else.**
* `expCell_eq_bucket_iff`, `histogramCell_eq_iff` — the values that a cell counts.
-/

set_option autoImplicit false

namespace NgxOtel.Shm

open Counters PartitionPoint

/-- The words of a slot with cells `ι`. -/
inductive Field (ι : Type) where
  | cell (i : ι)
  | sum
  | count
  deriving DecidableEq, Repr

/-- The atomics of a slot. -/
abbrev Slot (ι : Type) := Field ι → UInt64

/-- `AtomicU64::fetch_add`. -/
def fetchAdd {ι : Type} [DecidableEq ι] (s : Slot ι) (op : Op (Field ι)) : Slot ι :=
  Function.update s op.1 (s op.1 + op.2)

/-- The fetch-adds of a `record` call that falls into a cell. -/
def recordOps {ι : Type} (cell : ι) (value : UInt64) : List (Op (Field ι)) :=
  [(.cell cell, 1), (.sum, value), (.count, 1)]

/-! ## The exponential histogram -/

def N_EXP_BUCKETS : Nat := 192

/-- `buckets[i]` and `zero_count`. -/
inductive ExpCell where
  | bucket (i : Fin N_EXP_BUCKETS)
  | zero
  deriving DecidableEq, Repr, Fintype

abbrev ExpHistogramSlot := Slot ExpCell

/-- The upper bound of each bucket in microseconds. -/
def SECONDS_BUCKET_UPPER_US : List Nat := [
  1, 1, 1, 1, 1, 1, 1, 1,
  2, 2, 2, 2, 2, 3, 3, 3,
  4, 4, 4, 5, 5, 6, 6, 7,
  8, 9, 9, 10, 11, 12, 13, 15,
  16, 18, 19, 21, 23, 25, 27, 30,
  33, 36, 39, 43, 47, 51, 55, 61,
  66, 72, 79, 86, 94, 102, 111, 122,
  133, 145, 158, 172, 188, 205, 223, 244,
  266, 290, 316, 345, 376, 410, 447, 488,
  532, 580, 633, 690, 753, 821, 895, 976,
  1064, 1161, 1266, 1381, 1506, 1642, 1791, 1953,
  2129, 2322, 2532, 2762, 3012, 3284, 3582, 3906,
  4259, 4645, 5065, 5524, 6024, 6569, 7164, 7812,
  8519, 9290, 10131, 11048, 12048, 13139, 14328, 15625,
  17039, 18581, 20263, 22097, 24097, 26278, 28656, 31250,
  34078, 37162, 40526, 44194, 48194, 52556, 57312, 62500,
  68156, 74325, 81052, 88388, 96388, 105112, 114625, 125000,
  136313, 148650, 162104, 176776, 192776, 210224, 229251, 250000,
  272626, 297301, 324209, 353553, 385552, 420448, 458502, 500000,
  545253, 594603, 648419, 707106, 771105, 840896, 917004, 1000000,
  1090507, 1189207, 1296839, 1414213, 1542210, 1681792, 1834008, 2000000,
  2181015, 2378414, 2593679, 2828427, 3084421, 3363585, 3668016, 4000000,
  4362030, 4756828, 5187358, 5656854, 6168843, 6727171, 7336032, 8000000,
  8724061, 9513656, 10374716, 11313708, 12337686, 13454342, 14672064, 16000000]

/-- The bucket that `record` chooses for a positive value, before it is clamped. -/
def bucketIdx (valueUs : UInt64) : Nat :=
  partitionPoint SECONDS_BUCKET_UPPER_US fun t => t < valueUs.toNat

/-- The overflow bucket takes everything beyond the table. -/
def clampBucket (i : Nat) : Fin N_EXP_BUCKETS :=
  ⟨min i (N_EXP_BUCKETS - 1), Nat.lt_of_le_of_lt (Nat.min_le_right _ _) (by decide)⟩

/-- The cell of a duration. -/
def expCell (valueUs : UInt64) : ExpCell :=
  if valueUs = 0 then .zero else .bucket (clampBucket (bucketIdx valueUs))

/-- `ExpHistogramSlot::record`. -/
def ExpHistogramSlot.record (s : ExpHistogramSlot) (valueUs : UInt64) : ExpHistogramSlot :=
  (recordOps (expCell valueUs) valueUs).foldl fetchAdd s

/-! ## The explicit-boundary histogram -/

/-- `Histogram<B>`: one bucket per boundary, and one above the last. -/
abbrev Histogram (B : Nat) := Slot (Fin B)

/-- The bucket of a value. -/
def histogramCell (bounds : List UInt64) (value : UInt64) : Fin (bounds.length + 1) :=
  ⟨partitionPoint bounds fun b => value > b,
    Nat.lt_succ_of_le (partitionPoint_le_length bounds _)⟩

/-- `Histogram::record`, with boundaries of length `B - 1`. -/
def Histogram.record (bounds : List UInt64) (s : Histogram (bounds.length + 1)) (value : UInt64) :
    Histogram (bounds.length + 1) :=
  (recordOps (histogramCell bounds value) value).foldl fetchAdd s

/-! ## The table is exact -/

/-- Bucket `i` reaches up to `2 ^ ((i - 159) / 8)` seconds: the eighth power of a duration in
microseconds against the eighth power of that bound. -/
def Within (valueUs i : Nat) : Prop := valueUs ^ 8 * 2 ^ 159 ≤ 10 ^ 48 * 2 ^ i

instance (valueUs i : Nat) : Decidable (Within valueUs i) := Nat.decLe _ _

theorem length_bucketUpper : SECONDS_BUCKET_UPPER_US.length = N_EXP_BUCKETS := by
  decide +kernel

/-- **Every entry is the largest integer within its bound.** -/
theorem bucketUpper_exact : ∀ i : Fin N_EXP_BUCKETS,
    Within (SECONDS_BUCKET_UPPER_US.getD i 0) i ∧
      ¬Within (SECONDS_BUCKET_UPPER_US.getD i 0 + 1) i := by
  decide +kernel

theorem Within.of_le {v w i : Nat} (hle : v ≤ w) (h : Within w i) : Within v i :=
  Nat.le_trans (Nat.mul_le_mul_right _ (Nat.pow_le_pow_left hle 8)) h

theorem Within.mono {v i j : Nat} (hij : i ≤ j) (h : Within v i) : Within v j :=
  Nat.le_trans h (Nat.mul_le_mul_left _ (Nat.pow_le_pow_right (by decide) hij))

/-- A value is within a bucket's bound iff it is at most its table entry. -/
theorem within_iff_le {v i : Nat} (hi : i < N_EXP_BUCKETS) :
    Within v i ↔ v ≤ SECONDS_BUCKET_UPPER_US.getD i 0 := by
  obtain ⟨hin, hout⟩ := bucketUpper_exact ⟨i, hi⟩
  constructor
  · intro hv
    by_contra hgt
    exact hout (hv.of_le (Nat.lt_of_not_le hgt))
  · intro hle
    exact hin.of_le hle

/-- The elements below a value are those whose bucket it exceeds. -/
theorem holdsAt_bucketUpper {v i : Nat} (hi : i < N_EXP_BUCKETS) :
    holdsAt SECONDS_BUCKET_UPPER_US (fun t => t < v) i = true ↔ ¬Within v i := by
  have hlt : i < SECONDS_BUCKET_UPPER_US.length := by rw [length_bucketUpper]; exact hi
  rw [within_iff_le hi]
  simp [holdsAt, List.getD, List.getElem?_eq_getElem hlt]

/-- Every value is within some bound. -/
theorem exists_within (v : Nat) : ∃ i, Within v i := by
  refine ⟨v ^ 8 * 2 ^ 159, ?_⟩
  have hpow : v ^ 8 * 2 ^ 159 < 2 ^ (v ^ 8 * 2 ^ 159) := Nat.lt_two_pow_self
  calc v ^ 8 * 2 ^ 159 ≤ 2 ^ (v ^ 8 * 2 ^ 159) := Nat.le_of_lt hpow
    _ ≤ 10 ^ 48 * 2 ^ (v ^ 8 * 2 ^ 159) := Nat.le_mul_of_pos_left _ (by decide)

theorem isLeast_within (v : Nat) : IsLeast {i | Within v i} (Nat.find (exists_within v)) :=
  ⟨Nat.find_spec (exists_within v), fun _ hj => Nat.find_min' _ hj⟩

/-- **The bisection finds the least bucket that reaches the value.** -/
theorem bucketIdx_eq_min {valueUs : UInt64} {i : Nat}
    (hi : IsLeast {i | Within valueUs.toNat i} i) :
    bucketIdx valueUs = min i N_EXP_BUCKETS := by
  have hlen := length_bucketUpper
  have hpart : ∀ j k, j ≤ k → k < SECONDS_BUCKET_UPPER_US.length →
      holdsAt SECONDS_BUCKET_UPPER_US (fun t => t < valueUs.toNat) k = true →
      holdsAt SECONDS_BUCKET_UPPER_US (fun t => t < valueUs.toNat) j = true := by
    intro j k hjk hk hholds
    rw [holdsAt_bucketUpper (by omega)] at hholds ⊢
    exact fun hj => hholds (hj.mono hjk)
  have hbefore : ∀ j, j < N_EXP_BUCKETS → (j < bucketIdx valueUs ↔ j < i) := by
    intro j hj
    unfold bucketIdx
    rw [lt_partitionPoint_iff hpart (by omega), holdsAt_bucketUpper hj]
    constructor
    · intro hnot
      by_contra hge
      exact hnot (Within.mono (by omega) hi.1)
    · intro hlt hj'
      have hleast : i ≤ j := hi.2 hj'
      omega
  have hle : bucketIdx valueUs ≤ N_EXP_BUCKETS := by
    rw [← hlen]
    exact partitionPoint_le_length _ _
  rcases Nat.lt_or_ge (bucketIdx valueUs) (min i N_EXP_BUCKETS) with hlt | hge
  · have := (hbefore (bucketIdx valueUs) (by omega)).mpr (by omega)
    omega
  · rcases Nat.lt_or_ge (min i N_EXP_BUCKETS) (bucketIdx valueUs) with hgt | hle'
    · have := (hbefore (min i N_EXP_BUCKETS) (by omega)).mp hgt
      omega
    · omega

/-! ## One record -/

/-- The words that a record into a cell leaves behind. -/
theorem recordOps_apply {ι : Type} [DecidableEq ι] (s : Slot ι) (cell : ι) (value : UInt64)
    (f : Field ι) :
    (recordOps cell value).foldl fetchAdd s f =
      if f = .cell cell ∨ f = .count then s f + 1 else if f = .sum then s f + value else s f := by
  cases f with
  | cell i =>
    by_cases hi : i = cell
    · simp [recordOps, fetchAdd, hi]
    · simp [recordOps, fetchAdd, hi]
  | sum => simp [recordOps, fetchAdd]
  | count => simp [recordOps, fetchAdd]

/-- **A record of a positive duration counts in the bucket of the exact scale-3 mapping**, clamped
to the last one, and a record of 0 in `zero_count`; the sum wraps at `2 ^ 64`, and no other word
changes. -/
theorem record_exact (s : ExpHistogramSlot) (valueUs : UInt64) :
    (valueUs = 0 → ∀ f, s.record valueUs f =
      if f = .cell .zero ∨ f = .count then s f + 1 else s f) ∧
    (valueUs ≠ 0 → ∃ i, IsLeast {i | Within valueUs.toNat i} i ∧
      ∃ b : Fin N_EXP_BUCKETS, b.val = min i 191 ∧ ∀ f, s.record valueUs f =
        if f = .cell (.bucket b) ∨ f = .count then s f + 1
        else if f = .sum then s f + valueUs else s f) := by
  constructor
  · intro hzero f
    subst hzero
    rw [ExpHistogramSlot.record, recordOps_apply]
    simp [expCell]
  · intro hpos
    have hleast := isLeast_within valueUs.toNat
    refine ⟨_, hleast, clampBucket (bucketIdx valueUs), ?_, fun f => ?_⟩
    · rw [bucketIdx_eq_min hleast]
      simp only [clampBucket, N_EXP_BUCKETS]
      omega
    · rw [ExpHistogramSlot.record, recordOps_apply, expCell, if_neg hpos]

/-! ## Which values a cell counts -/

/-- The durations of a bucket: above the bound of the bucket before it, and within its own unless it
is the last. -/
def InBucket (i : Nat) (valueUs : UInt64) : Prop :=
  valueUs ≠ 0 ∧ (i = 0 ∨ ¬Within valueUs.toNat (i - 1)) ∧
    (i + 1 = N_EXP_BUCKETS ∨ Within valueUs.toNat i)

instance (i : Nat) (valueUs : UInt64) : Decidable (InBucket i valueUs) :=
  inferInstanceAs (Decidable (_ ∧ (_ ∨ _) ∧ (_ ∨ _)))

theorem expCell_eq_zero_iff {valueUs : UInt64} : expCell valueUs = .zero ↔ valueUs = 0 := by
  unfold expCell
  split <;> simp_all

theorem expCell_eq_bucket_iff {valueUs : UInt64} (i : Fin N_EXP_BUCKETS) :
    expCell valueUs = .bucket i ↔ InBucket i valueUs := by
  by_cases hzero : valueUs = 0
  · simp [hzero, expCell, InBucket]
  · have hbucket := bucketIdx_eq_min (isLeast_within valueUs.toNat)
    have hspec := Nat.find_spec (exists_within valueUs.toNat)
    have hmin := fun j => Nat.find_min' (exists_within valueUs.toNat) (m := j)
    generalize Nat.find (exists_within valueUs.toNat) = least at hbucket hspec hmin
    have hclamp : expCell valueUs = .bucket i ↔ min least 191 = i := by
      rw [expCell, if_neg hzero, ExpCell.bucket.injEq, Fin.ext_iff, clampBucket, hbucket]
      simp only [N_EXP_BUCKETS]
      omega
    have hi : i.val < 192 := i.isLt
    rw [hclamp]
    constructor
    · intro heq
      refine ⟨hzero, ?_, ?_⟩
      · rcases Nat.eq_zero_or_pos i.val with h0 | hpos
        · exact .inl h0
        · refine .inr fun hbefore => ?_
          have := hmin _ hbefore
          omega
      · rcases Nat.lt_or_ge least 191 with hlt | hge
        · have hleast : least = i.val := by omega
          exact .inr (hleast ▸ hspec)
        · exact .inl (show i.val + 1 = 192 by omega)
    · rintro ⟨-, hlow, hhigh⟩
      have hge : i.val ≤ least := by
        rcases hlow with h0 | hbefore
        · omega
        · by_contra hlt
          exact hbefore (hspec.mono (by omega))
      have hle : i.val + 1 = 192 ∨ least ≤ i.val := hhigh.imp id (hmin _)
      omega

/-- A bucket of an explicit histogram counts the values above the bounds before it and up to those
from it on. -/
theorem histogramCell_eq_iff {bounds : List UInt64} (hsorted : bounds.Pairwise (· < ·))
    (value : UInt64) (i : Fin (bounds.length + 1)) :
    histogramCell bounds value = i ↔
      (∀ b ∈ bounds.take i, b < value) ∧ ∀ b ∈ bounds.drop i, value ≤ b := by
  have hholds : ∀ j (hj : j < bounds.length),
      holdsAt bounds (fun b => value > b) j = true ↔ bounds[j] < value := by
    intro j hj
    simp [holdsAt, List.getElem?_eq_getElem hj]
  have hbefore : ∀ j (hj : j < bounds.length),
      j < (histogramCell bounds value).val ↔ bounds[j] < value := by
    intro j hj
    refine (lt_partitionPoint_iff (fun a b hab hb h => ?_) hj).trans (hholds j hj)
    rw [hholds a (by omega)]
    rw [hholds b hb] at h
    rcases Nat.eq_or_lt_of_le hab with rfl | hlt
    · exact h
    · exact UInt64.lt_trans (List.pairwise_iff_getElem.mp hsorted a b (by omega) hb hlt) h
  have hle : (histogramCell bounds value).val ≤ bounds.length :=
    Nat.le_of_lt_succ (histogramCell bounds value).isLt
  have hi : i.val ≤ bounds.length := Nat.le_of_lt_succ i.isLt
  constructor
  · rintro rfl
    constructor
    · intro b hb
      obtain ⟨j, hj, rfl⟩ := List.mem_take_iff_getElem.mp hb
      exact (hbefore j (by omega)).mp (by omega)
    · intro b hb
      obtain ⟨j, hj, rfl⟩ := List.mem_drop_iff_getElem.mp hb
      exact UInt64.not_lt.mp fun hlt => by
        have := (hbefore _ (by omega)).mpr hlt
        omega
  · rintro ⟨hbelow, habove⟩
    refine Fin.ext ?_
    rcases Nat.lt_trichotomy (histogramCell bounds value).val i.val with hlt | heq | hgt
    · have hmem := hbelow _ (List.mem_take_iff_getElem.mpr
        ⟨(histogramCell bounds value).val, by omega, rfl⟩)
      have := (hbefore _ (by omega)).mpr hmem
      omega
    · exact heq
    · have hmem := habove _ (List.mem_drop_iff_getElem.mpr ⟨0, by omega, rfl⟩)
      have hcell := (hbefore i.val (by omega)).mp hgt
      exact absurd hcell (UInt64.not_lt.mpr (by simpa using hmem))

/-- One second is the upper end of bucket 159; the next microsecond is in bucket 160. -/
example : (expCell 1000000, expCell 1000001) =
    (.bucket (clampBucket 159), .bucket (clampBucket 160)) := by decide +kernel

end NgxOtel.Shm
