import Mathlib.Data.List.Basic
import Mathlib.Data.Nat.ModEq
import Mathlib.Tactic.Ring

/-!
# Fixed-width words as natural numbers, and their big-endian bytes

A machine word of `w` bits is a natural number below `2 ^ w`; the operations reduce their result.

* `addW w`, `subW w`, `mulW w` — wrapping addition, subtraction and multiplication, exact while
  nothing overflows (`addW_of_lt`, `subW_of_le`, `subW_add_mod`, `mulW_of_lt`).
* `toBe k n`, `ofBe bs` — the `k` big-endian bytes of `n`, and the number a byte string spells;
  `ofBe_toBe` and `toBe_ofBe` are their round trips.
-/

set_option autoImplicit false

namespace Word

/-- A byte string. -/
abbrev Bytes := List UInt8

/-- Wrapping addition on `w`-bit words. -/
def addW (w a b : Nat) : Nat := (a + b) % 2 ^ w

/-- Wrapping subtraction on `w`-bit words. -/
def subW (w a b : Nat) : Nat := (a + (2 ^ w - b % 2 ^ w)) % 2 ^ w

/-- Wrapping multiplication on `w`-bit words. -/
def mulW (w a b : Nat) : Nat := (a * b) % 2 ^ w

theorem addW_of_lt {w a b : Nat} (h : a + b < 2 ^ w) : addW w a b = a + b :=
  Nat.mod_eq_of_lt h

theorem mulW_of_lt {w a b : Nat} (h : a * b < 2 ^ w) : mulW w a b = a * b :=
  Nat.mod_eq_of_lt h

theorem subW_of_le {w a b : Nat} (hba : b ≤ a) (ha : a < 2 ^ w) : subW w a b = a - b := by
  unfold subW
  rw [Nat.mod_eq_of_lt (Nat.lt_of_le_of_lt hba ha)]
  have hsplit : a + (2 ^ w - b) = (a - b) + 2 ^ w := by omega
  rw [hsplit, Nat.add_mod_right, Nat.mod_eq_of_lt (by omega)]

/-- The difference of a wrapping counter and an earlier value of it. -/
theorem subW_add_mod {w a : Nat} (b : Nat) (ha : a < 2 ^ w) :
    subW w ((a + b) % 2 ^ w) a = b % 2 ^ w := by
  unfold subW
  rw [Nat.mod_eq_of_lt ha, Nat.mod_add_mod]
  have hsplit : a + b + (2 ^ w - a) = b + 2 ^ w := by omega
  rw [hsplit, Nat.add_mod_right]

/-! ## Big-endian bytes -/

/-- The `k` low-order bytes of `n`, most significant first. -/
def toBe : Nat → Nat → Bytes
  | 0, _ => []
  | k + 1, n => UInt8.ofNat (n / 256 ^ k) :: toBe k n

/-- The number that a byte string spells, most significant byte first. -/
def ofBe (bs : Bytes) : Nat := bs.foldl (fun acc b => acc * 256 + b.toNat) 0

@[simp] theorem length_toBe (k n : Nat) : (toBe k n).length = k := by
  induction k with
  | zero => rfl
  | succ k ih => simp [toBe, ih]

/-- Reading the bytes of `n` after the digits `acc`. -/
theorem foldl_toBe (k n acc : Nat) :
    (toBe k n).foldl (fun acc b => acc * 256 + b.toNat) acc = acc * 256 ^ k + n % 256 ^ k := by
  induction k generalizing acc with
  | zero => simp [toBe, Nat.mod_one]
  | succ k ih =>
    have hdigits : n % 256 ^ (k + 1) = n % 256 ^ k + 256 ^ k * (n / 256 ^ k % 256) := by
      rw [pow_succ, Nat.mod_mul]
    simp only [toBe, List.foldl_cons, ih, UInt8.toNat_ofNat', hdigits]
    ring

/-- **Round trip of a big-endian integer** that fits in its bytes. -/
theorem ofBe_toBe {k n : Nat} (h : n < 256 ^ k) : ofBe (toBe k n) = n := by
  simp [ofBe, foldl_toBe, Nat.mod_eq_of_lt h]

theorem ofBe_cons (b : UInt8) (bs : Bytes) :
    ofBe (b :: bs) = b.toNat * 256 ^ bs.length + ofBe bs := by
  have hfold : ∀ (bs : Bytes) (acc : Nat), bs.foldl (fun acc b => acc * 256 + b.toNat) acc =
      acc * 256 ^ bs.length + ofBe bs := by
    intro bs
    induction bs with
    | nil => simp [ofBe]
    | cons b bs ih =>
      intro acc
      have hcons : ofBe (b :: bs) = (0 * 256 + b.toNat) * 256 ^ bs.length + ofBe bs := ih _
      rw [List.foldl_cons, ih, hcons, List.length_cons, pow_succ]
      ring
  rw [ofBe, List.foldl_cons, hfold, Nat.zero_mul, Nat.zero_add]

theorem ofBe_lt : ∀ bs : Bytes, ofBe bs < 256 ^ bs.length
  | [] => Nat.one_pos
  | b :: bs => by
    have hrest := ofBe_lt bs
    have hb : (b.toNat + 1) * 256 ^ bs.length ≤ 256 * 256 ^ bs.length :=
      Nat.mul_le_mul_right _ b.toNat_lt
    rw [ofBe_cons, List.length_cons, pow_succ]
    rw [Nat.succ_mul] at hb
    omega

/-- The low-order bytes of a number do not see a multiple of what lies above them. -/
theorem toBe_mul_add (m n : Nat) : ∀ {k j : Nat}, k ≤ j → toBe k (m * 256 ^ j + n) = toBe k n
  | 0, _, _ => rfl
  | k + 1, j, h => by
    obtain ⟨d, rfl⟩ := Nat.exists_eq_add_of_le h
    have hsplit : m * 256 ^ (k + 1 + d) + n = n + m * 256 ^ d * 256 * 256 ^ k := by
      rw [pow_add, pow_succ]
      ring
    have hbyte : UInt8.ofNat ((m * 256 ^ (k + 1 + d) + n) / 256 ^ k) = UInt8.ofNat (n / 256 ^ k) := by
      apply UInt8.toNat_inj.mp
      rw [hsplit, Nat.add_mul_div_right _ _ (Nat.pow_pos (by decide)), UInt8.toNat_ofNat',
        UInt8.toNat_ofNat']
      exact Nat.add_mul_mod_self_right _ _ _
    rw [toBe, toBe, hbyte, toBe_mul_add m n (Nat.le_of_succ_le h)]

/-- **The bytes of the number that a byte string spells** are the string. -/
theorem toBe_ofBe : ∀ bs : Bytes, toBe bs.length (ofBe bs) = bs
  | [] => rfl
  | b :: bs => by
    have hquot : (b.toNat * 256 ^ bs.length + ofBe bs) / 256 ^ bs.length = b.toNat := by
      rw [Nat.add_comm, Nat.add_mul_div_right _ _ (Nat.pow_pos (by decide)),
        Nat.div_eq_of_lt (ofBe_lt bs), Nat.zero_add]
    rw [ofBe_cons, List.length_cons, toBe, hquot, toBe_mul_add _ _ (Nat.le_refl _), toBe_ofBe bs,
      UInt8.ofNat_toNat]

end Word
