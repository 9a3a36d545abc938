import Mathlib.Data.Fin.Basic
import Mathlib.Logic.Function.Basic

/-!
# Open addressing with cyclic linear probing

A table of `n` cells is seen through `occ : Fin n → Option κ`, the key each cell holds.  A key is
looked for from `home k` on, one cell after the other around the table, up to the first cell that
is empty or holds it.

* `walk i d` — the cell `d` steps after `i`; `search stop i fuel` — the first cell at which to stop.
* `Chained`, `Distinct` — every key is found before an empty cell, and in one cell only.
* `absent_of_empty` — an empty cell met first means that the key is not in the table.
* `Chained.insert`, `Distinct.insert` — putting the key there keeps both properties.
-/

set_option autoImplicit false

namespace LinearProbe

variable {n : Nat} {κ : Type*}

/-- The cell `d` steps after `i`, around the table. -/
def walk (i : Fin n) (d : Nat) : Fin n := ⟨(i.1 + d) % n, Nat.mod_lt _ i.pos⟩

@[simp] theorem walk_zero (i : Fin n) : walk i 0 = i := by
  apply Fin.ext
  simp [walk, Nat.mod_eq_of_lt i.isLt]

theorem walk_walk (i : Fin n) (d e : Nat) : walk (walk i d) e = walk i (d + e) := by
  apply Fin.ext
  simp [walk, Nat.add_assoc]

/-- Every cell is met within one turn. -/
theorem exists_walk (i j : Fin n) : ∃ d < n, walk i d = j := by
  refine ⟨(j.1 + (n - i.1)) % n, Nat.mod_lt _ i.pos, Fin.ext ?_⟩
  have hsum : i.1 + (j.1 + (n - i.1)) = j.1 + n := by have := i.isLt; omega
  simp [walk, hsum, Nat.mod_eq_of_lt j.isLt]

/-- No cell is met again before the turn is complete. -/
theorem walk_ne_self (i : Fin n) {d : Nat} (hpos : 0 < d) (hd : d < n) : walk i d ≠ i := by
  intro h
  have hval : (i.1 + d) % n = i.1 := congrArg Fin.val h
  have hi := i.isLt
  by_cases hturn : i.1 + d < n
  · rw [Nat.mod_eq_of_lt hturn] at hval
    omega
  · rw [Nat.mod_eq_sub_mod (by omega), Nat.mod_eq_of_lt (by omega)] at hval
    omega

/-- The first cell from `i` on, among `fuel` cells, at which `stop` holds. -/
def search (stop : Fin n → Bool) (i : Fin n) : Nat → Option (Fin n)
  | 0 => none
  | fuel + 1 => if stop i then some i else search stop (walk i 1) fuel

theorem search_eq_some {stop : Fin n → Bool} {i j : Fin n} {fuel : Nat}
    (h : search stop i fuel = some j) :
    ∃ d < fuel, walk i d = j ∧ stop j = true ∧ ∀ e < d, stop (walk i e) = false := by
  induction fuel generalizing i with
  | zero => cases h
  | succ fuel ih =>
    unfold search at h
    split at h
    · rename_i hstop
      cases h
      exact ⟨0, by omega, walk_zero j, hstop, by omega⟩
    · rename_i hgo
      obtain ⟨d, hd, hwalk, hstop, hbefore⟩ := ih h
      refine ⟨1 + d, by omega, by rw [← walk_walk, hwalk], hstop, ?_⟩
      intro e he
      cases e with
      | zero => simpa using hgo
      | succ e =>
        have := hbefore e (by omega)
        rwa [walk_walk, Nat.add_comm] at this

theorem search_eq_none {stop : Fin n → Bool} {i : Fin n} {fuel : Nat}
    (h : search stop i fuel = none) : ∀ d < fuel, stop (walk i d) = false := by
  induction fuel generalizing i with
  | zero => intro d hd; omega
  | succ fuel ih =>
    unfold search at h
    split at h
    · cases h
    · rename_i hgo
      intro d hd
      cases d with
      | zero => simpa using hgo
      | succ d =>
        have := ih h d (by omega)
        rwa [walk_walk, Nat.add_comm] at this

/-! ## Tables that can be searched -/

/-- Every key is reached from its home cell over occupied cells only. -/
def Chained (home : κ → Fin n) (occ : Fin n → Option κ) : Prop :=
  ∀ i k, occ i = some k →
    ∃ d < n, walk (home k) d = i ∧ ∀ e < d, occ (walk (home k) e) ≠ none

/-- No key is held by two cells. -/
def Distinct (occ : Fin n → Option κ) : Prop :=
  ∀ i j k, occ i = some k → occ j = some k → i = j

variable {home : κ → Fin n} {occ : Fin n → Option κ} {k : κ}

/-- **An empty cell met before the key means that the key is nowhere.** -/
theorem absent_of_empty (hc : Chained home occ) {d : Nat} (hempty : occ (walk (home k) d) = none)
    (hbefore : ∀ e < d, occ (walk (home k) e) ≠ some k) : ∀ i, occ i ≠ some k := by
  intro i hi
  obtain ⟨d', -, hwalk, hchain⟩ := hc i k hi
  rcases Nat.lt_trichotomy d' d with hlt | heq | hgt
  · exact hbefore d' hlt (hwalk ▸ hi)
  · rw [← hwalk, heq, hempty] at hi
    cases hi
  · exact hchain d hgt hempty

theorem Chained.insert (hc : Chained home occ) {d : Nat} (hd : d < n)
    (hbefore : ∀ e < d, occ (walk (home k) e) ≠ none) :
    Chained home (Function.update occ (walk (home k) d) (some k)) := by
  have hgrow : ∀ i, occ i ≠ none → Function.update occ (walk (home k) d) (some k) i ≠ none := by
    intro i hi
    by_cases heq : i = walk (home k) d
    · simp [heq]
    · rwa [Function.update_of_ne heq]
  intro i k' hi
  by_cases heq : i = walk (home k) d
  · subst heq
    rw [Function.update_self, Option.some.injEq] at hi
    subst hi
    exact ⟨d, hd, rfl, fun e he => hgrow _ (hbefore e he)⟩
  · rw [Function.update_of_ne heq] at hi
    obtain ⟨d', hd', hwalk, hchain⟩ := hc i k' hi
    exact ⟨d', hd', hwalk, fun e he => hgrow _ (hchain e he)⟩

theorem Distinct.insert (hd : Distinct occ) {j : Fin n} (habsent : ∀ i, occ i ≠ some k) :
    Distinct (Function.update occ j (some k)) := by
  intro a b k' ha hb
  by_cases haj : a = j <;> by_cases hbj : b = j
  · rw [haj, hbj]
  · subst haj
    rw [Function.update_self, Option.some.injEq] at ha
    rw [Function.update_of_ne hbj, ← ha] at hb
    exact absurd hb (habsent b)
  · subst hbj
    rw [Function.update_self, Option.some.injEq] at hb
    rw [Function.update_of_ne haj, ← hb] at ha
    exact absurd ha (habsent a)
  · rw [Function.update_of_ne haj] at ha
    rw [Function.update_of_ne hbj] at hb
    exact hd a b k' ha hb

end LinearProbe
