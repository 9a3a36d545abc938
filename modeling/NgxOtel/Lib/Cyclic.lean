import Mathlib.Data.List.Basic
import Mathlib.Data.List.Infix
import Mathlib.Data.Nat.ModEq
import Mathlib.Logic.Function.Basic

/-!
# A window of a stream, held in a cyclic memory

A stream of cells is written one after the other into a memory of `cap` cells, position `j` of the
stream at address `j % cap`. Only the part from position `lo` on is still needed.

* `Window cap mem stream lo` — every position from `lo` to the end of `stream` can still be read.
* `Window.push` — writing the next position keeps the window, as long as it is at most `cap` wide.
* `Window.mono`, `Window.of_prefix` — a window may be shortened at either end.
* `seg_address` — copying a block in at most two pieces, the second one from address `0`, visits
  the addresses `(offset + i) % cap`.
-/

set_option autoImplicit false

namespace Cyclic

variable {β : Type*} {cap lo : Nat} {mem : Nat → β} {stream : List β}

/-- Positions from `lo` on stand in memory, position `j` at address `j % cap`. -/
def Window (cap : Nat) (mem : Nat → β) (stream : List β) (lo : Nat) : Prop :=
  ∀ j b, lo ≤ j → stream[j]? = some b → mem (j % cap) = b

theorem Window.nil (cap : Nat) (mem : Nat → β) (lo : Nat) : Window cap mem [] lo := by
  intro j b _ hb
  simp at hb

theorem Window.mono {lo' : Nat} (h : Window cap mem stream lo) (hlo : lo ≤ lo') :
    Window cap mem stream lo' :=
  fun j b hj hb => h j b (Nat.le_trans hlo hj) hb

theorem Window.of_prefix {stream' : List β} (h : Window cap mem stream lo)
    (hpre : stream' <+: stream) : Window cap mem stream' lo := by
  obtain ⟨rest, rfl⟩ := hpre
  intro j b hj hb
  have hlt : j < stream'.length := (List.getElem?_eq_some_iff.mp hb).1
  exact h j b hj (by rw [List.getElem?_append_left hlt]; exact hb)

/-- Two positions less than one lap apart have different addresses. -/
theorem mod_ne_of_lt {i j : Nat} (hij : i < j) (hlap : j < i + cap) : i % cap ≠ j % cap := by
  intro heq
  have hdvd : cap ∣ j - i := (Nat.modEq_iff_dvd' (Nat.le_of_lt hij)).mp heq
  have hle := Nat.le_of_dvd (by omega) hdvd
  omega

/-- **The next position may be written** as long as the window stays within one lap. -/
theorem Window.push (h : Window cap mem stream lo) (hfit : stream.length < lo + cap) (b : β) :
    Window cap (Function.update mem (stream.length % cap) b) (stream ++ [b]) lo := by
  intro j c hj hc
  rcases Nat.lt_trichotomy j stream.length with hlt | heq | hgt
  · rw [Function.update_of_ne (mod_ne_of_lt hlt (by omega))]
    exact h j c hj (by rwa [List.getElem?_append_left hlt] at hc)
  · subst heq
    simpa using hc
  · have hlen := (List.getElem?_eq_some_iff.mp hc).1
    simp only [List.length_append, List.length_cons, List.length_nil] at hlen
    omega

/-- Copying `len ≤ cap` cells from `offset` on: the first piece reaches the end of the memory, the
second one starts again at address `0`. -/
theorem seg_address {offset len i : Nat} (hlen : len ≤ cap) (hi : i < len) :
    (if len ≤ cap - offset % cap then offset % cap + i
      else if i < cap - offset % cap then offset % cap + i else i - (cap - offset % cap))
      = (offset + i) % cap := by
  have hcap : 0 < cap := by omega
  have hmod : offset % cap < cap := Nat.mod_lt _ hcap
  rw [← Nat.mod_add_mod]
  generalize offset % cap = start at hmod ⊢
  by_cases hwrap : start + i < cap
  · rw [Nat.mod_eq_of_lt hwrap]
    split
    · rfl
    · rw [if_pos (by omega)]
  · have hlap : (start + i) % cap = start + i - cap := by
      rw [Nat.mod_eq_sub_mod (by omega), Nat.mod_eq_of_lt (by omega)]
    rw [if_neg (by omega), if_neg (by omega), hlap]
    omega

end Cyclic
