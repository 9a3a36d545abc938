import Mathlib.Data.List.TakeWhile

/-!
# Texts cut at a delimiter

A list is cut at the first or at the last occurrence of a delimiter.  The first is found by
`List.idxOf?` or by `List.takeWhile`; `rfind` finds the last.

## Results

* `idxOf?_append_cons`, `takeWhile_append_cons` — the two ways to the first occurrence.
* `rfind_append_cons`, `rfind_eq_none_iff` — the last occurrence.
* `cut_cases`, `rcut_cases` — **a list is free of the delimiter or cut in two by its first
  occurrence**, and by its last; `rcut_unique` — in one way.
-/

set_option autoImplicit false

namespace Delimiter

variable {α : Type} [DecidableEq α]

/-- The index of the last occurrence. -/
def rfind (c : α) : List α → Option Nat
  | [] => none
  | a :: s =>
    match rfind c s with
    | some i => some (i + 1)
    | none => if a = c then some 0 else none

theorem rfind_eq_none_iff {c : α} : ∀ {s : List α}, rfind c s = none ↔ c ∉ s
  | [] => by simp [rfind]
  | a :: s => by
    have ih := @rfind_eq_none_iff c s
    rw [rfind, List.mem_cons, not_or, ← ih]
    cases rfind c s with
    | some i => simp
    | none => simp [eq_comm]

theorem rfind_append_cons {c : α} {v : List α} (hv : c ∉ v) :
    ∀ u : List α, rfind c (u ++ c :: v) = some u.length
  | [] => by simp [rfind, rfind_eq_none_iff.mpr hv]
  | a :: u => by simp [rfind, rfind_append_cons hv u]

theorem idxOf?_append_cons {c : α} (v : List α) : ∀ {u : List α}, c ∉ u →
    (u ++ c :: v).idxOf? c = some u.length
  | [], _ => by simp [List.idxOf?_cons]
  | a :: u, hu => by
    obtain ⟨hne, hu⟩ := not_or.mp (List.mem_cons.not.mp hu)
    simp [List.idxOf?_cons, Ne.symm hne, idxOf?_append_cons v hu]

theorem takeWhile_append_cons {c : α} (v : List α) : ∀ {u : List α}, c ∉ u →
    (u ++ c :: v).takeWhile (· ≠ c) = u
  | [], _ => by simp
  | a :: u, hu => by
    obtain ⟨hne, hu⟩ := not_or.mp (List.mem_cons.not.mp hu)
    simp only [List.cons_append]
    rw [List.takeWhile_cons_of_pos (by simpa using Ne.symm hne), takeWhile_append_cons v hu]

theorem takeWhile_of_not_mem {c : α} {s : List α} (h : c ∉ s) : s.takeWhile (· ≠ c) = s :=
  List.takeWhile_eq_self_iff.mpr fun a ha => by
    have hne : a ≠ c := fun e => h (e ▸ ha)
    simpa using hne

/-- A list without the delimiter, or cut at its first occurrence. -/
theorem cut_cases (c : α) (s : List α) : c ∉ s ∨ ∃ u v, s = u ++ c :: v ∧ c ∉ u := by
  by_cases h : c ∈ s
  · obtain ⟨u, v, hs, hu⟩ := List.eq_append_cons_of_mem h
    exact .inr ⟨u, v, hs, hu⟩
  · exact .inl h

/-- A list without the delimiter, or cut at its last occurrence. -/
theorem rcut_cases (c : α) (s : List α) : c ∉ s ∨ ∃ u v, s = u ++ c :: v ∧ c ∉ v := by
  rcases cut_cases c s.reverse with h | ⟨u, v, hs, hu⟩
  · exact .inl (by simpa using h)
  · refine .inr ⟨v.reverse, u.reverse, ?_, by simpa using hu⟩
    have hrev := congrArg List.reverse hs
    simpa using hrev

/-- The cut at the last occurrence is the only one. -/
theorem rcut_unique {c : α} {u u' v v' : List α} (hv : c ∉ v) (hv' : c ∉ v')
    (h : u ++ c :: v = u' ++ c :: v') : u = u' ∧ v = v' := by
  have hlen : u.length = u'.length := by
    have hfind := rfind_append_cons hv u
    rw [h, rfind_append_cons hv'] at hfind
    exact (Option.some.inj hfind).symm
  obtain ⟨hu, htail⟩ := List.append_inj h hlen
  exact ⟨hu, (List.cons.inj htail).2⟩

end Delimiter
