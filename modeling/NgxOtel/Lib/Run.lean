import Mathlib.Data.List.Basic

/-!
# Runs of a deterministic, labelled step function

A concurrent system is given by `step : σ → α → Option σ`: the label `α` names the process that
moves and every choice its environment makes, and `none` says that the move is not enabled. A run
is a list of labels.

* `exec step s as` — the state that the run `as` reaches from `s`, when every move is enabled.
* `Along step C s as` — the side condition `C` holds at every move of the run.
* `exec_invariant`, `exec_invariant_along` — what one step preserves, every run preserves.
* `exec_simulates` — what relates one step to a function relates every run to its fold.
-/

set_option autoImplicit false

namespace Run

variable {σ α : Type*} {step : σ → α → Option σ}

/-- Follow a list of labels; `none` as soon as one of them is not enabled. -/
def exec (step : σ → α → Option σ) : σ → List α → Option σ
  | s, [] => some s
  | s, a :: as => (step s a).bind (exec step · as)

/-- The condition `C` holds of the state before each move and of the move itself. -/
def Along (step : σ → α → Option σ) (C : σ → α → Prop) : σ → List α → Prop
  | _, [] => True
  | s, a :: as => C s a ∧ ∀ t, step s a = some t → Along step C t as

/-- A decidable condition can be evaluated along a concrete run. -/
instance decidableAlong {C : σ → α → Prop} [∀ s a, Decidable (C s a)] :
    ∀ (s : σ) (as : List α), Decidable (Along step C s as)
  | _, [] => isTrue trivial
  | s, a :: as =>
    match hstep : step s a with
    | none => decidable_of_iff (C s a) (by simp [Along, hstep])
    | some t =>
      have : Decidable (Along step C t as) := decidableAlong t as
      decidable_of_iff (C s a ∧ Along step C t as) (by simp [Along, hstep])

theorem exec_cons {s t : σ} {a : α} {as : List α} :
    exec step s (a :: as) = some t ↔ ∃ u, step s a = some u ∧ exec step u as = some t := by
  simp only [exec, Option.bind_eq_some_iff]

/-- A run in two parts. -/
theorem exec_append {t : σ} {bs : List α} : ∀ {as : List α} {s : σ},
    exec step s (as ++ bs) = some t ↔ ∃ u, exec step s as = some u ∧ exec step u bs = some t
  | [], s => by simp [exec]
  | a :: as, s => by
    show exec step s (a :: (as ++ bs)) = some t ↔ _
    rw [exec_cons]
    constructor
    · rintro ⟨v, hv, hrest⟩
      obtain ⟨u, hu, hlast⟩ := exec_append.mp hrest
      exact ⟨u, exec_cons.mpr ⟨v, hv, hu⟩, hlast⟩
    · rintro ⟨u, hu, hlast⟩
      obtain ⟨v, hv, hrest⟩ := exec_cons.mp hu
      exact ⟨v, hv, exec_append.mpr ⟨u, hrest, hlast⟩⟩

theorem exec_append_eq (step : σ → α → Option σ) (s : σ) (as bs : List α) :
    exec step s (as ++ bs) = (exec step s as).bind (exec step · bs) := by
  induction as generalizing s with
  | nil => rfl
  | cons a as ih =>
    rw [List.cons_append, exec, exec, Option.bind_assoc]
    exact congrArg (Option.bind _) (funext ih)

/-- A move that is made or left out. -/
theorem exec_ite (step : σ → α → Option σ) (s : σ) (a : α) (p : Prop) [Decidable p] :
    exec step s (if p then [a] else []) = if p then step s a else some s := by
  by_cases hp : p
  · rw [if_pos hp, if_pos hp]
    exact Option.bind_fun_some (step s a)
  · rw [if_neg hp, if_neg hp]
    rfl

/-- A run and one more move. -/
theorem exec_concat {s t : σ} {a : α} {as : List α} :
    exec step s (as ++ [a]) = some t ↔ ∃ u, exec step s as = some u ∧ step u a = some t := by
  simp [exec_append, exec]

/-- A condition along a run in two parts. -/
theorem along_append {C : σ → α → Prop} {bs : List α} : ∀ {as : List α} {s : σ},
    Along step C s as → (∀ t, exec step s as = some t → Along step C t bs) →
      Along step C s (as ++ bs)
  | [], s, _, hbs => hbs s rfl
  | _ :: _, _, ⟨hfirst, hrest⟩, hbs =>
    ⟨hfirst, fun u hu => along_append (hrest u hu) fun t ht => hbs t (exec_cons.mpr ⟨u, hu, ht⟩)⟩

theorem along_of_forall_mem {C : α → Prop} {s : σ} {as : List α} (h : ∀ a ∈ as, C a) :
    Along step (fun _ => C) s as := by
  induction as generalizing s with
  | nil => trivial
  | cons a as ih =>
    exact ⟨h a (by simp), fun t _ => ih fun b hb => h b (List.mem_cons_of_mem a hb)⟩

/-- **What one step preserves, a run preserves**, when every move meets the side condition. -/
theorem exec_invariant_along {I : σ → Prop} {C : σ → α → Prop}
    (hstep : ∀ s a t, I s → C s a → step s a = some t → I t) :
    ∀ {s t : σ} {as : List α}, Along step C s as → exec step s as = some t → I s → I t
  | s, t, [], _, h, hs => by
      cases h; exact hs
  | s, t, a :: as, hC, h, hs => by
      obtain ⟨u, hu, hrest⟩ := exec_cons.mp h
      exact exec_invariant_along hstep (hC.2 u hu) hrest (hstep s a u hs hC.1 hu)

/-- **What one step preserves, a run preserves.** -/
theorem exec_invariant {I : σ → Prop} (hstep : ∀ s a t, I s → step s a = some t → I t)
    {s t : σ} {as : List α} (h : exec step s as = some t) (hs : I s) : I t := by
  induction as generalizing s with
  | nil => cases h; exact hs
  | cons a as ih =>
    obtain ⟨u, hu, hrest⟩ := exec_cons.mp h
    exact ih hrest (hstep s a u hs hu)

/-- **A run simulates a fold**: when every move on the list succeeds and keeps the relation, the run
succeeds and ends related to the fold. -/
theorem exec_simulates {τ : Type*} {R : σ → τ → Prop} {g : τ → α → τ} {C : α → Prop}
    (hstep : ∀ s t a, C a → R s t → ∃ u, step s a = some u ∧ R u (g t a)) {as : List α} :
    ∀ {s : σ} {t : τ}, (∀ a ∈ as, C a) → R s t →
      ∃ u, exec step s as = some u ∧ R u (as.foldl g t) := by
  induction as with
  | nil => exact fun _ h => ⟨_, rfl, h⟩
  | cons a as ih =>
    intro s t hC h
    rw [List.forall_mem_cons] at hC
    obtain ⟨u, hu, hrel⟩ := hstep s t a hC.1 h
    obtain ⟨v, hv, hlast⟩ := ih hC.2 hrel
    exact ⟨v, exec_cons.mpr ⟨u, hu, hv⟩, hlast⟩

end Run
