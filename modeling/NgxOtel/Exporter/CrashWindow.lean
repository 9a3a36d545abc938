import Mathlib.Data.List.Chain
import NgxOtel.Lib.Word

/-!
# The crash check of the exporter

`otel_exporter_cycle` (`exporter/mod.rs`) counts its starts in shared memory and exits with code 2,
which tells nginx not to start it again, when there were too many in a window.  The window is one
start time and one counter: it begins anew with the first start that is more than
`CRASH_WINDOW_SECS` after its beginning.

* `crashCheck` — one start: the control words after it, and whether it gets past the check.
* `getsPast` — the clock readings of the starts that get past.
* `windows` — the clock readings alone, split where a window begins anew.
* `Apart` — a condition on the readings of two windows in a row.

## Results

* `crashBackoffMs_le` — the sleep before a restart is bounded.
* `getsPast_eq_flatMap` — the check lets the first five starts of each window past.
* `rollingLimit_iff_fifth` — a sorted list keeps the rolling limit if no time is within a minute of
  the fifth time after it.
* `rolling_limit_iff` — **exactly which clock readings keep the rolling limit**: those of a window
  have to stay apart from those of the window before, which the check does not see to
  (`two_windows_meet`).
-/

set_option autoImplicit false

namespace NgxOtel.Exporter

open Word

/-! ## The check -/

def CRASH_WINDOW_SECS : Nat := 60
def MAX_CRASH_RESTARTS : Nat := 5
def CRASH_BACKOFF_BASE_MS : Nat := 100
def CRASH_BACKOFF_CAP_MS : Nat := 5000

/-- `crash_backoff_ms`. -/
def crashBackoffMs (count : Nat) : Nat :=
  if count ≤ 1 then 0
  else
    let shift := min (count - 1) 31
    min (min (CRASH_BACKOFF_BASE_MS * 2 ^ shift) (2 ^ 64 - 1)) CRASH_BACKOFF_CAP_MS

theorem crashBackoffMs_le (count : Nat) : crashBackoffMs count ≤ CRASH_BACKOFF_CAP_MS := by
  unfold crashBackoffMs
  split
  · exact Nat.zero_le _
  · exact Nat.min_le_right _ _

/-- The words of `ControlShm` that the check uses. -/
structure ControlShm where
  windowStartUnix : Nat
  crashCount : Nat
  deriving DecidableEq, Repr

/-- What a fresh zone holds, and what a reload and a healthy run reset the words to. -/
def ControlShm.zeroed : ControlShm := ⟨0, 0⟩

/-- What becomes of a start: `exit(2)`, or a sleep and the restarts it publishes. -/
inductive StartOutcome where
  | exits
  | proceeds (backoffMs : Nat) (exporterRestarts : Option Nat)
  deriving DecidableEq, Repr

/-- `window == 0 || now.saturating_sub(window) > CRASH_WINDOW_SECS`. -/
def ControlShm.expired (ctrl : ControlShm) (now : Nat) : Prop :=
  ctrl.windowStartUnix = 0 ∨ now - ctrl.windowStartUnix > CRASH_WINDOW_SECS

instance (ctrl : ControlShm) (now : Nat) : Decidable (ctrl.expired now) :=
  inferInstanceAs (Decidable (_ ∨ _))

/-- The window that a start counts in. -/
def ControlShm.enter (ctrl : ControlShm) (now : Nat) : ControlShm :=
  if ctrl.expired now then ⟨now, 0⟩ else ctrl

/-- The crash check of `otel_exporter_cycle`. -/
def crashCheck (ctrl : ControlShm) (now : Nat) : ControlShm × StartOutcome :=
  let ctrl := ctrl.enter now
  let count := addW 64 ctrl.crashCount 1
  ({ ctrl with crashCount := count },
    if count > MAX_CRASH_RESTARTS then .exits
    else if count > 1 then .proceeds (crashBackoffMs count) (some (count - 1))
    else .proceeds 0 none)

/-- The start gets past the check. -/
def passes (ctrl : ControlShm) (now : Nat) : Bool := (crashCheck ctrl now).2 ≠ .exits

/-- The clock readings of the starts that get past the check. -/
def getsPast : ControlShm → List Nat → List Nat
  | _, [] => []
  | ctrl, now :: starts =>
    if passes ctrl now then now :: getsPast (crashCheck ctrl now).1 starts
    else getsPast (crashCheck ctrl now).1 starts

/-- How many of the times are in `[T, T + 60]`. -/
def within (T : Nat) (times : List Nat) : Nat := times.countP fun t => T ≤ t ∧ t ≤ T + 60

/-- The rolling limit: no minute has more than five. -/
def RollingLimit (times : List Nat) : Prop := ∀ T, within T times ≤ 5

/-- **Two windows meet**: one start at second 1 opens a window, four follow at its end and five more
a second later in the next one. -/
theorem two_windows_meet : ∃ starts : List Nat, (∀ t ∈ starts, 0 < t) ∧
    starts.Pairwise (· ≤ ·) ∧ ¬RollingLimit (getsPast .zeroed starts) := by
  refine ⟨[1, 61, 61, 61, 61, 62, 62, 62, 62, 62], by decide, by decide, ?_⟩
  intro hlimit
  exact absurd (hlimit 61) (by decide)

/-! ## The readings by window -/

/-- The readings in what is left of a window that began at `opened`, and the windows after it. -/
def splitFrom (opened : Nat) : List Nat → List Nat × List (List Nat)
  | [] => ([], [])
  | t :: ts =>
    if t ≤ opened + 60 then (t :: (splitFrom opened ts).1, (splitFrom opened ts).2)
    else ([], (t :: (splitFrom t ts).1) :: (splitFrom t ts).2)

/-- The clock readings, split into windows: a window begins with the first reading that is more than
60 seconds after the beginning of the one before. -/
def windows : List Nat → List (List Nat)
  | [] => []
  | t :: ts => (t :: (splitFrom t ts).1) :: (splitFrom t ts).2

/-- Two windows in a row, the earlier one with `n` readings (counted up to five): reading `i` of the
earlier one lies more than 60 seconds before reading `i + 5 - n` of the later one. -/
def Apart (earlier later : List Nat) : Prop :=
  ∀ i < min earlier.length 5, ∀ t ∈ earlier[i]?, ∀ u ∈ later[i + 5 - min earlier.length 5]?,
    t + 60 < u

instance (earlier later : List Nat) : Decidable (Apart earlier later) :=
  inferInstanceAs (Decidable (∀ i < min earlier.length 5, _))

theorem flatten_splitFrom (opened : Nat) (starts : List Nat) :
    (splitFrom opened starts).1 ++ (splitFrom opened starts).2.flatten = starts := by
  induction starts generalizing opened with
  | nil => rfl
  | cons t ts ih =>
    unfold splitFrom
    split
    · exact congrArg (t :: ·) (ih opened)
    · exact congrArg (t :: ·) (ih t)

theorem flatten_windows (starts : List Nat) : (windows starts).flatten = starts := by
  cases starts with
  | nil => rfl
  | cons t ts => exact congrArg (t :: ·) (flatten_splitFrom t ts)

/-- The rest of a window ends with it. -/
theorem le_of_mem_splitFrom {opened t : Nat} {starts : List Nat}
    (h : t ∈ (splitFrom opened starts).1) : t ≤ opened + 60 := by
  induction starts with
  | nil => cases h
  | cons s ts ih =>
    unfold splitFrom at h
    split at h
    · rename_i hopen
      rcases List.mem_cons.mp h with rfl | h
      · exact hopen
      · exact ih h
    · cases h

/-- What comes after a window is later than its end. -/
theorem lt_of_mem_splitFrom {opened u : Nat} {starts : List Nat} (hsorted : starts.Pairwise (· ≤ ·))
    (h : u ∈ (splitFrom opened starts).2.flatten) : opened + 60 < u := by
  induction starts with
  | nil => cases h
  | cons t ts ih =>
    obtain ⟨hfirst, hrest⟩ := List.pairwise_cons.mp hsorted
    unfold splitFrom at h
    split at h
    · exact ih hrest h
    · rename_i hover
      have hmem : u ∈ t :: ts := by
        rw [← flatten_splitFrom t ts]
        exact h
      rcases List.mem_cons.mp hmem with rfl | hmem
      · omega
      · have := hfirst u hmem
        omega

/-- Windows that are not next to each other are more than a minute apart. -/
def Far : List (List Nat) → Prop
  | earlier :: later :: rest =>
    (∀ t ∈ earlier, ∀ u ∈ rest.flatten, t + 60 < u) ∧ Far (later :: rest)
  | _ => True

theorem far_splitFrom {starts : List Nat} (hsorted : starts.Pairwise (· ≤ ·)) (opened : Nat)
    (first : List Nat) (hfirst : ∀ t ∈ first, ∀ u ∈ starts, t ≤ u) :
    Far ((first ++ (splitFrom opened starts).1) :: (splitFrom opened starts).2) := by
  induction starts generalizing opened first with
  | nil => trivial
  | cons s ts ih =>
    obtain ⟨hs, hrest⟩ := List.pairwise_cons.mp hsorted
    have hlater : ∀ t ∈ first, ∀ u ∈ ts, t ≤ u :=
      fun t ht u hu => hfirst t ht u (List.mem_cons_of_mem s hu)
    unfold splitFrom
    split
    · have hnext := ih hrest opened (first ++ [s]) fun t ht =>
        (List.mem_append.mp ht).elim (hlater t) fun h => List.mem_singleton.mp h ▸ hs
      rwa [List.append_assoc] at hnext
    · refine ⟨fun t ht u hu => ?_, ih hrest s [s] fun t ht => List.mem_singleton.mp ht ▸ hs⟩
      rw [List.append_nil] at ht
      have hend := lt_of_mem_splitFrom hrest hu
      have hle := hfirst t ht s List.mem_cons_self
      omega

theorem far_windows {starts : List Nat} (hsorted : starts.Pairwise (· ≤ ·)) :
    Far (windows starts) := by
  cases starts with
  | nil => trivial
  | cons s ts =>
    obtain ⟨hs, hrest⟩ := List.pairwise_cons.mp hsorted
    exact far_splitFrom hrest s [s] fun t ht => List.mem_singleton.mp ht ▸ hs

/-- A window is a minute long. -/
theorem exists_opened {starts w : List Nat} (hsorted : starts.Pairwise (· ≤ ·))
    (h : w ∈ windows starts) : ∃ T, ∀ t ∈ w, T ≤ t ∧ t ≤ T + 60 := by
  have hone : ∀ {s : Nat} {ts : List Nat}, (s :: ts).Pairwise (· ≤ ·) →
      ∀ t ∈ s :: (splitFrom s ts).1, s ≤ t ∧ t ≤ s + 60 := by
    intro s ts hsorted t ht
    rcases List.mem_cons.mp ht with rfl | ht
    · exact ⟨Nat.le_refl _, Nat.le_add_right _ _⟩
    · have hmem : t ∈ ts := by
        rw [← flatten_splitFrom s ts]
        exact List.mem_append_left _ ht
      exact ⟨(List.pairwise_cons.mp hsorted).1 t hmem, le_of_mem_splitFrom ht⟩
  have hmore : ∀ (ts : List Nat) (opened : Nat), ts.Pairwise (· ≤ ·) →
      w ∈ (splitFrom opened ts).2 → ∃ T, ∀ t ∈ w, T ≤ t ∧ t ≤ T + 60 := by
    intro ts
    induction ts with
    | nil => exact fun _ _ h => absurd h List.not_mem_nil
    | cons s ts ih =>
      intro opened hsorted h
      obtain ⟨-, hrest⟩ := List.pairwise_cons.mp hsorted
      unfold splitFrom at h
      split at h
      · exact ih opened hrest h
      · rcases List.mem_cons.mp h with rfl | h
        · exact ⟨s, hone hsorted⟩
        · exact ih s hrest h
  cases starts with
  | nil => cases h
  | cons s ts =>
    rcases List.mem_cons.mp h with rfl | h
    · exact ⟨s, hone hsorted⟩
    · exact hmore ts s (List.pairwise_cons.mp hsorted).2 h

/-! ## Which starts get past -/

/-- The starts of a window that get past, `n` starts into it; the counter has 64 bits. -/
def counted : Nat → List Nat → List Nat
  | _, [] => []
  | n, t :: ts => if (n + 1) % 2 ^ 64 ≤ 5 then t :: counted (n + 1) ts else counted (n + 1) ts

theorem counted_append (n : Nat) (l l' : List Nat) :
    counted n (l ++ l') = counted n l ++ counted (n + l.length) l' := by
  induction l generalizing n with
  | nil => rfl
  | cons t ts ih =>
    have hlen : n + (t :: ts).length = n + 1 + ts.length := by
      rw [List.length_cons]
      omega
    rw [List.cons_append, counted, counted, ih, hlen]
    split <;> rfl

theorem counted_eq_take {n : Nat} {l : List Nat} (h : n + l.length < 2 ^ 64) :
    counted n l = l.take (5 - n) := by
  induction l generalizing n with
  | nil => exact List.take_nil.symm
  | cons t ts ih =>
    rw [List.length_cons] at h
    rw [counted, ih (by omega), Nat.mod_eq_of_lt (by omega)]
    split
    · rename_i hle
      rw [show 5 - n = (5 - (n + 1)) + 1 by omega, List.take_succ_cons]
    · rename_i hgt
      rw [show 5 - n = 0 by omega, show 5 - (n + 1) = 0 by omega, List.take_zero, List.take_zero]

theorem mem_of_mem_counted {n t : Nat} {l : List Nat} (h : t ∈ counted n l) : t ∈ l := by
  induction l generalizing n with
  | nil => exact h
  | cons s ts ih =>
    rw [counted] at h
    split at h
    · rcases List.mem_cons.mp h with rfl | h
      · exact List.mem_cons_self
      · exact List.mem_cons_of_mem s (ih h)
    · exact List.mem_cons_of_mem s (ih h)

/-- A window of `2 ^ 64` starts lets more than five past. -/
theorem lt_length_counted {l : List Nat} (h : 2 ^ 64 ≤ l.length) : 5 < (counted 0 l).length := by
  have hsplit : l = l.take (2 ^ 64 - 1) ++ l.drop (2 ^ 64 - 1) := (List.take_append_drop _ l).symm
  have hlen : (l.take (2 ^ 64 - 1)).length = 2 ^ 64 - 1 := by
    rw [List.length_take]
    omega
  cases hdrop : l.drop (2 ^ 64 - 1) with
  | nil =>
    have := List.drop_eq_nil_iff.mp hdrop
    omega
  | cons t ts =>
    rw [hsplit, counted_append, counted_eq_take (by omega), hdrop, hlen, counted]
    simp only [List.length_append, List.length_take, hlen]
    rw [if_pos (by decide)]
    simp only [List.length_cons]
    omega

theorem crashCheck_open {opened n now : Nat} (hpos : 0 < opened) (hopen : now ≤ opened + 60) :
    (crashCheck ⟨opened, n % 2 ^ 64⟩ now).1 = ⟨opened, (n + 1) % 2 ^ 64⟩ ∧
      (passes ⟨opened, n % 2 ^ 64⟩ now = true ↔ (n + 1) % 2 ^ 64 ≤ 5) := by
  have henter : ControlShm.enter ⟨opened, n % 2 ^ 64⟩ now = ⟨opened, n % 2 ^ 64⟩ := by
    refine if_neg ?_
    simp only [ControlShm.expired, CRASH_WINDOW_SECS]
    omega
  have hcount : addW 64 (n % 2 ^ 64) 1 = (n + 1) % 2 ^ 64 := Nat.mod_add_mod n (2 ^ 64) 1
  constructor
  · simp only [crashCheck, henter, hcount]
  · simp only [passes, crashCheck, henter, hcount, MAX_CRASH_RESTARTS, ne_eq, decide_eq_true_eq]
    split
    · rename_i hover
      simp only [not_true_eq_false, false_iff]
      omega
    · split <;> simp <;> omega

theorem crashCheck_new {ctrl : ControlShm} {now : Nat} (hexpired : ctrl.expired now) :
    (crashCheck ctrl now).1 = ⟨now, 1⟩ ∧ passes ctrl now = true := by
  have henter : ctrl.enter now = ⟨now, 0⟩ := if_pos hexpired
  have hcount : addW 64 0 1 = 1 := by decide
  constructor
  · simp only [crashCheck, henter, hcount]
  · simp [passes, crashCheck, henter, hcount, MAX_CRASH_RESTARTS]

/-- The starts in an open window, and in those that follow. -/
theorem getsPast_open {opened : Nat} {starts : List Nat} (hpos : 0 < opened)
    (hall : ∀ t ∈ starts, 0 < t) (n : Nat) :
    getsPast ⟨opened, n % 2 ^ 64⟩ starts =
      counted n (splitFrom opened starts).1 ++ (splitFrom opened starts).2.flatMap (counted 0) := by
  induction starts generalizing opened n with
  | nil => rfl
  | cons t ts ih =>
    have hts : ∀ u ∈ ts, 0 < u := fun u hu => hall u (List.mem_cons_of_mem t hu)
    rw [getsPast]
    unfold splitFrom
    by_cases hopen : t ≤ opened + 60
    · obtain ⟨hctrl, hpasses⟩ := crashCheck_open (n := n) hpos hopen
      simp only [hctrl, ih hpos hts, hpasses, if_pos hopen, counted]
      split <;> rfl
    · have hexpired : ControlShm.expired ⟨opened, n % 2 ^ 64⟩ t := .inr (by
        simp only [CRASH_WINDOW_SECS]
        omega)
      obtain ⟨hctrl, hpasses⟩ := crashCheck_new hexpired
      have hpos' : 0 < t := hall t List.mem_cons_self
      have hnext := ih hpos' hts 1
      rw [Nat.mod_eq_of_lt (by decide)] at hnext
      simp only [hctrl, hpasses, hnext, if_neg hopen, if_true]
      rfl

/-- **The check counts each window by itself.** -/
theorem getsPast_eq_flatMap {starts : List Nat} (hall : ∀ t ∈ starts, 0 < t) :
    getsPast .zeroed starts = (windows starts).flatMap (counted 0) := by
  cases starts with
  | nil => rfl
  | cons t ts =>
    have hexpired : ControlShm.zeroed.expired t := .inl rfl
    obtain ⟨hctrl, hpasses⟩ := crashCheck_new hexpired
    have hnext := getsPast_open (hall t List.mem_cons_self)
      (fun u hu => hall u (List.mem_cons_of_mem t hu)) 1
    rw [Nat.mod_eq_of_lt (by decide)] at hnext
    rw [getsPast, hctrl, if_pos hpasses, hnext]
    rfl

/-! ## The rolling limit -/

theorem within_append (T : Nat) (times times' : List Nat) :
    within T (times ++ times') = within T times + within T times' := List.countP_append

theorem within_le_length (T : Nat) (times : List Nat) : within T times ≤ times.length :=
  List.countP_le_length

theorem within_eq_zero {T : Nat} {times : List Nat} (h : ∀ t ∈ times, T + 60 < t) :
    within T times = 0 := by
  rw [within, List.countP_eq_zero]
  intro t ht
  have := h t ht
  simp only [decide_eq_true_eq]
  omega

theorem RollingLimit.of_sublist {times times' : List Nat} (h : RollingLimit times')
    (hsub : times.Sublist times') : RollingLimit times :=
  fun T => Nat.le_trans hsub.countP_le (h T)

/-- **A sorted list keeps the limit if no time is within a minute of the fifth after it.** -/
theorem rollingLimit_iff_fifth {times : List Nat} (hsorted : times.Pairwise (· ≤ ·)) :
    RollingLimit times ↔ ∀ i, ∀ t ∈ times[i]?, ∀ u ∈ times[i + 5]?, t + 60 < u := by
  constructor
  · intro hlimit i t ht u hu
    by_contra hnear
    -- the six times from `t` to `u` are in `[t, t + 60]`
    have hsix := hlimit.of_sublist ((List.take_sublist 6 _).trans (List.drop_sublist i times)) t
    obtain ⟨hi, rfl⟩ := List.getElem?_eq_some_iff.mp ht
    obtain ⟨hj, rfl⟩ := List.getElem?_eq_some_iff.mp hu
    have hall : ∀ s ∈ (times.drop i).take 6, times[i] ≤ s ∧ s ≤ times[i] + 60 := by
      intro s hs
      obtain ⟨k, hk, rfl⟩ := List.mem_iff_getElem.mp hs
      rw [List.length_take, List.length_drop] at hk
      have hmono : ∀ a b (ha : a < times.length) (hb : b < times.length), a ≤ b →
          times[a] ≤ times[b] := by
        intro a b ha hb hab
        rcases Nat.eq_or_lt_of_le hab with rfl | hlt
        · exact Nat.le_refl _
        · exact List.pairwise_iff_getElem.mp hsorted a b ha hb hlt
      rw [List.getElem_take, List.getElem_drop]
      have hlow := hmono i (i + k) hi (by omega) (by omega)
      have hhigh := hmono (i + k) (i + 5) (by omega) hj (by omega)
      omega
    have hcount : within times[i] ((times.drop i).take 6) = ((times.drop i).take 6).length := by
      rw [within, List.countP_eq_length]
      exact fun s hs => decide_eq_true (hall s hs)
    rw [List.length_take, List.length_drop] at hcount
    omega
  · intro hfifth
    induction times with
    | nil => exact fun T => Nat.zero_le _
    | cons s ts ih =>
      obtain ⟨hs, hrest⟩ := List.pairwise_cons.mp hsorted
      have hlimit := ih hrest fun i => hfifth (i + 1)
      intro T
      by_cases hin : T ≤ s ∧ s ≤ T + 60
      · -- whatever follows the fifth is beyond the interval
        have hfar : ∀ u ∈ (s :: ts).drop 5, T + 60 < u := by
          intro u hu
          obtain ⟨k, hk, rfl⟩ := List.mem_iff_getElem.mp hu
          rw [List.length_drop] at hk
          have hnext := hfifth 0 s rfl _ (List.getElem?_eq_getElem (by omega))
          rw [List.getElem_drop]
          have hle : (s :: ts)[0 + 5] ≤ (s :: ts)[5 + k] := by
            rcases Nat.eq_zero_or_pos k with rfl | hpos
            · exact Nat.le_refl _
            · exact List.pairwise_iff_getElem.mp hsorted _ _ (by omega) (by omega) (by omega)
          omega
        have hsplit := within_append T ((s :: ts).take 5) ((s :: ts).drop 5)
        rw [List.take_append_drop, within_eq_zero hfar] at hsplit
        have hle := within_le_length T ((s :: ts).take 5)
        rw [List.length_take] at hle
        omega
      · have hout : within T [s] = 0 := by simpa [within] using hin
        have hsplit := within_append T [s] ts
        have hle := hlimit T
        rw [List.singleton_append] at hsplit
        omega

/-- The first five of two windows in a row. -/
theorem rollingLimit_take_iff {earlier later : List Nat}
    (hsorted : (earlier ++ later).Pairwise (· ≤ ·)) :
    RollingLimit (earlier.take 5 ++ later.take 5) ↔ Apart earlier later := by
  have hsub : (earlier.take 5 ++ later.take 5).Sublist (earlier ++ later) :=
    (List.take_sublist 5 earlier).append (List.take_sublist 5 later)
  have hlen : (earlier.take 5).length = min earlier.length 5 := by
    rw [List.length_take, Nat.min_comm]
  rw [rollingLimit_iff_fifth (hsorted.sublist hsub)]
  constructor
  · intro h i hi t ht u hu
    refine h i t ?_ u ?_
    · rw [List.getElem?_append_left (by omega), List.getElem?_take_of_lt (by omega)]
      exact ht
    · rw [List.getElem?_append_right (by omega), hlen, List.getElem?_take_of_lt (by omega)]
      exact hu
  · intro h i t ht u hu
    rw [List.getElem?_append_right (by omega), hlen, List.getElem?_take] at hu
    split at hu
    · rename_i hlt
      have hi : i < min earlier.length 5 := by omega
      rw [List.getElem?_append_left (by omega), List.getElem?_take_of_lt (by omega)] at ht
      exact h i hi t ht u hu
    · cases hu

/-- **Windows keep the limit if each keeps apart from the next.** -/
theorem rollingLimit_windows : ∀ {ws : List (List Nat)}, ws.flatten.Pairwise (· ≤ ·) → Far ws →
    (RollingLimit (ws.flatMap (List.take 5)) ↔ ws.IsChain Apart)
  | [], _, _ => iff_of_true (fun _ => Nat.zero_le _) .nil
  | [w], _, _ => by
    refine iff_of_true (fun T => ?_) (.singleton w)
    have hle := within_le_length T ([w].flatMap (List.take 5))
    rw [List.flatMap_singleton, List.length_take] at hle
    rw [List.flatMap_singleton]
    omega
  | earlier :: later :: rest, hsorted, hfar => by
    obtain ⟨hbeyond, hnext⟩ := hfar
    have hpair : (earlier ++ later).Pairwise (· ≤ ·) := by
      refine hsorted.sublist ?_
      rw [List.flatten_cons, List.flatten_cons, ← List.append_assoc]
      exact List.sublist_append_left _ _
    have hrest : (later :: rest).flatten.Pairwise (· ≤ ·) := (List.pairwise_append.mp hsorted).2.1
    rw [List.isChain_cons_cons, ← rollingLimit_take_iff hpair, ← rollingLimit_windows hrest hnext,
      List.flatMap_cons, List.flatMap_cons]
    constructor
    · intro h
      refine ⟨h.of_sublist ?_, h.of_sublist (List.sublist_append_right _ _)⟩
      rw [← List.append_assoc]
      exact List.sublist_append_left _ _
    · rintro ⟨htwo, hothers⟩ T
      by_cases hin : ∃ t ∈ earlier.take 5, T ≤ t ∧ t ≤ T + 60
      · -- an interval that reaches into the earlier window ends before the windows after the later
        obtain ⟨t, ht, hlow, -⟩ := hin
        have hzero : within T (rest.flatMap (List.take 5)) = 0 := by
          refine within_eq_zero fun u hu => ?_
          obtain ⟨w, hw, hu⟩ := List.mem_flatMap.mp hu
          have := hbeyond t (List.mem_of_mem_take ht) u
            (List.mem_flatten.mpr ⟨w, hw, List.mem_of_mem_take hu⟩)
          omega
        have hle := htwo T
        rw [within_append] at hle
        rw [within_append, within_append, hzero]
        exact hle
      · have hzero : within T (earlier.take 5) = 0 := by
          rw [within, List.countP_eq_zero]
          exact fun t ht hmem => hin ⟨t, ht, of_decide_eq_true hmem⟩
        rw [within_append, hzero, Nat.zero_add]
        exact hothers T

/-- **Which clock readings keep the rolling limit**: those where each window keeps apart from the
next, and no window has so many starts that the counter wraps. -/
theorem rolling_limit_iff {starts : List Nat} (hpos : ∀ t ∈ starts, 0 < t)
    (hsorted : starts.Pairwise (· ≤ ·)) :
    RollingLimit (getsPast .zeroed starts) ↔
      (∀ w ∈ windows starts, w.length < 2 ^ 64) ∧ (windows starts).IsChain Apart := by
  rw [getsPast_eq_flatMap hpos]
  by_cases hlong : ∀ w ∈ windows starts, w.length < 2 ^ 64
  · have hfirst : (windows starts).flatMap (counted 0) = (windows starts).flatMap (List.take 5) := by
      refine List.flatMap_congr fun w hw => ?_
      have hlen := hlong w hw
      exact counted_eq_take (by omega)
    rw [hfirst, and_iff_right hlong]
    refine rollingLimit_windows ?_ (far_windows hsorted)
    rw [flatten_windows]
    exact hsorted
  · refine iff_of_false (fun hlimit => ?_) fun h => hlong h.1
    obtain ⟨w, hw, hlen⟩ : ∃ w ∈ windows starts, 2 ^ 64 ≤ w.length := by simpa using hlong
    obtain ⟨T, hT⟩ := exists_opened hsorted hw
    have hsub : (counted 0 w).Sublist ((windows starts).flatMap (counted 0)) := by
      rw [List.flatMap_def]
      exact List.sublist_flatten_of_mem (List.mem_map_of_mem hw)
    have hall : within T (counted 0 w) = (counted 0 w).length := by
      rw [within, List.countP_eq_length]
      exact fun t ht => decide_eq_true (hT t (mem_of_mem_counted ht))
    have hle := hlimit.of_sublist hsub T
    have hmany := lt_length_counted hlen
    omega

/-- Five starts a minute keep the limit. -/
theorem rolling_limit_steady : RollingLimit (getsPast .zeroed [10, 10, 10, 10, 10, 100, 200]) :=
  (rolling_limit_iff (by decide) (by decide)).mpr (by decide)

end NgxOtel.Exporter
