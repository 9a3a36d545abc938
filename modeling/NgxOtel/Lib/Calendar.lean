import Mathlib.Logic.Function.Iterate
import Mathlib.Tactic.IntervalCases

/-!
# The proleptic Gregorian calendar

Dates are stepped one day at a time; the closed formula counts the days from the first of March, so
that the leap day is the last of its year.

* `Date`, `Date.next` — a date and the day after it.
* `Date.number` — the closed formula, days since 1 March of the year −400.

## Results

* `Date.number_next` — the day after has the next number.
* `Date.reached` — every date from the first of a year on is reached from it by stepping.
* `Date.iterate_next_iff` — **the number of steps between two dates** is the difference of their
  numbers.
-/

set_option autoImplicit false

namespace Calendar

/-- A leap year. -/
def isLeap (year : Nat) : Prop := year % 4 = 0 ∧ (year % 100 ≠ 0 ∨ year % 400 = 0)

instance (year : Nat) : Decidable (isLeap year) := inferInstanceAs (Decidable (_ ∧ _))

/-- The days of a month of the year. -/
def monthLength (year month : Nat) : Nat :=
  if month = 2 then if isLeap year then 29 else 28
  else if month = 4 ∨ month = 6 ∨ month = 9 ∨ month = 11 then 30
  else 31

@[ext] structure Date where
  year : Nat
  month : Nat
  day : Nat
  deriving DecidableEq, Repr

namespace Date

/-- The date exists. -/
structure Valid (d : Date) : Prop where
  month_pos : 1 ≤ d.month
  month_le : d.month ≤ 12
  day_pos : 1 ≤ d.day
  day_le : d.day ≤ monthLength d.year d.month

/-- The day after. -/
def next (d : Date) : Date :=
  if d.day < monthLength d.year d.month then { d with day := d.day + 1 }
  else if d.month < 12 then ⟨d.year, d.month + 1, 1⟩
  else ⟨d.year + 1, 1, 1⟩

theorem monthLength_pos (year month : Nat) : 1 ≤ monthLength year month := by
  unfold monthLength
  split
  · split <;> omega
  · split <;> omega

theorem monthLength_le (year month : Nat) : monthLength year month ≤ 31 := by
  unfold monthLength
  split
  · split <;> omega
  · split <;> omega

theorem Valid.next {d : Date} (h : d.Valid) : d.next.Valid := by
  obtain ⟨hpos, hle, hday, hlen⟩ := h
  unfold Date.next
  split
  · exact ⟨hpos, hle, by simp, by simpa⟩
  · split
    · rename_i hmonth
      exact ⟨by simp, hmonth, by simp, monthLength_pos _ _⟩
    · exact ⟨by simp, by simp, by simp, monthLength_pos _ _⟩

/-! ## The closed formula -/

/-- Days before the first of March of a year. -/
def yearStart (y : Nat) : Nat := y / 400 * 146097 + (y % 400 * 365 + y % 400 / 4 - y % 400 / 100)

/-- Days between the first of March and the first of a month, counted from March. -/
def monthStart (m : Nat) : Nat := (153 * m + 2) / 5

/-- The year that began last March, 400 years on. -/
def marchYear (d : Date) : Nat := if d.month ≤ 2 then d.year + 399 else d.year + 400

/-- The month counted from March. -/
def marchMonth (d : Date) : Nat := if d.month ≤ 2 then d.month + 9 else d.month - 3

/-- The number of a date. -/
def number (d : Date) : Nat := yearStart d.marchYear + monthStart d.marchMonth + (d.day - 1)

/-- Within a cycle of 400 years, year by year. -/
theorem cycleStart_succ : ∀ r < 399, (r + 1) * 365 + (r + 1) / 4 - (r + 1) / 100 =
    r * 365 + r / 4 - r / 100 + 365 + if isLeap (r + 1) then 1 else 0 := by
  decide +kernel

/-- The year that begins in March of `y` ends in February of `y + 1`. -/
theorem yearStart_succ (y : Nat) :
    yearStart (y + 1) = yearStart y + 365 + if isLeap (y + 1) then 1 else 0 := by
  unfold yearStart
  rcases Nat.lt_or_ge (y % 400) 399 with h | h
  · have hleap : isLeap (y + 1) ↔ isLeap (y % 400 + 1) := by
      unfold isLeap
      omega
    have hdiv : (y + 1) / 400 = y / 400 := by omega
    have hmod : (y + 1) % 400 = y % 400 + 1 := by omega
    rw [hdiv, hmod, cycleStart_succ _ h, if_congr hleap rfl rfl]
    omega
  · -- the last year of a cycle ends with a leap day
    have hdiv : (y + 1) / 400 = y / 400 + 1 := by omega
    have hmod : (y + 1) % 400 = 0 := by omega
    have hlast : y % 400 = 399 := by omega
    have hleap : isLeap (y + 1) := by
      unfold isLeap
      omega
    rw [hdiv, hmod, hlast, if_pos hleap]
    omega

/-- The months from March to January are as long as the formula says. -/
theorem monthStart_succ (year : Nat) {month : Nat} (hmonth : 3 ≤ month ∧ month ≤ 12) :
    monthStart (month - 3 + 1) = monthStart (month - 3) + monthLength year month := by
  obtain ⟨hlow, hhigh⟩ := hmonth
  interval_cases month <;> rfl

/-- **The day after has the next number.** -/
theorem number_next {d : Date} (h : d.Valid) : d.next.number = d.number + 1 := by
  obtain ⟨hpos, hle, hday, hlen⟩ := h
  unfold next
  split
  · -- the same month
    unfold number marchYear marchMonth
    dsimp only
    omega
  · have hlast : d.day = monthLength d.year d.month := by omega
    by_cases hmarch : 3 ≤ d.month ∧ d.month < 12
    · -- from March to November the next month is of the same March year
      have hstep := monthStart_succ d.year ⟨hmarch.1, hle⟩
      rw [if_pos hmarch.2]
      unfold number marchYear marchMonth
      dsimp only
      rw [if_neg (by omega), if_neg (by omega), if_neg (by omega), if_neg (by omega),
        show d.month + 1 - 3 = d.month - 3 + 1 by omega, hstep]
      omega
    · obtain ⟨year, month, day⟩ := d
      dsimp only at *
      obtain rfl | rfl | rfl : month = 1 ∨ month = 2 ∨ month = 12 := by omega
      · -- February follows in the same March year
        rw [if_pos (by omega), hlast]
        simp [number, marchYear, marchMonth, monthStart, monthLength]
      · -- the leap day is the last of the March year
        have hyear := yearStart_succ (year + 399)
        have hleap : isLeap (year + 399 + 1) ↔ isLeap year := by
          unfold isLeap
          omega
        rw [if_pos (by omega), hlast]
        simp only [number, marchYear, marchMonth, monthStart, monthLength]
        by_cases hyes : isLeap year
        · rw [if_pos (hleap.mpr hyes)] at hyear
          simp [hyes]
          omega
        · rw [if_neg (fun h => hyes (hleap.mp h))] at hyear
          simp [hyes]
          omega
      · -- December ends the year, but not the March year
        rw [if_neg (by omega), hlast]
        simp [number, marchYear, marchMonth, monthStart, monthLength, Nat.add_assoc]

theorem number_iterate {d : Date} (h : d.Valid) : ∀ n : Nat,
    (next^[n] d).Valid ∧ (next^[n] d).number = d.number + n
  | 0 => ⟨h, (Nat.add_zero _).symm⟩
  | n + 1 => by
    obtain ⟨hvalid, hnumber⟩ := number_iterate h n
    rw [Function.iterate_succ_apply']
    exact ⟨hvalid.next, by rw [number_next hvalid, hnumber, Nat.add_assoc]⟩

theorem year_le_iterate (d : Date) : ∀ n : Nat, d.year ≤ (next^[n] d).year
  | 0 => Nat.le_refl _
  | n + 1 => by
    rw [Function.iterate_succ_apply']
    have hbefore := year_le_iterate d n
    unfold next
    split
    · exact hbefore
    · split
      · exact hbefore
      · exact hbefore.trans (Nat.le_succ _)

/-! ## Every later date is reached -/

/-- `e` is reached from `d` by stepping. -/
def Reaches (d e : Date) : Prop := ∃ n, next^[n] d = e

theorem Reaches.next {d e : Date} (h : Reaches d e) : Reaches d e.next := by
  obtain ⟨n, rfl⟩ := h
  exact ⟨n + 1, Function.iterate_succ_apply' ..⟩

/-- The days of a month follow its first. -/
theorem reaches_day {d : Date} {year month : Nat} (h : Reaches d ⟨year, month, 1⟩) :
    ∀ k < monthLength year month, Reaches d ⟨year, month, k + 1⟩
  | 0, _ => h
  | k + 1, hk => by
    have hnext := (reaches_day h k (by omega)).next
    rwa [Date.next, if_pos hk] at hnext

theorem reaches_last {d : Date} {year month : Nat} (h : Reaches d ⟨year, month, 1⟩) :
    Reaches d ⟨year, month, monthLength year month⟩ := by
  have hpos := monthLength_pos year month
  have hlast := reaches_day h (monthLength year month - 1) (by omega)
  rwa [Nat.sub_add_cancel hpos] at hlast

/-- The months of a year follow its January. -/
theorem reaches_month {d : Date} {year : Nat} (h : Reaches d ⟨year, 1, 1⟩) :
    ∀ k < 12, Reaches d ⟨year, k + 1, 1⟩
  | 0, _ => h
  | k + 1, hk => by
    have hnext := (reaches_last (reaches_month h k (by omega))).next
    rwa [Date.next, if_neg (Nat.lt_irrefl _), if_pos (by omega)] at hnext

/-- The years follow each other. -/
theorem reaches_year (start : Nat) : ∀ k, Reaches ⟨start, 1, 1⟩ ⟨start + k, 1, 1⟩
  | 0 => ⟨0, rfl⟩
  | k + 1 => by
    have hnext := (reaches_last (reaches_month (reaches_year start k) 11 (by omega))).next
    rwa [Date.next, if_neg (Nat.lt_irrefl _), if_neg (Nat.lt_irrefl _)] at hnext

/-- **Every date is reached from the first day of an earlier year, or of its own.** -/
theorem reached {start : Nat} {e : Date} (h : e.Valid) (hyear : start ≤ e.year) :
    Reaches ⟨start, 1, 1⟩ e := by
  obtain ⟨hpos, hle, hday, hlen⟩ := h
  have hfirst := reaches_year start (e.year - start)
  rw [Nat.add_sub_cancel' hyear] at hfirst
  have hmonth := reaches_month hfirst (e.month - 1) (by omega)
  rw [Nat.sub_add_cancel hpos] at hmonth
  have hdate := reaches_day hmonth (e.day - 1) (by omega)
  rwa [Nat.sub_add_cancel hday] at hdate

/-- **The number of steps from the first day of a year to a date** is the difference of their
numbers, and there are steps exactly if the date is not in an earlier year. -/
theorem iterate_next_iff {start : Nat} {e : Date} (h : e.Valid) (n : Nat) :
    next^[n] ⟨start, 1, 1⟩ = e ↔
      start ≤ e.year ∧ e.number = (⟨start, 1, 1⟩ : Date).number + n := by
  have hfirst : (⟨start, 1, 1⟩ : Date).Valid := ⟨by simp, by simp, by simp, monthLength_pos _ _⟩
  constructor
  · rintro rfl
    exact ⟨year_le_iterate ⟨start, 1, 1⟩ n, (number_iterate hfirst n).2⟩
  · rintro ⟨hyear, hnumber⟩
    obtain ⟨k, rfl⟩ := reached h hyear
    rw [(number_iterate hfirst k).2] at hnumber
    rw [Nat.add_left_cancel hnumber]

end Date

end Calendar
