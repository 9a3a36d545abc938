import NgxOtel.Lib.Calendar
import NgxOtel.Lib.Word

/-!
# The date of a `Retry-After` header

`transport/hyper_http.rs`: a collector may say when to try again as an IMF-fixdate,
`Day, DD Mon YYYY HH:MM:SS GMT`.  `parse_imf_fixdate` reads it at fixed offsets and
`days_from_civil` turns its date into days since the epoch.

* `parseU32Bytes`, `parseMonthName`, `daysInMonth`, `daysFromCivil` — the parts.
* `parseImfFixdate` — the seconds since the epoch, `none` for any other text.
* `imfFixdate` — what such a text is.

## Results

* `daysFromCivil_eq_some_iff` — **the closed formula counts the days** that stepping from
  1970-01-01 takes.
* `parseU32Bytes_eq_some_iff`, `parseMonthName_eq_some_iff` — the fields determine their texts.
* `fixdate_spec` — **what is accepted, and as which time**.
-/

set_option autoImplicit false

namespace NgxOtel.Transport

open Word Calendar

/-! ## Checked arithmetic -/

/-- `checked_add` on words of `w` bits, and the other two. -/
def checkedAdd (w a b : Nat) : Option Nat := if a + b < 2 ^ w then some (a + b) else none

def checkedMul (w a b : Nat) : Option Nat := if a * b < 2 ^ w then some (a * b) else none

def checkedSub (a b : Nat) : Option Nat := if b ≤ a then some (a - b) else none

/-- A digit appended to a number, within `w` bits. -/
theorem checked_append_digit {w v d n : Nat} :
    ((checkedMul w v 10).bind fun u => checkedAdd w u d) = some n ↔ n = v * 10 + d ∧ n < 2 ^ w := by
  unfold checkedMul checkedAdd
  by_cases hmul : v * 10 < 2 ^ w
  · rw [if_pos hmul, Option.bind_some, Option.ite_none_right_eq_some, Option.some.injEq]
    constructor
    · rintro ⟨hadd, rfl⟩
      exact ⟨rfl, hadd⟩
    · rintro ⟨rfl, hadd⟩
      exact ⟨hadd, rfl⟩
  · rw [if_neg hmul, Option.bind_none]
    refine iff_of_false (Option.some_ne_none n).symm ?_
    rintro ⟨rfl, hadd⟩
    omega

/-! ## The parts -/

/-- One turn of `parse_u32_bytes`. -/
def digitStep (v : Nat) (c : UInt8) : Option Nat :=
  if 48 ≤ c ∧ c ≤ 57 then do
    let v ← checkedMul 32 v 10
    checkedAdd 32 v (c - 48).toNat
  else none

/-- `parse_u32_bytes`. -/
def parseU32Bytes (b : Bytes) : Option Nat :=
  if b.isEmpty then none else b.foldlM digitStep 0

/-- `Jan` to `Dec`. -/
def MONTH_NAMES : List Bytes :=
  [[74, 97, 110], [70, 101, 98], [77, 97, 114], [65, 112, 114], [77, 97, 121], [74, 117, 110],
    [74, 117, 108], [65, 117, 103], [83, 101, 112], [79, 99, 116], [78, 111, 118], [68, 101, 99]]

/-- `parse_month_name`. -/
def parseMonthName (b : Bytes) : Option Nat := (MONTH_NAMES.idxOf? b).map (· + 1)

/-- `days_in_month`. -/
def daysInMonth (year month : Nat) : Nat :=
  if month ∈ [1, 3, 5, 7, 8, 10, 12] then 31
  else if month ∈ [4, 6, 9, 11] then 30
  else if month = 2 then
    if year % 4 = 0 ∧ (year % 100 ≠ 0 ∨ year % 400 = 0) then 29 else 28
  else 0

/-- The year and the month counted from March. -/
def marchBased (year month : Nat) : Option (Nat × Nat) :=
  if month ≤ 2 then do
    let y ← checkedSub year 1
    some (y, month + 9)
  else some (year, month - 3)

/-- The day number of a date whose year and month count from March; the day is at least 1. -/
def civilDays (y m d : Nat) : Nat :=
  let era := y / 400
  let yoe := y - era * 400
  let doy := (153 * m + 2) / 5 + d - 1
  let doe := yoe * 365 + yoe / 4 - yoe / 100 + doy
  era * 146097 + doe

/-- `days_from_civil`. -/
def daysFromCivil (year month day : Nat) : Option Nat := do
  let (y, m) ← marchBased year month
  if y < 1969 then none else checkedSub (civilDays y m day) 719468

/-! ## The closed formula counts days -/

/-- The day that is number 0. -/
def EPOCH : Date := ⟨1970, 1, 1⟩

theorem number_epoch : EPOCH.number = 719468 + 146097 := by decide

theorem daysInMonth_eq {year month : Nat} (hlow : 1 ≤ month) (hhigh : month ≤ 12) :
    daysInMonth year month = monthLength year month := by
  interval_cases month <;> rfl

/-- The formula of the library, without its offset of 400 years. -/
theorem civilDays_add (y m : Nat) {d : Nat} (hd : 1 ≤ d) :
    civilDays y m d + 146097 = Date.yearStart (y + 400) + Date.monthStart m + (d - 1) := by
  unfold civilDays Date.yearStart Date.monthStart
  dsimp only
  omega

/-- January and February belong to the March year before. -/
theorem marchBased_cases (year month : Nat) :
    (month ≤ 2 ∧ year = 0 ∧ marchBased year month = none) ∨
      (month ≤ 2 ∧ 1 ≤ year ∧ marchBased year month = some (year - 1, month + 9)) ∨
      (2 < month ∧ marchBased year month = some (year, month - 3)) := by
  unfold marchBased checkedSub
  by_cases hmonth : month ≤ 2
  · rw [if_pos hmonth]
    by_cases hyear : 1 ≤ year
    · exact .inr (.inl ⟨hmonth, hyear, by rw [if_pos hyear]; rfl⟩)
    · exact .inl ⟨hmonth, by omega, by rw [if_neg hyear]; rfl⟩
  · exact .inr (.inr ⟨by omega, if_neg hmonth⟩)

theorem number_eq {year month day y m : Nat} (hday : 1 ≤ day)
    (h : marchBased year month = some (y, m)) :
    (⟨year, month, day⟩ : Date).number = civilDays y m day + 146097 := by
  rw [civilDays_add y m hday, Date.number, Date.marchYear, Date.marchMonth]
  dsimp only
  obtain ⟨-, -, hnone⟩ | ⟨hmonth, hyear, hsome⟩ | ⟨hmonth, hsome⟩ := marchBased_cases year month
  · rw [hnone] at h
    cases h
  · rw [hsome] at h
    cases h
    rw [if_pos hmonth, if_pos hmonth, show year - 1 + 400 = year + 399 by omega]
  · rw [hsome] at h
    cases h
    rw [if_neg (by omega), if_neg (by omega)]

/-- A date from 1970 on has the number that stepping from the epoch gives. -/
theorem number_epoch_le {d : Date} (h : d.Valid) (hyear : 1970 ≤ d.year) :
    EPOCH.number ≤ d.number := by
  obtain ⟨n, rfl⟩ := Date.reached h hyear
  rw [(Date.number_iterate ⟨by simp, by simp, by simp, Date.monthLength_pos _ _⟩ n).2]
  exact Nat.le_add_right _ n

theorem daysFromCivil_of_le {year month day : Nat} (h : (⟨year, month, day⟩ : Date).Valid)
    (hyear : 1970 ≤ year) :
    daysFromCivil year month day =
      some ((⟨year, month, day⟩ : Date).number - EPOCH.number) := by
  have hle := number_epoch_le h hyear
  obtain ⟨y, m, hmarch, hy⟩ : ∃ y m, marchBased year month = some (y, m) ∧ 1969 ≤ y := by
    obtain ⟨-, hzero, -⟩ | ⟨-, -, hsome⟩ | ⟨-, hsome⟩ := marchBased_cases year month
    · omega
    · exact ⟨_, _, hsome, by omega⟩
    · exact ⟨_, _, hsome, by omega⟩
  have hnumber : (⟨year, month, day⟩ : Date).number = civilDays y m day + 146097 :=
    number_eq h.day_pos hmarch
  rw [number_epoch, hnumber] at hle ⊢
  rw [daysFromCivil, hmarch]
  show (if y < 1969 then none else checkedSub (civilDays y m day) 719468) = _
  rw [if_neg (by omega), checkedSub, if_pos (by omega), Nat.add_sub_add_right]

theorem daysFromCivil_of_lt {year month day : Nat} (h : (⟨year, month, day⟩ : Date).Valid)
    (hyear : year < 1970) : daysFromCivil year month day = none := by
  obtain ⟨hpos, hle, hday, hlen⟩ := h
  have hlong := Date.monthLength_le year month
  unfold daysFromCivil
  obtain ⟨-, -, hnone⟩ | ⟨-, -, hsome⟩ | ⟨-, hsome⟩ := marchBased_cases year month
  · rw [hnone]
    rfl
  · rw [hsome]
    exact if_pos (by omega)
  · rw [hsome]
    show (if year < 1969 then none else checkedSub (civilDays year (month - 3) day) 719468) = none
    by_cases hearly : year < 1969
    · rw [if_pos hearly]
    · -- the months from March 1969 on
      obtain rfl : year = 1969 := by omega
      have hdays : civilDays 1969 (month - 3) day < 719468 := by
        dsimp only at hle hday hlen
        simp only [civilDays]
        omega
      rw [if_neg hearly, checkedSub, if_neg (by omega)]

/-- **The closed formula counts the days that stepping from the epoch takes.** -/
theorem daysFromCivil_eq_some_iff {year month day : Nat} (h : (⟨year, month, day⟩ : Date).Valid)
    (n : Nat) :
    daysFromCivil year month day = some n ↔ Date.next^[n] EPOCH = ⟨year, month, day⟩ := by
  rw [EPOCH, Date.iterate_next_iff h n]
  by_cases hyear : 1970 ≤ year
  · have hle := number_epoch_le h hyear
    rw [daysFromCivil_of_le h hyear, Option.some.injEq]
    show _ ↔ 1970 ≤ year ∧ _ = EPOCH.number + n
    omega
  · rw [daysFromCivil_of_lt h (by omega)]
    simp [hyear]

/-! ## The fields and their texts -/

/-- The last `k` decimal digits of a number. -/
def digits : Nat → Nat → Bytes
  | 0, _ => []
  | k + 1, n => digits k (n / 10) ++ [UInt8.ofNat (48 + n % 10)]

@[simp] theorem length_digits : ∀ k n : Nat, (digits k n).length = k
  | 0, _ => rfl
  | k + 1, n => by rw [digits, List.length_append, length_digits k, List.length_singleton]

/-- The ten digits. -/
theorem isDigit_iff (c : UInt8) : 48 ≤ c ∧ c ≤ 57 ↔ ∃ d < 10, c = UInt8.ofNat (48 + d) := by
  constructor
  · rintro ⟨hlow, hhigh⟩
    rw [UInt8.le_iff_toNat_le] at hlow hhigh
    have hlow' : 48 ≤ c.toNat := hlow
    have hhigh' : c.toNat ≤ 57 := hhigh
    refine ⟨c.toNat - 48, by omega, ?_⟩
    rw [Nat.add_sub_cancel' hlow', UInt8.ofNat_toNat]
  · rintro ⟨d, hd, rfl⟩
    interval_cases d <;> decide

theorem digit_value {d : Nat} (hd : d < 10) : (UInt8.ofNat (48 + d) - 48).toNat = d := by
  interval_cases d <;> rfl

/-- A digit extends the number by one place. -/
theorem digitStep_eq_some_iff {v w : Nat} {c : UInt8} (hv : v * 10 + 9 < 2 ^ 32) :
    digitStep v c = some w ↔ w / 10 = v ∧ c = UInt8.ofNat (48 + w % 10) := by
  have hstep : ∀ d < 10, digitStep v (UInt8.ofNat (48 + d)) = some (v * 10 + d) := by
    intro d hd
    rw [digitStep, if_pos ((isDigit_iff _).mpr ⟨d, hd, rfl⟩), digit_value hd]
    exact checked_append_digit.mpr ⟨rfl, by omega⟩
  constructor
  · intro h
    by_cases hdigit : 48 ≤ c ∧ c ≤ 57
    · obtain ⟨d, hd, rfl⟩ := (isDigit_iff c).mp hdigit
      rw [hstep d hd, Option.some.injEq] at h
      subst h
      rw [show (v * 10 + d) / 10 = v by omega, show (v * 10 + d) % 10 = d by omega]
      exact ⟨rfl, rfl⟩
    · rw [digitStep, if_neg hdigit] at h
      cases h
  · rintro ⟨rfl, rfl⟩
    rw [hstep _ (Nat.mod_lt w (by decide)), Option.some.injEq]
    omega

theorem foldlM_digitStep : ∀ {k : Nat} {b : Bytes}, k ≤ 9 → b.length = k → ∀ v : Nat,
    b.foldlM digitStep 0 = some v ↔ v < 10 ^ k ∧ b = digits k v
  | 0, b, _, hlen, v => by
    obtain rfl := List.length_eq_zero_iff.mp hlen
    simp only [List.foldlM_nil, digits, pow_zero, Nat.lt_one_iff, and_true]
    exact ⟨fun h => (Option.some.inj h).symm, fun h => congrArg some h.symm⟩
  | k + 1, b, hk, hlen, v => by
    have hne : b ≠ [] := fun hnil => by simp [hnil] at hlen
    obtain ⟨front, c, rfl⟩ : ∃ front c, b = front ++ [c] :=
      ⟨b.dropLast, b.getLast hne, (List.dropLast_append_getLast hne).symm⟩
    have hfront : front.length = k := by simpa using hlen
    have ih := foldlM_digitStep (Nat.le_of_succ_le hk) hfront
    -- a number of at most nine digits is far from overflowing
    have hpow : 10 ^ (k + 1) ≤ 10 ^ 9 := Nat.pow_le_pow_right (by decide) hk
    have hbound : ∀ u < 10 ^ k, u * 10 + 9 < 2 ^ 32 := by
      intro u hu
      rw [pow_succ] at hpow
      omega
    rw [List.foldlM_append, Option.bind_eq_bind, Option.bind_eq_some_iff]
    constructor
    · rintro ⟨u, hu, hlast⟩
      obtain ⟨hlt, rfl⟩ := (ih u).mp hu
      have hlast' : digitStep u c = some v := by simpa using hlast
      obtain ⟨rfl, rfl⟩ := (digitStep_eq_some_iff (hbound u hlt)).mp hlast'
      exact ⟨by rw [pow_succ]; omega, rfl⟩
    · rintro ⟨hlt, hb⟩
      obtain ⟨rfl, hc⟩ := List.append_inj' hb rfl
      obtain rfl : c = UInt8.ofNat (48 + v % 10) := by simpa using hc
      have hquot : v / 10 < 10 ^ k := by
        rw [pow_succ] at hlt
        omega
      refine ⟨v / 10, (ih _).mpr ⟨hquot, rfl⟩, ?_⟩
      simpa using (digitStep_eq_some_iff (hbound _ hquot)).mpr ⟨rfl, rfl⟩

/-- A field of at most nine digits spells its number. -/
theorem parseU32Bytes_eq_some_iff {k : Nat} {b : Bytes} (hlen : b.length = k) (hk : 1 ≤ k ∧ k ≤ 9)
    (v : Nat) : parseU32Bytes b = some v ↔ v < 10 ^ k ∧ b = digits k v := by
  have hne : ¬b.isEmpty := by
    rw [List.isEmpty_iff_length_eq_zero]
    omega
  rw [parseU32Bytes, if_neg hne]
  exact foldlM_digitStep hk.2 hlen v

/-- The name of a month: three letters of the twelve names in a row. -/
def monthName (month : Nat) : Bytes :=
  (("JanFebMarAprMayJunJulAugSepOctNovDec".toList.drop (3 * (month - 1))).take 3).map fun c =>
    UInt8.ofNat c.toNat

theorem monthName_eq {month : Nat} (hlow : 1 ≤ month) (hhigh : month ≤ 12) :
    MONTH_NAMES[month - 1]? = some (monthName month) := by
  interval_cases month <;> rfl

theorem length_monthName {month : Nat} (hlow : 1 ≤ month) (hhigh : month ≤ 12) :
    (monthName month).length = 3 := by
  interval_cases month <;> rfl

theorem parseMonthName_eq_some_iff (b : Bytes) (month : Nat) :
    parseMonthName b = some month ↔ 1 ≤ month ∧ month ≤ 12 ∧ b = monthName month := by
  constructor
  · intro h
    obtain ⟨i, hi, rfl⟩ := Option.map_eq_some_iff.mp h
    rw [List.idxOf?, List.findIdx?_eq_some_iff_getElem] at hi
    obtain ⟨hlt, heq, -⟩ := hi
    have hname := monthName_eq (Nat.le_add_left 1 i) hlt
    rw [Nat.add_sub_cancel, List.getElem?_eq_getElem hlt] at hname
    exact ⟨Nat.le_add_left 1 i, hlt, (beq_iff_eq.mp heq).symm.trans (Option.some.inj hname)⟩
  · rintro ⟨hlow, hhigh, rfl⟩
    interval_cases month <;> rfl

/-! ## The parser -/

/-- `&b[lo..hi]`. -/
def field (b : Bytes) (lo hi : Nat) : Bytes := (b.drop lo).take (hi - lo)

/-- The bytes between the fields, at their fixed offsets; the length makes every offset valid. -/
def separated (b : Bytes) : Prop :=
  b.length = 29 ∧ (b.getD 3 0 = 44 ∧ b.getD 4 0 = 32) ∧
    (b.getD 7 0 = 32 ∧ b.getD 11 0 = 32 ∧ b.getD 16 0 = 32) ∧
    (b.getD 19 0 = 58 ∧ b.getD 22 0 = 58) ∧
    (b.getD 25 0 = 32 ∧ b.getD 26 0 = 71 ∧ b.getD 27 0 = 77 ∧ b.getD 28 0 = 84)

instance (b : Bytes) : Decidable (separated b) := inferInstanceAs (Decidable (_ ∧ _))

/-- `total_secs`. -/
def totalSecs (unixDays hour min sec : Nat) : Option Nat := do
  let total ← checkedMul 64 unixDays 86400
  let total ← checkedAdd 64 total (hour * 3600)
  let total ← checkedAdd 64 total (min * 60)
  checkedAdd 64 total sec

/-- The checks and the arithmetic behind the fields: seconds since the epoch. -/
def secondsOf (day month year hour min sec : Nat) : Option Nat :=
  if month = 0 ∨ month > 12 then none
  else if day = 0 ∨ day > daysInMonth year month then none
  else if hour > 23 ∨ min > 59 ∨ sec > 60 then none
  else do
    let unixDays ← daysFromCivil year month day
    totalSecs unixDays hour min sec

/-- `parse_imf_fixdate`, the time as its seconds since the epoch. -/
def parseImfFixdate (b : Bytes) : Option Nat :=
  if separated b then do
    let day ← parseU32Bytes (field b 5 7)
    let month ← parseMonthName (field b 8 11)
    let year ← parseU32Bytes (field b 12 16)
    let hour ← parseU32Bytes (field b 17 19)
    let min ← parseU32Bytes (field b 20 22)
    let sec ← parseU32Bytes (field b 23 25)
    secondsOf day month year hour min sec
  else none

/-! ## The text of a date -/

/-- The text with the given fields between the separators. -/
def layout (dow day month year hour min sec : Bytes) : Bytes :=
  dow ++ ([44, 32] ++ (day ++ ([32] ++ (month ++ ([32] ++ (year ++ ([32] ++ (hour ++ ([58] ++
    (min ++ ([58] ++ (sec ++ [32, 71, 77, 84]))))))))))))

/-- `???, DD Mon YYYY HH:MM:SS GMT`. -/
def imfFixdate (dow : Bytes) (day month year hour min sec : Nat) : Bytes :=
  layout dow (digits 2 day) (monthName month) (digits 4 year) (digits 2 hour) (digits 2 min)
    (digits 2 sec)

theorem length_field {b : Bytes} {lo hi : Nat} (h : hi ≤ b.length) :
    (field b lo hi).length = hi - lo := by
  rw [field, List.length_take, List.length_drop]
  omega

/-- A field in two parts. -/
theorem field_split (b : Bytes) (lo mid hi : Nat) (hlow : lo ≤ mid) (hhigh : mid ≤ hi) :
    field b lo hi = field b lo mid ++ field b mid hi := by
  unfold field
  rw [show b.drop mid = (b.drop lo).drop (mid - lo) by
      rw [List.drop_drop, Nat.add_sub_cancel' hlow],
    show hi - lo = (mid - lo) + (hi - mid) by omega, List.take_add]

/-- A field that starts with the separator at its first offset. -/
theorem field_cons {b : Bytes} {lo : Nat} (hi : Nat) {c : UInt8} (hlt : lo < b.length)
    (hle : lo + 1 ≤ hi) (h : b.getD lo 0 = c) : field b lo hi = c :: field b (lo + 1) hi := by
  have hone : field b lo (lo + 1) = [c] := by
    rw [field, Nat.add_sub_cancel_left, List.drop_eq_getElem_cons hlt, ← h,
      List.getD_eq_getElem?_getD, List.getElem?_eq_getElem hlt]
    rfl
  rw [field_split b lo (lo + 1) hi (Nat.le_succ lo) hle, hone]
  rfl

theorem field_self (b : Bytes) (i : Nat) : field b i i = [] := by
  rw [field, Nat.sub_self, List.take_zero]

/-- A text with the right separators is its fields between them. -/
theorem eq_layout {b : Bytes} (h : separated b) :
    b = layout (field b 0 3) (field b 5 7) (field b 8 11) (field b 12 16) (field b 17 19)
      (field b 20 22) (field b 23 25) := by
  obtain ⟨hlen, ⟨h3, h4⟩, ⟨h7, h11, h16⟩, ⟨h19, h22⟩, ⟨h25, h26, h27, h28⟩⟩ := h
  have hall : field b 0 29 = b := by
    rw [field, List.drop_zero, List.take_of_length_le (by omega)]
  have hsep : ∀ {i : Nat} {c : UInt8}, b.getD i 0 = c → i < 29 →
      field b i 29 = c :: field b (i + 1) 29 := by
    intro i c hc hi
    exact field_cons 29 (by omega) hi hc
  conv_lhs =>
    rw [← hall, field_split b 0 3 29 (by decide) (by decide), hsep h3 (by decide),
      hsep h4 (by decide), field_split b 5 7 29 (by decide) (by decide), hsep h7 (by decide),
      field_split b 8 11 29 (by decide) (by decide), hsep h11 (by decide),
      field_split b 12 16 29 (by decide) (by decide), hsep h16 (by decide),
      field_split b 17 19 29 (by decide) (by decide), hsep h19 (by decide),
      field_split b 20 22 29 (by decide) (by decide), hsep h22 (by decide),
      field_split b 23 25 29 (by decide) (by decide), hsep h25 (by decide),
      hsep h26 (by decide), hsep h27 (by decide), hsep h28 (by decide), field_self b 29]
  rfl

/-- The fields of such a text stand at their offsets. -/
theorem layout_fields {dow day month year hour min sec : Bytes} (hdow : dow.length = 3)
    (hday : day.length = 2) (hmonth : month.length = 3) (hyear : year.length = 4)
    (hhour : hour.length = 2) (hmin : min.length = 2) (hsec : sec.length = 2) :
    separated (layout dow day month year hour min sec) ∧
      field (layout dow day month year hour min sec) 5 7 = day ∧
      field (layout dow day month year hour min sec) 8 11 = month ∧
      field (layout dow day month year hour min sec) 12 16 = year ∧
      field (layout dow day month year hour min sec) 17 19 = hour ∧
      field (layout dow day month year hour min sec) 20 22 = min ∧
      field (layout dow day month year hour min sec) 23 25 = sec := by
  obtain ⟨w₀, w₁, w₂, rfl⟩ := List.length_eq_three.mp hdow
  obtain ⟨d₀, d₁, rfl⟩ := List.length_eq_two.mp hday
  obtain ⟨m₀, m₁, m₂, rfl⟩ := List.length_eq_three.mp hmonth
  obtain ⟨y₀, rest, rfl⟩ := List.exists_cons_of_length_eq_add_one hyear
  obtain ⟨y₁, y₂, y₃, rfl⟩ := List.length_eq_three.mp (Nat.succ.inj hyear)
  obtain ⟨h₀, h₁, rfl⟩ := List.length_eq_two.mp hhour
  obtain ⟨n₀, n₁, rfl⟩ := List.length_eq_two.mp hmin
  obtain ⟨s₀, s₁, rfl⟩ := List.length_eq_two.mp hsec
  exact ⟨⟨rfl, ⟨rfl, rfl⟩, ⟨rfl, rfl, rfl⟩, ⟨rfl, rfl⟩, ⟨rfl, rfl, rfl, rfl⟩⟩, rfl, rfl, rfl, rfl,
    rfl, rfl⟩

/-! ## What is accepted -/

/-- For a year of 32 bits nothing in the day count or the second count leaves 64 bits. -/
theorem civilDays_lt {y m d : Nat} (hy : y < 2 ^ 32) (hm : m ≤ 11) (hd : d ≤ 31) :
    civilDays y m d < 2 ^ 41 := by
  unfold civilDays
  dsimp only
  omega

theorem daysFromCivil_lt {year month day n : Nat} (hyear : year < 2 ^ 32) (hmonth : month ≤ 12)
    (hday : day ≤ 31) (h : daysFromCivil year month day = some n) : n < 2 ^ 41 := by
  obtain ⟨⟨y, m⟩, hmarch, hrest⟩ := Option.bind_eq_some_iff.mp h
  have hbounds : y < 2 ^ 32 ∧ m ≤ 11 := by
    obtain ⟨-, -, hnone⟩ | ⟨hle, -, hsome⟩ | ⟨-, hsome⟩ := marchBased_cases year month
    · rw [hnone] at hmarch
      cases hmarch
    · rw [hsome] at hmarch
      cases hmarch
      omega
    · rw [hsome] at hmarch
      cases hmarch
      omega
  have hlt := civilDays_lt hbounds.1 hbounds.2 hday
  dsimp only at hrest
  unfold checkedSub at hrest
  split_ifs at hrest with hearly hle
  have hn := Option.some.inj hrest
  omega

theorem totalSecs_eq {days hour min sec : Nat} (hdays : days < 2 ^ 41)
    (htime : ¬(hour > 23 ∨ min > 59 ∨ sec > 60)) :
    totalSecs days hour min sec = some (days * 86400 + hour * 3600 + min * 60 + sec) := by
  have hmul : checkedMul 64 days 86400 = some (days * 86400) := if_pos (by omega)
  have hadd : ∀ {a c : Nat}, a + c < 2 ^ 64 → checkedAdd 64 a c = some (a + c) :=
    fun h => if_pos h
  simp only [totalSecs, Option.bind_eq_bind]
  rw [hmul, Option.bind_some, hadd (by omega), Option.bind_some, hadd (by omega),
    Option.bind_some, hadd (by omega)]

theorem secondsOf_eq_some_iff {year : Nat} (hyear : year < 2 ^ 32)
    (day month hour min sec t : Nat) :
    secondsOf day month year hour min sec = some t ↔
      (⟨year, month, day⟩ : Date).Valid ∧ hour ≤ 23 ∧ min ≤ 59 ∧ sec ≤ 60 ∧
        ∃ days, daysFromCivil year month day = some days ∧
          t = 86400 * days + 3600 * hour + 60 * min + sec := by
  have hlong := Date.monthLength_le year month
  unfold secondsOf
  by_cases hmonth : month = 0 ∨ month > 12
  · rw [if_pos hmonth]
    refine iff_of_false (Option.some_ne_none t).symm ?_
    rintro ⟨⟨hlow, hhigh, -, -⟩, -⟩
    dsimp only at hlow hhigh
    omega
  rw [if_neg hmonth, daysInMonth_eq (by omega) (by omega)]
  by_cases hday : day = 0 ∨ day > monthLength year month
  · rw [if_pos hday]
    refine iff_of_false (Option.some_ne_none t).symm ?_
    rintro ⟨⟨-, -, hlow, hhigh⟩, -⟩
    dsimp only at hlow hhigh
    omega
  rw [if_neg hday]
  by_cases htime : hour > 23 ∨ min > 59 ∨ sec > 60
  · rw [if_pos htime]
    exact iff_of_false (Option.some_ne_none t).symm fun h => by omega
  rw [if_neg htime]
  have hvalid : (⟨year, month, day⟩ : Date).Valid :=
    ⟨by dsimp only; omega, by dsimp only; omega, by dsimp only; omega, by dsimp only; omega⟩
  cases hdays : daysFromCivil year month day with
  | none =>
    refine iff_of_false (Option.some_ne_none t).symm ?_
    rintro ⟨-, -, -, -, days, hsome, -⟩
    cases hsome
  | some days =>
    have hlt := daysFromCivil_lt hyear (by omega) (by omega) hdays
    rw [Option.bind_eq_bind, Option.bind_some, totalSecs_eq hlt (by omega), Option.some.injEq]
    constructor
    · intro h
      exact ⟨hvalid, by omega, by omega, by omega, days, rfl, by omega⟩
    · rintro ⟨-, -, -, -, days', hdays', ht⟩
      cases hdays'
      omega

/-- The parser accepts the texts whose numbers pass the checks behind the fields. -/
theorem parseImfFixdate_eq_some_iff (b : Bytes) (t : Nat) :
    parseImfFixdate b = some t ↔
      ∃ dow day month year hour min sec, dow.length = 3 ∧ year < 10000 ∧
        b = imfFixdate dow day month year hour min sec ∧
        secondsOf day month year hour min sec = some t := by
  constructor
  · intro h
    unfold parseImfFixdate at h
    split_ifs at h with hsep
    have hfield : ∀ {lo hi : Nat}, hi ≤ 29 → (field b lo hi).length = hi - lo :=
      fun hle => length_field (hsep.1.symm ▸ hle)
    obtain ⟨day, hday, h⟩ := Option.bind_eq_some_iff.mp h
    obtain ⟨month, hmonth, h⟩ := Option.bind_eq_some_iff.mp h
    obtain ⟨year, hyear, h⟩ := Option.bind_eq_some_iff.mp h
    obtain ⟨hour, hhour, h⟩ := Option.bind_eq_some_iff.mp h
    obtain ⟨min, hmin, h⟩ := Option.bind_eq_some_iff.mp h
    obtain ⟨sec, hsec, h⟩ := Option.bind_eq_some_iff.mp h
    have hday' := (parseU32Bytes_eq_some_iff (hfield (by decide)) (by decide) day).mp hday
    have hmonth' := (parseMonthName_eq_some_iff _ month).mp hmonth
    have hyear' := (parseU32Bytes_eq_some_iff (hfield (by decide)) (by decide) year).mp hyear
    have hhour' := (parseU32Bytes_eq_some_iff (hfield (by decide)) (by decide) hour).mp hhour
    have hmin' := (parseU32Bytes_eq_some_iff (hfield (by decide)) (by decide) min).mp hmin
    have hsec' := (parseU32Bytes_eq_some_iff (hfield (by decide)) (by decide) sec).mp hsec
    refine ⟨field b 0 3, day, month, year, hour, min, sec, hfield (by decide), hyear'.1, ?_, h⟩
    have hlayout := eq_layout hsep
    rw [hday'.2, hmonth'.2.2, hyear'.2, hhour'.2, hmin'.2, hsec'.2] at hlayout
    exact hlayout
  · rintro ⟨dow, day, month, year, hour, min, sec, hdow, hyear, rfl, h⟩
    obtain ⟨⟨hlow, hhigh, -, hlen⟩, hhour, hmin, hsec, -⟩ :=
      (secondsOf_eq_some_iff (by omega) _ _ _ _ _ _).mp h
    have hlong := Date.monthLength_le year month
    dsimp only at hlow hhigh hlen
    obtain ⟨hsep, h5, h8, h12, h17, h20, h23⟩ := layout_fields hdow (length_digits 2 day)
      (length_monthName hlow hhigh) (length_digits 4 year) (length_digits 2 hour)
      (length_digits 2 min) (length_digits 2 sec)
    have hnum : ∀ {k n : Nat}, 1 ≤ k ∧ k ≤ 9 → n < 10 ^ k → parseU32Bytes (digits k n) = some n :=
      fun hk hn => (parseU32Bytes_eq_some_iff (length_digits _ _) hk _).mpr ⟨hn, rfl⟩
    have hname : parseMonthName (monthName month) = some month :=
      (parseMonthName_eq_some_iff _ _).mpr ⟨hlow, hhigh, rfl⟩
    unfold parseImfFixdate imfFixdate
    rw [if_pos hsep, h5, h8, h12, h17, h20, h23, hname, hnum (by decide) (by omega),
      hnum (by decide) (by omega), hnum (by decide) (by omega), hnum (by decide) (by omega),
      hnum (by decide) (by omega)]
    exact h

/-- What is accepted, said without the day count. -/
theorem parseImfFixdate_iff (b : Bytes) (t : Nat) : parseImfFixdate b = some t ↔
    ∃ dow day month year hour min sec days, dow.length = 3 ∧
      b = imfFixdate dow day month year hour min sec ∧
      (⟨year, month, day⟩ : Date).Valid ∧ year < 10000 ∧
      hour ≤ 23 ∧ min ≤ 59 ∧ sec ≤ 60 ∧ Date.next^[days] EPOCH = ⟨year, month, day⟩ ∧
      t = 86400 * days + 3600 * hour + 60 * min + sec := by
  rw [parseImfFixdate_eq_some_iff]
  constructor
  · rintro ⟨dow, day, month, year, hour, min, sec, hdow, hyear, hb, h⟩
    obtain ⟨hdate, hhour, hmin, hsec, days, hdays, ht⟩ :=
      (secondsOf_eq_some_iff (by omega) _ _ _ _ _ _).mp h
    exact ⟨dow, day, month, year, hour, min, sec, days, hdow, hb, hdate, hyear, hhour, hmin,
      hsec, (daysFromCivil_eq_some_iff hdate days).mp hdays, ht⟩
  · rintro ⟨dow, day, month, year, hour, min, sec, days, hdow, hb, hdate, hyear, hhour, hmin,
      hsec, hdays, ht⟩
    exact ⟨dow, day, month, year, hour, min, sec, hdow, hyear, hb,
      (secondsOf_eq_some_iff (by omega) _ _ _ _ _ _).mpr ⟨hdate, hhour, hmin, hsec, days,
        (daysFromCivil_eq_some_iff hdate days).mpr hdays, ht⟩⟩

/-- **The day count and the parser.**  `days_in_month` is the length of the month, and for its days
`days_from_civil` is the number of steps of one calendar day from 1970-01-01, and `none` exactly
before it; `parse_imf_fixdate` accepts exactly the texts of 29 bytes `???, DD Mon YYYY HH:MM:SS GMT`
with a date of the calendar that such steps reach and a time in range, as that many seconds. -/
theorem fixdate_spec :
    (∀ year month : Nat, 1 ≤ month → month ≤ 12 →
      daysInMonth year month = monthLength year month) ∧
    (∀ year month day : Nat, 1 ≤ month → month ≤ 12 → 1 ≤ day → day ≤ daysInMonth year month →
      (∀ n, daysFromCivil year month day = some n ↔ Date.next^[n] EPOCH = ⟨year, month, day⟩) ∧
        (daysFromCivil year month day = none ↔ year < 1970)) ∧
    (∀ (b : Bytes) (t : Nat), parseImfFixdate b = some t ↔
      ∃ dow day month year hour min sec days, dow.length = 3 ∧
        b = imfFixdate dow day month year hour min sec ∧
        (⟨year, month, day⟩ : Date).Valid ∧ year < 10000 ∧
        hour ≤ 23 ∧ min ≤ 59 ∧ sec ≤ 60 ∧ Date.next^[days] EPOCH = ⟨year, month, day⟩ ∧
        t = 86400 * days + 3600 * hour + 60 * min + sec) := by
  refine ⟨fun year month => daysInMonth_eq, ?_, parseImfFixdate_iff⟩
  intro year month day hlow hhigh hday hlen
  rw [daysInMonth_eq hlow hhigh] at hlen
  have h : (⟨year, month, day⟩ : Date).Valid := ⟨hlow, hhigh, hday, hlen⟩
  refine ⟨daysFromCivil_eq_some_iff h, ?_, daysFromCivil_of_lt h⟩
  intro hnone
  by_contra hyear
  rw [daysFromCivil_of_le h (by omega)] at hnone
  cases hnone

end NgxOtel.Transport
