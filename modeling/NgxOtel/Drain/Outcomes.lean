import NgxOtel.Drain.Backoff
import Mathlib.Data.List.Induction
import Mathlib.Data.Nat.ModEq

/-!
# The deferral of a lane over whole outcome histories

Any sequence of verdicts, each with the clock at which it is judged, applied to one lane that starts
without a deferral.

* `streak` — the retryable verdicts since the last success, over the history alone.
* `prescribedDelay` — the documented delay: the peer's hint, or `250 · 2 ^ (c - 1)` ms up to 30 s.

## Results

* `backoffMs_saturated` — the guarded shift of `backoff_ms` on the saturating counter is the
  documented delay, for every streak.
* `shift_fits` — the guard lets no shift through that loses a bit.
* `outcome_history` — **the backoff state and the counters are functions of the history.**
-/

set_option autoImplicit false

namespace NgxOtel.Drain

open Word

/-- A verdict and the clock at which the policy is applied to it. -/
abbrev Judged := DeliveryOutcome × Nat

/-- One call of `apply_delivery_outcome`. -/
def judge (s : SignalBackoff × SelfMetrics) (v : Judged) : SignalBackoff × SelfMetrics :=
  (applyDeliveryOutcome v.1 s.1 v.2 s.2).2

/-- The lane after a history, from the default backoff state. -/
def applyOutcomes (m : SelfMetrics) (vs : List Judged) : SignalBackoff × SelfMetrics :=
  vs.foldl judge (.default, m)

/-! ## What a history prescribes -/

/-- The verdicts that clear a deferral. -/
def DeliveryOutcome.clears : DeliveryOutcome → Bool
  | .accepted | .partialReject _ => true
  | _ => false

def DeliveryOutcome.isRetryable : DeliveryOutcome → Bool
  | .retryable _ => true
  | _ => false

/-- The records that a verdict reports as rejected. -/
def DeliveryOutcome.rejected : DeliveryOutcome → Nat
  | .partialReject n => n
  | _ => 0

/-- The number of retryable verdicts since the last one that clears, or since the start. -/
def streak (vs : List Judged) : Nat :=
  (vs.reverse.takeWhile fun v => !v.1.clears).countP fun v => v.1.isRetryable

/-- The documented delay after the `c`-th retryable verdict in a row. -/
def prescribedDelay (retryAfter : Option Duration) (c : Nat) : Nat :=
  match retryAfter with
  | some hint => max 1 (min hint.asMillis U64_MAX)
  | none => min (250 * 2 ^ (c - 1)) 30000

@[simp] theorem applyOutcomes_nil (m : SelfMetrics) : applyOutcomes m [] = (.default, m) := rfl

theorem applyOutcomes_concat (m : SelfMetrics) (vs : List Judged) (v : Judged) :
    applyOutcomes m (vs ++ [v]) = judge (applyOutcomes m vs) v := by
  simp [applyOutcomes]

theorem streak_concat (vs : List Judged) (v : Judged) :
    streak (vs ++ [v]) =
      if v.1.clears then 0 else streak vs + if v.1.isRetryable then 1 else 0 := by
  by_cases hclears : v.1.clears
  · simp [streak, hclears]
  · simp [streak, hclears, List.countP_cons]

/-! ## The delay -/

/-- The guard of `backoff_ms` keeps every bit of the shifted base. -/
theorem shift_fits {base shift : Nat} (hbase : base ≠ 0) (hguard : shift < leadingZeros base) :
    shift < 64 ∧ base <<< shift < 2 ^ 64 := by
  rw [leadingZeros, if_neg hbase] at hguard
  have hlog : base < 2 ^ (Nat.log2 base + 1) := Nat.lt_log2_self
  refine ⟨by omega, ?_⟩
  rw [Nat.shiftLeft_eq]
  calc base * 2 ^ shift < 2 ^ (Nat.log2 base + 1) * 2 ^ shift :=
        Nat.mul_lt_mul_of_pos_right hlog (Nat.two_pow_pos shift)
    _ = 2 ^ (Nat.log2 base + 1 + shift) := (pow_add 2 _ _).symm
    _ ≤ 2 ^ 64 := Nat.pow_le_pow_right (by decide) (by omega)

theorem leadingZeros_base : leadingZeros BACKOFF_BASE_MS = 56 := by decide

/-- Past the cap the exact power no longer matters. -/
theorem capped_of_le {c : Nat} (hc : 8 ≤ c - 1) : min (250 * 2 ^ (c - 1)) 30000 = 30000 := by
  have hpow : 2 ^ 8 ≤ 2 ^ (c - 1) := Nat.pow_le_pow_right (by decide) hc
  omega

theorem backoffMs_eq (n : Nat) :
    backoffMs n BACKOFF_BASE_MS BACKOFF_CAP_MS = min (250 * 2 ^ (n - 1)) 30000 := by
  unfold backoffMs
  rw [if_neg (by decide), leadingZeros_base]
  simp only [BACKOFF_BASE_MS, BACKOFF_CAP_MS, Nat.shiftLeft_eq]
  split
  · rename_i hguard
    exact (capped_of_le (by omega)).symm
  · rfl

/-- A saturated counter prescribes the same delay as the streak it stands for. -/
theorem backoffMs_saturated (c : Nat) :
    backoffMs (min c U32_MAX) BACKOFF_BASE_MS BACKOFF_CAP_MS = min (250 * 2 ^ (c - 1)) 30000 := by
  rw [backoffMs_eq]
  rcases Nat.le_total c U32_MAX with hle | hle
  · rw [Nat.min_eq_left hle]
  · have hbig : 8 ≤ U32_MAX - 1 := by decide
    rw [Nat.min_eq_right hle, capped_of_le hbig, capped_of_le (by omega)]

/-! ## One verdict, then a history -/

/-- The counter of the lane is the streak, saturated. -/
theorem consecutiveRetryable_eq (m : SelfMetrics) (vs : List Judged) :
    (applyOutcomes m vs).1.consecutiveRetryable = min (streak vs) U32_MAX := by
  induction vs using List.reverseRecOn with
  | nil => rfl
  | append_singleton vs v ih =>
    obtain ⟨verdict, now⟩ := v
    rw [applyOutcomes_concat, streak_concat]
    cases verdict with
    | accepted => rfl
    | partialReject rejected => rfl
    | retryable retryAfter =>
      simp only [judge, applyDeliveryOutcome, SignalBackoff.defer, ih, DeliveryOutcome.clears,
        DeliveryOutcome.isRetryable, Bool.false_eq_true, if_false, if_true]
      omega
    | permanent => exact ih
    | unauthorized => exact ih

/-- The deadline that a retryable verdict sets after a history. -/
theorem notBeforeMsec_retryable (m : SelfMetrics) (vs : List Judged) (retryAfter : Option Duration)
    (now : Nat) :
    (applyOutcomes m (vs ++ [(.retryable retryAfter, now)])).1.notBeforeMsec =
      min (max 1 (now + prescribedDelay retryAfter (streak vs + 1))) U64_MAX := by
  have hcounter : min ((applyOutcomes m vs).1.consecutiveRetryable + 1) U32_MAX =
      min (streak vs + 1) U32_MAX := by
    rw [consecutiveRetryable_eq]
    omega
  have hdelay : (applyOutcomes m vs).1.deferral retryAfter =
      prescribedDelay retryAfter (streak vs + 1) := by
    unfold SignalBackoff.deferral deferMs prescribedDelay
    cases retryAfter with
    | some hint => exact Nat.max_comm _ _
    | none => rw [hcounter, backoffMs_saturated]
  rw [applyOutcomes_concat]
  simp only [judge, applyDeliveryOutcome, SignalBackoff.defer, hdelay]
  have hmax : 1 ≤ U64_MAX := by decide
  omega

/-- Both fields stay machine words. -/
theorem applyOutcomes_fits (m : SelfMetrics) (vs : List Judged) :
    (applyOutcomes m vs).1.notBeforeMsec ≤ U64_MAX ∧
      (applyOutcomes m vs).1.consecutiveRetryable ≤ U32_MAX := by
  refine ⟨?_, by rw [consecutiveRetryable_eq]; exact Nat.min_le_right _ _⟩
  induction vs using List.reverseRecOn with
  | nil => exact Nat.zero_le _
  | append_singleton vs v ih =>
    obtain ⟨verdict, now⟩ := v
    cases verdict with
    | retryable retryAfter =>
      rw [notBeforeMsec_retryable]
      exact Nat.min_le_right _ _
    | accepted => rw [applyOutcomes_concat]; exact Nat.zero_le _
    | partialReject rejected => rw [applyOutcomes_concat]; exact Nat.zero_le _
    | permanent => rw [applyOutcomes_concat]; exact ih
    | unauthorized => rw [applyOutcomes_concat]; exact ih

/-- What a history adds to the three delivery-outcome counters. -/
structure Counted (m m' : SelfMetrics) (vs : List Judged) : Prop where
  partialRejected : m'.partialRejected ≡
    m.partialRejected + (vs.map fun v => v.1.rejected).sum [MOD 2 ^ 64]
  permanentRejected : m'.permanentRejected ≡
    m.permanentRejected + vs.countP (fun v => v.1 = .permanent) [MOD 2 ^ 64]
  unauthorizedRejected : m'.unauthorizedRejected ≡
    m.unauthorizedRejected + vs.countP (fun v => v.1 = .unauthorized) [MOD 2 ^ 64]

/-- Adding to a wrapped counter adds to what it stands for. -/
theorem addW_modEq {a b c : Nat} (h : a ≡ b [MOD 2 ^ 64]) :
    addW 64 a c ≡ b + c [MOD 2 ^ 64] :=
  (Nat.mod_modEq (a + c) (2 ^ 64)).trans (h.add_right c)

theorem counted_applyOutcomes (m : SelfMetrics) (vs : List Judged) :
    Counted m (applyOutcomes m vs).2 vs := by
  induction vs using List.reverseRecOn with
  | nil => exact ⟨rfl, rfl, rfl⟩
  | append_singleton vs v ih =>
    obtain ⟨verdict, now⟩ := v
    obtain ⟨hrejected, hpermanent, hunauthorized⟩ := ih
    rw [applyOutcomes_concat]
    -- each verdict adds to the counter of its own kind and leaves the other two alone
    cases verdict with
    | accepted =>
      constructor <;> simpa [judge, applyDeliveryOutcome, DeliveryOutcome.rejected]
    | partialReject rejected =>
      constructor
      · simpa [judge, applyDeliveryOutcome, DeliveryOutcome.rejected, Nat.add_assoc]
          using addW_modEq (c := rejected) hrejected
      · simpa [judge, applyDeliveryOutcome]
      · simpa [judge, applyDeliveryOutcome]
    | retryable retryAfter =>
      constructor <;> simpa [judge, applyDeliveryOutcome, DeliveryOutcome.rejected]
    | permanent =>
      constructor
      · simpa [judge, applyDeliveryOutcome, DeliveryOutcome.rejected]
      · simpa [judge, applyDeliveryOutcome, Nat.add_assoc] using addW_modEq (c := 1) hpermanent
      · simpa [judge, applyDeliveryOutcome]
    | unauthorized =>
      constructor
      · simpa [judge, applyDeliveryOutcome, DeliveryOutcome.rejected]
      · simpa [judge, applyDeliveryOutcome]
      · simpa [judge, applyDeliveryOutcome, Nat.add_assoc] using addW_modEq (c := 1) hunauthorized

/-- What the policy does with the next verdict, after any history. -/
structure Prescribed (m : SelfMetrics) (vs : List Judged) (now : Nat) : Prop where
  retryable : ∀ retryAfter : Option Duration,
    (applyOutcomes m (vs ++ [(.retryable retryAfter, now)])).1.notBeforeMsec =
      min (max 1 (now + prescribedDelay retryAfter
        (streak (vs ++ [(.retryable retryAfter, now)])))) U64_MAX
  accepted : (applyOutcomes m (vs ++ [(.accepted, now)])).1 = .default
  partialReject : ∀ rejected : Nat,
    (applyOutcomes m (vs ++ [(.partialReject rejected, now)])).1 = .default
  permanent : (applyOutcomes m (vs ++ [(.permanent, now)])).1 = (applyOutcomes m vs).1
  unauthorized : (applyOutcomes m (vs ++ [(.unauthorized, now)])).1 = (applyOutcomes m vs).1

/-- **The deferral follows the documented rule after every history**, with nothing that overflows:
the fields are saturated words, and a shift that the guard lets through keeps all its bits. -/
theorem outcome_history (m : SelfMetrics) (vs : List Judged) (now : Nat) :
    Prescribed m vs now ∧ Counted m (applyOutcomes m vs).2 vs ∧
      (applyOutcomes m vs).1.notBeforeMsec < 2 ^ 64 ∧
      (applyOutcomes m vs).1.consecutiveRetryable < 2 ^ 32 ∧
      ((applyOutcomes m vs).1.consecutiveRetryable - 1 < leadingZeros BACKOFF_BASE_MS →
        (applyOutcomes m vs).1.consecutiveRetryable - 1 < 64 ∧
        BACKOFF_BASE_MS <<< ((applyOutcomes m vs).1.consecutiveRetryable - 1) < 2 ^ 64) := by
  obtain ⟨hdeadline, hcounter⟩ := applyOutcomes_fits m vs
  have h64 : U64_MAX < 2 ^ 64 := by decide
  have h32 : U32_MAX < 2 ^ 32 := by decide
  refine ⟨?_, counted_applyOutcomes m vs, by omega, by omega, shift_fits (by decide)⟩
  constructor
  · intro retryAfter
    rw [notBeforeMsec_retryable, streak_concat]
    rfl
  · rw [applyOutcomes_concat]; rfl
  · intro rejected
    rw [applyOutcomes_concat]; rfl
  · rw [applyOutcomes_concat]; rfl
  · rw [applyOutcomes_concat]; rfl

/-- Three failures in a row defer the lane by 250, 500 and 1000 ms; a success clears it. -/
example : ((applyOutcomes .zero [(.retryable none, 10), (.retryable none, 300),
    (.retryable none, 900)]).1.notBeforeMsec, (applyOutcomes .zero [(.retryable none, 10),
    (.accepted, 20)]).1.notBeforeMsec) = (1900, 0) := by decide

end NgxOtel.Drain
