import NgxOtel.Coalesce.Interleaving
import Mathlib.Tactic.SplitIfs

/-!
# One slot of the coalescer under a racing sweep

`drain_coalesce_table` empties a slot in four accesses, the count first, then the key, the severity
and the sample flag, while the writer matches, counts and inserts.

## Model

* `View` — what the two sides see of one slot: its fields, its ledger, and how far each of them has
  got with it.
* `View.Step` — what a move can do to a slot when no count and no clear of it comes late.

## Results

* `Ledger.step` — how many calls of a slot can be missing: each sweep that has swapped it allows for
  one.
* `Marks.step` — which fields of an occupied slot the inserting call has set.
* `view_step` — **a move of the table that is in time does one of the listed things to every
  slot.**
-/

set_option autoImplicit false

namespace NgxOtel.Coalesce

open Word LinearProbe

/-! ## How far the two sides have got with a slot -/

/-- What the writer does next to a slot. -/
inductive Writing where
  | away
  /-- The key has matched, the count is not yet added. -/
  | matched
  /-- The slot was empty, its key is stored next. -/
  | keyDue
  | severityDue (severity : UInt8)
  | countDue
  | sampleDue
  deriving DecidableEq

/-- The key is stored, the other fields are not all. -/
def Writing.inserting : Writing → Bool
  | .severityDue _ | .countDue | .sampleDue => true
  | _ => false

/-- The key is stored, the severity is not. -/
def Writing.unlabelled : Writing → Bool
  | .severityDue _ => true
  | _ => false

/-- The key is stored, the count is not. -/
def Writing.uncounted : Writing → Bool
  | .severityDue _ | .countDue => true
  | _ => false

theorem Writing.inserting_of_unlabelled {w : Writing} (h : w.unlabelled = true) :
    w.inserting = true := by
  cases w with
  | severityDue severity => rfl
  | _ => cases h

def Writer.stage (i : Fin COALESCE_CAPACITY) : Writer → Writing
  | .idle | .loadKey .. | .resample .. => .away
  | .loadSeverity _ probe _ | .loadSample _ probe | .addCount _ probe _ =>
    if probe = i then .matched else .away
  | .storeKey _ probe => if probe = i then .keyDue else .away
  | .storeSeverity t probe => if probe = i then .severityDue t.severity else .away
  | .storeCount _ probe => if probe = i then .countDue else .away
  | .storeSample _ probe => if probe = i then .sampleDue else .away

/-- What the drainer does next to a slot. -/
inductive Sweeping where
  /-- The visit of this call is still to come. -/
  | due
  /-- A key was found, the count is swapped next. -/
  | opened
  /-- The count is swapped out, the key is not yet cleared. -/
  | evicting
  | severityDue
  | sampleDue
  | done
  deriving DecidableEq

def Visit.stage : Visit → Sweeping
  | .loadKey => .due
  | .swapCount => .opened
  | .reloadKey _ | .loadSeverity .. | .clearKey _ => .evicting
  | .clearSeverity _ => .severityDue
  | .clearSample _ => .sampleDue

def Drainer.stage (i : Fin COALESCE_CAPACITY) : Drainer → Sweeping
  | .idle => .done
  | .visiting j visit _ => if j < i then .due else if j = i then visit.stage else .done

/-! ## One slot of the table -/

/-- What the two sides see of one slot. -/
structure View where
  slot : CoalesceSlot
  writing : Writing
  sweeping : Sweeping
  drains : Nat
  writes : Nat
  reported : Nat
  inserter : UInt8

def Race.view (s : Race) (i : Fin COALESCE_CAPACITY) : View :=
  ⟨s.table i, s.writer.stage i, s.drainer.stage i, s.drains, s.writes i, s.reported i,
    s.inserter i⟩

/-- A late count: the slot has been reported, or emptied, and has counted since. -/
def View.CountsLate (v : View) : Prop :=
  (v.sweeping = .evicting ∨ v.slot.keyHash = 0) ∧ v.slot.count ≠ 0

/-- What a move can do to one slot, when no count and no clear of it comes late. -/
inductive View.Step (v : View) : View → Prop where
  | stay : Step v v
  | foundEmpty (hw : v.writing = .away) (hkey : v.slot.keyHash = 0) :
      Step v { v with writing := .keyDue }
  | foundKey (hw : v.writing = .away) (hkey : v.slot.keyHash ≠ 0) :
      Step v { v with writing := .matched }
  | otherSeverity (hw : v.writing = .matched) : Step v { v with writing := .away }
  | addCount (hw : v.writing = .matched) (hlate : ¬v.CountsLate) :
      Step v { v with
        slot := { v.slot with count := v.slot.count + 1 }
        writing := .away
        writes := v.writes + 1 }
  | resample (hw : v.writing = .away) :
      Step v { v with slot := { v.slot with sampleEmitted := true } }
  | storeKey (t : Template) (hw : v.writing = .keyDue) :
      Step v { v with
        slot := { v.slot with keyHash := t.key }
        writing := .severityDue t.severity
        inserter := t.severity }
  | storeSeverity (severity : UInt8) (hw : v.writing = .severityDue severity) :
      Step v { v with
        slot := { v.slot with severity := severity }
        writing := .countDue }
  | storeCount (hw : v.writing = .countDue) :
      Step v { v with
        slot := { v.slot with count := 1 }
        writing := .sampleDue
        writes := v.writes + 1 }
  | storeSample (hw : v.writing = .sampleDue) :
      Step v { v with
        slot := { v.slot with sampleEmitted := true }
        writing := .away }
  | beginDrain (hd : v.sweeping = .done) :
      Step v { v with
        sweeping := .due
        drains := v.drains + 1 }
  | skip (hd : v.sweeping = .due) (hkey : v.slot.keyHash = 0) : Step v { v with sweeping := .done }
  | openSlot (hd : v.sweeping = .due) (hkey : v.slot.keyHash ≠ 0) :
      Step v { v with sweeping := .opened }
  | swapCount (hd : v.sweeping = .opened) :
      Step v { v with
        slot := { v.slot with count := 0 }
        sweeping := .evicting
        reported := v.reported + v.slot.count }
  | clearKey (hd : v.sweeping = .evicting) :
      Step v { v with
        slot := { v.slot with keyHash := 0 }
        sweeping := .severityDue }
  | clearSeverity (hd : v.sweeping = .severityDue)
      (hlate : v.slot.keyHash = 0 ∨ v.writing.unlabelled = true) :
      Step v { v with
        slot := { v.slot with severity := 0 }
        sweeping := .sampleDue }
  | clearSample (hd : v.sweeping = .sampleDue)
      (hlate : v.slot.keyHash = 0 ∨ v.writing.inserting = true) :
      Step v { v with
        slot := { v.slot with sampleEmitted := false }
        sweeping := .done }

/-! ## The ledger of a slot -/

/-- What the slot counts while it is occupied. -/
def View.held (v : View) : Nat := if v.slot.keyHash = 0 then 0 else v.slot.count

/-- The last drain call that has begun has not yet swapped this slot. -/
def View.owed (v : View) : Nat := if v.sweeping = .due ∨ v.sweeping = .opened then 1 else 0

/-- **The ledger of a slot.**  A call is missing when it has written the count and is neither
reported nor held; each sweep that has swapped the slot allows for one. -/
structure Ledger (v : View) : Prop where
  keyDue_empty : v.writing = .keyDue → v.slot.keyHash = 0
  swept_occupied : v.sweeping = .opened ∨ v.sweeping = .evicting → v.slot.keyHash ≠ 0
  bound : v.writes + v.owed ≤ v.reported + v.held + v.drains
  /-- Between the swap and the clear the allowance of this sweep is not used up. -/
  evicting : v.sweeping = .evicting →
    v.slot.count ≤ 1 ∧ v.writes + 1 ≤ v.reported + v.slot.count + v.drains
  /-- An empty slot has counted at most one late call. -/
  emptied : v.slot.keyHash = 0 → v.slot.count ≤ 1
  /-- A call that still has to count in an emptied slot has an allowance. -/
  emptied_pending : v.slot.keyHash = 0 → v.writing = .matched ∨ v.writing.uncounted = true →
    v.writes + 1 + v.owed ≤ v.reported + v.slot.count + v.drains
  /-- A count that an insertion is about to overwrite is already missing. -/
  uncounted : v.writing.uncounted = true → v.writes + v.owed ≤ v.reported + v.drains
  uncounted_swept : v.writing.uncounted = true →
    v.slot.keyHash = 0 ∨ v.sweeping = .evicting → v.slot.count = 0

section Ledger

variable {v : View}

theorem held_of_empty (hkey : v.slot.keyHash = 0) : v.held = 0 := if_pos hkey

theorem held_of_occupied (hkey : v.slot.keyHash ≠ 0) : v.held = v.slot.count := if_neg hkey

/-- A move that leaves key, count and ledger alone, and brings nobody closer to the count. -/
theorem Ledger.quiet {v' : View} (h : Ledger v)
    (hsame : v'.slot.keyHash = v.slot.keyHash ∧ v'.slot.count = v.slot.count ∧
      v'.drains = v.drains ∧ v'.writes = v.writes ∧ v'.reported = v.reported)
    (howed : v'.owed ≤ v.owed)
    (hkeyDue : v'.writing = .keyDue → v.slot.keyHash = 0)
    (hswept : v'.sweeping = .opened ∨ v'.sweeping = .evicting → v.slot.keyHash ≠ 0)
    (hevicting : v'.sweeping = .evicting → v.sweeping = .evicting)
    (huncounted : v'.writing.uncounted = true → v.writing.uncounted = true)
    (hmatched : v.slot.keyHash = 0 → v'.writing = .matched → v.writing = .matched) :
    Ledger v' := by
  obtain ⟨hkey, hcount, hdrains, hwrites, hreported⟩ := hsame
  have hheld : v'.held = v.held := by rw [View.held, View.held, hkey, hcount]
  constructor
  · rwa [hkey]
  · rwa [hkey]
  · have := h.bound
    omega
  · intro he
    rw [hcount, hwrites, hreported, hdrains]
    exact h.evicting (hevicting he)
  · rw [hkey, hcount]
    exact h.emptied
  · intro hempty hpending
    rw [hkey] at hempty
    have := h.emptied_pending hempty (hpending.imp (hmatched hempty) huncounted)
    omega
  · intro hu
    have := h.uncounted (huncounted hu)
    omega
  · intro hu hlate
    rw [hkey] at hlate
    rw [hcount]
    exact h.uncounted_swept (huncounted hu) (hlate.imp_right hevicting)

/-- One more count: held by an occupied slot, or the one that an emptied slot may miss. -/
theorem Ledger.addCount (h : Ledger v) (hw : v.writing = .matched) (hlate : ¬v.CountsLate) :
    Ledger { v with
      slot := { v.slot with count := v.slot.count + 1 }
      writing := .away
      writes := v.writes + 1 } := by
  have hzero : v.sweeping = .evicting ∨ v.slot.keyHash = 0 → v.slot.count = 0 := by
    intro hswept
    by_contra hcount
    exact hlate ⟨hswept, hcount⟩
  constructor
  · nofun
  · exact h.swept_occupied
  · show v.writes + 1 + v.owed ≤
      v.reported + (if v.slot.keyHash = 0 then 0 else v.slot.count + 1) + v.drains
    by_cases hkey : v.slot.keyHash = 0
    · have := h.emptied_pending hkey (.inl hw)
      have := hzero (.inr hkey)
      rw [if_pos hkey]
      omega
    · have := h.bound
      rw [held_of_occupied hkey] at this
      rw [if_neg hkey]
      omega
  · intro he
    have := h.evicting he
    have := hzero (.inl he)
    constructor <;> simp only <;> omega
  · intro hkey
    have := hzero (.inr hkey)
    simp only
    omega
  · nofun
  · nofun
  · nofun

/-- The key makes the slot hold what is left in its count, all of it missing before. -/
theorem Ledger.storeKey (h : Ledger v) (t : Template) (hw : v.writing = .keyDue) :
    Ledger { v with
      slot := { v.slot with keyHash := t.key }
      writing := .severityDue t.severity
      inserter := t.severity } := by
  have hkey := h.keyDue_empty hw
  have hbound : v.writes + v.owed ≤ v.reported + v.drains := by
    have := h.bound
    rw [held_of_empty hkey] at this
    omega
  have hnot : v.sweeping ≠ .evicting := fun he => h.swept_occupied (.inr he) hkey
  constructor
  · nofun
  · exact fun _ => t.key_ne_zero
  · show v.writes + v.owed ≤ v.reported + (if t.key = 0 then 0 else v.slot.count) + v.drains
    rw [if_neg t.key_ne_zero]
    omega
  · exact fun he => absurd he hnot
  · exact fun hzero => absurd hzero t.key_ne_zero
  · exact fun hzero => absurd hzero t.key_ne_zero
  · exact fun _ => hbound
  · exact fun _ hlate => hlate.elim (absurd · t.key_ne_zero) (absurd · hnot)

/-- The count of an insertion overwrites only what is already missing. -/
theorem Ledger.storeCount (h : Ledger v) (hw : v.writing = .countDue) :
    Ledger { v with
      slot := { v.slot with count := 1 }
      writing := .sampleDue
      writes := v.writes + 1 } := by
  have hu : v.writing.uncounted = true := by rw [hw]; rfl
  constructor
  · nofun
  · exact h.swept_occupied
  · show v.writes + 1 + v.owed ≤ v.reported + (if v.slot.keyHash = 0 then 0 else 1) + v.drains
    by_cases hkey : v.slot.keyHash = 0
    · have hpending := h.emptied_pending hkey (.inr hu)
      rw [h.uncounted_swept hu (.inl hkey)] at hpending
      rw [if_pos hkey]
      omega
    · have hmissing := h.uncounted hu
      rw [if_neg hkey]
      omega
  · intro he
    have hallowed := (h.evicting he).2
    rw [h.uncounted_swept hu (.inr he)] at hallowed
    show 1 ≤ 1 ∧ v.writes + 1 + 1 ≤ v.reported + 1 + v.drains
    omega
  · exact fun _ => Nat.le_refl 1
  · nofun
  · nofun
  · nofun

/-- A new drain call allows for one more missing call, once it has swapped the slot. -/
theorem Ledger.beginDrain (h : Ledger v) (hd : v.sweeping = .done) :
    Ledger { v with
      sweeping := .due
      drains := v.drains + 1 } := by
  have howed : v.owed = 0 := if_neg (by simp [hd])
  constructor
  · exact h.keyDue_empty
  · nofun
  · show v.writes + 1 ≤ v.reported + v.held + (v.drains + 1)
    have := h.bound
    omega
  · nofun
  · exact h.emptied
  · intro hkey hpending
    show v.writes + 1 + 1 ≤ v.reported + v.slot.count + (v.drains + 1)
    have := h.emptied_pending hkey hpending
    omega
  · intro hu
    show v.writes + 1 ≤ v.reported + (v.drains + 1)
    have := h.uncounted hu
    omega
  · exact fun hu hlate => h.uncounted_swept hu (.inl (hlate.resolve_right nofun))

/-- What is held goes to the drainer, and this sweep allows for one missing call from now on. -/
theorem Ledger.swapCount (h : Ledger v) (hd : v.sweeping = .opened) :
    Ledger { v with
      slot := { v.slot with count := 0 }
      sweeping := .evicting
      reported := v.reported + v.slot.count } := by
  have hkey : v.slot.keyHash ≠ 0 := h.swept_occupied (.inl hd)
  have howed : v.owed = 1 := if_pos (.inr hd)
  have hallowed : v.writes + 1 ≤ v.reported + v.slot.count + v.drains := by
    have := h.bound
    rw [held_of_occupied hkey] at this
    omega
  constructor
  · exact h.keyDue_empty
  · exact fun _ => hkey
  · show v.writes + 0 ≤ v.reported + v.slot.count + (if v.slot.keyHash = 0 then 0 else 0) + v.drains
    omega
  · exact fun _ => ⟨Nat.zero_le 1, hallowed⟩
  · exact fun _ => Nat.zero_le 1
  · exact fun hzero => absurd hzero hkey
  · intro _
    show v.writes + 0 ≤ v.reported + v.slot.count + v.drains
    omega
  · exact fun _ _ => rfl

/-- The key takes away at most the one call that has counted since the swap. -/
theorem Ledger.clearKey (h : Ledger v) (hd : v.sweeping = .evicting) :
    Ledger { v with
      slot := { v.slot with keyHash := 0 }
      sweeping := .severityDue } := by
  obtain ⟨hcount, hallowed⟩ := h.evicting hd
  constructor
  · exact fun _ => rfl
  · nofun
  · show v.writes + 0 ≤ v.reported + 0 + v.drains
    omega
  · nofun
  · exact fun _ => hcount
  · exact fun _ _ => hallowed
  · intro _
    show v.writes + 0 ≤ v.reported + v.drains
    omega
  · exact fun hu _ => h.uncounted_swept hu (.inr hd)

/-- **A move keeps the ledger of a slot.** -/
theorem Ledger.step {v' : View} (h : Ledger v) (hstep : View.Step v v') : Ledger v' := by
  have hsame : v.slot.keyHash = v.slot.keyHash ∧ v.slot.count = v.slot.count ∧
      v.drains = v.drains ∧ v.writes = v.writes ∧ v.reported = v.reported :=
    ⟨rfl, rfl, rfl, rfl, rfl⟩
  cases hstep with
  | stay => exact h
  | foundEmpty hw hkey =>
    exact h.quiet hsame le_rfl (fun _ => hkey) h.swept_occupied id nofun nofun
  | foundKey hw hkey =>
    exact h.quiet hsame le_rfl nofun h.swept_occupied id nofun (fun hzero => absurd hzero hkey)
  | otherSeverity hw => exact h.quiet hsame le_rfl nofun h.swept_occupied id nofun nofun
  | addCount hw hlate => exact h.addCount hw hlate
  | resample hw =>
    exact h.quiet hsame le_rfl h.keyDue_empty h.swept_occupied id id (fun _ => id)
  | storeKey t hw => exact h.storeKey t hw
  | storeSeverity severity hw =>
    exact h.quiet hsame le_rfl nofun h.swept_occupied id (fun _ => by rw [hw]; rfl) nofun
  | storeCount hw => exact h.storeCount hw
  | storeSample hw => exact h.quiet hsame le_rfl nofun h.swept_occupied id nofun nofun
  | beginDrain hd => exact h.beginDrain hd
  | skip hd hkey =>
    exact h.quiet hsame (Nat.zero_le _) h.keyDue_empty nofun nofun id (fun _ => id)
  | openSlot hd hkey =>
    exact h.quiet hsame (by simp [View.owed, hd]) h.keyDue_empty (fun _ => hkey) nofun id
      (fun _ => id)
  | swapCount hd => exact h.swapCount hd
  | clearKey hd => exact h.clearKey hd
  | clearSeverity hd hlate =>
    exact h.quiet hsame (Nat.zero_le _) h.keyDue_empty nofun nofun id (fun _ => id)
  | clearSample hd hlate =>
    exact h.quiet hsame (Nat.zero_le _) h.keyDue_empty nofun nofun id (fun _ => id)

end Ledger

/-! ## The marks of a slot -/

/-- **The marks of a slot**: what the inserting call has stored is there while the slot is
occupied. -/
structure Marks (v : View) : Prop where
  severity : v.slot.keyHash ≠ 0 →
    v.slot.severity = v.inserter ∨ v.writing.unlabelled = true
  inserter : ∀ severity, v.writing = .severityDue severity → v.inserter = severity
  sample : v.slot.keyHash ≠ 0 → v.slot.sampleEmitted = true ∨ v.writing.inserting = true

/-- A slot whose insertion has finished is fully marked. -/
theorem Marks.settled {v : View} (h : Marks v) (hw : v.writing.inserting = false)
    (hkey : v.slot.keyHash ≠ 0) :
    v.slot.severity = v.inserter ∧ v.slot.sampleEmitted = true := by
  constructor
  · refine (h.severity hkey).resolve_right fun hdue => ?_
    exact Bool.eq_false_iff.mp hw (Writing.inserting_of_unlabelled hdue)
  · exact (h.sample hkey).resolve_right (Bool.eq_false_iff.mp hw)

/-- **A move keeps the marks of a slot.** -/
theorem Marks.step {v v' : View} (h : Marks v) (hstep : View.Step v v') : Marks v' := by
  -- before the key is stored and after the last store the slot is settled
  have hsettled := h.settled
  cases hstep with
  | stay => exact h
  | foundEmpty hw hkey => exact ⟨(absurd hkey ·), nofun, (absurd hkey ·)⟩
  | foundKey hw hkey =>
    obtain ⟨hseverity, hsample⟩ := hsettled (by rw [hw]; rfl) hkey
    exact ⟨fun _ => .inl hseverity, nofun, fun _ => .inl hsample⟩
  | otherSeverity hw =>
    have hsettled := hsettled (by rw [hw]; rfl)
    exact ⟨fun hkey => .inl (hsettled hkey).1, nofun, fun hkey => .inl (hsettled hkey).2⟩
  | addCount hw hlate =>
    have hsettled := hsettled (by rw [hw]; rfl)
    exact ⟨fun hkey => .inl (hsettled hkey).1, nofun, fun hkey => .inl (hsettled hkey).2⟩
  | resample hw => exact ⟨h.severity, h.inserter, fun _ => .inl rfl⟩
  | storeKey t hw => exact ⟨fun _ => .inr rfl, fun _ => Writing.severityDue.inj, fun _ => .inr rfl⟩
  | storeSeverity severity hw =>
    exact ⟨fun _ => .inl (h.inserter severity hw).symm, nofun, fun _ => .inr rfl⟩
  | storeCount hw =>
    refine ⟨fun hkey => .inl ((h.severity hkey).resolve_right ?_), nofun, fun _ => .inr rfl⟩
    rw [hw]
    nofun
  | storeSample hw =>
    refine ⟨fun hkey => .inl ((h.severity hkey).resolve_right ?_), nofun, fun _ => .inl rfl⟩
    rw [hw]
    nofun
  | beginDrain hd => exact ⟨h.severity, h.inserter, h.sample⟩
  | skip hd hkey => exact ⟨h.severity, h.inserter, h.sample⟩
  | openSlot hd hkey => exact ⟨h.severity, h.inserter, h.sample⟩
  | swapCount hd => exact ⟨h.severity, h.inserter, h.sample⟩
  | clearKey hd => exact ⟨(absurd rfl ·), h.inserter, (absurd rfl ·)⟩
  | clearSeverity hd hlate =>
    exact ⟨fun hkey => .inr (hlate.resolve_left hkey), h.inserter, h.sample⟩
  | clearSample hd hlate =>
    exact ⟨h.severity, h.inserter, fun hkey => .inr (hlate.resolve_left hkey)⟩

/-! ## A move of the table is a move of every slot -/

/-- The writer does not count a second time in a slot that has been swapped out, and its count
does not wrap. -/
def Race.CountInTime (s : Race) : Writer → Prop
  | .addCount _ i _ => ¬(s.view i).CountsLate ∧ (s.table i).count + 1 < 2 ^ 32
  | _ => True

/-- The drainer does not clear the severity or the sample flag that a new insertion has stored. -/
def Race.ClearInTime (s : Race) : Drainer → Prop
  | .visiting i (.clearSeverity _) _ =>
    (s.table i).keyHash = 0 ∨ (s.writer.stage i).unlabelled = true
  | .visiting i (.clearSample _) _ =>
    (s.table i).keyHash = 0 ∨ (s.writer.stage i).inserting = true
  | _ => True

/-- No count and no clear comes late. -/
def InTime (s : Race) : Move → Prop
  | .write => s.CountInTime s.writer
  | .sweep => s.ClearInTime s.drainer
  | _ => True

instance (v : View) : Decidable v.CountsLate :=
  inferInstanceAs (Decidable ((v.sweeping = .evicting ∨ v.slot.keyHash = 0) ∧ v.slot.count ≠ 0))

instance (s : Race) : (w : Writer) → Decidable (s.CountInTime w)
  | .addCount _ i _ =>
    inferInstanceAs (Decidable (¬(s.view i).CountsLate ∧ (s.table i).count + 1 < 2 ^ 32))
  | .idle | .loadKey .. | .loadSeverity .. | .loadSample .. | .resample .. | .storeKey ..
  | .storeSeverity .. | .storeCount .. | .storeSample .. => instDecidableTrue

instance (s : Race) : (d : Drainer) → Decidable (s.ClearInTime d)
  | .visiting i (.clearSeverity _) _ =>
    inferInstanceAs (Decidable ((s.table i).keyHash = 0 ∨ (s.writer.stage i).unlabelled = true))
  | .visiting i (.clearSample _) _ =>
    inferInstanceAs (Decidable ((s.table i).keyHash = 0 ∨ (s.writer.stage i).inserting = true))
  | .idle | .visiting _ .loadKey _ | .visiting _ .swapCount _ | .visiting _ (.reloadKey _) _
  | .visiting _ (.loadSeverity ..) _ | .visiting _ (.clearKey _) _ => instDecidableTrue

instance (s : Race) : (a : Move) → Decidable (InTime s a)
  | .write => inferInstanceAs (Decidable (s.CountInTime s.writer))
  | .sweep => inferInstanceAs (Decidable (s.ClearInTime s.drainer))
  | .call .. | .drain => instDecidableTrue

/-- A collision takes the writer away from every slot. -/
theorem view_collide (s : Race) (t : Template) (probe : Fin COALESCE_CAPACITY) (probes : Nat)
    (i : Fin COALESCE_CAPACITY) :
    (s.collide t probe probes).view i = { s.view i with writing := .away } := by
  unfold Race.collide
  simp only
  split_ifs <;> rfl

theorem step_of_view_eq {v v' : View} (h : v' = v) : View.Step v v' := h ▸ .stay

/-- An access to one slot leaves the others alone. -/
theorem view_access {s s' : Race} {i j : Fin COALESCE_CAPACITY}
    (hother : i ≠ j → s'.view i = s.view i) (hslot : View.Step (s.view j) (s'.view j)) :
    View.Step (s.view i) (s'.view i) := by
  by_cases hi : i = j
  · exact hi ▸ hslot
  · exact step_of_view_eq (hother hi)

/-- What the writer's accesses do to a slot. -/
theorem view_writeStep {s s' : Race} (htime : InTime s .write) (h : writeStep s = some s')
    (i : Fin COALESCE_CAPACITY) : View.Step (s.view i) (s'.view i) := by
  unfold writeStep at h
  cases hw : s.writer with
  | idle => simp [hw] at h
  | loadKey t probe probes =>
    have hstage : ∀ j, (s.view j).writing = .away := by simp [Race.view, Writer.stage, hw]
    simp only [hw] at h
    split_ifs at h with hempty hkey <;> cases h
    · refine view_access (j := probe) (fun hi => ?_) ?_
      · simp [Race.view, Writer.stage, hw, hi.symm]
      · simpa [Race.view, Writer.stage] using View.Step.foundEmpty (hstage probe) hempty
    · refine view_access (j := probe) (fun hi => ?_) ?_
      · simp [Race.view, Writer.stage, hw, hi.symm]
      · simpa [Race.view, Writer.stage] using View.Step.foundKey (hstage probe) hempty
    · rw [view_collide]
      exact step_of_view_eq (by rw [← hstage i])
  | loadSeverity t probe probes =>
    simp only [hw] at h
    split_ifs at h with hseverity <;> cases h
    · exact step_of_view_eq (by simp [Race.view, Writer.stage, hw])
    · refine view_access (j := probe) (fun hi => ?_) ?_
      · rw [view_collide]
        simp [Race.view, Writer.stage, hw, hi.symm]
      · rw [view_collide]
        exact .otherSeverity (by simp [Race.view, Writer.stage, hw])
  | loadSample t probe =>
    simp only [hw] at h
    cases h
    exact step_of_view_eq (by simp [Race.view, Writer.stage, hw])
  | addCount t probe alreadyEmitted =>
    simp only [hw] at h
    simp only [InTime, Race.CountInTime, hw] at htime
    have hstage : (s.view probe).writing = .matched := by simp [Race.view, Writer.stage, hw]
    have hcount : addW 32 (s.table probe).count 1 = (s.table probe).count + 1 := addW_of_lt htime.2
    cases h
    refine view_access (j := probe) (fun hi => ?_) ?_
    · cases alreadyEmitted <;>
        simp [Race.view, Race.giveBack, Race.modify, credit, Writer.stage, hw, hi, hi.symm]
    · have hstep := View.Step.addCount hstage htime.1
      cases alreadyEmitted <;>
        simpa [Race.view, Race.giveBack, Race.modify, credit, Writer.stage, hcount] using hstep
  | resample t probe =>
    simp only [hw] at h
    cases h
    have hstage : (s.view probe).writing = .away := by simp [Race.view, Writer.stage, hw]
    refine view_access (j := probe) (fun hi => ?_) ?_
    · simp [Race.view, Race.giveBack, Race.modify, Writer.stage, hw, hi]
    · simpa [Race.view, Race.giveBack, Race.modify, Writer.stage, hw] using
        View.Step.resample hstage
  | storeKey t probe =>
    simp only [hw] at h
    cases h
    have hstage : (s.view probe).writing = .keyDue := by simp [Race.view, Writer.stage, hw]
    refine view_access (j := probe) (fun hi => ?_) ?_
    · simp [Race.view, Race.modify, Writer.stage, hw, hi, hi.symm]
    · simpa [Race.view, Race.modify, Writer.stage] using View.Step.storeKey t hstage
  | storeSeverity t probe =>
    simp only [hw] at h
    cases h
    have hstage : (s.view probe).writing = .severityDue t.severity := by
      simp [Race.view, Writer.stage, hw]
    refine view_access (j := probe) (fun hi => ?_) ?_
    · simp [Race.view, Race.modify, Writer.stage, hw, hi, hi.symm]
    · simpa [Race.view, Race.modify, Writer.stage] using View.Step.storeSeverity t.severity hstage
  | storeCount t probe =>
    simp only [hw] at h
    cases h
    have hstage : (s.view probe).writing = .countDue := by simp [Race.view, Writer.stage, hw]
    refine view_access (j := probe) (fun hi => ?_) ?_
    · simp [Race.view, Race.modify, credit, Writer.stage, hw, hi, hi.symm]
    · simpa [Race.view, Race.modify, credit, Writer.stage] using View.Step.storeCount hstage
  | storeSample t probe =>
    simp only [hw] at h
    cases h
    have hstage : (s.view probe).writing = .sampleDue := by simp [Race.view, Writer.stage, hw]
    refine view_access (j := probe) (fun hi => ?_) ?_
    · simp [Race.view, Race.giveBack, Race.modify, Writer.stage, hw, hi, hi.symm]
    · simpa [Race.view, Race.giveBack, Race.modify, Writer.stage] using View.Step.storeSample hstage

/-- The stages of the other slots while the drainer visits slot `j`. -/
theorem stage_visiting_of_ne {i j : Fin COALESCE_CAPACITY} (hi : i ≠ j) (visit : Visit)
    (out : List Tuple) :
    (Drainer.visiting j visit out).stage i = if i ≤ j then .done else .due := by
  show (if j < i then .due else if j = i then visit.stage else .done) = _
  by_cases hlt : j < i
  · rw [if_pos hlt, if_neg (not_le.mpr hlt)]
  · rw [if_neg hlt, if_neg hi.symm, if_pos (not_lt.mp hlt)]

theorem stage_visiting_self (j : Fin COALESCE_CAPACITY) (visit : Visit) (out : List Tuple) :
    (Drainer.visiting j visit out).stage j = visit.stage := by
  simp [Drainer.stage]

/-- After a visit to slot `j` the slots up to it are done, the others are due. -/
theorem view_leaveSlot (s : Race) (j : Fin COALESCE_CAPACITY) (out : List Tuple)
    (i : Fin COALESCE_CAPACITY) :
    (s.leaveSlot j out).view i = { s.view i with sweeping := if i ≤ j then .done else .due } := by
  unfold Race.leaveSlot
  by_cases hnext : j.val + 1 < COALESCE_CAPACITY
  · rw [dif_pos hnext]
    simp only [Race.view, Drainer.stage, Visit.stage, Fin.lt_def, Fin.le_def, Fin.ext_iff]
    congr 1
    split_ifs <;> first | rfl | omega
  · rw [dif_neg hnext]
    have hle : i ≤ j := by
      have := i.isLt
      rw [Fin.le_def]
      omega
    simp [Race.view, Drainer.stage, hle]

/-- What the drainer's accesses do to a slot. -/
theorem view_sweepStep {s s' : Race} (htime : InTime s .sweep) (h : sweepStep s = some s')
    (i : Fin COALESCE_CAPACITY) : View.Step (s.view i) (s'.view i) := by
  unfold sweepStep at h
  cases hd : s.drainer with
  | idle => simp [hd] at h
  | visiting j visit out =>
    simp only [hd] at h
    cases h
    have hstage : (s.view j).sweeping = visit.stage := by
      simp only [Race.view, hd, stage_visiting_self]
    -- the drainer stays at its slot, or leaves it: the other slots do not see the difference
    have hother : i ≠ j → (s.drainer.stage i = if i ≤ j then .done else .due) := by
      intro hi
      rw [hd, stage_visiting_of_ne hi]
    simp only [InTime, hd] at htime
    cases visit with
    | loadKey =>
      simp only [Race.visitStep]
      split_ifs with hempty
      · refine view_access (j := j) (fun hi => ?_) ?_
        · rw [view_leaveSlot, ← hother hi]
          rfl
        · rw [view_leaveSlot, if_pos le_rfl]
          exact .skip hstage hempty
      · refine view_access (j := j) (fun hi => ?_) ?_
        · simp [Race.view, hother hi, stage_visiting_of_ne hi]
        · simpa [Race.view, stage_visiting_self, Visit.stage] using View.Step.openSlot hstage hempty
    | swapCount =>
      refine view_access (j := j) (fun hi => ?_) ?_
      · simp [Race.visitStep, Race.view, Race.modify, credit, hother hi, stage_visiting_of_ne hi,
          hi]
      · simpa [Race.visitStep, Race.view, Race.modify, credit, stage_visiting_self, Visit.stage]
          using View.Step.swapCount hstage
    | reloadKey count =>
      refine view_access (j := j) (fun hi => ?_) ?_
      · simp [Race.visitStep, Race.view, hother hi, stage_visiting_of_ne hi]
      · apply step_of_view_eq
        simp [Race.visitStep, Race.view, hd, stage_visiting_self, Visit.stage]
    | loadSeverity keyHash count =>
      refine view_access (j := j) (fun hi => ?_) ?_
      · simp [Race.visitStep, Race.view, hother hi, stage_visiting_of_ne hi]
      · apply step_of_view_eq
        simp [Race.visitStep, Race.view, hd, stage_visiting_self, Visit.stage]
    | clearKey tuple =>
      refine view_access (j := j) (fun hi => ?_) ?_
      · simp [Race.visitStep, Race.view, Race.modify, hother hi, stage_visiting_of_ne hi, hi]
      · simpa [Race.visitStep, Race.view, Race.modify, stage_visiting_self, Visit.stage] using
          View.Step.clearKey hstage
    | clearSeverity tuple =>
      refine view_access (j := j) (fun hi => ?_) ?_
      · simp [Race.visitStep, Race.view, Race.modify, hother hi, stage_visiting_of_ne hi, hi]
      · simpa [Race.visitStep, Race.view, Race.modify, stage_visiting_self, Visit.stage] using
          View.Step.clearSeverity hstage htime
    | clearSample tuple =>
      simp only [Race.visitStep]
      refine view_access (j := j) (fun hi => ?_) ?_
      · rw [view_leaveSlot, ← hother hi]
        simp [Race.view, Race.modify, hi]
      · rw [view_leaveSlot, if_pos le_rfl]
        simpa [Race.view, Race.modify] using View.Step.clearSample hstage htime

/-- When a drain call begins, every slot is due. -/
theorem stage_first (i : Fin COALESCE_CAPACITY) :
    (Drainer.visiting firstSlot .loadKey []).stage i = .due := by
  simp only [Drainer.stage, Visit.stage, firstSlot, Fin.lt_def, Fin.ext_iff]
  split_ifs <;> first | rfl | omega

/-- **A move in time does one of the listed things to every slot.** -/
theorem view_step {s s' : Race} {a : Move} (htime : InTime s a) (h : raceStep s a = some s')
    (i : Fin COALESCE_CAPACITY) : View.Step (s.view i) (s'.view i) := by
  cases a with
  | call severity buf coalesceEnabled =>
    simp only [raceStep] at h
    split_ifs at h with hidle
    cases h
    have hview : (s.beginCall severity buf coalesceEnabled).view i = s.view i := by
      unfold Race.beginCall
      split_ifs <;> simp [Race.view, Race.giveBack, Writer.stage, hidle]
    exact step_of_view_eq hview
  | write => exact view_writeStep htime h i
  | drain =>
    simp only [raceStep] at h
    split_ifs at h with hidle
    cases h
    have hstage : (s.view i).sweeping = .done := by simp only [Race.view, hidle, Drainer.stage]
    simpa [Race.view, stage_first] using View.Step.beginDrain hstage
  | sweep => exact view_sweepStep htime h i

end NgxOtel.Coalesce
