import NgxOtel.Lib.Run
import Mathlib.Algebra.BigOperators.Group.List.Basic
import Mathlib.Algebra.Order.Ring.Nat
import Mathlib.Logic.Function.Basic

/-!
# Counters that one process bumps and another reads word by word

A memory of 64-bit counters, indexed by `φ`.  A writer runs commands `b : β`, each a program
`prog b` of fetch-adds, one at a time; a reader loads the counters `first :: rest` in that order, one
at a time, over and over.  Every fetch-add and every load is one step, and the steps of the two
interleave in any way.

* `Moment` — how far the writer is: what has been added to each counter, the commands begun, and the
  rest of the current program.
* `Reading` — one complete pass of the reader: what it loaded, and the moments of its first and of
  its last load.
* `step` — the machine; `Run.exec (step prog first rest)` runs it.

## Results

* `Moment.Ok` holds at every moment (`Inv.now`): the counters hold exactly what the begun commands
  prescribe, less the rest of the current program.
* `reading_spec` — **a reading lies between its two moments**, counter by counter, as long as no
  counter overflows; its first load is exact, and a reading that no command overlaps is exact.
* `readings_ordered` — readings follow each other in time.
-/

set_option autoImplicit false

namespace Counters

variable {φ β : Type*}

/-- A fetch-add: the counter, and what is added. -/
abbrev Op (φ : Type*) := φ × UInt64

/-- What a program adds to one counter. -/
def amount [DecidableEq φ] (ops : List (Op φ)) (f : φ) : Nat :=
  (ops.map fun op => if op.1 = f then op.2.toNat else 0).sum

/-- How far the writer is. -/
structure Moment (φ β : Type*) where
  added : φ → Nat
  begun : List β
  pending : List (Op φ)

/-- No command is in progress. -/
def Moment.Idle (m : Moment φ β) : Prop := m.pending = []

instance (m : Moment φ β) : Decidable m.Idle := decidable_of_iff (m.pending.isEmpty = true) (by
  simp [Moment.Idle])

/-- A pass of the reader that has begun: `quiet` as long as no command has been in progress. -/
structure Pass (φ β : Type*) where
  opened : Moment φ β
  unread : List φ
  got : φ → UInt64
  quiet : Bool

/-- A complete pass of the reader. -/
structure Reading (φ β : Type*) where
  opened : Moment φ β
  closed : Moment φ β
  value : φ → UInt64
  quiet : Bool

/-- The counters, the writer, the reader, and the readings so far. -/
structure State (φ β : Type*) where
  mem : φ → UInt64
  now : Moment φ β
  pass : Option (Pass φ β)
  readings : List (Reading φ β)

/-- All counters zero, nothing begun. -/
def State.zeroed : State φ β := ⟨fun _ => 0, ⟨fun _ => 0, [], []⟩, none, []⟩

inductive Act (β : Type*) where
  | start (b : β)
  | add
  | openRead
  | load

/-- A pass with nothing left to load is a reading. -/
def State.settle (s : State φ β) (p : Pass φ β) : State φ β :=
  if p.unread.isEmpty then
    { s with pass := none, readings := s.readings ++ [⟨p.opened, s.now, p.got, p.quiet⟩] }
  else { s with pass := some p }

section Machine

variable [DecidableEq φ] (prog : β → List (Op φ)) (first : φ) (rest : List φ)

/-- One atomic step.  A reading begins with the load of `first`. -/
def step (s : State φ β) : Act β → Option (State φ β)
  | .start b =>
    if s.now.Idle then
      some { s with
        now := { s.now with begun := s.now.begun ++ [b], pending := prog b }
        pass := s.pass.map fun p => { p with quiet := false } }
    else none
  | .add =>
    match s.now.pending with
    | [] => none
    | (f, n) :: ops =>
      some { s with
        mem := Function.update s.mem f (s.mem f + n)
        now := { s.now with
          added := Function.update s.now.added f (s.now.added f + n.toNat), pending := ops } }
  | .openRead =>
    match s.pass with
    | some _ => none
    | none =>
      some (s.settle ⟨s.now, rest, Function.update (fun _ => 0) first (s.mem first), s.now.Idle⟩)
  | .load =>
    match s.pass with
    | none => none
    | some p =>
      match p.unread with
      | [] => none
      | f :: unread =>
        some (s.settle { p with unread := unread, got := Function.update p.got f (s.mem f) })

/-! ## Moments -/

/-- The counters hold what the begun commands prescribe, less the rest of the current program. -/
structure Moment.Ok (m : Moment φ β) : Prop where
  balance : ∀ f, m.added f + amount m.pending f = (m.begun.map fun b => amount (prog b) f).sum
  current : m.Idle ∨ ∃ b, m.begun.getLast? = some b ∧ m.pending <:+ prog b

/-- Nothing is taken back from one moment to the next. -/
def Moment.Before (m m' : Moment φ β) : Prop := ∀ f, m.added f ≤ m'.added f

variable {prog}

theorem Moment.Ok.start {m : Moment φ β} (hm : m.Ok prog) (hidle : m.Idle) (b : β) :
    Moment.Ok prog { m with begun := m.begun ++ [b], pending := prog b } := by
  refine ⟨?_, Or.inr ⟨b, by simp, List.suffix_refl _⟩⟩
  intro f
  have hbal := hm.balance f
  rw [hidle] at hbal
  simp only [amount, List.map_nil, List.sum_nil, Nat.add_zero] at hbal
  simp [hbal, amount]

theorem amount_cons (f g : φ) (n : UInt64) (ops : List (Op φ)) :
    amount ((f, n) :: ops) g = (if f = g then n.toNat else 0) + amount ops g := by
  simp [amount]

theorem Moment.Ok.add {m : Moment φ β} (hm : m.Ok prog) {f : φ} {n : UInt64} {ops : List (Op φ)}
    (hpending : m.pending = (f, n) :: ops) :
    Moment.Ok prog { m with
      added := Function.update m.added f (m.added f + n.toNat), pending := ops } := by
  constructor
  · intro g
    have hbal := hm.balance g
    rw [hpending, amount_cons] at hbal
    by_cases hfg : g = f
    · subst hfg
      simp only [if_true] at hbal
      simp only [Function.update_self]
      omega
    · simp only [Ne.symm hfg, if_false] at hbal
      simp only [Function.update_of_ne hfg]
      omega
  · rcases hm.current with hidle | ⟨b, hlast, hsuffix⟩
    · rw [hidle] at hpending
      cases hpending
    · refine Or.inr ⟨b, hlast, ?_⟩
      rw [hpending] at hsuffix
      exact (List.suffix_cons _ _).trans hsuffix

omit [DecidableEq φ] in
theorem Moment.Before.refl (m : Moment φ β) : m.Before m := fun _ => Nat.le_refl _

omit [DecidableEq φ] in
theorem Moment.Before.trans {m m' m'' : Moment φ β} (h : m.Before m') (h' : m'.Before m'') :
    m.Before m'' :=
  fun f => Nat.le_trans (h f) (h' f)

theorem Moment.before_add (m : Moment φ β) (f : φ) (n : UInt64) (ops : List (Op φ)) :
    m.Before { m with added := Function.update m.added f (m.added f + n.toNat), pending := ops } := by
  intro g
  by_cases hfg : g = f
  · subst hfg
    simp
  · simp [Function.update_of_ne hfg]

/-! ## Windows -/

/-- No counter has overflowed. -/
def Moment.Small (m : Moment φ β) : Prop := ∀ f, m.added f < 2 ^ 64

omit [DecidableEq φ] in
theorem Moment.Small.of_before {m m' : Moment φ β} (hsmall : m'.Small) (h : m.Before m') : m.Small :=
  fun f => Nat.lt_of_le_of_lt (h f) (hsmall f)

variable (prog)

/-- A pass opened at one moment, seen at another: what it has loaded lies between the two. -/
structure Window (opened now : Moment φ β) (unread : List φ) (got : φ → UInt64) (quiet : Bool) :
    Prop where
  opened_ok : opened.Ok prog
  now_ok : now.Ok prog
  before : opened.Before now
  unread_suffix : unread <:+ rest
  between : now.Small → ∀ f ∈ first :: rest, f ∉ unread →
    opened.added f ≤ (got f).toNat ∧ (got f).toNat ≤ now.added f
  first_exact : now.Small → first ∉ rest → (got first).toNat = opened.added first
  quiet_same : quiet = true → now = opened ∧ now.Idle

variable {prog first rest}

theorem Window.start {opened now : Moment φ β} {unread : List φ} {got : φ → UInt64} {quiet : Bool}
    (h : Window prog first rest opened now unread got quiet) (hidle : now.Idle) (b : β) :
    Window prog first rest opened { now with begun := now.begun ++ [b], pending := prog b } unread got
      false :=
  { h with
    now_ok := h.now_ok.start hidle b
    quiet_same := by intro hfalse; cases hfalse }

theorem Window.add {opened now : Moment φ β} {unread : List φ} {got : φ → UInt64} {quiet : Bool}
    (h : Window prog first rest opened now unread got quiet) {f : φ} {n : UInt64}
    {ops : List (Op φ)} (hpending : now.pending = (f, n) :: ops) :
    Window prog first rest opened { now with
      added := Function.update now.added f (now.added f + n.toNat), pending := ops } unread got
      quiet := by
  have hlater := now.before_add f n ops
  refine ⟨h.opened_ok, h.now_ok.add hpending, h.before.trans hlater, h.unread_suffix, ?_, ?_, ?_⟩
  · intro hsmall g hg hread
    obtain ⟨hlow, hhigh⟩ := h.between (hsmall.of_before hlater) g hg hread
    exact ⟨hlow, Nat.le_trans hhigh (hlater g)⟩
  · intro hsmall hfirst
    exact h.first_exact (hsmall.of_before hlater) hfirst
  · intro hquiet
    -- a command is in progress, so the pass is not quiet
    have hidle := (h.quiet_same hquiet).2
    rw [Moment.Idle, hpending] at hidle
    cases hidle

/-- A counter that has not overflowed is what the word in memory says. -/
theorem toNat_ofNat_small {n : Nat} (h : n < 2 ^ 64) : (UInt64.ofNat n).toNat = n := by
  rw [UInt64.toNat_ofNat']
  exact Nat.mod_eq_of_lt h

theorem Window.opening {now : Moment φ β} (hnow : now.Ok prog) :
    Window prog first rest now now rest
      (Function.update (fun _ => 0) first (UInt64.ofNat (now.added first))) now.Idle := by
  refine ⟨hnow, hnow, Moment.Before.refl now, List.suffix_refl rest, ?_, ?_, ?_⟩
  · intro hsmall f hf hread
    have hfirst : f = first := by
      rcases List.mem_cons.mp hf with hfirst | hrest
      · exact hfirst
      · exact absurd hrest hread
    subst hfirst
    rw [Function.update_self, toNat_ofNat_small (hsmall f)]
    exact ⟨Nat.le_refl _, Nat.le_refl _⟩
  · intro hsmall hfirst
    rw [Function.update_self, toNat_ofNat_small (hsmall first)]
  · intro hquiet
    exact ⟨rfl, by simpa using hquiet⟩

theorem Window.load {opened now : Moment φ β} {f : φ} {unread : List φ} {got : φ → UInt64}
    {quiet : Bool} (h : Window prog first rest opened now (f :: unread) got quiet) :
    Window prog first rest opened now unread
      (Function.update got f (UInt64.ofNat (now.added f))) quiet := by
  have hsuffix := h.unread_suffix
  refine ⟨h.opened_ok, h.now_ok, h.before, (List.suffix_cons f unread).trans hsuffix, ?_, ?_,
    h.quiet_same⟩
  · intro hsmall g hg hread
    by_cases hfg : g = f
    · subst hfg
      rw [Function.update_self, toNat_ofNat_small (hsmall g)]
      exact ⟨h.before g, Nat.le_refl _⟩
    · rw [Function.update_of_ne hfg]
      exact h.between hsmall g hg (by simp [hfg, hread])
  · intro hsmall hfirst
    -- the word just loaded is one of `rest`, so it is not the first
    have hmem : f ∈ rest := hsuffix.subset (List.mem_cons_self ..)
    have hne : first ≠ f := by
      intro heq
      exact hfirst (heq ▸ hmem)
    rw [Function.update_of_ne hne]
    exact h.first_exact hsmall hfirst

/-! ## The invariant -/

variable (prog first rest)

structure Inv (s : State φ β) : Prop where
  now : s.now.Ok prog
  mem : ∀ f, s.mem f = UInt64.ofNat (s.now.added f)
  pass : ∀ p, s.pass = some p →
    Window prog first rest p.opened s.now p.unread p.got p.quiet ∧
      ∀ r ∈ s.readings, r.closed.Before p.opened
  readings : ∀ r ∈ s.readings,
    Window prog first rest r.opened r.closed [] r.value r.quiet ∧ r.closed.Before s.now
  ordered : s.readings.Pairwise fun r r' => r.closed.Before r'.opened

theorem inv_zeroed : Inv prog first rest (State.zeroed : State φ β) := by
  refine ⟨⟨?_, Or.inl rfl⟩, fun _ => rfl, ?_, ?_, List.Pairwise.nil⟩
  · intro f
    rfl
  · intro p hp
    cases hp
  · intro r hr
    cases hr

variable {prog first rest}

/-- A pass that continues or completes at the current moment. -/
theorem Inv.settle {s : State φ β} (hs : Inv prog first rest s) {p : Pass φ β}
    (hp : Window prog first rest p.opened s.now p.unread p.got p.quiet)
    (hlast : ∀ r ∈ s.readings, r.closed.Before p.opened) : Inv prog first rest (s.settle p) := by
  unfold State.settle
  cases hunread : p.unread with
  | nil =>
    rw [hunread] at hp
    simp only [List.isEmpty_nil, if_true]
    refine ⟨hs.now, hs.mem, ?_, ?_, ?_⟩
    · intro q hq
      cases hq
    · intro r hr
      rcases List.mem_append.mp hr with hold | hnew
      · exact hs.readings r hold
      · rw [List.mem_singleton.mp hnew]
        exact ⟨hp, Moment.Before.refl _⟩
    · refine List.pairwise_append.mpr ⟨hs.ordered, List.pairwise_singleton _ _, ?_⟩
      intro r hr r' hr'
      rw [List.mem_singleton.mp hr']
      exact hlast r hr
  | cons f unread =>
    simp only [List.isEmpty_cons, Bool.false_eq_true, if_false]
    refine ⟨hs.now, hs.mem, ?_, hs.readings, hs.ordered⟩
    intro q hq
    cases hq
    exact ⟨hp, hlast⟩

theorem Inv.start {s : State φ β} (hs : Inv prog first rest s) (hidle : s.now.Idle) (b : β) :
    Inv prog first rest { s with
      now := { s.now with begun := s.now.begun ++ [b], pending := prog b }
      pass := s.pass.map fun p => { p with quiet := false } } := by
  refine ⟨hs.now.start hidle b, hs.mem, ?_, hs.readings, hs.ordered⟩
  intro p hp
  obtain ⟨q, hq, rfl⟩ := Option.map_eq_some_iff.mp hp
  obtain ⟨hwindow, hlast⟩ := hs.pass q hq
  exact ⟨hwindow.start hidle b, hlast⟩

theorem Inv.add {s : State φ β} (hs : Inv prog first rest s) {f : φ} {n : UInt64}
    {ops : List (Op φ)} (hpending : s.now.pending = (f, n) :: ops) :
    Inv prog first rest { s with
      mem := Function.update s.mem f (s.mem f + n)
      now := { s.now with
        added := Function.update s.now.added f (s.now.added f + n.toNat), pending := ops } } := by
  refine ⟨hs.now.add hpending, ?_, ?_, ?_, hs.ordered⟩
  · intro g
    by_cases hfg : g = f
    · subst hfg
      simp [hs.mem g, UInt64.ofNat_add]
    · simp [Function.update_of_ne hfg, hs.mem g]
  · intro p hp
    obtain ⟨hwindow, hlast⟩ := hs.pass p hp
    exact ⟨hwindow.add hpending, hlast⟩
  · intro r hr
    obtain ⟨hwindow, hbefore⟩ := hs.readings r hr
    exact ⟨hwindow, hbefore.trans (s.now.before_add f n ops)⟩

/-- **Every step keeps the invariant.** -/
theorem step_inv {s t : State φ β} {a : Act β} (hs : Inv prog first rest s)
    (h : step prog first rest s a = some t) : Inv prog first rest t := by
  cases a with
  | start b =>
    simp only [step] at h
    split at h
    · rename_i hidle
      cases h
      exact hs.start hidle b
    · cases h
  | add =>
    simp only [step] at h
    split at h
    · cases h
    · rename_i f n ops hpending
      cases h
      exact hs.add hpending
  | openRead =>
    simp only [step] at h
    split at h
    · cases h
    · cases h
      apply hs.settle
      · rw [hs.mem first]
        exact Window.opening hs.now
      · intro r hr
        exact (hs.readings r hr).2
  | load =>
    simp only [step] at h
    split at h
    · cases h
    · rename_i p hp
      split at h
      · cases h
      · rename_i f unread hunread
        cases h
        obtain ⟨hwindow, hlast⟩ := hs.pass p hp
        rw [hunread] at hwindow
        refine Inv.settle hs ?_ hlast
        rw [hs.mem f]
        exact hwindow.load

theorem exec_inv {t : State φ β} {as : List (Act β)}
    (h : Run.exec (step prog first rest) .zeroed as = some t) : Inv prog first rest t :=
  Run.exec_invariant (I := Inv prog first rest) (fun _ _ _ hs hstep => step_inv hs hstep) h
    (inv_zeroed prog first rest)

/-! ## Readings -/

/-- **A reading lies between its two moments.** -/
theorem reading_spec {t : State φ β} {as : List (Act β)}
    (h : Run.exec (step prog first rest) .zeroed as = some t) (hsmall : t.now.Small)
    {r : Reading φ β} (hr : r ∈ t.readings) :
    Window prog first rest r.opened r.closed [] r.value r.quiet ∧ r.closed.Small := by
  obtain ⟨hwindow, hbefore⟩ := (exec_inv h).readings r hr
  exact ⟨hwindow, hsmall.of_before hbefore⟩

/-- **Readings follow each other**: every counter of a later one is at least that of an earlier
one. -/
theorem readings_ordered {t : State φ β} {as : List (Act β)}
    (h : Run.exec (step prog first rest) .zeroed as = some t) (hsmall : t.now.Small) :
    t.readings.Pairwise fun r r' => ∀ f ∈ first :: rest, r.value f ≤ r'.value f := by
  have hinv := exec_inv h
  refine hinv.ordered.imp_of_mem ?_
  intro r r' hr hr' hbefore f hf
  obtain ⟨hwindow, hsmallr⟩ := reading_spec h hsmall hr
  obtain ⟨hwindow', hsmallr'⟩ := reading_spec h hsmall hr'
  have hlow := (hwindow.between hsmallr f hf (List.not_mem_nil)).2
  have hhigh := (hwindow'.between hsmallr' f hf (List.not_mem_nil)).1
  rw [UInt64.le_iff_toNat_le]
  exact Nat.le_trans hlow (Nat.le_trans (hbefore f) hhigh)

end Machine

end Counters
