import NgxOtel.Coalesce.Table

/-!
# `stable_core` on positions

`stable_core` (`logs/coalesce.rs`) moves a position over the line and a bound from its end towards
it; `stableCore` of `Table` describes the same function on the unread rest.  Here the function is
taken index by index, where an index or a slice outside the line is `none`.

* `pastPair`, `pastConnection`, `trimmedEnd`, `contextEnd` — the scans, each with its loop.
* `stableCoreRange` — the range of the line that is returned.
* `PointsAt buf pos rest` — the dictionary: at `pos`, `rest` is unread.
* `ErrorLine` — a line of the shape that nginx writes, with what is assumed of its parts.

## Results

* `stableCoreRange_eq` — no access is outside the line, and the range holds `stableCore`.
* `stableCore_text` — the core of a well-formed line is its message.
* `stable_core_spec` — **both for the function on positions**, and the key that follows.
-/

set_option autoImplicit false

namespace NgxOtel.Coalesce

open Word

/-! ## The scans -/

/-- Steps 1 and 2, `while pos + 1 < len`: behind the first `a b`, or at the last byte.  The loop
makes at most `len - pos` turns. -/
def pastPairLoop (buf : Bytes) (a b : UInt8) : (turns : Nat) → (pos : Nat) → Option Nat
  | 0, pos => some pos
  | turns + 1, pos =>
    if pos + 1 < buf.length then do
      let x ← buf[pos]?
      let y ← buf[pos + 1]?
      if x = a ∧ y = b then some (pos + 2) else pastPairLoop buf a b turns (pos + 1)
    else some pos

def pastPair (buf : Bytes) (a b : UInt8) (pos : Nat) : Option Nat :=
  pastPairLoop buf a b (buf.length - pos) pos

/-- `while pos < len && buf[pos].is_ascii_digit()`. -/
def pastDigitsLoop (buf : Bytes) : (turns : Nat) → (pos : Nat) → Option Nat
  | 0, pos => some pos
  | turns + 1, pos =>
    if pos < buf.length then do
      let x ← buf[pos]?
      if isAsciiDigit x then pastDigitsLoop buf turns (pos + 1) else some pos
    else some pos

/-- Step 3: behind an optional `*<digits> `. -/
def pastConnection (buf : Bytes) (pos : Nat) : Option Nat :=
  if pos < buf.length then do
    let x ← buf[pos]?
    if x = 42 then
      let pos ← pastDigitsLoop buf (buf.length - (pos + 1)) (pos + 1)
      if pos < buf.length then
        let y ← buf[pos]?
        if y = 32 then some (pos + 1) else some pos
      else some pos
    else some pos
  else some pos

/-- The end without a trailing newline. -/
def trimmedEnd (buf : Bytes) : Option Nat :=
  if buf.length > 0 then do
    let last ← buf[buf.length - 1]?
    if last = 10 then some (buf.length - 1) else some buf.length
  else some buf.length

/-- `&buf[lo..hi]`. -/
def sliceOf (buf : Bytes) (lo hi : Nat) : Option Bytes :=
  if lo ≤ hi ∧ hi ≤ buf.length then some ((buf.drop lo).take (hi - lo)) else none

/-- `i + marker.len() <= end && &buf[i..i + marker.len()] == marker`. -/
def markerAt (buf marker : Bytes) (i stop : Nat) : Option Bool :=
  if i + marker.length ≤ stop then do
    let window ← sliceOf buf i (i + marker.length)
    some (window == marker)
  else some false

/-- Is one of the markers at `i`?  They are tried in order. -/
def contextAt (buf : Bytes) (i stop : Nat) : List Bytes → Option Bool
  | [] => some false
  | marker :: markers => do
    if ← markerAt buf marker i stop then some true else contextAt buf i stop markers

/-- Step 4, `while i < end`: cut before the first context marker. -/
def contextEndLoop (buf : Bytes) (stop : Nat) : (turns : Nat) → (i : Nat) → Option Nat
  | 0, _ => some stop
  | turns + 1, i =>
    if i < stop then do
      if ← contextAt buf i stop CONTEXT_MARKERS then some i
      else contextEndLoop buf stop turns (i + 1)
    else some stop

def contextEnd (buf : Bytes) (coreStart stop : Nat) : Option Nat :=
  contextEndLoop buf stop (stop - coreStart) coreStart

/-- `stable_core`: the bounds of the slice that is returned. -/
def stableCoreRange (buf : Bytes) : Option (Nat × Nat) := do
  let pos ← pastPair buf 93 32 0
  let pos ← pastPair buf 58 32 pos
  let coreStart ← pastConnection buf pos
  let stop ← trimmedEnd buf
  let stop ← contextEnd buf coreStart stop
  let core ← sliceOf buf coreStart stop
  if core.isEmpty then some (0, buf.length) else some (coreStart, stop)

/-! ## Positions and the unread rest -/

/-- At `pos`, `rest` is unread. -/
def PointsAt (buf : Bytes) (pos : Nat) (rest : Bytes) : Prop :=
  ∃ front, buf = front ++ rest ∧ front.length = pos

theorem PointsAt.start (buf : Bytes) : PointsAt buf 0 buf := ⟨[], rfl, rfl⟩

theorem PointsAt.length {buf rest : Bytes} {pos : Nat} (h : PointsAt buf pos rest) :
    buf.length = pos + rest.length := by
  obtain ⟨front, rfl, rfl⟩ := h
  exact List.length_append

/-- One byte further. -/
theorem PointsAt.next {buf rest : Bytes} {pos : Nat} {x : UInt8} (h : PointsAt buf pos (x :: rest)) :
    PointsAt buf (pos + 1) rest := by
  obtain ⟨front, rfl, rfl⟩ := h
  exact ⟨front ++ [x], by simp, by simp⟩

/-- The byte at the position is the first unread one. -/
theorem PointsAt.byte {buf rest : Bytes} {pos : Nat} {x : UInt8} (h : PointsAt buf pos (x :: rest)) :
    buf[pos]? = some x := by
  obtain ⟨front, rfl, rfl⟩ := h
  simp

/-! ## Each scan finds its place -/

theorem pastPairLoop_spec {buf : Bytes} (a b : UInt8) : ∀ {rest : Bytes} {pos : Nat},
    PointsAt buf pos rest → ∃ pos', pastPairLoop buf a b rest.length pos = some pos' ∧
      PointsAt buf pos' (skipPast a b rest)
  | [], pos, h => ⟨pos, rfl, h⟩
  | [x], pos, h => by
    have hlen := h.length
    refine ⟨pos, ?_, h⟩
    rw [List.length_singleton, pastPairLoop, if_neg (by simp at hlen; omega)]
  | x :: y :: rest, pos, h => by
    have hlen := h.length
    simp only [List.length_cons] at hlen
    have hx := h.byte
    have hy := h.next.byte
    by_cases hpair : x = a ∧ y = b
    · refine ⟨pos + 2, ?_, ?_⟩
      · rw [List.length_cons, pastPairLoop, if_pos (by omega), hx, hy]
        simp [hpair]
      · rw [skipPast, if_pos hpair]
        exact h.next.next
    · obtain ⟨pos', hloop, hpos'⟩ := pastPairLoop_spec a b h.next
      refine ⟨pos', ?_, ?_⟩
      · rw [List.length_cons, pastPairLoop, if_pos (by omega), hx, hy, ← hloop]
        simp [hpair]
      · rw [skipPast, if_neg hpair]
        exact hpos'

theorem pastPair_spec {buf rest : Bytes} {pos : Nat} (a b : UInt8) (h : PointsAt buf pos rest) :
    ∃ pos', pastPair buf a b pos = some pos' ∧ PointsAt buf pos' (skipPast a b rest) := by
  have hlen := h.length
  rw [pastPair, show buf.length - pos = rest.length by omega]
  exact pastPairLoop_spec a b h

theorem pastDigitsLoop_spec {buf : Bytes} : ∀ {rest : Bytes} {pos : Nat}, PointsAt buf pos rest →
    ∃ pos', pastDigitsLoop buf rest.length pos = some pos' ∧
      PointsAt buf pos' (rest.dropWhile isAsciiDigit)
  | [], pos, h => ⟨pos, rfl, h⟩
  | x :: rest, pos, h => by
    have hlen := h.length
    rw [List.length_cons] at hlen
    by_cases hx : isAsciiDigit x
    · obtain ⟨pos', hloop, hpos'⟩ := pastDigitsLoop_spec h.next
      refine ⟨pos', ?_, ?_⟩
      · rw [List.length_cons, pastDigitsLoop, if_pos (by omega), h.byte, ← hloop]
        simp [hx]
      · rw [List.dropWhile_cons_of_pos hx]
        exact hpos'
    · refine ⟨pos, ?_, ?_⟩
      · rw [List.length_cons, pastDigitsLoop, if_pos (by omega), h.byte]
        simp [hx]
      · rw [List.dropWhile_cons_of_neg hx]
        exact h

theorem pastConnection_spec {buf rest : Bytes} {pos : Nat} (h : PointsAt buf pos rest) :
    ∃ pos', pastConnection buf pos = some pos' ∧ PointsAt buf pos' (skipConnection rest) := by
  have hlen := h.length
  cases rest with
  | nil => exact ⟨pos, by rw [pastConnection, if_neg (by simp at hlen; omega)], h⟩
  | cons x rest =>
    rw [List.length_cons] at hlen
    unfold pastConnection skipConnection
    rw [if_pos (by omega), h.byte]
    by_cases hx : x = 42
    · obtain ⟨pos₁, hloop, hpos₁⟩ := pastDigitsLoop_spec h.next
      have hturns : buf.length - (pos + 1) = rest.length := by omega
      have hlen₁ := hpos₁.length
      simp only [hx, hturns, hloop, bind, Option.bind_some, if_true]
      cases hrest : rest.dropWhile isAsciiDigit with
      | nil =>
        rw [hrest] at hpos₁ hlen₁
        exact ⟨pos₁, if_neg (by simp at hlen₁; omega), hpos₁⟩
      | cons y rest₁ =>
        rw [hrest] at hpos₁ hlen₁
        rw [List.length_cons] at hlen₁
        rw [if_pos (by omega), hpos₁.byte]
        by_cases hy : y = 32
        · subst hy
          exact ⟨pos₁ + 1, rfl, hpos₁.next⟩
        · refine ⟨pos₁, by simp [hy], ?_⟩
          split
          · rename_i hcons
            cases hcons
            exact absurd rfl hy
          · exact hpos₁
    · exact ⟨pos, by simp [hx], by simpa [hx] using h⟩

/-! ## The bound never passes the start

The trailing newline is taken off the line, not off the message.  That only agrees because no scan
ends behind a newline: each consumes up to a space, a `*` or a digit. -/

theorem PointsAt.getLast {buf rest : Bytes} {pos : Nat} (h : PointsAt buf pos rest)
    (hrest : rest ≠ []) : buf.getLast? = rest.getLast? := by
  obtain ⟨front, rfl, -⟩ := h
  rw [List.getLast?_append_of_ne_nil _ hrest]

theorem getLast_of_skipPast_eq_nil {a b : UInt8} : ∀ {rest : Bytes}, skipPast a b rest = [] →
    rest = [] ∨ rest.getLast? = some b
  | [], _ => .inl rfl
  | [_], h => by cases h
  | x :: y :: rest, h => by
    right
    rw [skipPast] at h
    split at h
    · rename_i hpair
      subst h
      rw [hpair.2]
      rfl
    · rw [List.getLast?_cons_cons]
      exact (getLast_of_skipPast_eq_nil h).resolve_left (by simp)

/-- What the end of step 3 can be. -/
theorem getLast_of_skipConnection_eq_nil {rest : Bytes} (h : skipConnection rest = []) :
    rest = [] ∨ ∃ c, rest.getLast? = some c ∧ c ≠ 10 := by
  cases rest with
  | nil => exact .inl rfl
  | cons x rest =>
    right
    simp only [skipConnection] at h
    split at h
    · rename_i hx
      have hsplit := List.takeWhile_append_dropWhile (p := isAsciiDigit) (l := rest)
      split at h
      · rename_i rest₁ hdrop
        -- the space behind the digits was the last byte
        subst h
        rw [hdrop] at hsplit
        refine ⟨32, ?_, by decide⟩
        rw [← hsplit, ← List.cons_append, List.getLast?_append_of_ne_nil _ (by simp)]
        rfl
      · -- only digits follow the `*`
        rw [h, List.append_nil] at hsplit
        have hdigits : ∀ c ∈ rest, isAsciiDigit c := by
          intro c hc
          rw [← hsplit] at hc
          exact List.all_eq_true.mp List.all_takeWhile c hc
        refine ⟨(x :: rest).getLast (by simp), List.getLast?_eq_some_getLast _, ?_⟩
        have hmem := List.getLast_mem (l := x :: rest) (by simp)
        rcases List.mem_cons.mp hmem with heq | hdigit
        · rw [heq, hx]
          decide
        · intro hten
          have hten' := hdigits _ hdigit
          rw [hten] at hten'
          exact absurd hten' (by decide)
    · cases h

/-- The message of a line: what steps 1 to 3 leave. -/
def messageOf (buf : Bytes) : Bytes := skipConnection (skipPast 58 32 (skipPast 93 32 buf))

/-- A line whose message is empty does not end in a newline. -/
theorem getLast_of_messageOf_eq_nil {buf : Bytes} (h : messageOf buf = []) :
    buf.getLast? ≠ some 10 := by
  obtain ⟨pos₁, -, hpos₁⟩ := pastPair_spec 93 32 (PointsAt.start buf)
  obtain ⟨pos₂, -, hpos₂⟩ := pastPair_spec 58 32 hpos₁
  have hspace : some (32 : UInt8) ≠ some 10 := by decide
  rcases getLast_of_skipConnection_eq_nil h with hnil₂ | ⟨c, hlast, hc⟩
  · rcases getLast_of_skipPast_eq_nil hnil₂ with hnil₁ | hlast
    · rcases getLast_of_skipPast_eq_nil hnil₁ with rfl | hlast
      · simp
      · rw [hlast]
        exact hspace
    · rw [hpos₁.getLast (by rintro hnil; rw [hnil] at hlast; cases hlast), hlast]
      exact hspace
  · rw [hpos₂.getLast (by rintro hnil; rw [hnil] at hlast; cases hlast), hlast]
    simpa using hc

theorem trimNewline_append (message : Bytes) : ∃ tail, message = trimNewline message ++ tail := by
  unfold trimNewline
  split
  · rename_i hlast
    exact ⟨[10], (List.dropLast_append_getLast? 10 hlast).symm⟩
  · exact ⟨[], (List.append_nil message).symm⟩

theorem length_trimNewline (message : Bytes) : (trimNewline message).length =
    if message.getLast? = some 10 then message.length - 1 else message.length := by
  unfold trimNewline
  split
  · exact List.length_dropLast
  · rfl

theorem trimmedEnd_eq (buf : Bytes) : trimmedEnd buf =
    some (if buf.getLast? = some 10 then buf.length - 1 else buf.length) := by
  unfold trimmedEnd
  by_cases hbuf : buf.length > 0
  · obtain ⟨last, hlast⟩ : ∃ last, buf[buf.length - 1]? = some last :=
      ⟨_, List.getElem?_eq_getElem (by omega)⟩
    rw [if_pos hbuf, List.getLast?_eq_getElem?, hlast]
    by_cases hten : last = 10
    · simp [hten]
    · simp [hten]
  · have hnil : buf = [] := List.length_eq_zero_iff.mp (by omega)
    simp [hnil]

/-- The end of the line is the end of the message without its newline. -/
theorem trimmedEnd_spec {buf : Bytes} {pos : Nat} (h : PointsAt buf pos (messageOf buf)) :
    trimmedEnd buf = some (pos + (trimNewline (messageOf buf)).length) := by
  have hlen := h.length
  rw [trimmedEnd_eq, length_trimNewline]
  by_cases hnil : messageOf buf = []
  · rw [if_neg (getLast_of_messageOf_eq_nil hnil), hlen, hnil]
    simp
  · rw [h.getLast hnil]
    have hpos : 0 < (messageOf buf).length := List.length_pos_iff.mpr hnil
    split
    · congr 1
      omega
    · rw [hlen]

/-! ## The context markers -/

theorem sliceOf_middle {front body tail : Bytes} {n : Nat} (hn : n ≤ body.length) :
    sliceOf (front ++ (body ++ tail)) front.length (front.length + n) = some (body.take n) := by
  rw [sliceOf, if_pos ⟨by omega, by simp only [List.length_append]; omega⟩, List.drop_left,
    Nat.add_sub_cancel_left, List.take_append_of_le_length hn]

theorem markerAt_eq (marker front body tail : Bytes) :
    markerAt (front ++ (body ++ tail)) marker front.length (front.length + body.length) =
      some (marker.isPrefixOf body) := by
  unfold markerAt
  by_cases hfits : marker.length ≤ body.length
  · rw [if_pos (by omega), sliceOf_middle hfits]
    show some (body.take marker.length == marker) = _
    congr 1
    rw [Bool.eq_iff_iff, beq_iff_eq, List.isPrefixOf_iff_prefix, List.prefix_iff_eq_take]
    exact eq_comm
  · rw [if_neg (by omega)]
    congr 1
    symm
    rw [Bool.eq_false_iff, ne_eq, List.isPrefixOf_iff_prefix]
    exact fun hmarker => hfits hmarker.length_le

theorem contextAt_eq (front body tail : Bytes) : ∀ markers : List Bytes,
    contextAt (front ++ (body ++ tail)) front.length (front.length + body.length) markers =
      some (markers.any fun m => m.isPrefixOf body)
  | [] => rfl
  | marker :: markers => by
    rw [contextAt, markerAt_eq, List.any_cons, contextAt_eq front body tail markers]
    cases marker.isPrefixOf body with
    | false => rfl
    | true => rfl

theorem contextEndLoop_eq : ∀ front body tail : Bytes,
    contextEndLoop (front ++ (body ++ tail)) (front.length + body.length) body.length front.length =
      some (front.length + (cutContext body).length)
  | _, [], _ => rfl
  | front, x :: body, tail => by
    rw [List.length_cons, contextEndLoop, if_pos (by omega), ← List.length_cons, contextAt_eq,
      cutContext]
    cases hmarker : CONTEXT_MARKERS.any fun m => m.isPrefixOf (x :: body) with
    | true => rfl
    | false =>
      have ih := contextEndLoop_eq (front ++ [x]) body tail
      rw [List.append_assoc, List.singleton_append, List.length_append, List.length_singleton,
        Nat.add_assoc, Nat.add_comm 1 body.length] at ih
      show contextEndLoop _ _ body.length (front.length + 1) = _
      rw [List.cons_append, List.length_cons, ih]
      simp only [Bool.false_eq_true, if_false, List.length_cons]
      congr 1
      omega

/-- The core of a line before the fallback to the whole line. -/
def coreOf (buf : Bytes) : Bytes := cutContext (trimNewline (messageOf buf))

theorem stableCore_eq (buf : Bytes) :
    stableCore buf = if (coreOf buf).isEmpty then buf else coreOf buf := rfl

theorem cutContext_prefix_self : ∀ body : Bytes, cutContext body <+: body
  | [] => List.prefix_rfl
  | x :: body => by
    rw [cutContext]
    split
    · exact List.nil_prefix
    · exact List.prefix_cons_inj x |>.mpr (cutContext_prefix_self body)

/-- **The function on positions stays inside the line**, and the range that it returns holds what
`stableCore` says. -/
theorem stableCoreRange_eq (buf : Bytes) : ∃ lo hi, stableCoreRange buf = some (lo, hi) ∧
    lo ≤ hi ∧ hi ≤ buf.length ∧ (buf.drop lo).take (hi - lo) = stableCore buf := by
  obtain ⟨pos₁, hscan₁, hpos₁⟩ := pastPair_spec 93 32 (PointsAt.start buf)
  obtain ⟨pos₂, hscan₂, hpos₂⟩ := pastPair_spec 58 32 hpos₁
  obtain ⟨coreStart, hscan₃, hstart⟩ := pastConnection_spec hpos₂
  have hmessage : PointsAt buf coreStart (messageOf buf) := hstart
  have hstop := trimmedEnd_spec hmessage
  obtain ⟨front, hbuf, hfront⟩ := hmessage
  obtain ⟨tail, htail⟩ := trimNewline_append (messageOf buf)
  obtain ⟨behind, hbehind⟩ := cutContext_prefix_self (trimNewline (messageOf buf))
  -- the line is what stands before the core, the core, and what stands behind it
  have hparts : buf = front ++ (coreOf buf ++ (behind ++ tail)) := by
    rw [coreOf, ← List.append_assoc (cutContext _), hbehind, ← htail]
    exact hbuf
  have hcut : contextEnd buf coreStart (coreStart + (trimNewline (messageOf buf)).length) =
      some (coreStart + (coreOf buf).length) := by
    have hloop := contextEndLoop_eq front (trimNewline (messageOf buf)) tail
    rw [← htail, ← hbuf, hfront] at hloop
    rw [contextEnd, Nat.add_sub_cancel_left]
    exact hloop
  have hslice : sliceOf buf coreStart (coreStart + (coreOf buf).length) = some (coreOf buf) := by
    have hmiddle : sliceOf (front ++ (coreOf buf ++ (behind ++ tail))) front.length
        (front.length + (coreOf buf).length) = some ((coreOf buf).take (coreOf buf).length) :=
      sliceOf_middle (Nat.le_refl _)
    rw [← hparts, hfront, List.take_length] at hmiddle
    exact hmiddle
  have hlen := congrArg List.length hparts
  simp only [List.length_append] at hlen
  have hrange : stableCoreRange buf = if (coreOf buf).isEmpty then some (0, buf.length)
      else some (coreStart, coreStart + (coreOf buf).length) := by
    simp only [stableCoreRange, hscan₁, hscan₂, hscan₃, hstop, hcut, hslice, bind,
      Option.bind_some]
  rw [hrange, stableCore_eq]
  by_cases hempty : (coreOf buf).isEmpty
  · rw [if_pos hempty, if_pos hempty]
    exact ⟨0, buf.length, rfl, Nat.zero_le _, Nat.le_refl _, by simp⟩
  · rw [if_neg hempty, if_neg hempty]
    refine ⟨coreStart, _, rfl, Nat.le_add_right _ _, by omega, ?_⟩
    rw [Nat.add_sub_cancel_left]
    have hdrop : buf.drop coreStart = coreOf buf ++ (behind ++ tail) := by
      rw [← hfront]
      conv_lhs => rw [hparts]
      rw [List.drop_left]
    rw [hdrop, List.take_left]

/-- The core of a line is empty only if the line is. -/
theorem stableCore_ne_nil {buf : Bytes} (h : buf ≠ []) : stableCore buf ≠ [] := by
  rw [stableCore_eq]
  split
  · exact h
  · rename_i hcore
    simpa using hcore

/-! ## Lines as nginx writes them -/

/-- The parts of an error line, with what is assumed of them: the first `]` closes the level, the
process and thread ids and the connection number are digits, the message does not start with a `*`,
and the first context marker behind the start of the message is where the suffix starts. -/
structure ErrorLine where
  time : Bytes
  level : Bytes
  pid : Bytes
  tid : Bytes
  connection : Option Bytes
  message : Bytes
  suffix : Bytes
  time_bracket : 93 ∉ time
  level_bracket : 93 ∉ level
  pid_digits : ∀ b ∈ pid, isAsciiDigit b
  tid_digits : ∀ b ∈ tid, isAsciiDigit b
  connection_digits : ∀ digits ∈ connection, ∀ b ∈ digits, isAsciiDigit b
  message_ne_nil : message ≠ []
  message_star : message.head? ≠ some 42
  no_newline : 10 ∉ time ∧ 10 ∉ level ∧ 10 ∉ message ∧ 10 ∉ suffix
  context :
    (suffix = [] ∧ ∀ marker ∈ CONTEXT_MARKERS, ¬marker <:+: message) ∨
      ((∃ marker ∈ CONTEXT_MARKERS, marker <+: suffix) ∧
        ∀ k < message.length, ∀ marker ∈ CONTEXT_MARKERS, ¬marker <+: (message ++ suffix).drop k)

/-- A line of this shape: `1 [e] 7#7: *1 ok, client:`. -/
instance : Inhabited ErrorLine where
  default :=
    { time := [49], level := [101], pid := [55], tid := [55], connection := some [49]
      message := [111, 107], suffix := [44, 32, 99, 108, 105, 101, 110, 116, 58]
      time_bracket := by decide
      level_bracket := by decide
      pid_digits := List.forall_mem_singleton.mpr (by decide)
      tid_digits := List.forall_mem_singleton.mpr (by decide)
      connection_digits := by
        rintro digits ⟨⟩
        exact List.forall_mem_singleton.mpr (by decide)
      message_ne_nil := by decide
      message_star := by decide
      no_newline := by decide
      context := .inr (by decide) }

namespace ErrorLine

variable (line : ErrorLine)

/-- `*<digits> `, when there is a connection. -/
def tag : Bytes := line.connection.elim [] fun digits => 42 :: (digits ++ [32])

/-- The line: `<time> [<level>] <pid>#<tid>: <tag><message><suffix>`. -/
def text (newline : Bool) : Bytes :=
  (line.time ++ [32, 91] ++ line.level) ++ 93 :: 32 ::
    ((line.pid ++ [35] ++ line.tid) ++ 58 :: 32 ::
      (line.tag ++ (line.message ++ line.suffix ++ if newline then [10] else [])))

end ErrorLine

/-- A scan for `a b` passes over bytes without an `a`. -/
theorem skipPast_append {a b : UInt8} {rest : Bytes} : ∀ {front : Bytes}, a ∉ front →
    skipPast a b (front ++ a :: b :: rest) = rest
  | [], _ => by rw [List.nil_append, skipPast, if_pos ⟨rfl, rfl⟩]
  | x :: front, h => by
    have hx : x ≠ a := fun hx => h (hx ▸ List.mem_cons_self)
    have hfront : a ∉ front := fun hmem => h (List.mem_cons_of_mem x hmem)
    cases hrest : front ++ a :: b :: rest with
    | nil => simp at hrest
    | cons y rest' =>
      rw [List.cons_append, hrest, skipPast, if_neg (fun hpair => hx hpair.1), ← hrest]
      exact skipPast_append hfront

theorem not_mem_of_digits {c : UInt8} {bytes : Bytes} (hc : isAsciiDigit c = false)
    (h : ∀ b ∈ bytes, isAsciiDigit b) : c ∉ bytes := by
  intro hmem
  have hdigit := h c hmem
  rw [hc] at hdigit
  cases hdigit

theorem skipConnection_tag (line : ErrorLine) (rest : Bytes) :
    skipConnection (line.tag ++ (line.message ++ rest)) = line.message ++ rest := by
  cases hconnection : line.connection with
  | none =>
    obtain ⟨x, message, hmessage⟩ := List.exists_cons_of_ne_nil line.message_ne_nil
    have hx : x ≠ 42 := by
      have hstar := line.message_star
      rw [hmessage] at hstar
      simpa using hstar
    simp [ErrorLine.tag, hconnection, hmessage, skipConnection, hx]
  | some digits =>
    have hdigits := line.connection_digits digits (by simp [hconnection])
    have hdrop : (digits ++ 32 :: (line.message ++ rest)).dropWhile isAsciiDigit =
        32 :: (line.message ++ rest) := by
      rw [List.dropWhile_append_of_pos hdigits, List.dropWhile_cons_of_neg (by decide)]
    simp [ErrorLine.tag, hconnection, skipConnection, hdrop]

theorem trimNewline_text (line : ErrorLine) (newline : Bool) :
    trimNewline (line.message ++ line.suffix ++ if newline then [10] else []) =
      line.message ++ line.suffix := by
  cases newline with
  | true => simp [trimNewline]
  | false =>
    obtain ⟨-, -, hmessage, hsuffix⟩ := line.no_newline
    have hlast : (line.message ++ line.suffix).getLast? ≠ some 10 := by
      intro hlast
      rcases List.mem_append.mp (List.mem_of_getLast? hlast) with hmem | hmem
      · exact hmessage hmem
      · exact hsuffix hmem
    rw [if_neg Bool.false_ne_true, List.append_nil, trimNewline, if_neg hlast]

/-- Nothing is cut before the first marker. -/
theorem cutContext_append : ∀ {message suffix : Bytes},
    (∀ k < message.length, ∀ marker ∈ CONTEXT_MARKERS, ¬marker <+: (message ++ suffix).drop k) →
    cutContext (message ++ suffix) = message ++ cutContext suffix
  | [], _, _ => rfl
  | x :: message, suffix, h => by
    have hhead : ¬(CONTEXT_MARKERS.any fun m => m.isPrefixOf (x :: (message ++ suffix))) := by
      rw [List.any_eq_true]
      rintro ⟨marker, hmem, hmarker⟩
      exact h 0 (by simp) marker hmem (List.isPrefixOf_iff_prefix.mp hmarker)
    rw [List.cons_append, cutContext, if_neg hhead, List.cons_append,
      cutContext_append fun k hk marker hmem => h (k + 1) (by simpa using hk) marker hmem]

theorem cutContext_of_marker {marker suffix : Bytes} (hmem : marker ∈ CONTEXT_MARKERS)
    (h : marker <+: suffix) : cutContext suffix = [] := by
  cases suffix with
  | nil => rfl
  | cons x suffix =>
    rw [cutContext, if_pos]
    exact List.any_eq_true.mpr ⟨marker, hmem, List.isPrefixOf_iff_prefix.mpr h⟩

theorem cutContext_text (line : ErrorLine) :
    cutContext (line.message ++ line.suffix) = line.message := by
  rcases line.context with ⟨hsuffix, hnone⟩ | ⟨⟨marker, hmem, hmarker⟩, hfirst⟩
  · rw [cutContext_append, hsuffix]
    · exact List.append_nil _
    · intro k _ marker hmem hmarker
      rw [hsuffix, List.append_nil] at hmarker
      exact hnone marker hmem (hmarker.isInfix.trans (List.drop_suffix k _).isInfix)
  · rw [cutContext_append hfirst, cutContext_of_marker hmem hmarker, List.append_nil]

/-- **The core of a well-formed line is its message.** -/
theorem stableCore_text (line : ErrorLine) (newline : Bool) :
    stableCore (line.text newline) = line.message := by
  have hlevel : 93 ∉ line.time ++ [32, 91] ++ line.level := by
    simp [line.time_bracket, line.level_bracket]
  have hprocess : 58 ∉ line.pid ++ [35] ++ line.tid := by
    have hpid := not_mem_of_digits (c := 58) (by decide) line.pid_digits
    have htid := not_mem_of_digits (c := 58) (by decide) line.tid_digits
    simp [hpid, htid]
  have hmessage : messageOf (line.text newline) =
      line.message ++ line.suffix ++ if newline then [10] else [] := by
    rw [messageOf, ErrorLine.text, skipPast_append hlevel, skipPast_append hprocess,
      List.append_assoc line.message, skipConnection_tag]
  have hcore : coreOf (line.text newline) = line.message := by
    rw [coreOf, hmessage, trimNewline_text, cutContext_text]
  rw [stableCore_eq, hcore, if_neg]
  simpa using line.message_ne_nil

/-- **`stable_core`.**  Every access is inside the line and the result is a slice of it, not empty
if the line is not; of a well-formed line it is the message, so that lines with the same message and
severity have the same key. -/
theorem stable_core_spec :
    (∀ buf : Bytes, ∃ lo hi, stableCoreRange buf = some (lo, hi) ∧ lo ≤ hi ∧ hi ≤ buf.length ∧
      (buf ≠ [] → lo < hi) ∧ (buf.drop lo).take (hi - lo) = stableCore buf) ∧
    (∀ (line : ErrorLine) (newline : Bool), stableCore (line.text newline) = line.message) ∧
    ∀ (line line' : ErrorLine) (newline newline' : Bool) (severity : UInt8),
      line.message = line'.message →
        coalesceKey severity (stableCore (line.text newline)) =
          coalesceKey severity (stableCore (line'.text newline')) := by
  refine ⟨?_, stableCore_text, ?_⟩
  · intro buf
    obtain ⟨lo, hi, hrange, hle, hhi, hslice⟩ := stableCoreRange_eq buf
    refine ⟨lo, hi, hrange, hle, hhi, ?_, hslice⟩
    intro hbuf
    have hne := stableCore_ne_nil hbuf
    rw [← hslice] at hne
    by_contra hempty
    rw [show hi - lo = 0 by omega] at hne
    exact hne rfl
  · intro line line' newline newline' severity hmessage
    rw [stableCore_text, stableCore_text, hmessage]

end NgxOtel.Coalesce
