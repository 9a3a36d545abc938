import NgxOtel.Lib.WireRules

/-!
# The `traceparent` header value

`build_traceparent_value` (`metric_source/span_start.rs`) renders a trace context as the 55 bytes
`00-<trace id>-<span id>-<flags>` in lower-case hexadecimal, `parse_traceparent_full`
(`logs/access.rs`) reads such a value.

* `hexEncode`, `hexBytes` — bytes as pairs of hexadecimal digits, and back.
* `buildTraceparentValue`, `parseTraceparentFull` — the two sides of the header value.

## Results

* `length_buildTraceparentValue` — the value always has 55 bytes.
* `parse_build` — **round trip**: a value built from ids that are not all zero is read back.
* `parse_valid` — what is read back has ids that are not all zero.
* `parse_eq_some_iff` — **exact inverse**: a value is accepted if and only if it was built from ids
  that are not all zero, and it is read back as what it was built from.
-/

set_option autoImplicit false

namespace NgxOtel.Traces

open Word Wire

/-! ## Hexadecimal -/

/-- The digits `0123456789abcdef`. -/
def HEX : Bytes :=
  [0x30, 0x31, 0x32, 0x33, 0x34, 0x35, 0x36, 0x37, 0x38, 0x39, 0x61, 0x62, 0x63, 0x64, 0x65, 0x66]

/-- The two digits of a byte. -/
def hexDigits (byte : UInt8) : Bytes :=
  [HEX.getD (byte >>> 4).toNat 0, HEX.getD (byte &&& 0xf).toNat 0]

/-- `hex_encode_into_slice`. -/
def hexEncode (src : Bytes) : Bytes := src.flatMap hexDigits

/-- `hex_nibble`: lower case only. -/
def hexNibble (c : UInt8) : Option UInt8 :=
  if 0x30 ≤ c ∧ c ≤ 0x39 then some (c - 0x30)
  else if 0x61 ≤ c ∧ c ≤ 0x66 then some (c - 0x61 + 10)
  else none

/-- A byte from its two digits. -/
def hexByte : Reader UInt8 := do
  let hi ← byte
  let lo ← byte
  match hexNibble hi, hexNibble lo with
  | some h, some l => pure (h <<< 4 ||| l)
  | _, _ => reject

/-- `decode_hex16` and `decode_hex8`: `n` bytes from `2 * n` digits. -/
def hexBytes : (n : Nat) → Reader (Octets n)
  | 0 => pure ⟨[], rfl⟩
  | n + 1 => do
    let b ← hexByte
    let out ← hexBytes n
    pure ⟨b :: out.val, by rw [List.length_cons, out.property]⟩

/-- The nibbles of a byte are read back from its digits. -/
theorem hexNibble_digits (b : UInt8) :
    hexNibble (HEX.getD (b >>> 4).toNat 0) = some (b >>> 4) ∧
      hexNibble (HEX.getD (b &&& 0xf).toNat 0) = some (b &&& 0xf) ∧
      ((b >>> 4) <<< 4 ||| b &&& 0xf) = b := by
  have hall : ∀ n : Fin 256, hexNibble (HEX.getD (UInt8.ofNat n >>> 4).toNat 0) =
        some (UInt8.ofNat n >>> 4) ∧
      hexNibble (HEX.getD (UInt8.ofNat n &&& 0xf).toNat 0) = some (UInt8.ofNat n &&& 0xf) ∧
      ((UInt8.ofNat n >>> 4) <<< 4 ||| UInt8.ofNat n &&& 0xf) = UInt8.ofNat n := by
    decide +kernel
  have hb := hall ⟨b.toNat, b.toNat_lt⟩
  rw [UInt8.ofNat_toNat] at hb
  exact hb

theorem decodes_hexByte (b : UInt8) : Decodes hexByte (hexDigits b) b := by
  obtain ⟨hhigh, hlow, hbyte⟩ := hexNibble_digits b
  show Decodes hexByte ([_] ++ [_]) b
  unfold hexByte
  refine (Decodes.byte _).bind ?_
  intro rest
  rw [bind_of_ok (Decodes.byte _ rest), hhigh, hlow]
  show (pure ((b >>> 4) <<< 4 ||| b &&& 0xf) : Reader UInt8) rest = .ok (b, rest)
  rw [hbyte]
  rfl

theorem decodes_hexBytes : ∀ {n : Nat} (src : Octets n), Decodes (hexBytes n) (hexEncode src.val) src
  | 0, ⟨src, hsrc⟩ => by
    obtain rfl := List.length_eq_zero_iff.mp hsrc
    exact Decodes.pure _
  | n + 1, ⟨[], hsrc⟩ => by cases hsrc
  | n + 1, ⟨b :: src, hsrc⟩ => by
    have hrest : src.length = n := Nat.succ.inj hsrc
    exact (decodes_hexByte b).bind (decodes_hexBytes ⟨src, hrest⟩).last

@[simp] theorem length_hexEncode (src : Bytes) : (hexEncode src).length = 2 * src.length := by
  induction src with
  | nil => rfl
  | cons b src ih =>
    rw [hexEncode, List.flatMap_cons, List.length_append, ← hexEncode, ih, hexDigits,
      List.length_cons, List.length_singleton, List.length_cons]
    omega

/-! ## The header value -/

/-- `build_traceparent_value`. -/
def buildTraceparentValue (traceId : Octets 16) (spanId : Octets 8) (traceFlags : UInt8) : Bytes :=
  [0x30] ++ ([0x30] ++ ([0x2d] ++ (hexEncode traceId.val ++ ([0x2d] ++ (hexEncode spanId.val ++
    ([0x2d] ++ hexDigits traceFlags))))))

/-- A byte that has to be there. -/
def expect (c : UInt8) : Reader Unit := do
  let b ← byte
  if b ≠ c then reject else pure ()

/-- The fields of a value of version 00. -/
def traceparentFields : Reader (Octets 16 × Octets 8 × UInt8) := do
  need 55
  expect 0x30
  expect 0x30
  expect 0x2d
  let traceId ← hexBytes 16
  expect 0x2d
  let parentSpanId ← hexBytes 8
  expect 0x2d
  let flags ← hexByte
  pure (traceId, parentSpanId, flags)

/-- `parse_traceparent_full`: nothing may follow the flags, and no id may be all zero. -/
def parseTraceparentFull (header : Bytes) : Option (Octets 16 × Octets 8 × UInt32) :=
  match traceparentFields header with
  | .error _ => none
  | .ok ((traceId, parentSpanId, flags), trailing) =>
    if trailing ≠ [] then none
    else if traceId.val = List.replicate 16 0 then none
    else if parentSpanId.val = List.replicate 8 0 then none
    else some (traceId, parentSpanId, flags.toUInt32)

@[simp] theorem length_buildTraceparentValue (traceId : Octets 16) (spanId : Octets 8)
    (traceFlags : UInt8) : (buildTraceparentValue traceId spanId traceFlags).length = 55 := by
  simp [buildTraceparentValue, hexDigits, traceId.property, spanId.property]

theorem decodes_expect (c : UInt8) : Decodes (expect c) [c] () := by
  intro rest
  unfold expect
  rw [bind_of_ok (Decodes.byte c rest), if_neg (by simp)]
  rfl

theorem decodes_traceparentFields (traceId : Octets 16) (spanId : Octets 8) (traceFlags : UInt8) :
    Decodes traceparentFields (buildTraceparentValue traceId spanId traceFlags)
      (traceId, spanId, traceFlags) := by
  unfold traceparentFields
  refine Decodes.need (by rw [length_buildTraceparentValue]) ?_
  unfold buildTraceparentValue
  refine (decodes_expect 0x30).bind ?_
  refine (decodes_expect 0x30).bind ?_
  refine (decodes_expect 0x2d).bind ?_
  refine (decodes_hexBytes traceId).bind ?_
  refine (decodes_expect 0x2d).bind ?_
  refine (decodes_hexBytes spanId).bind ?_
  refine (decodes_expect 0x2d).bind ?_
  exact (decodes_hexByte traceFlags).last

/-- **Round trip of the header value.** -/
theorem parse_build {traceId : Octets 16} {spanId : Octets 8}
    (htrace : traceId.val ≠ List.replicate 16 0) (hspan : spanId.val ≠ List.replicate 8 0)
    (traceFlags : UInt8) :
    parseTraceparentFull (buildTraceparentValue traceId spanId traceFlags) =
      some (traceId, spanId, traceFlags.toUInt32) := by
  have hfields := decodes_traceparentFields traceId spanId traceFlags []
  rw [List.append_nil] at hfields
  unfold parseTraceparentFull
  rw [hfields]
  show (if ([] : Bytes) ≠ [] then none else _) = _
  rw [if_neg (by simp), if_neg htrace, if_neg hspan]

/-! ## Nothing else is accepted -/

/-- A digit is determined by its nibble. -/
theorem hexNibble_eq_some {c v : UInt8} (h : hexNibble c = some v) :
    v.toNat < 16 ∧ HEX.getD v.toNat 0 = c := by
  have hall : ∀ n : Fin 256, ∀ v ∈ hexNibble (UInt8.ofNat n),
      v.toNat < 16 ∧ HEX.getD v.toNat 0 = UInt8.ofNat n := by
    decide +kernel
  have hc := hall ⟨c.toNat, c.toNat_lt⟩
  rw [UInt8.ofNat_toNat] at hc
  exact hc v h

/-- The nibbles of a byte that was put together from two of them. -/
theorem nibbles_join {h l : UInt8} (hh : h.toNat < 16) (hl : l.toNat < 16) :
    (h <<< 4 ||| l) >>> 4 = h ∧ (h <<< 4 ||| l) &&& 0xf = l := by
  have hall : ∀ m n : Fin 16,
      (UInt8.ofNat m <<< 4 ||| UInt8.ofNat n) >>> 4 = UInt8.ofNat m ∧
        (UInt8.ofNat m <<< 4 ||| UInt8.ofNat n) &&& 0xf = UInt8.ofNat n := by
    decide +kernel
  have hjoin := hall ⟨h.toNat, hh⟩ ⟨l.toNat, hl⟩
  rwa [UInt8.ofNat_toNat, UInt8.ofNat_toNat] at hjoin

theorem yields_hexByte {rest : Bytes} (h : 2 ≤ rest.length) :
    Yields hexByte rest fun b rest' => rest = hexDigits b ++ rest' := by
  unfold hexByte
  refine (Yields.byte (by omega)).bind ?_
  rintro hi rest₁ rfl
  simp only [List.length_append, List.length_singleton] at h
  refine (Yields.byte (by omega)).bind ?_
  rintro lo rest₂ rfl
  cases hhi : hexNibble hi with
  | none => exact Yields.reject
  | some high =>
    cases hlo : hexNibble lo with
    | none => exact Yields.reject
    | some low =>
      obtain ⟨hhigh, rfl⟩ := hexNibble_eq_some hhi
      obtain ⟨hlow, rfl⟩ := hexNibble_eq_some hlo
      obtain ⟨hshift, hmask⟩ := nibbles_join hhigh hlow
      refine Yields.pure ?_
      rw [hexDigits, hshift, hmask]
      rfl

theorem yields_hexBytes : ∀ {n : Nat} {rest : Bytes}, 2 * n ≤ rest.length →
    Yields (hexBytes n) rest fun out rest' => rest = hexEncode out.val ++ rest'
  | 0, rest, _ => Yields.pure rfl
  | n + 1, rest, h => by
    refine (yields_hexByte (by omega)).bind ?_
    rintro b rest₁ rfl
    simp only [hexDigits, List.length_append, List.length_cons, List.length_nil] at h
    refine (yields_hexBytes (by omega)).bind ?_
    rintro out rest₂ rfl
    refine Yields.pure ?_
    simp [hexEncode]

theorem yields_expect {c : UInt8} {rest : Bytes} (h : 1 ≤ rest.length) :
    Yields (expect c) rest fun _ rest' => rest = [c] ++ rest' := by
  unfold expect
  refine (Yields.byte h).bind ?_
  rintro b rest' rfl
  by_cases hb : b = c
  · subst hb
    rw [if_neg (by simp)]
    exact Yields.pure rfl
  · rw [if_pos hb]
    exact Yields.reject

/-- Whatever the fields are read from starts with the value built from them. -/
theorem yields_traceparentFields (header : Bytes) :
    Yields traceparentFields header fun fields trailing =>
      header = buildTraceparentValue fields.1 fields.2.1 fields.2.2 ++ trailing := by
  unfold traceparentFields
  refine Yields.need fun hlen => ?_
  refine (yields_expect (by omega)).bind ?_
  rintro - rest rfl
  rw [List.length_append, List.length_singleton] at hlen
  refine (yields_expect (by omega)).bind ?_
  rintro - rest rfl
  rw [List.length_append, List.length_singleton] at hlen
  refine (yields_expect (by omega)).bind ?_
  rintro - rest rfl
  rw [List.length_append, List.length_singleton] at hlen
  refine (yields_hexBytes (by omega)).bind ?_
  rintro traceId rest rfl
  rw [List.length_append, length_hexEncode, traceId.property] at hlen
  refine (yields_expect (by omega)).bind ?_
  rintro - rest rfl
  rw [List.length_append, List.length_singleton] at hlen
  refine (yields_hexBytes (by omega)).bind ?_
  rintro parentSpanId rest rfl
  rw [List.length_append, length_hexEncode, parentSpanId.property] at hlen
  refine (yields_expect (by omega)).bind ?_
  rintro - rest rfl
  rw [List.length_append, List.length_singleton] at hlen
  refine (yields_hexByte (by omega)).bind ?_
  rintro flags rest rfl
  refine Yields.pure ?_
  simp only [buildTraceparentValue, List.append_assoc]

/-- An accepted value ends behind the flags. -/
theorem header_eq_build {header : Bytes} {traceId : Octets 16} {parentSpanId : Octets 8}
    {flags : UInt32} (h : parseTraceparentFull header = some (traceId, parentSpanId, flags)) :
    ∃ octet : UInt8, flags = octet.toUInt32 ∧
      header = buildTraceparentValue traceId parentSpanId octet ∧
      traceId.val ≠ List.replicate 16 0 ∧ parentSpanId.val ≠ List.replicate 8 0 := by
  unfold parseTraceparentFull at h
  cases hfields : traceparentFields header with
  | error fault => rw [hfields] at h; cases h
  | ok decoded =>
    obtain ⟨⟨tid, psid, octet⟩, trailing⟩ := decoded
    have hheader := (yields_traceparentFields header).of_ok hfields
    rw [hfields] at h
    dsimp only at h
    by_cases htrailing : trailing = []
    · rw [if_neg (by simpa using htrailing)] at h
      by_cases htid : tid.val = List.replicate 16 0
      · rw [if_pos htid] at h
        cases h
      · rw [if_neg htid] at h
        by_cases hpsid : psid.val = List.replicate 8 0
        · rw [if_pos hpsid] at h
          cases h
        · rw [if_neg hpsid] at h
          cases h
          rw [htrailing, List.append_nil] at hheader
          exact ⟨octet, rfl, hheader, htid, hpsid⟩
    · rw [if_pos (by simpa using htrailing)] at h
      cases h

/-- What `parse_traceparent_full` accepts. -/
theorem parse_valid {header : Bytes} {traceId : Octets 16} {parentSpanId : Octets 8}
    {flags : UInt32} (h : parseTraceparentFull header = some (traceId, parentSpanId, flags)) :
    traceId.val ≠ List.replicate 16 0 ∧ ∃ octet : UInt8, flags = octet.toUInt32 := by
  obtain ⟨octet, hflags, -, htid, -⟩ := header_eq_build h
  exact ⟨htid, octet, hflags⟩

/-- **The two sides of the header value are exact inverses.** -/
theorem parse_eq_some_iff (header : Bytes) (traceId : Octets 16) (parentSpanId : Octets 8)
    (flags : UInt32) :
    parseTraceparentFull header = some (traceId, parentSpanId, flags) ↔
      traceId.val ≠ List.replicate 16 0 ∧ parentSpanId.val ≠ List.replicate 8 0 ∧
        flags.toNat < 256 ∧ header = buildTraceparentValue traceId parentSpanId flags.toUInt8 := by
  constructor
  · intro h
    obtain ⟨octet, rfl, hheader, htid, hpsid⟩ := header_eq_build h
    refine ⟨htid, hpsid, ?_, ?_⟩
    · rw [UInt8.toNat_toUInt32]
      exact octet.toNat_lt
    · rw [UInt8.toUInt8_toUInt32]
      exact hheader
  · rintro ⟨htid, hpsid, hflags, rfl⟩
    have hoctet : flags.toUInt8.toUInt32 = flags := by
      rw [UInt32.toNat_inj.symm]
      simp
      omega
    rw [parse_build htid hpsid, hoctet]

end NgxOtel.Traces
