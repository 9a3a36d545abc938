import NgxOtel.Lib.Word
import Mathlib.Data.List.DropRight

/-!
# Decimal numbers in texts

Numbers as a header or a trailer spells them: decimal digits between blanks.

* `parse limit` — the number that digits spell, if it is not above `limit`; every step is checked.
* `parseUnsigned`, `parseSigned` — the same behind a sign.
* `trim` — a text without the blanks around it.

## Results

* `parse_digits` — digits of a number within the limit are read as that number.
* `parse_none` — a text with anything else in it is not a number.
* `trim_between` — the blanks around a text are what `trim` takes away.
-/

set_option autoImplicit false

namespace Decimal

open Word

def isDigit (c : UInt8) : Bool := 48 ≤ c && c ≤ 57

/-- The number that digits spell, behind a number read before. -/
def value (v : Nat) (digits : Bytes) : Nat :=
  digits.foldl (fun v c => v * 10 + (c.toNat - 48)) v

/-- One digit more, within the limit. -/
def step (limit v : Nat) (c : UInt8) : Option Nat :=
  if isDigit c then
    if v * 10 ≤ limit then
      if v * 10 + (c.toNat - 48) ≤ limit then some (v * 10 + (c.toNat - 48)) else none
    else none
  else none

def parse (limit : Nat) (text : Bytes) : Option Nat :=
  if text.isEmpty then none else text.foldlM (step limit) 0

theorem le_value : ∀ (digits : Bytes) (v : Nat), v ≤ value v digits
  | [], _ => Nat.le_refl _
  | c :: digits, v => by
    have hrest : v * 10 + (c.toNat - 48) ≤ value v (c :: digits) := le_value digits _
    omega

theorem foldlM_step {limit : Nat} : ∀ {digits : Bytes} {v : Nat},
    (∀ c ∈ digits, isDigit c = true) → value v digits ≤ limit →
      digits.foldlM (step limit) v = some (value v digits)
  | [], _, _, _ => rfl
  | c :: digits, v, hdigits, hlimit => by
    rw [List.forall_mem_cons] at hdigits
    have hrest : v * 10 + (c.toNat - 48) ≤ value v (c :: digits) := le_value digits _
    have hstep : step limit v c = some (v * 10 + (c.toNat - 48)) := by
      rw [step, if_pos hdigits.1, if_pos (by omega), if_pos (by omega)]
    rw [List.foldlM_cons, hstep]
    exact foldlM_step hdigits.2 hlimit

theorem parse_digits {limit : Nat} {digits : Bytes} (hne : digits ≠ [])
    (hdigits : ∀ c ∈ digits, isDigit c = true) (hlimit : value 0 digits ≤ limit) :
    parse limit digits = some (value 0 digits) := by
  rw [parse, if_neg (by simpa using hne)]
  exact foldlM_step hdigits hlimit

theorem foldlM_none {limit : Nat} : ∀ {text : Bytes} {v : Nat} {c : UInt8}, c ∈ text →
    isDigit c = false → text.foldlM (step limit) v = none
  | d :: text, v, c, hmem, hc => by
    rw [List.foldlM_cons]
    rcases List.mem_cons.mp hmem with rfl | hmem
    · rw [step, if_neg (by rw [hc]; exact Bool.false_ne_true)]
      rfl
    · cases step limit v d with
      | none => rfl
      | some w => exact foldlM_none hmem hc

theorem parse_none {limit : Nat} {text : Bytes} {c : UInt8} (hmem : c ∈ text)
    (hc : isDigit c = false) : parse limit text = none := by
  rw [parse, foldlM_none hmem hc, ite_self]

/-! ## Signs -/

/-- Digits, behind a `+` or not. -/
def parseUnsigned (limit : Nat) : Bytes → Option Nat
  | 43 :: text => parse limit text
  | text => parse limit text

/-- Digits, behind a `+`, a `-` or no sign, of a number of `w + 1` bits. -/
def parseSigned (w : Nat) : Bytes → Option Int
  | 43 :: text => (parse (2 ^ w - 1) text).map Int.ofNat
  | 45 :: text => (parse (2 ^ w) text).map fun n => -(n : Int)
  | text => (parse (2 ^ w - 1) text).map Int.ofNat

theorem ne_of_isDigit {c d : UInt8} (hc : isDigit c = true) (hd : isDigit d = false) : c ≠ d := by
  rintro rfl
  rw [hc] at hd
  cases hd

theorem parseUnsigned_digits {limit : Nat} {digits : Bytes} (hne : digits ≠ [])
    (hdigits : ∀ c ∈ digits, isDigit c = true) (hlimit : value 0 digits ≤ limit) :
    parseUnsigned limit digits = some (value 0 digits) := by
  rw [← parse_digits hne hdigits hlimit]
  unfold parseUnsigned
  split
  · exact absurd rfl (ne_of_isDigit (hdigits 43 List.mem_cons_self) (by decide))
  · rfl

theorem parseSigned_digits {w : Nat} {digits : Bytes} (hne : digits ≠ [])
    (hdigits : ∀ c ∈ digits, isDigit c = true) (hlimit : value 0 digits < 2 ^ w) :
    parseSigned w digits = some (value 0 digits : Int) := by
  have hparse : parse (2 ^ w - 1) digits = some (value 0 digits) :=
    parse_digits hne hdigits (by omega)
  unfold parseSigned
  split
  · exact absurd rfl (ne_of_isDigit (hdigits 43 List.mem_cons_self) (by decide))
  · exact absurd rfl (ne_of_isDigit (hdigits 45 List.mem_cons_self) (by decide))
  · rw [hparse]
    rfl

/-- The sign is no digit, so what is not a digit behind it is not one in the whole text. -/
theorem parseUnsigned_none {limit : Nat} {c d : UInt8} {text : Bytes} (hmem : c ∈ text)
    (hc : isDigit c = false) : parseUnsigned limit (d :: text) = none := by
  unfold parseUnsigned
  split
  · next rest heq =>
    cases heq
    exact parse_none hmem hc
  · exact parse_none (List.mem_cons_of_mem d hmem) hc

/-! ## Blanks -/

/-- The white space of a text in ASCII. -/
def isBlank (c : UInt8) : Bool := c = 32 || (9 ≤ c && c ≤ 13)

def trim (text : Bytes) : Bytes := (text.dropWhile isBlank).rdropWhile isBlank

theorem not_isBlank_of_isDigit {c : UInt8} (h : isDigit c = true) : isBlank c = false := by
  simp only [isDigit, isBlank, Bool.and_eq_true, decide_eq_true_eq, Bool.or_eq_false_iff,
    decide_eq_false_iff_not, Bool.and_eq_false_iff, UInt8.le_iff_toNat_le, UInt8.reduceToNat] at h ⊢
  refine ⟨fun h32 => ?_, ?_⟩
  · rw [h32] at h
    exact absurd h.1 (by decide)
  · omega

theorem dropWhile_between {before text : Bytes} (hbefore : ∀ c ∈ before, isBlank c = true)
    (htext : ∀ c ∈ text.head?, isBlank c = false) :
    (before ++ text).dropWhile isBlank = text := by
  rw [List.dropWhile_append_of_pos hbefore]
  cases text with
  | nil => rfl
  | cons c text => rw [List.dropWhile_cons_of_neg (by rw [htext c rfl]; exact Bool.false_ne_true)]

/-- **The blanks around a text are taken away**, when it neither begins nor ends with one. -/
theorem trim_between {before text after : Bytes} (hbefore : ∀ c ∈ before, isBlank c = true)
    (hafter : ∀ c ∈ after, isBlank c = true) (hne : text ≠ [])
    (hhead : ∀ c ∈ text.head?, isBlank c = false)
    (hlast : ∀ c ∈ text.getLast?, isBlank c = false) :
    trim (before ++ (text ++ after)) = text := by
  have hfirst : ∀ c ∈ (text ++ after).head?, isBlank c = false := by
    rw [List.head?_append_of_ne_nil _ hne]
    exact hhead
  have hreverse : (after.reverse ++ text.reverse).dropWhile isBlank = text.reverse :=
    dropWhile_between (fun c hc => hafter c (List.mem_reverse.mp hc))
      (by rw [List.head?_reverse]; exact hlast)
  rw [trim, dropWhile_between hbefore hfirst, List.rdropWhile, List.reverse_append, hreverse,
    List.reverse_reverse]

end Decimal
