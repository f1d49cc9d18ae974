import Mathlib.Data.List.Basic

/-! UTF-16: encoding characters in one or two units, and lossy decoding, which replaces every
unpaired surrogate. Decoding undoes encoding.
-/

namespace RustyPi.Utf16

/-- The units of one character: itself, or a high and a low surrogate. -/
def encodeChar (c : Char) : List Nat :=
  if c.toNat < 0x10000 then [c.toNat]
  else [0xD800 + (c.toNat - 0x10000) / 1024, 0xDC00 + (c.toNat - 0x10000) % 1024]

def encode (text : List Char) : List Nat := text.flatMap encodeChar

/-- U+FFFD. -/
def replacement : Char := Char.ofNat 0xFFFD

def isHigh (unit : Nat) : Bool := 0xD800 ≤ unit && unit < 0xDC00

def isLow (unit : Nat) : Bool := 0xDC00 ≤ unit && unit < 0xE000

def pair (high low : Nat) : Char :=
  Char.ofNat (0x10000 + (high - 0xD800) * 1024 + (low - 0xDC00))

/-- Decodes, with `replacement` for every surrogate that is not part of a pair. -/
def decode : List Nat → List Char
  | [] => []
  | [unit] => [if isHigh unit || isLow unit then replacement else Char.ofNat unit]
  | unit :: next :: rest =>
    if isHigh unit then
      if isLow next then pair unit next :: decode rest
      else replacement :: decode (next :: rest)
    else if isLow unit then replacement :: decode (next :: rest)
    else Char.ofNat unit :: decode (next :: rest)

theorem char_range (c : Char) : c.toNat < 0xD800 ∨ 0xE000 ≤ c.toNat ∧ c.toNat < 0x110000 := by
  have valid := c.valid
  simp only [UInt32.isValidChar, Nat.isValidChar] at valid
  simp only [Char.toNat]
  omega

theorem decode_cons_of_not_surrogate {unit : Nat} (high : isHigh unit = false)
    (low : isLow unit = false) (rest : List Nat)
    : decode (unit :: rest) = Char.ofNat unit :: decode rest := by
  cases rest <;> simp [decode, high, low]

theorem decode_encodeChar_append (c : Char) (rest : List Nat)
    : decode (encodeChar c ++ rest) = c :: decode rest := by
  have range := char_range c
  unfold encodeChar
  split
  case isTrue small =>
    have high : isHigh c.toNat = false := by simp [isHigh]; omega
    have low : isLow c.toNat = false := by simp [isLow]; omega
    simp [decode_cons_of_not_surrogate high low]
  case isFalse large =>
    obtain ⟨v, shifted⟩ : ∃ v, c.toNat = v + 0x10000 := ⟨c.toNat - 0x10000, by omega⟩
    have quotient : v / 1024 < 1024 := by omega
    have high : isHigh (0xD800 + (c.toNat - 0x10000) / 1024) = true := by
      simp [isHigh, shifted]; omega
    have low : isLow (0xDC00 + (c.toNat - 0x10000) % 1024) = true := by
      simp [isLow, shifted]; omega
    have whole : pair (0xD800 + (c.toNat - 0x10000) / 1024)
        (0xDC00 + (c.toNat - 0x10000) % 1024) = c := by
      have value : 0x10000 + (0xD800 + (c.toNat - 0x10000) / 1024 - 0xD800) * 1024
          + (0xDC00 + (c.toNat - 0x10000) % 1024 - 0xDC00) = c.toNat := by omega
      rw [pair, value, Char.ofNat_toNat]
    simp [decode, high, low, whole]

/-- A unit that no surrogate equals stands in an encoding only for its own character. -/
theorem mem_encodeChar_iff {unit : Nat} (high : isHigh unit = false) (low : isLow unit = false)
    (c : Char)
    : unit ∈ encodeChar c ↔ c.toNat = unit ∧ unit < 0x10000 := by
  have range := char_range c
  simp only [isHigh, isLow, Bool.and_eq_false_iff, decide_eq_false_iff_not] at high low
  unfold encodeChar
  split <;> simp <;> omega

theorem encodeChar_length_pos (c : Char) : 0 < (encodeChar c).length := by
  unfold encodeChar
  split <;> simp

theorem encodeChar_lt (c : Char) : ∀ unit ∈ encodeChar c, unit < 0x10000 := by
  have range := char_range c
  intro unit member
  unfold encodeChar at member
  split at member <;> simp at member <;> omega

theorem encode_lt {text : List Char} : ∀ unit ∈ encode text, unit < 0x10000 := by
  intro unit member
  obtain ⟨c, _, inside⟩ := List.mem_flatMap.mp member
  exact encodeChar_lt c unit inside

end RustyPi.Utf16
