import Mathlib.Data.List.Basic

/-! UTF-8 text: encoding characters, decoding a byte string that is well formed, and cutting any byte
string into well-formed chunks with what is between them.
-/

namespace RustyPi.Utf8

def encode (text : List Char) : List UInt8 := text.flatMap String.utf8EncodeChar

/-- The character that the bytes start with, if they start with one. -/
def firstChar (bytes : List UInt8) : Option Char := bytes.toByteArray.utf8DecodeChar? 0

@[simp] theorem encode_nil : encode [] = [] := rfl

@[simp] theorem encode_cons (char : Char) (text : List Char)
    : encode (char :: text) = String.utf8EncodeChar char ++ encode text :=
  List.flatMap_cons

@[simp] theorem encode_append (first second : List Char)
    : encode (first ++ second) = encode first ++ encode second :=
  List.flatMap_append

@[simp] theorem firstChar_encode (char : Char) (rest : List UInt8)
    : firstChar (String.utf8EncodeChar char ++ rest) = some char := by
  unfold firstChar
  rw [List.toByteArray_append]
  exact ByteArray.utf8DecodeChar?_utf8EncodeChar_append

theorem eq_of_firstChar {bytes : List UInt8} {char : Char} (found : firstChar bytes = some char)
    : bytes = String.utf8EncodeChar char ++ bytes.drop char.utf8Size := by
  obtain ⟨rest, same⟩ := ByteArray.exists_of_utf8DecodeChar?_eq_some found
  have lists : bytes = String.utf8EncodeChar char ++ rest.data.toList := by
    have data := congrArg (fun array => array.data.toList) same
    simpa using data
  conv_rhs => rw [lists, ← String.length_utf8EncodeChar char, List.drop_left]
  exact lists

theorem drop_lt_of_firstChar {bytes : List UInt8} {char : Char}
    (found : firstChar bytes = some char)
    : (bytes.drop char.utf8Size).length < bytes.length := by
  have same := congrArg List.length (eq_of_firstChar found)
  have positive : 0 < (String.utf8EncodeChar char).length :=
    List.length_pos_iff.mpr String.utf8EncodeChar_ne_nil
  rw [List.length_append] at same
  omega

/-- `str::from_utf8`: the text of well-formed bytes. -/
def decode (bytes : List UInt8) : Option (List Char) :=
  match _found : firstChar bytes with
  | some char => (decode (bytes.drop char.utf8Size)).map (char :: ·)
  | none => if bytes = [] then some [] else none
termination_by bytes.length
decreasing_by exact drop_lt_of_firstChar ‹_›

theorem decode_encode (text : List Char) : decode (encode text) = some text := by
  induction text with
  | nil =>
    unfold decode
    rfl
  | cons char rest ih =>
    have first : firstChar (encode (char :: rest)) = some char := by simp
    have later : (encode (char :: rest)).drop char.utf8Size = encode rest := by
      rw [encode_cons, ← String.length_utf8EncodeChar, List.drop_left]
    unfold decode
    split
    · rename_i other found
      obtain rfl : other = char := Option.some.inj (found.symm.trans first)
      rw [later, ih]
      rfl
    · rename_i absent
      rw [first] at absent
      cases absent

def isContinuation (byte : UInt8) : Bool := byte &&& 0xC0 = 0x80

/-- Whether a character of three or four bytes can start with these two. -/
def startsLong (first second : UInt8) : Bool :=
  (first = 0xE0 ∧ 0xA0 ≤ second ∧ second ≤ 0xBF)
  ∨ (0xE1 ≤ first ∧ first ≤ 0xEC ∧ 0x80 ≤ second ∧ second ≤ 0xBF)
  ∨ (first = 0xED ∧ 0x80 ≤ second ∧ second ≤ 0x9F)
  ∨ (0xEE ≤ first ∧ first ≤ 0xEF ∧ 0x80 ≤ second ∧ second ≤ 0xBF)
  ∨ (first = 0xF0 ∧ 0x90 ≤ second ∧ second ≤ 0xBF)
  ∨ (0xF1 ≤ first ∧ first ≤ 0xF3 ∧ 0x80 ≤ second ∧ second ≤ 0xBF)
  ∨ (first = 0xF4 ∧ 0x80 ≤ second ∧ second ≤ 0x8F)

/-- How many of the bytes, which start with no character, are the beginning of one: the most there
can be, but at least the first byte.
-/
def invalidLength : List UInt8 → Nat
  | first :: second :: third :: _ =>
    if startsLong first second = false then 1
    else if isContinuation third = false ∨ first < 0xF0 then 2
    else 3
  | [first, second] => if startsLong first second then 2 else 1
  | _ => 1

theorem invalidLength_pos (bytes : List UInt8) : 0 < invalidLength bytes := by
  unfold invalidLength
  split
  · split_ifs <;> omega
  · split_ifs <;> omega
  · omega

/-- A well-formed text and the bytes after it that are no character, if there are any. -/
structure Chunk where
  valid : List Char
  invalid : List UInt8
  deriving DecidableEq, Repr

/-- `<[u8]>::utf8_chunks`. -/
def chunks (bytes : List UInt8) : List Chunk :=
  match _found : firstChar bytes with
  | some char =>
    match chunks (bytes.drop char.utf8Size) with
    | [] => [⟨[char], []⟩]
    | chunk :: rest => ⟨char :: chunk.valid, chunk.invalid⟩ :: rest
  | none =>
    if _some : bytes = [] then []
    else ⟨[], bytes.take (invalidLength bytes)⟩ :: chunks (bytes.drop (invalidLength bytes))
termination_by bytes.length
decreasing_by
  · exact drop_lt_of_firstChar ‹_›
  · have some : 0 < bytes.length := List.length_pos_iff.mpr ‹_›
    have positive := invalidLength_pos bytes
    rw [List.length_drop]
    omega

/-- An ASCII byte occurs in a character's bytes only if it is that character. -/
theorem toNat_of_mem_utf8EncodeChar {byte : UInt8} (ascii : byte.toNat < 0x80) {char : Char}
    (listed : byte ∈ String.utf8EncodeChar char)
    : char.toNat = byte.toNat := by
  have high (value : Nat) (small : value < 0x100) (large : 0x80 ≤ value)
      : byte ≠ UInt8.ofNat value := by
    rintro rfl
    rw [UInt8.toNat_ofNat_of_lt' small] at ascii
    omega
  unfold String.utf8EncodeChar at listed
  dsimp only at listed
  split_ifs at listed with one two three
  · rw [List.mem_singleton] at listed
    rw [listed, UInt8.toNat_ofNat_of_lt' (Nat.lt_of_le_of_lt one (by decide))]
    rfl
  all_goals simp only [List.mem_cons, List.not_mem_nil, or_false] at listed
  · rcases listed with same | same <;> exact absurd same (high _ (by omega) (by omega))
  · rcases listed with same | same | same <;> exact absurd same (high _ (by omega) (by omega))
  · rcases listed with same | same | same | same <;>
      exact absurd same (high _ (by omega) (by omega))

end RustyPi.Utf8
