import Mathlib.Data.Nat.Bitwise
import RustyPi.Lib.Bytes

/-! The frames in what the Ethernet controller hands over on its bulk endpoint:
`rustypi-core/src/net/lan7800.rs`. What the controller wrapped comes out again, and of a transfer
that is cut short what is whole in it.
-/

namespace RustyPi.Net.Lan7800

open RustyPi.Bytes

/-- The bit of command A that marks a frame as bad. -/
def rxCmdAError : Nat := 0x400000

/-- The bits of command A with the frame's length, its FCS included. -/
def rxCmdALen : Nat := 0x3FFF

def rxHeader : Nat := 4 + 4 + 2

def fcs : Nat := 4

/-- The bytes from the end of a frame to the next one's header, which is aligned to 4 bytes counting
this header's last word.
-/
def padding (size : Nat) : Nat := (4 - (size + 2) % 4) % 4

/-- The frame at an index, unless it is marked bad or has no bytes besides its FCS. -/
def frameAt (transfer : List UInt8) (cmdA start size : Nat) : List (List UInt8) :=
  if cmdA &&& rxCmdAError = 0 ∧ fcs < size then [(transfer.take (start + size - fcs)).drop start]
  else []

/-- The frames from an index on, of which there are at most as many as bytes. -/
def frames (transfer : List UInt8) : Nat → Nat → List (List UInt8)
  | 0, _ => []
  | left + 1, at_ =>
    if at_ + rxHeader ≤ transfer.length then
      let cmdA := u32At transfer at_
      let size := cmdA &&& rxCmdALen
      let start := at_ + rxHeader
      if transfer.length < start + size then []
      else frameAt transfer cmdA start size ++ frames transfer left (start + size + padding size)
    else []

/-- The frames that a bulk transfer brought. -/
def rx (transfer : List UInt8) : List (List UInt8) := frames transfer transfer.length 0

/-- A frame as the controller hands it over, with the rest of its header, its FCS and its padding. -/
structure Received where
  frame : List UInt8
  /-- Command A, from the bit after the length on. -/
  flags : Nat
  header : List UInt8
  check : List UInt8
  pad : List UInt8
  sized : frame.length + fcs ≤ rxCmdALen
  flags_lt : flags < 2 ^ 18
  header_length : header.length = 6
  check_length : check.length = fcs
  pad_length : pad.length = padding (frame.length + fcs)

namespace Received

variable (received : Received)

def size : Nat := received.frame.length + fcs

def cmdA : Nat := 2 ^ 14 * received.flags + received.size

/-- Whether the controller marks the frame as bad: bit 22 of command A. -/
def error : Bool := received.flags.testBit 8

/-- The frame with its header and FCS. -/
def whole : List UInt8 :=
  le32 received.cmdA ++ (received.header ++ (received.frame ++ received.check))

def bytes : List UInt8 := received.whole ++ received.pad

/-- The frame, unless it is marked bad or empty. -/
def good : List (List UInt8) :=
  if received.error ∨ received.frame = [] then [] else [received.frame]

/-- Those of which the first `cut` bytes of the transfer hold header, frame and FCS. -/
def within : Nat → List Received → List Received
  | _, [] => []
  | cut, received :: rest =>
    (if received.whole.length ≤ cut then [received] else [])
      ++ within (cut - received.bytes.length) rest

theorem whole_length : received.whole.length = rxHeader + received.size := by
  simp only [whole, size, List.length_append, le32_length, received.header_length,
    received.check_length, rxHeader]
  omega

theorem bytes_length
    : received.bytes.length = rxHeader + received.size + padding received.size := by
  rw [bytes, List.length_append, whole_length, received.pad_length]
  rfl

theorem cmdA_spec
    : received.cmdA < 2 ^ 32
      ∧ received.cmdA &&& rxCmdALen = received.size
      ∧ (received.cmdA &&& rxCmdAError = 0 ↔ received.error = false) := by
  have sized : received.size < 2 ^ 14 := Nat.lt_succ_of_le received.sized
  have flags := received.flags_lt
  refine ⟨by rw [cmdA]; omega, ?_, ?_⟩
  · rw [show rxCmdALen = 2 ^ 14 - 1 from rfl, Nat.and_two_pow_sub_one_eq_mod, cmdA,
      Nat.mul_add_mod_self_left, Nat.mod_eq_of_lt sized]
  · rw [show rxCmdAError = 2 ^ 22 from rfl, Nat.and_two_pow, cmdA,
      Nat.testBit_two_pow_mul_add _ sized]
    cases bad : received.error <;> simp_all [error]

theorem within_zero (list : List Received) : within 0 list = [] := by
  induction list with
  | nil => rfl
  | cons received rest ih =>
    rw [within, Nat.zero_sub, ih, if_neg (by rw [whole_length, rxHeader]; omega)]
    rfl

theorem within_of_le {list : List Received} {cut : Nat}
    (complete : (list.flatMap bytes).length ≤ cut)
    : within cut list = list := by
  induction list generalizing cut with
  | nil => rfl
  | cons received rest ih =>
    have longer : received.whole.length ≤ received.bytes.length := by
      rw [bytes, List.length_append]
      omega
    rw [List.flatMap_cons, List.length_append] at complete
    rw [within, if_pos (by omega), ih (by omega)]
    rfl

end Received

variable {before transfer : List UInt8} {left at_ : Nat}

theorem frames_end (ended : transfer.length < at_ + rxHeader) : frames transfer left at_ = [] := by
  cases left with
  | zero => rfl
  | succ left => rw [frames, if_neg (by omega)]

/-- The bound on the frames never decides: each one takes a header's bytes at least. -/
theorem frames_of_le {more : Nat} (enough : transfer.length ≤ at_ + left) (le : left ≤ more)
    : frames transfer more at_ = frames transfer left at_ := by
  induction left generalizing at_ more with
  | zero =>
    rw [frames_end (by rw [rxHeader]; omega), frames]
  | succ left ih =>
    obtain ⟨more, rfl⟩ := Nat.exists_eq_succ_of_ne_zero (n := more) (by omega)
    simp only [frames]
    split
    · split
      · rfl
      · rw [ih (by rw [rxHeader]; omega) (by omega)]
    · rfl

/-- A frame that is cut short ends the list, in its header or after it. -/
theorem frames_short (received : Received) {cut : Nat} (short : cut < received.whole.length)
    : frames (before ++ received.whole.take cut) left before.length = [] := by
  have length : (before ++ received.whole.take cut).length = before.length + cut := by
    rw [List.length_append, List.length_take_of_le (Nat.le_of_lt short)]
  by_cases header : cut < rxHeader
  · exact frames_end (by omega)
  · cases left with
    | zero => rfl
    | succ left =>
      have word : u32At (before ++ received.whole.take cut) before.length = received.cmdA := by
        rw [Received.whole, List.take_append, List.take_of_length_le
          (by rw [le32_length]; rw [rxHeader] at header; omega), u32At_append_le32]
        exact Nat.mod_eq_of_lt received.cmdA_spec.1
      rw [received.whole_length] at short
      rw [frames, word, length, if_pos (by omega)]
      simp only [received.cmdA_spec.2.1]
      exact if_pos (by omega)

/-- A frame that is there is taken out, and the next one is looked for after its padding. -/
theorem frames_whole (received : Received) (rest : List UInt8)
    : frames (before ++ (received.whole ++ rest)) (left + 1) before.length
      = received.good
        ++ frames (before ++ (received.whole ++ rest)) left
          (before.length + received.bytes.length) := by
  obtain ⟨cmdA_lt, size, error⟩ := received.cmdA_spec
  have word : u32At (before ++ (received.whole ++ rest)) before.length = received.cmdA := by
    rw [Received.whole, List.append_assoc, u32At_append_le32]
    exact Nat.mod_eq_of_lt cmdA_lt
  have length : before.length + rxHeader + received.size
      ≤ (before ++ (received.whole ++ rest)).length := by
    rw [List.length_append, List.length_append, received.whole_length]
    omega
  have frame : frameAt (before ++ (received.whole ++ rest)) received.cmdA
      (before.length + rxHeader) received.size = received.good := by
    have start : (before ++ (le32 received.cmdA ++ received.header)).length
        = before.length + rxHeader := by
      simp only [List.length_append, le32_length, received.header_length, rxHeader]
    have split : before ++ (received.whole ++ rest)
        = (before ++ (le32 received.cmdA ++ received.header))
          ++ (received.frame ++ (received.check ++ rest)) := by
      simp only [Received.whole, List.append_assoc]
    have empty : fcs < received.size ↔ received.frame ≠ [] := by
      rw [Received.size, ← List.length_pos_iff]
      omega
    have taken : ((before ++ (received.whole ++ rest)).take
        (before.length + rxHeader + received.size - fcs)).drop (before.length + rxHeader)
        = received.frame := by
      rw [split, ← start, Received.size, ← Nat.add_assoc, Nat.add_sub_cancel,
        List.take_length_add_append, List.drop_left, List.take_left]
    rw [frameAt, taken]
    simp only [error, empty, Received.good]
    cases received.error <;> by_cases none : received.frame = [] <;> simp [none]
  rw [frames, word, if_pos (by omega)]
  simp only [size]
  rw [if_neg (by omega), frame, received.bytes_length]
  simp only [Nat.add_assoc]

/-- By induction on the frames: each is read where the padding of the one before it ends. -/
theorem frames_take (list : List Received) {cut : Nat}
    (enough : ((list.flatMap Received.bytes).take cut).length ≤ left)
    : frames (before ++ (list.flatMap Received.bytes).take cut) left before.length
      = (Received.within cut list).flatMap Received.good := by
  induction list generalizing before left cut with
  | nil => exact frames_end (by simp [rxHeader])
  | cons received rest ih =>
    have longer : received.bytes.length = received.whole.length + received.pad.length :=
      List.length_append
    rw [List.flatMap_cons] at enough ⊢
    by_cases short : cut < received.whole.length
    · rw [Received.bytes, List.append_assoc, List.take_append_of_le_length (Nat.le_of_lt short),
        frames_short received short, Received.within, if_neg (by omega),
        Nat.sub_eq_zero_of_le (by omega), Received.within_zero]
      rfl
    · have split : (received.bytes ++ rest.flatMap Received.bytes).take cut
          = received.whole ++ (received.pad ++ rest.flatMap Received.bytes).take
              (cut - received.whole.length) := by
        rw [Received.bytes, List.append_assoc, List.take_append, List.take_of_length_le (by omega)]
      have header : 0 < received.whole.length := by
        rw [received.whole_length, rxHeader]
        omega
      have total : (received.whole ++ (received.pad ++ rest.flatMap Received.bytes).take
          (cut - received.whole.length)).length ≤ cut := by
        rw [← split]
        exact List.length_take_le ..
      rw [split] at enough ⊢
      obtain ⟨left, rfl⟩ := Nat.exists_eq_succ_of_ne_zero (n := left)
        (by rw [List.length_append] at enough; omega)
      rw [frames_whole, Received.within, if_pos (by omega), List.flatMap_append]
      refine congrArg₂ (· ++ ·) (List.append_nil _).symm ?_
      by_cases padded : received.bytes.length ≤ cut
      · have all : (received.bytes ++ rest.flatMap Received.bytes).take cut
            = received.bytes ++ (rest.flatMap Received.bytes).take
                (cut - received.bytes.length) := by
          rw [List.take_append, List.take_of_length_le padded]
        rw [← split, all] at enough ⊢
        rw [← List.append_assoc, ← List.length_append]
        rw [List.length_append] at enough
        exact ih (by omega)
      · rw [frames_end (by rw [List.length_append]; omega), Nat.sub_eq_zero_of_le (by omega),
          Received.within_zero]
        rfl

/-- What the controller wrapped comes out, of a transfer cut short what is whole in it, and the
loop ends by itself.
-/
theorem rx_received (list : List Received)
    : rx (list.flatMap Received.bytes) = list.flatMap Received.good
      ∧ (∀ cut, rx ((list.flatMap Received.bytes).take cut)
          = (Received.within cut list).flatMap Received.good)
      ∧ ∀ transfer more, transfer.length ≤ more → frames transfer more 0 = rx transfer := by
  have cuts (cut : Nat) : rx ((list.flatMap Received.bytes).take cut)
      = (Received.within cut list).flatMap Received.good :=
    @frames_take [] _ list _ le_rfl
  refine ⟨?_, cuts, fun transfer more enough => frames_of_le (by omega) enough⟩
  have uncut := cuts (list.flatMap Received.bytes).length
  rwa [List.take_length, Received.within_of_le le_rfl] at uncut

/-- A frame of so many ones, and the word of flags that it came with. -/
def Received.ones (count flags : Nat) (sized : count + fcs ≤ rxCmdALen) (flags_lt : flags < 2 ^ 18)
    : Received where
  frame := List.replicate count 1
  flags
  header := List.replicate 6 0
  check := List.replicate fcs 0xFF
  pad := List.replicate (padding (count + fcs)) 0
  sized := by rwa [List.length_replicate]
  flags_lt
  header_length := List.length_replicate
  check_length := List.length_replicate
  pad_length := by rw [List.length_replicate, List.length_replicate]

/-- Of a good frame, a bad one and a good one that is cut short, the first comes out. -/
example
    : let list : List Received :=
        [.ones 3 0 (by decide) (by decide), .ones 5 256 (by decide) (by decide),
          .ones 2 0 (by decide) (by decide)]
      rx ((list.flatMap Received.bytes).take 50) = [[1, 1, 1]]
      ∧ rx (list.flatMap Received.bytes) = [[1, 1, 1], [1, 1]] := by
  decide +kernel

end RustyPi.Net.Lan7800
