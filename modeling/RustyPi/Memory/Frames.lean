import RustyPi.Lib.Leases
import RustyPi.Memory.Heap

/-! The page frames of `rustypi-core/src/frames.rs`: one bit for each 4KB page of memory, in words
of 64, searched from the word of the last allocation on.
-/

namespace RustyPi.Memory

open RustyPi.Leases

def pageSize : Nat := 4096

inductive FrameError
  | notAFrame
  | notAllocated
  deriving DecidableEq, Repr

structure Frames where
  /-- Physical address of frame 0. -/
  base : Nat
  count : Nat
  /-- Bit `n` is set while frame `n` is allocated. -/
  used : List (BitVec 64)
  freeCount : Nat
  /-- Where the next search starts, in words. -/
  next : Nat

/-- `u64::trailing_ones`. -/
def trailingOnes (word : BitVec 64) : Nat :=
  ((List.range 64).find? (fun bit => !word.getLsbD bit)).getD 64

namespace Frames

/-- The words for `count` free frames. Bits past the last frame count as allocated, so they're never
handed out.
-/
def noneUsed (count : Nat) : List (BitVec 64) :=
  let used := List.replicate ((count + 63) / 64) 0
  if count % 64 ≠ 0 then used.set (used.length - 1) (BitVec.allOnes 64 <<< (count % 64)) else used

/-- Manages the whole pages in `start..stop`, all free. -/
def new (start stop : Nat) : Frames :=
  let base := wrap ((start + pageSize - 1) / pageSize * pageSize)
  let count := (stop - base) / pageSize
  { base, count, used := noneUsed count, freeCount := count, next := 0 }

def word (frames : Frames) (index : Nat) : BitVec 64 := frames.used[index]?.getD 0

/-- A free frame's physical address, now allocated. -/
def allocate (frames : Frames) : Option (Frames × Nat) :=
  let words := frames.used.length
  let order := (List.range words).map (fun index => (frames.next + index) % words)
  (order.find? (fun index => frames.word index ≠ BitVec.allOnes 64)).map (fun word =>
    let bit := trailingOnes (frames.word word)
    ({ frames with
        used := frames.used.set word (frames.word word ||| 1#64 <<< bit)
        freeCount := wrapSub frames.freeCount 1
        next := word },
      wrap (frames.base + (word * 64 + bit) * pageSize)))

/-- Makes an allocated frame free again. -/
def free (frames : Frames) (frame : Nat) : Except FrameError Frames :=
  if frame < frames.base then .error .notAFrame
  else
    let offset := frame - frames.base
    let number := offset / pageSize
    if offset % pageSize ≠ 0 ∨ frames.count ≤ number then .error .notAFrame
    else
      let word := number / 64
      let bit := number % 64
      if frames.word word &&& 1#64 <<< bit = 0 then .error .notAllocated
      else
        .ok { frames with
          used := frames.used.set word (frames.word word &&& ~~~(1#64 <<< bit))
          freeCount := wrap (frames.freeCount + 1) }

/-- Whether frame `number` is marked as allocated. -/
def isUsed (frames : Frames) (number : Nat) : Bool := (frames.word (number / 64)).getLsbD (number % 64)

def address (frames : Frames) (number : Nat) : Nat := frames.base + number * pageSize

theorem trailingOnes_spec {word : BitVec 64} (some : word ≠ BitVec.allOnes 64)
    : trailingOnes word < 64 ∧ word.getLsbD (trailingOnes word) = false := by
  unfold trailingOnes
  cases found : (List.range 64).find? (fun bit => !word.getLsbD bit) with
  | none =>
    refine absurd (BitVec.eq_of_getLsbD_eq (fun bit small => ?_)) some
    have set := List.find?_eq_none.mp found bit (List.mem_range.mpr small)
    rw [BitVec.getLsbD_allOnes]
    simpa [small] using set
  | some bit =>
    have inside := List.mem_of_find?_eq_some found
    have clear := List.find?_some found
    exact ⟨List.mem_range.mp inside, by simpa using clear⟩

variable {bit index frame : Nat} {frames : Frames} {out : List Nat}

theorem getLsbD_bit {other : Nat} (small : other < 64)
    : (1#64 <<< bit).getLsbD other = decide (other = bit) := by
  rw [BitVec.getLsbD_shiftLeft]
  by_cases same : other = bit
  · subst same
    simp [small]
  · by_cases below : other < bit
    · simp [same, below]
    · have above : other - bit ≠ 0 := by omega
      simp [same, above]

theorem word_set (inside : index < frames.used.length) (new : BitVec 64) (other : Nat)
    : (frames.used.set index new)[other]?.getD 0
      = if other = index then new else frames.word other := by
  rw [List.getElem?_set]
  split <;> simp_all [word, eq_comm]

theorem isUsed_mark (inside : index < frames.used.length) (small : bit < 64)
    (freeCount next number : Nat)
    : isUsed { frames with
          used := frames.used.set index (frames.word index ||| 1#64 <<< bit), freeCount, next } number
      = (frames.isUsed number || decide (number = index * 64 + bit)) := by
  have inWord : number % 64 < 64 := Nat.mod_lt _ (by decide)
  have place : number = index * 64 + bit ↔ number / 64 = index ∧ number % 64 = bit := by omega
  simp only [isUsed, word, word_set inside, place]
  split
  · rename_i same
    rw [BitVec.getLsbD_or, getLsbD_bit inWord]
    simp [same]
  · rename_i other
    simp [other]

theorem isUsed_unmark (inside : index < frames.used.length) (small : bit < 64)
    (freeCount number : Nat)
    : isUsed { frames with
          used := frames.used.set index (frames.word index &&& ~~~(1#64 <<< bit)), freeCount } number
      = (frames.isUsed number && decide (number ≠ index * 64 + bit)) := by
  have inWord : number % 64 < 64 := Nat.mod_lt _ (by decide)
  have place : number = index * 64 + bit ↔ number / 64 = index ∧ number % 64 = bit := by omega
  simp only [isUsed, word, word_set inside, ne_eq, place]
  split
  · rename_i same
    rw [BitVec.getLsbD_and, BitVec.getLsbD_not, getLsbD_bit inWord]
    simp [same, inWord]
  · rename_i other
    simp [other]

/-- `out` are the frames given out: the marked ones are those and what is past the last frame. -/
structure Out (frames : Frames) (out : List Nat) : Prop where
  words : frames.used.length = (frames.count + 63) / 64
  fits : frames.address frames.count ≤ wordLimit
  marked
    : ∀ number < 64 * frames.used.length,
        frames.isUsed number = true ↔ frames.count ≤ number ∨ frames.address number ∈ out
  inside : ∀ frame ∈ out, ∃ number < frames.count, frame = frames.address number
  distinct : out.Nodup
  counted : frames.freeCount + out.length = frames.count

theorem address_inj {left right : Nat} (same : frames.address left = frames.address right)
    : left = right := by
  unfold address pageSize at same
  omega

theorem length_le (distinct : out.Nodup)
    (inside : ∀ frame ∈ out, ∃ number < frames.count, frame = frames.address number)
    : out.length ≤ frames.count := by
  have subset : out ⊆ (List.range frames.count).map frames.address := by
    intro frame listed
    obtain ⟨number, small, rfl⟩ := inside frame listed
    exact List.mem_map_of_mem (List.mem_range.mpr small)
  simpa using (distinct.subperm subset).length_le

/-- The search of `allocate` finds a frame that isn't given out. -/
theorem allocate_out {after : Frames} (held : frames.Out out)
    (allocated : frames.allocate = some (after, frame))
    : frame ∉ out ∧ after.Out (frame :: out) := by
  obtain ⟨index, found, result⟩ := Option.map_eq_some_iff.mp allocated
  obtain ⟨rfl, rfl⟩ := Prod.mk.inj result
  have inside : index < frames.used.length := by
    obtain ⟨offset, there, rfl⟩ := List.mem_map.mp (List.mem_of_find?_eq_some found)
    exact Nat.mod_lt _ (Nat.zero_lt_of_lt (List.mem_range.mp there))
  have partial_ := List.find?_some found
  obtain ⟨small, clear⟩ := trailingOnes_spec (of_decide_eq_true partial_)
  generalize trailingOnes (frames.word index) = bit at *
  have unused : frames.isUsed (index * 64 + bit) = false := by
    have word : (index * 64 + bit) / 64 = index := by omega
    have place : (index * 64 + bit) % 64 = bit := by omega
    rw [isUsed, word, place, clear]
  obtain ⟨below, new⟩ : index * 64 + bit < frames.count
      ∧ frames.address (index * 64 + bit) ∉ out := by
    have marked := held.marked (index * 64 + bit) (by omega)
    rw [unused] at marked
    simpa using marked
  have fits := held.fits
  have unwrapped : wrap (frames.base + (index * 64 + bit) * pageSize)
      = frames.address (index * 64 + bit) := by
    refine wrap_of_lt ?_
    simp only [address, pageSize, wordLimit] at *
    omega
  rw [unwrapped]
  have allInside : ∀ frame ∈ frames.address (index * 64 + bit) :: out,
      ∃ number < frames.count, frame = frames.address number := by
    rintro frame (_ | ⟨_, old⟩)
    · exact ⟨_, below, rfl⟩
    · exact held.inside frame old
  have distinct := List.nodup_cons.mpr ⟨new, held.distinct⟩
  have enough := length_le distinct allInside
  have counted := held.counted
  refine ⟨new, ⟨?_, fits, fun number inRange => ?_, allInside, distinct, ?_⟩⟩
  · simpa using held.words
  · have old := held.marked number (by simpa using inRange)
    rw [isUsed_mark inside small, Bool.or_eq_true, old, List.mem_cons, decide_eq_true_iff]
    have same : frames.address number = frames.address (index * 64 + bit)
        ↔ number = index * 64 + bit := ⟨address_inj, congrArg _⟩
    show _ ↔ _ ∨ frames.address number = frames.address (index * 64 + bit) ∨ _
    rw [same]
    exact or_assoc.trans (or_congr_right or_comm)
  · show wrapSub frames.freeCount 1 + _ = frames.count
    rw [List.length_cons] at enough ⊢
    rw [wrapSub_of_le]
    · omega
    · simp only [address, pageSize, wordLimit] at *
      omega
    · omega

theorem free_same {after : Frames} (freed : frames.free frame = .ok after)
    : after.base = frames.base ∧ after.count = frames.count := by
  unfold free at freed
  dsimp only at freed
  split_ifs at freed
  cases freed
  exact ⟨rfl, rfl⟩

theorem free_out (held : frames.Out out) (listed : frame ∈ out)
    : ∃ after, frames.free frame = .ok after ∧ after.Out (out.erase frame) := by
  obtain ⟨number, below, rfl⟩ := held.inside frame listed
  have words := held.words
  have counted := held.counted
  have some := List.length_pos_of_mem listed
  have offset : frames.address number - frames.base = number * pageSize := by
    simp [address]
  have number_eq : number * pageSize / pageSize = number :=
    Nat.mul_div_cancel _ (by decide)
  have inWord : number % 64 < 64 := Nat.mod_lt _ (by decide)
  have place : number / 64 * 64 + number % 64 = number := by omega
  have inside : number / 64 < frames.used.length := by omega
  have used : frames.isUsed number = true :=
    (held.marked number (by omega)).mpr (Or.inr listed)
  have bit : frames.word (number / 64) &&& 1#64 <<< (number % 64) ≠ 0 := by
    intro zero
    have lookup := congrArg (fun word => BitVec.getLsbD word (number % 64)) zero
    simp only [BitVec.getLsbD_and, getLsbD_bit inWord] at lookup
    rw [isUsed] at used
    simp [used] at lookup
  refine ⟨{ frames with
    used := frames.used.set (number / 64)
      (frames.word (number / 64) &&& ~~~(1#64 <<< (number % 64)))
    freeCount := wrap (frames.freeCount + 1) }, ?_, ?_⟩
  · simp only [free, offset, number_eq]
    rw [if_neg (by simp [address]), if_neg (by simpa using below), if_neg bit]
  refine ⟨?_, held.fits, fun other inRange => ?_, ?_, held.distinct.erase _, ?_⟩
  · simpa using held.words
  · have old := held.marked other (by simpa using inRange)
    rw [isUsed_unmark inside inWord, Bool.and_eq_true, old, decide_eq_true_iff, place]
    show _ ↔ frames.count ≤ other ∨ frames.address other ∈ out.erase (frames.address number)
    rw [held.distinct.mem_erase_iff]
    have same : frames.address other = frames.address number ↔ other = number :=
      ⟨address_inj, congrArg _⟩
    rw [ne_eq, ne_eq, same]
    by_cases here : other = number
    · subst here
      simp [below]
    · simp [here]
  · exact fun frame there => held.inside frame (List.mem_of_mem_erase there)
  · show wrap (frames.freeCount + 1) + _ = frames.count
    have fits := held.fits
    rw [List.length_erase_of_mem listed, wrap_of_lt]
    · omega
    · simp only [address, pageSize, wordLimit] at *
      omega

theorem noneUsed_length (count : Nat) : (noneUsed count).length = (count + 63) / 64 := by
  unfold noneUsed
  split <;> simp

theorem noneUsed_bits {count number : Nat} (inRange : number < 64 * ((count + 63) / 64))
    : ((noneUsed count)[number / 64]?.getD 0).getLsbD (number % 64) = decide (count ≤ number) := by
  have word : number / 64 < (count + 63) / 64 := by omega
  unfold noneUsed
  split
  · dsimp only
    rw [List.length_replicate, List.getElem?_set]
    split
    · rename_i last
      rw [List.length_replicate, if_pos (by omega), Option.getD_some, BitVec.getLsbD_shiftLeft,
        BitVec.getLsbD_allOnes]
      have small : number % 64 < 64 := Nat.mod_lt _ (by decide)
      have later : count ≤ number ↔ ¬ number % 64 < count % 64 := by omega
      have near : number % 64 - count % 64 < 64 := by omega
      simp only [small, near, later, decide_not, decide_true, Bool.true_and, Bool.and_true]
    · rw [List.getElem?_replicate, if_pos word]
      simp
      omega
  · rw [List.getElem?_replicate, if_pos word]
    simp
    omega

theorem new_out {start stop : Nat} (small : stop < wordLimit) : (new start stop).Out [] := by
  have base : (new start stop).base < wordLimit := Nat.mod_lt _ (by decide)
  have count : (new start stop).count = (stop - (new start stop).base) / pageSize := rfl
  refine ⟨noneUsed_length _, ?_, fun number inRange => ?_, by simp, List.nodup_nil, rfl⟩
  · simp only [address, count, pageSize]
    omega
  · have bits : (new start stop).isUsed number = decide ((new start stop).count ≤ number) :=
      noneUsed_bits (noneUsed_length _ ▸ inRange)
    simp [bits]

/-- The frames as `PageFrames` gives them out; a failed free panics. -/
def calls : Calls Frames Nat where
  take := allocate
  give frames frame := (frames.free frame).toOption

theorem Out.perm {same : List Nat} (held : frames.Out out) (permuted : out.Perm same)
    : frames.Out same :=
  { held with
    marked := fun number inRange => by rw [held.marked number inRange, permuted.mem_iff]
    inside := fun frame listed => held.inside frame (permuted.mem_iff.mpr listed)
    distinct := permuted.nodup_iff.mp held.distinct
    counted := by rw [← permuted.length_eq, held.counted] }

end Frames

end RustyPi.Memory
