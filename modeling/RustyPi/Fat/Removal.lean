import RustyPi.Fat.Parsing
import RustyPi.Fat.Write

/-! Removing an entry: the slots a listing gives for an entry are the pieces of its long name and
its 8.3 entry, and marking them deleted takes just that entry out of the listing.
-/

namespace RustyPi.Fat

open RustyPi.Bytes

def Slot.number (slot : Slot) : Nat := byteAt slot 0 &&& 0x1F

/-- The checksum a long name piece has of its 8.3 name. -/
def Slot.checksum (slot : Slot) : UInt8 := slot[13]?.getD 0

def Slot.IsPiece (slot : Slot) : Prop :=
  slot.isEnd = false ∧ slot.isDeleted = false ∧ slot.isLongName = true

/-- Pieces of one long name, from the one that starts it on: their numbers count down to
`left + 1`, and all have the same checksum.
-/
inductive Pieces (sum : UInt8) : List Slot → Nat → Prop
  | starts {slot : Slot} {left : Nat} (piece : slot.IsPiece) (last : slot.isLast = true)
    (number : slot.number = left + 1) (same : slot.checksum = sum)
    : Pieces sum [slot] left
  | goesOn {pieces : List Slot} {slot : Slot} {left : Nat} (earlier : Pieces sum pieces (left + 1))
    (piece : slot.IsPiece) (last : slot.isLast = false) (number : slot.number = left + 1)
    (same : slot.checksum = sum)
    : Pieces sum (pieces ++ [slot]) left

/-- A listing's entry, in the slots it says: the pieces of a whole long name, if such pieces
stand before the 8.3 entry, and the 8.3 entry.
-/
structure Located.Holds (located : Located) (fatType : FatType) (before pieces : List Slot)
    (short : Slot)
    : Prop where
  inside : ∀ slot ∈ before, slot.isEnd = false
  stop : located.stop = located.start + pieces.length + 1
  named : pieces = [] ∨ Pieces (shortNameChecksum (short.take 11)) pieces 0
  alone
    : pieces = [] → ∀ others, others <:+ before
      → ¬ Pieces (shortNameChecksum (short.take 11)) others 0
  isEntry : short.isEntry = true
  entry : located.entry = readEntry fatType short (nameOf pieces short)
  shown : ¬ (located.entry.name = ['.'] ∨ located.entry.name = ['.', '.'])

namespace LongName

variable {long : LongName} {slot : Slot}

/-- A piece is collected only in its turn. -/
theorem add_counts (long : LongName) (slot : Slot)
    : (long.add slot).Clean
      ∨ (long.add slot).expected + 1 = slot.number ∧ (long.add slot).checksum = slot.checksum
        ∧ (slot.isLast = false
          → slot.number = long.expected ∧ slot.checksum = long.checksum) := by
  cases last : slot.isLast with
  | true =>
    simp only [LongName.add, last, if_true]
    split
    · exact .inl (reset_clean _)
    · rename_i matched
      exact .inr ⟨Nat.succ_pred (not_or.mp matched).1, rfl, by simp⟩
  | false =>
    simp only [LongName.add, last, Bool.false_eq_true, if_false]
    split
    · exact .inl (reset_clean _)
    · rename_i matched
      simp only [not_or, not_not] at matched
      obtain ⟨positive, number, sum⟩ := matched
      exact .inr ⟨by rw [← number]; exact Nat.succ_pred positive, sum.symm,
        fun _ => ⟨number, sum⟩⟩

theorem collect_in_turn {left : Nat} (piece : slot.IsPiece) (number : slot.number = left + 1)
    (turn : slot.isLast = false → long.expected = left + 1 ∧ long.checksum = slot.checksum)
    : (long.collect slot).expected = left ∧ (long.collect slot).checksum = slot.checksum
      ∧ (long.collect slot).units ≠ [] := by
  have filled (units : List Nat) (index : Nat)
      : splice units index (lfnOffsets.map (u16At slot)) ≠ [] := by
    simp [splice, lfnOffsets]
  unfold Slot.number at number
  unfold Slot.checksum at turn ⊢
  rw [collect, piece.2.1, piece.2.2, if_neg Bool.false_ne_true, if_pos rfl]
  cases last : slot.isLast with
  | true => simp [LongName.add, last, number, filled]
  | false =>
    obtain ⟨expected, sum⟩ := turn last
    simp [LongName.add, last, number, expected, sum, filled]

end LongName

namespace Pieces

variable {pieces : List Slot} {left : Nat} {sum : UInt8}

theorem isPiece (all : Pieces sum pieces left) : ∀ slot ∈ pieces, slot.IsPiece := by
  induction all with
  | starts piece => exact List.forall_mem_singleton.mpr piece
  | goesOn _ piece _ _ _ ih =>
    exact List.forall_mem_append.mpr ⟨ih, List.forall_mem_singleton.mpr piece⟩

/-- Pieces are collected, whatever was collected before them. -/
theorem collected (all : Pieces sum pieces left) (long : LongName)
    : (pieces.foldl LongName.collect long).expected = left
      ∧ (pieces.foldl LongName.collect long).checksum = sum
      ∧ (pieces.foldl LongName.collect long).units ≠ [] := by
  induction all with
  | starts piece last number same =>
    rw [← same]
    exact LongName.collect_in_turn piece number (by simp [last])
  | goesOn earlier piece last number same ih =>
    rw [List.foldl_append, ← same]
    exact LongName.collect_in_turn piece number (fun _ => ⟨ih.1, ih.2.1.trans same.symm⟩)

end Pieces

/-- What a long name in progress after the slots `before`, which start at number `index`,
consists of: nothing, or the pieces from slot `start` on.
-/
def Running (index : Nat) (before : List Slot) (long : LongName) (start : Nat) : Prop :=
  long.Clean
  ∨ ∃ base pieces, before = base ++ pieces ∧ index + base.length = start
    ∧ Pieces long.checksum pieces long.expected ∧ long = pieces.foldl LongName.add .new

variable {index start : Nat} {before pieces : List Slot} {long : LongName} {slot short : Slot}
  {fatType : FatType} {located : Located}

theorem Running.step (running : Running index before long start) (inside : slot.isEnd = false)
    : Running index (before ++ [slot]) (long.collect slot)
        (startAfter (index + before.length) start slot) := by
  by_cases piece : slot.isDeleted = false ∧ slot.isLongName = true
  · have isPiece : slot.IsPiece := ⟨inside, piece⟩
    simp only [LongName.collect, startAfter, piece, Bool.false_eq_true, if_false, if_true,
      Bool.not_false, Bool.true_and]
    rcases long.add_counts slot with clean | ⟨expected, sum, turn⟩
    · exact .inl clean
    · cases last : slot.isLast with
      | true =>
        exact .inr ⟨before, [slot], rfl, rfl, .starts isPiece last expected.symm sum.symm,
          LongName.add_of_last long .new last⟩
      | false =>
        rcases running with clean | ⟨base, pieces, rfl, rfl, all, state⟩
        · exact .inl (clean.add last)
        · refine .inr ⟨base, pieces ++ [slot], by simp, rfl, ?_, by simp [← state]⟩
          obtain ⟨number, sameSum⟩ := turn last
          rw [← number, ← sameSum, ← expected, ← sum] at all
          exact .goesOn all isPiece last expected.symm sum.symm
  · refine .inl ?_
    unfold LongName.collect
    split
    · exact long.reset_clean
    · rw [if_neg (by simp_all)]
      exact long.reset_clean

/-- An entry that one slot adds to a listing stands in its slots. -/
theorem Running.holds (running : Running index before (before.foldl LongName.collect .new) start)
    (inside : ∀ slot ∈ before, slot.isEnd = false) (isEntry : short.isEntry = true)
    (shown : located ∈ parseSlot fatType (index + before.length)
      (before.foldl LongName.collect .new) start short)
    : ∃ front pieces, before = front ++ pieces ∧ located.start = index + front.length
        ∧ located.Holds fatType front pieces short
        ∧ ((before.foldl LongName.collect .new).take (short.take 11)).getD (shortName short)
          = located.entry.name := by
  simp only [parseSlot, isEntry, if_true] at shown
  split at shown
  · cases shown
  rename_i named
  obtain rfl := List.mem_singleton.mp shown
  cases taken : (before.foldl LongName.collect .new).take (short.take 11) with
  | none =>
    rw [taken] at named
    refine ⟨before, [], (List.append_nil _).symm, rfl,
      ⟨inside, rfl, .inl rfl, ?_, isEntry, rfl, named⟩, rfl⟩
    rintro - others ⟨front, rfl⟩ all
    obtain ⟨expected, sum, filled⟩ := all.collected (front.foldl LongName.collect .new)
    rw [List.foldl_append] at taken
    simp [LongName.take, expected, sum, filled] at taken
  | some name =>
    rcases running with clean | ⟨front, pieces, rfl, rfl, all, state⟩
    · rw [clean.take] at taken
      cases taken
    · have complete := taken
      simp only [LongName.take, Option.ite_none_right_eq_some] at complete
      obtain ⟨⟨expected, -, sum⟩, -⟩ := complete
      rw [expected, sum] at all
      rw [taken] at named
      have some : pieces ≠ [] := by
        rintro rfl
        exact (all.collected .new).2.2 rfl
      refine ⟨front, pieces, rfl, rfl, ⟨fun slot member => inside slot (by simp [member]),
        by simp [Nat.add_assoc], .inr all, fun none => absurd none some, isEntry, ?_, named⟩, rfl⟩
      rw [nameOf, ← state, taken]

theorem parseSlot_cases (fatType : FatType) (index : Nat) (long : LongName) (start : Nat)
    (slot : Slot)
    : parseSlot fatType index long start slot = []
      ∨ slot.isEntry = true ∧ ∃ found, parseSlot fatType index long start slot = [found] := by
  unfold parseSlot
  split
  · dsimp only
    split
    · exact .inl rfl
    · exact .inr ⟨‹_›, _, rfl⟩
  · exact .inl rfl

/-- The entries a listing shows stand in their slots, and it goes on after them with the slots
that follow. By induction on the slots not yet read.
-/
theorem parseFrom_split (rest : List Slot) {earlier later : List Located}
    (running : Running index before (before.foldl LongName.collect .new) start)
    (inside : ∀ slot ∈ before, slot.isEnd = false)
    (parsed : parseFrom fatType (index + before.length) (before.foldl LongName.collect .new)
      start rest = earlier ++ located :: later)
    : ∃ front pieces short after, before ++ rest = front ++ (pieces ++ short :: after)
        ∧ located.start = index + front.length ∧ located.Holds fatType front pieces short
        ∧ (((front ++ pieces).foldl LongName.collect .new).take (short.take 11)).getD
            (shortName short)
          = located.entry.name
        ∧ later = parseSlots fatType located.stop after := by
  induction rest generalizing before start earlier with
  | nil => simp [parseFrom] at parsed
  | cons slot rest ih =>
    cases ends : slot.isEnd with
    | true => simp [parseFrom_end _ _ _ _ ends] at parsed
    | false =>
      have stepped : Running index (before ++ [slot])
          ((before ++ [slot]).foldl LongName.collect .new)
          (startAfter (index + before.length) start slot) := by
        simpa using running.step ends
      have onwards := @ih (startAfter (index + before.length) start slot) (before ++ [slot])
      rw [List.append_assoc, List.singleton_append] at onwards
      rw [parseFrom_cons _ _ _ _ ends] at parsed
      have insideToo := List.forall_mem_append.mpr
        ⟨inside, List.forall_mem_singleton.mpr ends⟩
      have follows : parseFrom fatType (index + (before ++ [slot]).length)
            ((before ++ [slot]).foldl LongName.collect .new)
            (startAfter (index + before.length) start slot) rest
          = parseFrom fatType (index + before.length + 1)
            ((before.foldl LongName.collect .new).collect slot)
            (startAfter (index + before.length) start slot) rest := by
        simp [Nat.add_assoc]
      rcases parseSlot_cases fatType (index + before.length)
        (before.foldl LongName.collect .new) start slot with none | ⟨isEntry, found, one⟩
      · rw [none, List.nil_append] at parsed
        exact onwards stepped insideToo (follows.trans parsed)
      · rw [one, List.singleton_append] at parsed
        cases earlier with
        | cons first earlier =>
          exact onwards stepped insideToo (follows.trans (List.cons.inj parsed).2)
        | nil =>
          obtain ⟨rfl, rfl⟩ := List.cons.inj parsed
          obtain ⟨front, pieces, rfl, starts, holds, name⟩ :=
            running.holds inside isEntry (by rw [one]; exact List.mem_singleton_self _)
          have resets : (((front ++ pieces).foldl LongName.collect .new).collect
              slot).Clean := by
            simp only [Slot.isEntry, Bool.and_eq_true, Bool.not_eq_true'] at isEntry
            simp [LongName.collect, isEntry, LongName.reset_clean]
          refine ⟨front, pieces, slot, rest, List.append_assoc _ _ _, starts, holds, name, ?_⟩
          rw [parseFrom_of_clean fatType resets, holds.stop, starts, List.length_append,
            ← Nat.add_assoc]

theorem parseFrom_pieces (all : ∀ slot ∈ pieces, slot.IsPiece)
    : parseFrom fatType index long start pieces = [] := by
  induction pieces generalizing index long start with
  | nil => rfl
  | cons piece rest ih =>
    rw [parseFrom_piece fatType (all piece List.mem_cons_self)]
    exact ih (fun slot member => all slot (.tail _ member))

/-- The slots an entry stands in show one entry, after the slots before them. -/
theorem Located.Holds.parse (holds : located.Holds fatType before pieces short)
    (name
      : (((before ++ pieces).foldl LongName.collect .new).take (short.take 11)).getD
          (shortName short)
        = located.entry.name)
    (after : List Slot)
    : ∃ found,
        parseFrom fatType index (before.foldl LongName.collect .new) start (pieces ++ short :: after)
        = found :: parseSlots fatType (index + pieces.length + 1) after := by
  have all : ∀ slot ∈ pieces, slot.IsPiece :=
    holds.named.elim (by rintro rfl; simp) Pieces.isPiece
  obtain ⟨last, parts⟩ := parseFrom_append fatType pieces (short :: after) index
    (before.foldl LongName.collect .new) start (fun slot member => (all slot member).1)
  rw [parts, parseFrom_pieces all, List.nil_append, ← List.foldl_append,
    parseFrom_isEntry fatType holds.isEntry, name]
  exact ⟨_, congrArg (· ++ _) (if_neg holds.shown)⟩

/-- Deleted slots show nothing and leave no long name in progress. By induction on them. -/
theorem parseFrom_deleted {deleted : List Slot} (marked : ∀ slot ∈ deleted, slot.isDeleted = true)
    (some : deleted ≠ []) (after : List Slot)
    : parseFrom fatType index long start (deleted ++ after)
      = parseSlots fatType (index + deleted.length) after := by
  induction deleted generalizing index long with
  | nil => exact absurd rfl some
  | cons slot rest ih =>
    have here := marked slot List.mem_cons_self
    have inside : slot.isEnd = false := by
      simp_all [Slot.isDeleted, Slot.isEnd]
    have step : parseFrom fatType index long start (slot :: rest ++ after)
        = parseFrom fatType (index + 1) long.reset start (rest ++ after) := by
      simp [parseFrom, inside, here]
    rw [step]
    cases rest with
    | nil => exact parseFrom_of_clean fatType long.reset_clean _ _ _
    | cons next rest =>
      rw [ih (fun other member => marked other (.tail _ member)) (List.cons_ne_nil _ _),
        List.length_cons, Nat.add_right_comm, Nat.add_assoc]
      rfl

/-- A listing cut at one of its entries: the slots before that entry show those before it, and
the slots after it the others.
-/
theorem parseSlots_split {slots : List Slot} {earlier later : List Located}
    (parsed : parseSlots fatType index slots = earlier ++ located :: later)
    : ∃ before pieces short after, slots = before ++ (pieces ++ short :: after)
        ∧ located.start = index + before.length ∧ located.Holds fatType before pieces short
        ∧ earlier = parseSlots fatType index before
        ∧ later = parseSlots fatType located.stop after := by
  have fresh : Running index [] LongName.new 0 := .inl LongName.new_clean
  obtain ⟨before, pieces, short, after, cut, starts, holds, name, tail⟩ :=
    parseFrom_split slots fresh (by simp) parsed
  obtain ⟨last, parts⟩ := parseFrom_append fatType before (pieces ++ short :: after) index .new 0
    holds.inside
  obtain ⟨found, shows⟩ := @Located.Holds.parse (index + before.length) last _ _ _ _ _ holds name after
  rw [List.nil_append] at cut
  rw [shows, ← starts, ← holds.stop, ← cut, ← tail] at parts
  rw [parseSlots, parts] at parsed
  exact ⟨before, pieces, short, after, cut, starts, holds,
    (List.append_inj_left' parsed rfl).symm, tail⟩

/-- The slots of an entry marked deleted, as `remove` marks them, take it out of the listing. -/
theorem parseLocated_delete (image : DirImage) {earlier later : List Located}
    (parsed : parseLocated image.bytes fatType = earlier ++ located :: later)
    : parseLocated (image.delete located.start (located.stop - located.start)).bytes fatType
      = earlier ++ later := by
  obtain ⟨before, pieces, short, after, cut, starts, holds, rfl, rfl⟩ := parseSlots_split parsed
  have stop := holds.stop
  have count : located.stop - located.start = pieces.length + 1 := by omega
  have room : image.bytes.length / dirEntrySize
      = before.length + (pieces.length + 1 + after.length) := by
    have := congrArg List.length cut
    simp only [slotsOf, chunks_length, List.length_append, List.length_cons] at this
    omega
  rw [count, starts, Nat.zero_add, DirImage.delete]
  generalize marks : (List.range' before.length (pieces.length + 1)).map
    (fun index => splice (image.slot index) 0 [0xE5]) = deleted
  have length : deleted.length = pieces.length + 1 := by simp [← marks]
  have each : ∀ slot ∈ deleted, slot.length = dirEntrySize ∧ Slot.isDeleted slot = true := by
    intro slot member
    rw [← marks] at member
    obtain ⟨number, within, rfl⟩ := List.mem_map.mp member
    have bounds := List.mem_range'_1.mp within
    have whole : (image.slot number).length = dirEntrySize := by
      simp only [DirImage.slot, List.length_take, List.length_drop, dirEntrySize] at room ⊢
      omega
    constructor
    · rw [splice_length (by simp [whole, dirEntrySize]), whole]
    · simp [splice, Slot.isDeleted, byteAt]
  have slots : slotsOf (image.put before.length deleted).bytes = before ++ (deleted ++ after) := by
    rw [DirImage.put, slotsOf, chunks_splice (by decide) (fun slot member => (each slot member).1)
      (by omega), ← slotsOf, cut]
    simp [splice, length]
  obtain ⟨last, parts⟩ := parseFrom_append fatType before (deleted ++ after) 0 .new 0 holds.inside
  rw [parseLocated, slots, parts, parseFrom_deleted (fun slot member => (each slot member).2)
    (List.ne_nil_of_length_eq_add_one length), length, stop, starts, ← Nat.add_assoc]
  rfl

/-- The slots of entries come in the order of the entries, and no two entries share one. -/
theorem parseSlots_increasing (fatType : FatType) (index : Nat) (slots : List Slot)
    : (parseSlots fatType index slots).Pairwise (fun one next => one.stop ≤ next.start) := by
  rw [List.pairwise_iff_getElem]
  intro one next oneInside nextInside before
  have parsed := (List.take_append_drop one (parseSlots fatType index slots)).symm
  rw [List.drop_eq_getElem_cons oneInside] at parsed
  obtain ⟨-, -, -, after, -, -, -, -, later⟩ := parseSlots_split parsed
  have member : (parseSlots fatType index slots)[next]
      ∈ (parseSlots fatType index slots).drop (one + 1) :=
    List.mem_drop_iff_getElem.mpr ⟨next - (one + 1), by omega, by congr; omega⟩
  rw [later] at member
  obtain ⟨earlier, others, split⟩ := List.append_of_mem member
  obtain ⟨front, -, -, -, -, starts, -⟩ := parseSlots_split split
  omega

/-- Deleting an entry removes just that entry, in a directory of any bytes. The slots of its
entries are disjoint, increasing and inside it, and hold the pieces of the entry's long name and
its 8.3 entry. Marking those of one entry deleted leaves the listing without it, and as it is.
-/
theorem delete_removes_entry (image : DirImage) (fatType : FatType)
    : (parseLocated image.bytes fatType).Pairwise (fun one next => one.stop ≤ next.start)
      ∧ (∀ located ∈ parseLocated image.bytes fatType,
          located.stop * dirEntrySize ≤ image.bytes.length
          ∧ ∃ before pieces short after,
              slotsOf image.bytes = before ++ (pieces ++ short :: after)
              ∧ located.start = before.length
              ∧ located.Holds fatType before pieces short)
      ∧ ∀ index located, (parseLocated image.bytes fatType)[index]? = some located →
          parseLocated (image.delete located.start (located.stop - located.start)).bytes fatType
            = (parseLocated image.bytes fatType).eraseIdx index := by
  refine ⟨parseSlots_increasing fatType 0 _, ?_, ?_⟩
  · intro located member
    obtain ⟨earlier, later, parsed⟩ := List.append_of_mem member
    obtain ⟨before, pieces, short, after, cut, starts, holds, -⟩ := parseSlots_split parsed
    rw [Nat.zero_add] at starts
    refine ⟨?_, before, pieces, short, after, cut, starts, holds⟩
    have room := congrArg List.length cut
    have stop := holds.stop
    simp only [slotsOf, chunks_length, List.length_append, List.length_cons] at room
    exact (Nat.le_div_iff_mul_le (by decide)).mp (by omega)
  · intro index located found
    obtain ⟨inside, rfl⟩ := List.getElem?_eq_some_iff.mp found
    have parsed := (List.take_append_drop index (parseLocated image.bytes fatType)).symm
    rw [List.drop_eq_getElem_cons inside] at parsed
    rw [parseLocated_delete image parsed, List.eraseIdx_eq_take_drop_succ]

end RustyPi.Fat
