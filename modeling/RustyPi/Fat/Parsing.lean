import RustyPi.Fat.Slots

/-! How parsing a directory goes on from one slot to the next. A long name in progress is all
that earlier slots leave behind, so where none is in progress a directory can be cut in two. The
slots of one entry show it wherever no long name is in progress.
-/

namespace RustyPi.Fat

open RustyPi.Bytes

namespace LongName

/-- No long name is in progress. -/
def Clean (long : LongName) : Prop := long.units = [] ∧ long.expected = 0

theorem new_clean : new.Clean := ⟨rfl, rfl⟩

theorem reset_clean (long : LongName) : long.reset.Clean := ⟨rfl, rfl⟩

/-- The state after a slot that is not the end marker. -/
def collect (long : LongName) (slot : Slot) : LongName :=
  if slot.isDeleted then long.reset
  else if slot.isLongName then long.add slot
  else long.reset

theorem Clean.take {long : LongName} (clean : long.Clean) (short : ShortName)
    : long.take short = none := by
  simp [LongName.take, clean.1]

variable {slot : Slot}

theorem Clean.add {long : LongName} (clean : long.Clean) (continues : slot.isLast = false)
    : (long.add slot).Clean := by
  have dropped : byteAt slot 0 &&& 0x1F = 0 ∨ byteAt slot 0 &&& 0x1F ≠ long.expected
      ∨ slot[13]?.getD 0 ≠ long.checksum := by
    rw [clean.2]
    omega
  simp only [LongName.add, continues, Bool.false_eq_true, if_false]
  rw [if_pos dropped]
  exact reset_clean long

theorem add_of_last (first second : LongName) (starts : slot.isLast = true)
    : first.add slot = second.add slot := by
  simp only [LongName.add, starts, if_true]

end LongName

/-- The slots from number `index` on, with no long name in progress. -/
def parseSlots (fatType : FatType) (index : Nat) (slots : List Slot) : List Located :=
  parseFrom fatType index .new 0 slots

/-- Where the long name in progress started, after a slot with number `index`. -/
def startAfter (index start : Nat) (slot : Slot) : Nat :=
  if !slot.isDeleted && slot.isLongName && slot.isLast then index else start

/-- A slot that is an 8.3 entry of a file or directory. -/
def Slot.isEntry (slot : Slot) : Bool :=
  !slot.isEnd && !slot.isDeleted && !slot.isLongName && !slot.isVolumeId

/-- What one slot adds to the listing: an 8.3 entry adds itself, unless it is `.` or `..`. -/
def parseSlot (fatType : FatType) (index : Nat) (long : LongName) (start : Nat) (slot : Slot)
    : List Located :=
  if slot.isEntry then
    let longName := long.take (slot.take 11)
    let name := longName.getD (shortName slot)
    if name = ['.'] ∨ name = ['.', '.'] then []
    else
      [{
        entry := readEntry fatType slot name
        start := if longName.isSome then start else index
        stop := index + 1
      }]
  else []

section Parsing

variable (fatType : FatType)
include fatType

theorem parseFrom_cons (index : Nat) (long : LongName) (start : Nat)
    (inside : slot.isEnd = false) (rest : List Slot)
    : parseFrom fatType index long start (slot :: rest)
      = parseSlot fatType index long start slot
        ++ parseFrom fatType (index + 1) (long.collect slot) (startAfter index start slot)
            rest := by
  cases deleted : slot.isDeleted with
  | true =>
    simp [parseFrom, parseSlot, Slot.isEntry, LongName.collect, startAfter, inside, deleted]
  | false =>
    cases piece : slot.isLongName with
    | true =>
      simp [parseFrom, parseSlot, Slot.isEntry, LongName.collect, startAfter, inside,
        deleted, piece]
    | false =>
      cases volume : slot.isVolumeId with
      | true =>
        simp [parseFrom, parseSlot, Slot.isEntry, LongName.collect, startAfter, inside,
          deleted, piece, volume]
      | false =>
        simp only [parseFrom, parseSlot, Slot.isEntry, LongName.collect, startAfter,
          inside, deleted, piece, volume, Bool.false_eq_true, if_false, Bool.not_false,
          Bool.and_self, if_true, Bool.and_false, Bool.false_and]
        split <;> rfl

theorem parseFrom_end (index : Nat) (long : LongName) (start : Nat)
    (ends : slot.isEnd = true) (rest : List Slot)
    : parseFrom fatType index long start (slot :: rest) = [] := by
  simp [parseFrom, ends]

/-- With no long name in progress, what else the state holds does not matter. By induction on
the slots: a first piece makes the states equal, and everything else keeps them clean.
-/
theorem parseFrom_of_clean {long : LongName} (clean : long.Clean)
    (index start : Nat) (slots : List Slot)
    : parseFrom fatType index long start slots = parseSlots fatType index slots := by
  unfold parseSlots
  suffices agree : ∀ (other : LongName) (otherStart : Nat), other.Clean →
      parseFrom fatType index long start slots
        = parseFrom fatType index other otherStart slots from
    agree .new 0 LongName.new_clean
  intro other otherStart otherClean
  induction slots generalizing index long other start otherStart with
  | nil => rfl
  | cons slot rest ih =>
    cases ends : slot.isEnd with
    | true => rw [parseFrom_end _ _ _ _ ends, parseFrom_end _ _ _ _ ends]
    | false =>
      have head : parseSlot fatType index long start slot
          = parseSlot fatType index other otherStart slot := by
        simp [parseSlot, clean.take, otherClean.take]
      rw [parseFrom_cons _ _ _ _ ends, parseFrom_cons _ _ _ _ ends, head]
      congr 1
      by_cases starts : !slot.isDeleted && slot.isLongName && slot.isLast
      · simp only [Bool.and_eq_true, Bool.not_eq_true'] at starts
        simp [LongName.collect, startAfter, starts, LongName.add_of_last long other starts.2]
      · have keeps {state : LongName} (clean : state.Clean) : (state.collect slot).Clean := by
          unfold LongName.collect
          split
          · exact state.reset_clean
          · split
            · refine clean.add ?_
              simp_all
            · exact state.reset_clean
        exact ih (keeps clean) (index + 1) _ _ _ (keeps otherClean)

/-- Parsing goes on after a run of slots without an end marker, in the state they leave. -/
theorem parseFrom_append (before after : List Slot) (index : Nat)
    (long : LongName) (start : Nat) (inside : ∀ slot ∈ before, slot.isEnd = false)
    : ∃ last,
        parseFrom fatType index long start (before ++ after)
        = parseFrom fatType index long start before
          ++ parseFrom fatType (index + before.length) (before.foldl LongName.collect long) last
              after := by
  induction before generalizing index long start with
  | nil => exact ⟨start, by simp [parseFrom]⟩
  | cons slot rest ih =>
    have here := inside slot List.mem_cons_self
    obtain ⟨last, tail⟩ := ih (index + 1) (long.collect slot) (startAfter index start slot)
      (fun other member => inside other (.tail _ member))
    refine ⟨last, ?_⟩
    rw [List.cons_append, parseFrom_cons _ _ _ _ here, parseFrom_cons _ _ _ _ here, tail,
      List.append_assoc, List.foldl_cons, List.length_cons, Nat.add_right_comm index 1,
      Nat.add_assoc index]

/-- A directory can be cut wherever no long name is in progress. -/
theorem parseSlots_append {before : List Slot} (after : List Slot)
    (index : Nat) (inside : ∀ slot ∈ before, slot.isEnd = false)
    (clean : (before.foldl LongName.collect .new).Clean)
    : parseSlots fatType index (before ++ after)
      = parseSlots fatType index before
        ++ parseSlots fatType (index + before.length) after := by
  obtain ⟨last, cut⟩ := parseFrom_append fatType before after index .new 0 inside
  rw [parseSlots, cut, parseFrom_of_clean fatType clean]
  rfl

/-- An entry in slots `start` to `stop`, as a listing shows it: `.` and `..` are left out. -/
def shownEntry (entry : DirEntry) (start stop : Nat) : List Located :=
  if entry.name = ['.'] ∨ entry.name = ['.', '.'] then []
  else [{ entry, start, stop }]

/-- An 8.3 entry adds itself to the listing, under the long name collected for it if there is
one, and leaves no long name in progress.
-/
theorem parseFrom_isEntry (isEntry : slot.isEntry = true) (index : Nat)
    (long : LongName) (start : Nat) (rest : List Slot)
    : parseFrom fatType index long start (slot :: rest)
      = shownEntry
          (readEntry fatType slot ((long.take (slot.take 11)).getD (shortName slot)))
          (if (long.take (slot.take 11)).isSome then start else index) (index + 1)
        ++ parseSlots fatType (index + 1) rest := by
  have kinds := isEntry
  simp only [Slot.isEntry, Bool.and_eq_true, Bool.not_eq_true'] at kinds
  obtain ⟨⟨⟨inside, kept⟩, short⟩, -⟩ := kinds
  have resets : (long.collect slot).Clean := by
    simp only [LongName.collect, kept, short, Bool.false_eq_true, if_false]
    exact long.reset_clean
  rw [parseFrom_cons _ _ _ _ inside, parseFrom_of_clean fatType resets]
  simp only [parseSlot, isEntry, if_true]
  rfl

end Parsing

/-- The slots of one entry: the pieces of a complete long name, and the 8.3 entry they belong to
(alone, if it has no long name).
-/
structure EntrySlots (pieces : List Slot) (short : Slot) : Prop where
  long : ∀ piece ∈ pieces,
    piece.isEnd = false ∧ piece.isDeleted = false ∧ piece.isLongName = true
  entry : short.isEntry = true
  starts : ∀ piece ∈ pieces.head?, piece.isLast = true
  continues : ∀ piece ∈ pieces.tail, piece.isLast = false
  complete : pieces ≠ [] → ((pieces.foldl LongName.add .new).take (short.take 11)).isSome = true

/-- The name an entry goes by. -/
def nameOf (pieces : List Slot) (short : Slot) : Str :=
  ((pieces.foldl LongName.add .new).take (short.take 11)).getD (shortName short)

section Pieces

variable (fatType : FatType)

theorem parseFrom_piece {piece : Slot}
    (long : piece.isEnd = false ∧ piece.isDeleted = false ∧ piece.isLongName = true)
    (index : Nat) (state : LongName) (start : Nat) (rest : List Slot)
    : parseFrom fatType index state start (piece :: rest)
      = parseFrom fatType (index + 1) (state.add piece) (if piece.isLast then index else start)
          rest := by
  obtain ⟨inside, kept, isLong⟩ := long
  simp [parseFrom, inside, kept, isLong]

/-- Pieces that go on with a name. By induction on the pieces. -/
theorem parseFrom_continuing {pieces : List Slot}
    (long : ∀ piece ∈ pieces,
      piece.isEnd = false ∧ piece.isDeleted = false ∧ piece.isLongName = true)
    (continues : ∀ piece ∈ pieces, piece.isLast = false) (index : Nat) (state : LongName)
    (start : Nat) (rest : List Slot)
    : parseFrom fatType index state start (pieces ++ rest)
      = parseFrom fatType (index + pieces.length) (pieces.foldl LongName.add state) start rest := by
  induction pieces generalizing index state with
  | nil => rfl
  | cons piece pieces ih =>
    rw [List.cons_append, parseFrom_piece fatType (long piece List.mem_cons_self),
      continues piece List.mem_cons_self, if_neg Bool.false_ne_true,
      ih (fun other member => long other (.tail _ member))
        (fun other member => continues other (.tail _ member)),
      List.foldl_cons, List.length_cons, Nat.add_right_comm, Nat.add_assoc]

end Pieces

theorem EntrySlots.parse {pieces : List Slot} {short : Slot} (slots : EntrySlots pieces short)
    (fatType : FatType) (index : Nat) (rest : List Slot)
    : parseSlots fatType index (pieces ++ short :: rest)
      = shownEntry (readEntry fatType short (nameOf pieces short)) index
          (index + pieces.length + 1)
        ++ parseSlots fatType (index + pieces.length + 1) rest := by
  cases pieces with
  | nil =>
    rw [List.nil_append, parseSlots, parseFrom_isEntry fatType slots.entry, nameOf,
      List.foldl_nil, LongName.new_clean.take]
    rfl
  | cons piece pieces =>
    have starts : piece.isLast = true := slots.starts piece rfl
    have complete := slots.complete (List.cons_ne_nil _ _)
    rw [List.cons_append, parseSlots,
      parseFrom_piece fatType (slots.long piece List.mem_cons_self),
      parseFrom_continuing fatType (fun other member => slots.long other (.tail _ member))
        slots.continues,
      parseFrom_isEntry fatType slots.entry]
    rw [List.foldl_cons] at complete
    simp only [starts, complete, if_true, List.length_cons, nameOf, List.foldl_cons,
      Nat.add_assoc, Nat.add_comm 1]

end RustyPi.Fat
