import RustyPi.Elf.Parsing
import RustyPi.Lib.Checked

/-! `parse` with everything in it that can panic: sums and products of 64-bit numbers, and bytes
taken without asking how many there are. `get` asks. One sum can overflow: the end of the first
word of the first program header.
-/

namespace RustyPi.Elf

open RustyPi.Memory RustyPi.Checked

/-- A computation that can panic, and gives a result or an error otherwise. -/
abbrev Guarded (α : Type) : Type := ExceptT ElfError Checked α

def found {α : Type} (result : Except ElfError α) : Guarded α := ExceptT.mk (.ok result)

def numberAtChecked (count : Nat) (bytes : List UInt8) (at_ : Nat) : Guarded Nat := do
  let _ ← fits 64 (at_ + count)
  found (numberAt count bytes at_)

def loadedAtChecked (bytes : List UInt8) (header : Nat) : Guarded (Option Segment) := do
  let flags ← numberAtChecked 4 bytes (← fits 64 (header + 4))
  let offset ← numberAtChecked 8 bytes (← fits 64 (header + 8))
  let address ← numberAtChecked 8 bytes (← fits 64 (header + 16))
  let fileSize ← numberAtChecked 8 bytes (← fits 64 (header + 32))
  let size ← numberAtChecked 8 bytes (← fits 64 (header + 40))
  found (check (address % pageSize = 0) .unaligned)
  found (check (address + size < wordLimit) .outsideProgramArea)
  found (check (userBase ≤ address ∧ address + size ≤ programEnd) .outsideProgramArea)
  found (check (fileSize ≤ size) .badSize)
  found (check (offset + fileSize < wordLimit ∧ offset + fileSize ≤ bytes.length) .truncated)
  let access ← found (accessOf flags)
  return if 0 < size then
      some { address, size, data := (bytes.drop offset).take fileSize, access }
    else none

def segmentAtChecked (bytes : List UInt8) (header : Nat) : Guarded (Option Segment) := do
  let kind ← numberAtChecked 4 bytes header
  if kind = ptLoad then loadedAtChecked bytes header else return none

def segmentsAtChecked (bytes : List UInt8) (table entrySize : Nat)
    : List Nat → Guarded (List Segment)
  | [] => return []
  | index :: rest => do
      let skipped ← fits 64 (index * entrySize)
      found (check (table + skipped < wordLimit) .truncated)
      let segment ← segmentAtChecked bytes (table + skipped)
      let others ← segmentsAtChecked bytes table entrySize rest
      return segment.toList ++ others

def Segment.stopChecked (segment : Segment) : Checked Nat :=
  fits 64 (segment.address + segment.size)

def overlapChecked : List Segment → Checked Bool
  | first :: second :: rest => do
      let stop ← first.stopChecked
      if second.address < (← fits 64 (nextPage stop)) then return true
      else overlapChecked (second :: rest)
  | _ => return false

def runsEntryChecked (entry : Nat) : List Segment → Checked Bool
  | segment :: rest => do
      if segment.access = .readExecute then
        let stop ← segment.stopChecked
        if segment.address ≤ entry ∧ entry < stop then return true
      runsEntryChecked entry rest
  | [] => return false

def parseChecked (bytes : List UInt8) : Guarded Program := do
  found (check (headerSize ≤ bytes.length) (if magic.isPrefixOf bytes then .truncated else .notElf))
  let start ← slice bytes 0 4
  found (check (start = magic) .notElf)
  let width ← (index bytes 4 : Checked UInt8)
  let order ← (index bytes 5 : Checked UInt8)
  found (check (width = class64 ∧ order = littleEndian) .wrongArchitecture)
  let machine ← numberAtChecked 2 bytes 18
  found (check (machine = machineAarch64) .wrongArchitecture)
  let type ← numberAtChecked 2 bytes 16
  found (check (type = typeExecutable) .notExecutable)
  let entry ← numberAtChecked 8 bytes 24
  let table ← numberAtChecked 8 bytes 32
  let entrySize ← numberAtChecked 2 bytes 54
  let count ← numberAtChecked 2 bytes 56
  found (check (count = 0 ∨ programHeaderSize ≤ entrySize) .truncated)
  let segments ← segmentsAtChecked bytes table entrySize (List.range count)
  found (check (segments ≠ []) .noSegments)
  let segments := segments.mergeSort (fun left right => left.address ≤ right.address)
  found (check ((← overlapChecked segments) = false) .overlapping)
  found (check ((← runsEntryChecked entry segments) = true) .badEntry)
  return { entry, segments }

variable {bytes : List UInt8} {at_ count header : Nat} {α β : Type}

/-- What goes on without a panic from every result of the first part doesn't panic. -/
theorem found_bind {first : Except ElfError α} {next : α → Except ElfError β} {rest : α → Guarded β}
    (same : ∀ value, first = .ok value → rest value = found (next value))
    : (found first >>= rest) = found (first >>= next) := by
  cases first with
  | error error => rfl
  | ok value => exact same value rfl

theorem lift_bind {value : α} {first : Checked α} (ok : first = .ok value) (rest : α → Guarded β)
    : ((liftM first : Guarded α) >>= rest) = rest value := by
  rw [ok]
  rfl

theorem numberAtChecked_eq (small : at_ + count < 2 ^ 64)
    : numberAtChecked count bytes at_ = found (numberAt count bytes at_) :=
  lift_bind (fits_of_lt small) _

theorem number_lt (bytes : List UInt8)
    : bytes.foldr (fun byte high => byte.toNat + 0x100 * high) 0 < 0x100 ^ bytes.length := by
  induction bytes with
  | nil => decide
  | cons byte rest ih =>
    have small := byte.toNat_lt
    rw [List.foldr_cons, List.length_cons, Nat.pow_succ]
    omega

/-- A number that was found is in the file, and no larger than its bytes make it. -/
theorem numberAt_ok {number : Nat} (small : at_ + count < 2 ^ 64)
    (read : numberAt count bytes at_ = .ok number)
    : at_ + count ≤ bytes.length ∧ number < 0x100 ^ count := by
  simp only [numberAt, wrap, wordLimit, Nat.mod_eq_of_lt small] at read
  split at read
  · rename_i inside
    cases read
    refine ⟨inside.2, Nat.lt_of_lt_of_le (number_lt _) (Nat.pow_le_pow_right (by decide) ?_)⟩
    rw [Nat.add_sub_cancel_left]
    exact List.length_take_le ..
  · cases read

theorem loadedAtChecked_eq (inside : header + 4 ≤ bytes.length) (short : bytes.length < 2 ^ 63)
    : loadedAtChecked bytes header = found (loadedAt bytes header) := by
  have small (more : Nat) (few : more ≤ 40) : fits 64 (header + more) = .ok (header + more) :=
    fits_of_lt (by omega)
  unfold loadedAtChecked loadedAt
  rw [lift_bind (small 4 (by decide)), numberAtChecked_eq (by omega)]
  refine found_bind (fun flags _ => ?_)
  rw [lift_bind (small 8 (by decide)), numberAtChecked_eq (by omega)]
  refine found_bind (fun offset _ => ?_)
  rw [lift_bind (small 16 (by decide)), numberAtChecked_eq (by omega)]
  refine found_bind (fun address _ => ?_)
  rw [lift_bind (small 32 (by decide)), numberAtChecked_eq (by omega)]
  refine found_bind (fun fileSize _ => ?_)
  rw [lift_bind (small 40 (by decide)), numberAtChecked_eq (by omega)]
  refine found_bind (fun size _ => ?_)
  iterate 5 refine found_bind (fun _ _ => ?_)
  exact found_bind (fun _ _ => rfl)

theorem segmentAtChecked_eq (small : header + 4 < 2 ^ 64) (short : bytes.length < 2 ^ 63)
    : segmentAtChecked bytes header = found (segmentAt bytes header) := by
  unfold segmentAtChecked segmentAt
  rw [numberAtChecked_eq small]
  refine found_bind (fun kind read => ?_)
  split
  · exact loadedAtChecked_eq (numberAt_ok small read).1 short
  · rfl

/-- A program header that was read is in the file, so the sum for the next one doesn't overflow. By
induction on the headers.
-/
theorem segmentsAtChecked_eq {table entrySize : Nat} (short : bytes.length < 2 ^ 63)
    (narrow : entrySize < 2 ^ 16) (count : Nat) {start : Nat}
    (small : table + start * entrySize + 4 < 2 ^ 64)
    : segmentsAtChecked bytes table entrySize (List.range' start count)
      = found (segmentsAt bytes table entrySize (List.range' start count)) := by
  induction count generalizing start with
  | zero => rfl
  | succ count ih =>
    rw [List.range'_succ, segmentsAtChecked, segmentsAt, lift_bind (fits_of_lt (by omega))]
    refine found_bind (fun _ _ => ?_)
    rw [segmentAtChecked_eq small short]
    refine found_bind (fun segment read => ?_)
    obtain ⟨kind, read, -⟩ := bind_eq_ok read
    have inside := (numberAt_ok small read).1
    rw [ih (by rw [Nat.add_mul]; omega)]
    exact found_bind (fun _ _ => rfl)

theorem stopChecked_eq {segment : Segment} (valid : segment.Valid)
    : segment.stopChecked = .ok segment.stop := by
  have high : segment.stop < 2 ^ 64 := Nat.lt_of_le_of_lt valid.high (by decide)
  exact fits_of_lt high

theorem overlapChecked_eq {segments : List Segment}
    (valid : ∀ segment ∈ segments, segment.Valid)
    : overlapChecked segments = .ok (overlap segments) := by
  fun_induction overlap segments with
  | case1 first second rest ih =>
    have high := (valid first (by simp)).high
    have small : nextPage first.stop < 2 ^ 64 := by
      have limit : programEnd + pageSize < 2 ^ 64 := by decide
      rw [nextPage]
      simp only [pageSize] at *
      omega
    rw [overlapChecked, stopChecked_eq (valid first (by simp)), ok_bind, fits_of_lt small, ok_bind,
      ih (fun segment listed => valid segment (List.mem_cons_of_mem _ listed))]
    split <;> simp_all
  | case2 segments short =>
    rcases segments with _ | ⟨first, _ | ⟨second, rest⟩⟩
    · rfl
    · rfl
    · exact absurd rfl (short first second rest)

theorem runsEntryChecked_eq (entry : Nat) {segments : List Segment}
    (valid : ∀ segment ∈ segments, segment.Valid)
    : runsEntryChecked entry segments = .ok (segments.any (Segment.runsEntry entry)) := by
  induction segments with
  | nil => rfl
  | cons segment rest ih =>
    rw [List.forall_mem_cons] at valid
    rw [runsEntryChecked, stopChecked_eq valid.1, ih valid.2, List.any_cons, Segment.runsEntry]
    by_cases runs : segment.access = .readExecute
    · by_cases inside : segment.address ≤ entry ∧ entry < segment.stop <;> simp [runs, inside]
    · simp [runs]

/-- The file header passes the checks, and says that there are program headers. -/
structure Headed (bytes : List UInt8) : Prop where
  long : headerSize ≤ bytes.length
  start : bytes.take 4 = magic
  width : bytes[4]? = some class64 ∧ bytes[5]? = some littleEndian
  machine : u16At bytes 18 = .ok machineAarch64
  executable : u16At bytes 16 = .ok typeExecutable
  entrySize : ∃ size, u16At bytes 54 = .ok size ∧ programHeaderSize ≤ size
  count : ∃ count, u16At bytes 56 = .ok (count + 1)

theorem check_eq_ok {condition : Prop} [Decidable condition] {error : ElfError}
    : check condition error = .ok () ↔ condition := by
  unfold check
  split <;> simp_all

theorem found_ok_bind (value : α) (rest : α → Guarded β) : (found (.ok value) >>= rest) = rest value :=
  rfl

/-- Where the first program header begins in the last bytes of the address space, the end of its first
word is a sum that overflows.
-/
theorem segmentsAtChecked_overflow {table : Nat} (entrySize count : Nat) (small : table < wordLimit)
    (large : ¬ table + 4 < 2 ^ 64)
    : segmentsAtChecked bytes table entrySize (List.range (count + 1))
      = ExceptT.mk (.error .overflow) := by
  rw [List.range_succ_eq_map, segmentsAtChecked, Nat.zero_mul, lift_bind (fits_of_lt (by decide)),
    Nat.add_zero, check_eq_ok.mpr small, found_ok_bind, segmentAtChecked, numberAtChecked, fits,
    if_neg large]
  rfl

theorem parseChecked_overflow {table : Nat} (headed : Headed bytes)
    (offset : u64At bytes 32 = .ok table) (large : ¬ table + 4 < 2 ^ 64)
    : parseChecked bytes = ExceptT.mk (.error .overflow) := by
  obtain ⟨long, start, ⟨width, order⟩, machine, executable, ⟨size, sized, enough⟩, count, counted⟩ :=
    headed
  have small : table < wordLimit := (numberAt_ok (by decide) offset).2
  have entry : u64At bytes 24 = .ok _ := if_pos ⟨by decide, Nat.le_trans (by decide) long⟩
  have bytes64 : 64 ≤ bytes.length := long
  simp only [u16At, u64At] at *
  unfold parseChecked
  rw [check_eq_ok.mpr long, found_ok_bind, lift_bind (slice_of_le (by decide) (by omega)),
    List.drop_zero, check_eq_ok.mpr start, found_ok_bind, lift_bind (index_of_lt (by omega) 0),
    lift_bind (index_of_lt (by omega) 0), width, order, check_eq_ok.mpr ⟨rfl, rfl⟩, found_ok_bind]
  iterate 6 rw [numberAtChecked_eq (by decide)]
  rw [machine, found_ok_bind, check_eq_ok.mpr rfl, found_ok_bind, executable, found_ok_bind,
    check_eq_ok.mpr rfl, found_ok_bind, entry, found_ok_bind, offset, found_ok_bind, sized,
    found_ok_bind, counted, found_ok_bind, check_eq_ok.mpr (.inr enough), found_ok_bind,
    segmentsAtChecked_overflow size count small large]
  rfl

/-- For every file that a slice can hold, nothing panics exactly if the first program header, when the
file header passes the checks and says that there is one, doesn't begin in the last bytes of the
address space.
-/
theorem parse_without_panic_iff (short : bytes.length < 2 ^ 63)
    : parseChecked bytes = found (parse bytes)
      ↔ (Headed bytes → ∀ table, u64At bytes 32 = .ok table → table + 4 < 2 ^ 64) := by
  refine ⟨fun same headed table offset => ?_, fun small => ?_⟩
  · by_contra large
    rw [parseChecked_overflow headed offset large] at same
    cases same
  unfold parseChecked parse
  refine found_bind (fun _ checked => ?_)
  have long : 64 ≤ bytes.length := check_eq_ok.mp checked
  rw [lift_bind (slice_of_le (by decide) (by omega)), List.drop_zero]
  refine found_bind (fun _ start => ?_)
  rw [lift_bind (index_of_lt (by omega) 0), lift_bind (index_of_lt (by omega) 0),
    List.getElem?_eq_getElem (by omega), List.getElem?_eq_getElem (by omega)]
  simp only [Option.getD_some, Option.some.injEq]
  refine found_bind (fun _ width => ?_)
  rw [numberAtChecked_eq (by decide)]
  refine found_bind (fun machine machineAt => found_bind (fun _ aarch64 => ?_))
  rw [numberAtChecked_eq (by decide)]
  refine found_bind (fun type typeAt => found_bind (fun _ executable => ?_))
  rw [numberAtChecked_eq (by decide)]
  refine found_bind (fun entry _ => ?_)
  rw [numberAtChecked_eq (by decide)]
  refine found_bind (fun table offset => ?_)
  rw [numberAtChecked_eq (by decide)]
  refine found_bind (fun entrySize size => ?_)
  rw [numberAtChecked_eq (by decide)]
  refine found_bind (fun count counted => found_bind (fun _ enough => ?_))
  have segmentsSame : segmentsAtChecked bytes table entrySize (List.range count)
      = found (segmentsAt bytes table entrySize (List.range count)) := by
    cases count with
    | zero => rfl
    | succ count =>
      have headed : Headed bytes := by
        refine ⟨long, check_eq_ok.mp start, ?_, check_eq_ok.mp aarch64 ▸ machineAt,
          check_eq_ok.mp executable ▸ typeAt, ⟨entrySize, size, ?_⟩, count, counted⟩
        · simpa [List.getElem?_eq_getElem (show 4 < bytes.length by omega),
            List.getElem?_eq_getElem (show 5 < bytes.length by omega)] using check_eq_ok.mp width
        · exact (check_eq_ok.mp enough).resolve_left (Nat.succ_ne_zero count)
      rw [List.range_eq_range']
      exact segmentsAtChecked_eq short (numberAt_ok (by decide) size).2 _
        (by simpa using small headed table offset)
  rw [segmentsSame]
  refine found_bind (fun segments read => found_bind (fun _ _ => ?_))
  have valid : ∀ segment ∈ segments.mergeSort (fun left right => left.address ≤ right.address),
      segment.Valid :=
    fun segment listed => segmentsAt_valid read segment (List.mem_mergeSort.mp listed)
  rw [lift_bind (overlapChecked_eq valid)]
  refine found_bind (fun _ _ => ?_)
  rw [lift_bind (runsEntryChecked_eq entry valid)]
  exact found_bind (fun _ _ => rfl)

/-- The header of a program with one program header at the offset, and nothing else. -/
def headerFile (offset : List UInt8) : List UInt8 :=
  magic ++ [2, 1] ++ List.replicate 10 0 ++ [2, 0, 183, 0] ++ List.replicate 12 0 ++ offset
    ++ List.replicate 14 0 ++ [56, 0, 1, 0] ++ List.replicate 6 0

/-- Witness: the program header is said to follow, and doesn't. -/
theorem parse_without_panic_iff_truncated
    : parseChecked (headerFile [64, 0, 0, 0, 0, 0, 0, 0]) = found (.error .truncated) := by
  refine ((parse_without_panic_iff (by decide)).mpr ?_).trans rfl
  rintro - table read
  obtain rfl : 64 = table := Except.ok.inj read
  decide

/-- A program header in the last bytes of the address space: its first word ends past them. -/
theorem parse_overflows
    : parseChecked (headerFile (List.replicate 8 255)) = ExceptT.mk (.error .overflow) := by
  rfl

end RustyPi.Elf
