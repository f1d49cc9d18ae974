import Mathlib.Data.List.Sort
import RustyPi.Memory.Paging

/-! Executables of `rustypi-core/src/elf.rs`: what the file header and program headers say, checked
before a single page is mapped.
-/

namespace RustyPi.Elf

open RustyPi.Memory

/-- The stack ends a page below the top of the user window. -/
def stackTop : Nat := userEnd - pageSize

def stackSize : Nat := 64 * 1024

/-- A program's segments must end by here, leaving an unmapped page below the stack. -/
def programEnd : Nat := stackTop - stackSize - pageSize

inductive ElfError
  | truncated
  | notElf
  | wrongArchitecture
  | notExecutable
  | noSegments
  | unaligned
  | outsideProgramArea
  | badSize
  | writableAndExecutable
  | overlapping
  | badEntry
  deriving DecidableEq, Repr

structure Segment where
  address : Nat
  /-- Bytes in memory. The part past `data` is zero. -/
  size : Nat
  data : List UInt8
  access : Access
  deriving DecidableEq, Repr

def Segment.stop (segment : Segment) : Nat := segment.address + segment.size

structure Program where
  entry : Nat
  /-- In address order. -/
  segments : List Segment
  deriving DecidableEq, Repr

def magic : List UInt8 := [0x7f, 0x45, 0x4c, 0x46]

def class64 : UInt8 := 2

def littleEndian : UInt8 := 1

def typeExecutable : Nat := 2

def machineAarch64 : Nat := 183

def headerSize : Nat := 64

def programHeaderSize : Nat := 56

def ptLoad : Nat := 1

def pfX : Nat := 1

def pfW : Nat := 2

/-- The number in `count` bytes at `at_`. Past the end of the address space the range is empty the
wrong way round, so there is none.
-/
def numberAt (count : Nat) (bytes : List UInt8) (at_ : Nat) : Except ElfError Nat :=
  let stop := wrap (at_ + count)
  if at_ ≤ stop ∧ stop ≤ bytes.length then
    .ok (((bytes.drop at_).take (stop - at_)).foldr (fun byte high => byte.toNat + 0x100 * high) 0)
  else .error .truncated

def u16At : List UInt8 → Nat → Except ElfError Nat := numberAt 2

def u32At : List UInt8 → Nat → Except ElfError Nat := numberAt 4

def u64At : List UInt8 → Nat → Except ElfError Nat := numberAt 8

/-- `value` rounded up to a multiple of the page size. -/
def nextPage (value : Nat) : Nat := (value + pageSize - 1) / pageSize * pageSize

/-- Goes on if the condition holds. -/
def check (condition : Prop) [Decidable condition] (error : ElfError) : Except ElfError Unit :=
  if condition then .ok () else .error error

/-- What a segment with these flags may be used for. -/
def accessOf (flags : Nat) : Except ElfError Access :=
  match decide (flags &&& pfW ≠ 0), decide (flags &&& pfX ≠ 0) with
  | true, true => .error .writableAndExecutable
  | true, false => .ok .readWrite
  | false, true => .ok .readExecute
  | false, false => .ok .readOnly

/-- The segment of the loaded program header at `header`, unless it is empty. -/
def loadedAt (bytes : List UInt8) (header : Nat) : Except ElfError (Option Segment) := do
  let flags ← u32At bytes (header + 4)
  let offset ← u64At bytes (header + 8)
  let address ← u64At bytes (header + 16)
  let fileSize ← u64At bytes (header + 32)
  let size ← u64At bytes (header + 40)
  check (address % pageSize = 0) .unaligned
  check (address + size < wordLimit) .outsideProgramArea
  check (userBase ≤ address ∧ address + size ≤ programEnd) .outsideProgramArea
  check (fileSize ≤ size) .badSize
  check (offset + fileSize < wordLimit ∧ offset + fileSize ≤ bytes.length) .truncated
  let access ← accessOf flags
  return if 0 < size then
      some { address, size, data := (bytes.drop offset).take fileSize, access }
    else none

/-- The segment of the program header at `header`, if there is one to load. -/
def segmentAt (bytes : List UInt8) (header : Nat) : Except ElfError (Option Segment) := do
  let kind ← u32At bytes header
  if kind = ptLoad then loadedAt bytes header else return none

/-- The segments of the program headers with these numbers. -/
def segmentsAt (bytes : List UInt8) (table entrySize : Nat) : List Nat → Except ElfError (List Segment)
  | [] => return []
  | index :: rest => do
      check (table + index * entrySize < wordLimit) .truncated
      let segment ← segmentAt bytes (table + index * entrySize)
      let others ← segmentsAt bytes table entrySize rest
      return segment.toList ++ others

/-- Whether two neighbours share a page. -/
def overlap : List Segment → Bool
  | first :: second :: rest => second.address < nextPage first.stop || overlap (second :: rest)
  | _ => false

/-- The program starts in this segment, which is executable. -/
def Segment.runsEntry (entry : Nat) (segment : Segment) : Bool :=
  segment.access = .readExecute ∧ segment.address ≤ entry ∧ entry < segment.stop

/-- Checks `bytes` is a program that can run, and finds its segments. -/
def parse (bytes : List UInt8) : Except ElfError Program := do
  check (headerSize ≤ bytes.length) (if magic.isPrefixOf bytes then .truncated else .notElf)
  check (bytes.take 4 = magic) .notElf
  check (bytes[4]? = some class64 ∧ bytes[5]? = some littleEndian) .wrongArchitecture
  let machine ← u16At bytes 18
  check (machine = machineAarch64) .wrongArchitecture
  let type ← u16At bytes 16
  check (type = typeExecutable) .notExecutable
  let entry ← u64At bytes 24
  let table ← u64At bytes 32
  let entrySize ← u16At bytes 54
  let count ← u16At bytes 56
  check (count = 0 ∨ programHeaderSize ≤ entrySize) .truncated
  let found ← segmentsAt bytes table entrySize (List.range count)
  check (found ≠ []) .noSegments
  let segments := found.mergeSort (fun left right => left.address ≤ right.address)
  check (overlap segments = false) .overlapping
  check (segments.any (Segment.runsEntry entry) = true) .badEntry
  return { entry, segments }

/-- A segment that can be loaded. -/
structure Segment.Valid (segment : Segment) : Prop where
  aligned : segment.address % pageSize = 0
  low : userBase ≤ segment.address
  high : segment.stop ≤ programEnd
  some : 0 < segment.size
  fits : segment.data.length ≤ segment.size

/-- A program that can be loaded. -/
structure Program.Valid (program : Program) : Prop where
  segments : ∀ segment ∈ program.segments, segment.Valid
  /-- No two segments share a page, and they are in address order. -/
  apart : program.segments.Pairwise (fun first second => nextPage first.stop ≤ second.address)
  /-- The entry point is in an executable segment. -/
  entry
    : ∃ segment ∈ program.segments,
        segment.access = .readExecute
        ∧ segment.address ≤ program.entry
        ∧ program.entry < segment.stop

theorem bind_eq_ok {First Second : Type} {first : Except ElfError First}
    {next : First → Except ElfError Second} {result : Second}
    (gave : (first >>= next) = .ok result)
    : ∃ value, first = .ok value ∧ next value = .ok result := by
  cases first with
  | error error => cases gave
  | ok value => exact ⟨value, rfl, gave⟩

theorem check_bind_eq_ok {Second : Type} {condition : Prop} [Decidable condition]
    {error : ElfError} {next : Unit → Except ElfError Second} {result : Second}
    (gave : (check condition error >>= next) = .ok result)
    : condition ∧ next () = .ok result := by
  obtain ⟨_, checked, rest⟩ := bind_eq_ok gave
  unfold check at checked
  split at checked
  · rename_i holds
    exact ⟨holds, rest⟩
  · cases checked

variable {bytes : List UInt8}

theorem loadedAt_valid {header : Nat} {segment : Segment}
    (found : loadedAt bytes header = .ok (some segment))
    : segment.Valid := by
  unfold loadedAt at found
  obtain ⟨flags, -, found⟩ := bind_eq_ok found
  obtain ⟨offset, -, found⟩ := bind_eq_ok found
  obtain ⟨address, -, found⟩ := bind_eq_ok found
  obtain ⟨fileSize, -, found⟩ := bind_eq_ok found
  obtain ⟨size, -, found⟩ := bind_eq_ok found
  obtain ⟨aligned, found⟩ := check_bind_eq_ok found
  obtain ⟨-, found⟩ := check_bind_eq_ok found
  obtain ⟨⟨low, high⟩, found⟩ := check_bind_eq_ok found
  obtain ⟨smaller, found⟩ := check_bind_eq_ok found
  obtain ⟨-, found⟩ := check_bind_eq_ok found
  obtain ⟨access, -, found⟩ := bind_eq_ok found
  have made := Except.ok.inj found
  split at made
  · rename_i positive
    cases made
    refine ⟨aligned, low, high, positive, ?_⟩
    exact Nat.le_trans (List.length_take_le ..) smaller
  · cases made

theorem segmentAt_valid {header : Nat} {segment : Segment}
    (found : segmentAt bytes header = .ok (some segment))
    : segment.Valid := by
  obtain ⟨kind, -, found⟩ := bind_eq_ok found
  split at found
  · exact loadedAt_valid found
  · cases found

/-- Every segment that was found is valid, by induction on the program headers. -/
theorem segmentsAt_valid {table entrySize : Nat} {indices : List Nat} {segments : List Segment}
    (found : segmentsAt bytes table entrySize indices = .ok segments)
    : ∀ segment ∈ segments, segment.Valid := by
  induction indices generalizing segments with
  | nil =>
    cases found
    simp
  | cons index rest ih =>
    unfold segmentsAt at found
    obtain ⟨-, found⟩ := check_bind_eq_ok found
    obtain ⟨first, firstFound, found⟩ := bind_eq_ok found
    obtain ⟨others, othersFound, found⟩ := bind_eq_ok found
    cases found
    intro segment listed
    rcases List.mem_append.mp listed with here | there
    · rw [Option.mem_toList] at here
      exact segmentAt_valid (here ▸ firstFound)
    · exact ih othersFound segment there

/-- Neighbours that don't overlap are all apart, since addresses only grow. -/
theorem pairwise_of_overlap {segments : List Segment} (apart : overlap segments = false)
    : segments.Pairwise (fun first second => nextPage first.stop ≤ second.address) := by
  have chain : segments.IsChain (fun first second => nextPage first.stop ≤ second.address) := by
    fun_induction overlap segments with
    | case1 first second rest ih =>
      rw [Bool.or_eq_false_iff, decide_eq_false_iff_not, Nat.not_lt] at apart
      exact .cons_cons apart.1 (ih apart.2)
    | case2 segments short =>
      match segments with
      | [] => exact .nil
      | [segment] => exact .singleton segment
      | first :: second :: rest => exact absurd rfl (short first second rest)
  have trans
      : IsTrans Segment (fun first second => nextPage first.stop ≤ second.address) :=
    ⟨fun first second third before after => by
      have further : second.address ≤ nextPage second.stop := by
        simp only [nextPage, Segment.stop, pageSize]
        omega
      exact Nat.le_trans before (Nat.le_trans further after)⟩
  exact List.isChain_iff_pairwise.mp chain

/-- What is accepted can be loaded. -/
theorem parse_valid {program : Program} (parsed : parse bytes = .ok program) : program.Valid := by
  unfold parse at parsed
  obtain ⟨-, parsed⟩ := check_bind_eq_ok parsed
  obtain ⟨-, parsed⟩ := check_bind_eq_ok parsed
  obtain ⟨-, parsed⟩ := check_bind_eq_ok parsed
  obtain ⟨machine, -, parsed⟩ := bind_eq_ok parsed
  obtain ⟨-, parsed⟩ := check_bind_eq_ok parsed
  obtain ⟨type, -, parsed⟩ := bind_eq_ok parsed
  obtain ⟨-, parsed⟩ := check_bind_eq_ok parsed
  obtain ⟨entry, -, parsed⟩ := bind_eq_ok parsed
  obtain ⟨table, -, parsed⟩ := bind_eq_ok parsed
  obtain ⟨entrySize, -, parsed⟩ := bind_eq_ok parsed
  obtain ⟨count, -, parsed⟩ := bind_eq_ok parsed
  obtain ⟨-, parsed⟩ := check_bind_eq_ok parsed
  obtain ⟨found, foundAll, parsed⟩ := bind_eq_ok parsed
  obtain ⟨-, parsed⟩ := check_bind_eq_ok parsed
  obtain ⟨apart, parsed⟩ := check_bind_eq_ok parsed
  obtain ⟨runs, parsed⟩ := check_bind_eq_ok parsed
  cases parsed
  refine ⟨fun segment listed => ?_, pairwise_of_overlap apart, ?_⟩
  · exact segmentsAt_valid foundAll segment (List.mem_mergeSort.mp listed)
  · obtain ⟨segment, listed, runs⟩ := List.any_eq_true.mp runs
    exact ⟨segment, listed, by simpa [Segment.runsEntry] using runs⟩

end RustyPi.Elf
