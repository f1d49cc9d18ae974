import RustyPi.Elf.Parsing
import RustyPi.Memory.Views

/-! Loading an executable into an address space. A valid program finds room for each of its segments,
so only frames can run out; then the space shows just the program's image.
-/

namespace RustyPi.Elf

open RustyPi.Memory

/-- Loading failed: out of memory, or something already in the way in the address space. -/
inductive LoadError
  | map (error : MapError)
  | access (fault : AccessFault)
  deriving DecidableEq, Repr

/-- Maps and fills the segments one after another. -/
def loadSegments (space : AddressSpace)
    : List Segment → Paging (AddressSpace × Except LoadError Unit)
  | [] => return (space, .ok ())
  | segment :: rest => do
      match ← space.mapRange segment.address segment.size segment.access with
      | (space, .error error) => return (space, .error (.map error))
      | (space, .ok ()) => do
          match ← space.load segment.address segment.data with
          | .error fault => return (space, .error (.access fault))
          | .ok () => loadSegments space rest

def Program.load (program : Program) (space : AddressSpace)
    : Paging (AddressSpace × Except LoadError Unit) :=
  loadSegments space program.segments

/-- The byte at `va` is in one of the segment's pages. -/
def Segment.Covers (segment : Segment) (va : Nat) : Prop :=
  segment.address ≤ va ∧ va < segment.address + wholePages segment.size

instance (segment : Segment) (va : Nat) : Decidable (segment.Covers va) :=
  inferInstanceAs (Decidable (_ ∧ _))

/-- A segment in memory: its data, followed by zeros up to the end of its last page. -/
def Segment.shows (segment : Segment) (va : Nat) : UInt8 × Access :=
  (segment.data[va - segment.address]?.getD 0, segment.access)

/-- What memory shows with these segments in it, each over what was there before. -/
def shows (base : Nat → Option (UInt8 × Access)) (segments : List Segment) (va : Nat)
    : Option (UInt8 × Access) :=
  match segments.find? (fun segment => segment.Covers va) with
  | some segment => some (segment.shows va)
  | none => base va

/-- What a program that was loaded into a new address space sees. -/
def Program.image (program : Program) : Nat → Option (UInt8 × Access) :=
  shows (fun _ => none) program.segments

variable {segment : Segment}

theorem Segment.covers_of_lt_stop {va : Nat} (low : segment.address ≤ va) (high : va < segment.stop)
    : segment.Covers va := by
  refine ⟨low, ?_⟩
  simp only [Segment.stop, wholePages, pageSize] at *
  omega

theorem Segment.Covers.apart {first second : Segment} (valid : first.Valid)
    (apart : nextPage first.stop ≤ second.address) {va : Nat} (covers : first.Covers va)
    : ¬ second.Covers va := by
  obtain ⟨aligned, -, -, -, -⟩ := valid
  obtain ⟨-, before⟩ := covers
  rintro ⟨from_, -⟩
  simp only [Segment.stop, nextPage, wholePages, pageSize] at *
  omega

section Shown

variable {base : Nat → Option (UInt8 × Access)} {segments rest : List Segment} {va : Nat}

theorem shows_of_covers (covers : segment.Covers va)
    : shows base (segment :: rest) va = some (segment.shows va) := by
  simp [shows, covers]

theorem shows_of_not_covers (free : ¬ segment.Covers va)
    : shows base (segment :: rest) va = shows base rest va := by
  simp [shows, free]

theorem shows_of_none (free : ∀ segment ∈ segments, ¬ segment.Covers va)
    : shows base segments va = base va := by
  have none : segments.find? (fun segment => segment.Covers va) = none := by
    simpa [List.find?_eq_none] using free
  simp [shows, none]

/-- Of segments that are apart, each is shown as it is. By induction on those before it. -/
theorem shows_of_mem (valid : ∀ segment ∈ segments, segment.Valid)
    (apart : segments.Pairwise (fun first second => nextPage first.stop ≤ second.address))
    (listed : segment ∈ segments) (covers : segment.Covers va)
    : shows base segments va = some (segment.shows va) := by
  induction segments with
  | nil => cases listed
  | cons first rest ih =>
    obtain ⟨firstApart, restApart⟩ := List.pairwise_cons.mp apart
    rcases List.mem_cons.mp listed with rfl | later
    · exact shows_of_covers covers
    · have free : ¬ first.Covers va := fun here =>
        here.apart (valid first List.mem_cons_self) (firstApart segment later) covers
      rw [shows_of_not_covers free]
      exact ih (fun other there => valid other (List.mem_cons_of_mem _ there)) restApart later

end Shown

/-- The entry point is in an executable page of the image. -/
theorem Program.Valid.image_entry {program : Program} (valid : program.Valid)
    : ∃ byte, program.image program.entry = some (byte, .readExecute) := by
  obtain ⟨segment, listed, executable, low, high⟩ := valid.entry
  have covers := Segment.covers_of_lt_stop low high
  refine ⟨segment.data[program.entry - segment.address]?.getD 0, ?_⟩
  rw [← executable]
  exact shows_of_mem valid.segments valid.apart listed covers

section Load

variable {scarce : Prop} {kernel : Table} {space : AddressSpace} {pages : Pages}
variable {held : List Nat} {ram : Ram}

/-- Valid segments that are apart, over pages where nothing is mapped, are all loaded unless frames
run out. By induction on the segments.
-/
theorem loadSegments_ensures (faithful : Faithful kernel space pages held ram)
    {segments : List Segment} (valid : ∀ segment ∈ segments, segment.Valid)
    (apart : segments.Pairwise (fun first second => nextPage first.stop ≤ second.address))
    (free : ∀ segment ∈ segments, ∀ va, segment.Covers va → pages.view ram va = none)
    : (loadSegments space segments).Ensures (source scarce)
        (fun result after later =>
          ∃ pagesAfter,
            Faithful kernel result.1 pagesAfter after later
            ∧ match result.2 with
              | .error error => error = .map .outOfMemory ∧ scarce
              | .ok () => ∀ va, pagesAfter.view later va = shows (pages.view ram) segments va)
        held ram := by
  induction segments generalizing space pages held ram with
  | nil => exact ⟨pages, faithful, fun _ => rfl⟩
  | cons segment rest ih =>
    obtain ⟨segmentApart, restApart⟩ := List.pairwise_cons.mp apart
    have segmentValid := valid segment List.mem_cons_self
    unfold loadSegments
    have inWindow : segment.address + wholePages segment.size ≤ userEnd := by
      have := segmentValid.aligned
      have := segmentValid.high
      simp only [Segment.stop, wholePages, programEnd, stackTop, stackSize, userEnd,
        pageSize] at *
      omega
    refine (AddressSpace.mapRange_ensures faithful segment.access segmentValid.aligned segmentValid.low
      inWindow (fun va low high => free segment List.mem_cons_self va ⟨low, high⟩)).bind
      (fun result held between mapped => ?_)
    obtain ⟨space, answer⟩ := result
    obtain ⟨pagesMapped, faithful, outcome⟩ := mapped
    cases answer with
    | error error =>
      obtain ⟨rfl, short⟩ := outcome
      exact ⟨pagesMapped, faithful, rfl, short⟩
    | ok _ =>
      have zeros (va : Nat)
          : pagesMapped.view between va
            = if segment.Covers va then some (0, segment.access) else pages.view ram va :=
        outcome va
      have covered (offset : Nat) (inside : offset < segment.data.length)
          : (pagesMapped.view between (segment.address + offset)).isSome := by
        have covers : segment.Covers (segment.address + offset) :=
          Segment.covers_of_lt_stop (Nat.le_add_right ..)
            (Nat.add_lt_add_left (Nat.lt_of_lt_of_le inside segmentValid.fits) _)
        rw [zeros, if_pos covers]
        rfl
      refine (AddressSpace.load_ensures faithful covered).bind (fun result held later loaded => ?_)
      obtain ⟨rfl, rfl, faithful, view⟩ := loaded
      -- What the first segment made of the view that the others start from.
      have firstShown (va : Nat)
          : pagesMapped.view later va
            = if segment.Covers va then some (segment.shows va) else pages.view ram va := by
        rw [view, zeros]
        by_cases covers : segment.Covers va
        · simp only [covers, if_true, Option.map_some, if_pos covers.1]
          rfl
        · rw [if_neg covers, if_neg covers]
          have apart : ¬ segment.address ≤ va ∨ segment.data.length ≤ va - segment.address := by
            have := segmentValid.fits
            by_contra inside
            exact covers (Segment.covers_of_lt_stop (by omega)
              (by simp only [Segment.stop]; omega))
          rcases apart with early | late
          · simp [early]
          · simp [List.getElem?_eq_none late]
      refine (ih faithful (fun other there => valid other (List.mem_cons_of_mem _ there))
        restApart (fun other there va covers => ?_)).mono (fun result after last others => ?_)
      · have before : ¬ segment.Covers va := fun here =>
          here.apart segmentValid (segmentApart other there) covers
        rw [firstShown, if_neg before]
        exact free other (List.mem_cons_of_mem _ there) va covers
      · obtain ⟨pagesLast, faithful, outcome⟩ := others
        refine ⟨pagesLast, faithful, ?_⟩
        obtain ⟨final, answer⟩ := result
        cases answer with
        | error error => exact outcome
        | ok _ =>
          intro va
          rw [outcome va]
          by_cases covers : segment.Covers va
          · have others : ∀ other ∈ rest, ¬ other.Covers va := fun other there =>
              covers.apart segmentValid (segmentApart other there)
            rw [shows_of_covers covers, shows_of_none others, firstShown, if_pos covers]
          · rw [shows_of_not_covers covers]
            simp only [shows, firstShown, if_neg covers]

end Load

end RustyPi.Elf
