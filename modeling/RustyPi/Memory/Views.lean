import RustyPi.Memory.UserCopies

/-! An address space as its program sees it: a byte and an access at each mapped address. Mapping a
free range shows zeros there, loading shows the bytes, and neither changes anything else.
-/

namespace RustyPi.Memory

open RustyPi.Leases

/-- `len` rounded up to whole pages. -/
def wholePages (len : Nat) : Nat := (len + pageSize - 1) / pageSize * pageSize

/-- What the program of this space sees at `va`. -/
def AddressSpace.view (space : AddressSpace) (ram : Ram) (va : Nat) : Option (UInt8 × Access) :=
  (space.translate va ram).map (fun (physical, access) => (ram physical, access))

section Pages

variable {scarce : Prop} {kernel : Table} {space : AddressSpace} {pages after : Pages}
variable {held : List Nat} {ram later : Ram}

theorem Faithful.view_eq (faithful : Faithful kernel space pages held ram) (va : Nat)
    : space.view ram va = pages.view ram va := by
  unfold AddressSpace.view Pages.view
  rw [faithful.translate_eq]

variable {va : Nat}

theorem Grown.view_of_mapped (grown : Grown pages ram after later) {page : Nat × Access}
    (mapped : pages (pageOf va) = some page)
    : after.view later va = pages.view ram va := by
  obtain ⟨still, same⟩ := grown.kept _ page mapped
  simp only [Pages.view, Pages.translate, mapped, still, Option.map_some,
    same _ (Nat.mod_lt va (show 0 < pageSize by decide))]

theorem Grown.view_of_new (grown : Grown pages ram after later) {page : Nat × Access}
    (free : pages (pageOf va) = none) (mapped : after (pageOf va) = some page)
    : after.view later va = some (0, page.2) := by
  have zeroed := grown.zeroed _ page free mapped
  simp only [Pages.view, Pages.translate, mapped, Option.map_some,
    zeroed _ (Nat.mod_lt va (show 0 < pageSize by decide))]

theorem Written.view_eq {bytes : List UInt8} (written : Written pages ram va bytes later)
    (other : Nat)
    : pages.view later other
      = (pages.view ram other).map (fun (old, access) =>
          (if va ≤ other then bytes[other - va]?.getD old else old, access)) := by
  unfold Pages.view
  cases found : pages.translate other with
  | none => rfl
  | some place =>
    obtain ⟨physical, access⟩ := place
    simp only [Option.map_some, written other physical access found]

/-- What others do doesn't change what a program sees. -/
theorem Faithful.view_kept (faithful : Faithful kernel space pages held ram)
    (keeps : (source scarce).Keeps held ram later) (va : Nat)
    : pages.view later va = pages.view ram va := by
  cases mapped : pages (pageOf va) with
  | none => simp [Pages.view, Pages.translate, mapped]
  | some page => exact (faithful.grown_of_keeps keeps).view_of_mapped mapped

theorem Pages.view_of_unmapped (unmapped : pages (pageOf va) = none) (ram : Ram)
    : pages.view ram va = none := by
  simp [Pages.view, Pages.translate, unmapped]

theorem Pages.unmapped_of_view (nothing : pages.view ram va = none) : pages (pageOf va) = none := by
  simpa [Pages.view, Pages.translate] using nothing

end Pages

section Adding

variable {scarce : Prop} {access : Access} {asked frames : List Nat} {pages after : Pages}
variable {answer : Except MapError Unit}

section Adds

variable (adds : Adds scarce access asked pages frames answer after)
include adds

/-- Only as many pages as there are frames are mapped; the others stay as they are. -/
theorem Adds.of_notMem {page : Nat} (absent : page ∉ asked.take frames.length)
    : after page = pages page := by
  induction adds with
  | done => rfl
  | refused _ => rfl
  | mapped _ _ _ ih =>
    rw [List.length_cons, List.take_succ_cons, List.mem_cons, not_or] at absent
    obtain ⟨differ, absent⟩ := absent
    rw [ih absent, Pages.set_of_ne _ differ]

theorem Adds.of_mem {page : Nat} (listed : page ∈ asked.take frames.length)
    : ∃ frame, after page = some (frame, access) := by
  induction adds with
  | done => cases listed
  | refused _ => simp at listed
  | @mapped va frame asked frames pages after answer userPage free rest ih =>
    rw [List.length_cons, List.take_succ_cons] at listed
    by_cases again : page ∈ asked.take frames.length
    · exact ih again
    · obtain rfl : page = va := (List.mem_cons.mp listed).resolve_right again
      exact ⟨frame, by rw [rest.of_notMem again, Pages.set_same]⟩

/-- All pages are mapped, or the first few of them. -/
theorem Adds.length_eq
    : match answer with
      | .ok () => frames.length = asked.length
      | .error _ => frames.length < asked.length := by
  induction adds with
  | done => rfl
  | refused _ => simp
  | @mapped _ _ _ _ _ _ answer _ _ _ ih => cases answer <;> simpa using ih

end Adds

/-- Free pages of the window are refused only for want of frames. -/
theorem Adds.error_eq {error : MapError}
    (adds : Adds scarce access asked pages frames (.error error) after) (distinct : asked.Nodup)
    (good : ∀ page ∈ asked, UserPage page ∧ pages page = none)
    : error = .outOfMemory ∧ scarce := by
  generalize same : Except.error error = answer at adds
  induction adds with
  | done => cases same
  | @refused va asked pages other reason =>
    cases same
    obtain ⟨⟨aligned, window⟩, free⟩ := good va List.mem_cons_self
    cases error with
    | notAligned => exact absurd aligned reason
    | outsideWindow => exact absurd window reason
    | alreadyMapped => simp [Refuses, free] at reason
    | outOfMemory => exact ⟨rfl, reason⟩
  | @mapped va frame asked frames pages after answer userPage free rest ih =>
    obtain ⟨absent, distinct⟩ := List.nodup_cons.mp distinct
    refine ih distinct (fun page listed => ?_) same
    obtain ⟨here, unmapped⟩ := good page (List.mem_cons_of_mem _ listed)
    have differ : page ≠ va := fun same => absent (same ▸ listed)
    rw [Pages.set_of_ne _ differ]
    exact ⟨here, unmapped⟩

end Adding

theorem mem_pagesFrom {start count : Nat} (aligned : start % pageSize = 0)
    : pageOf va ∈ AddressSpace.pagesFrom start count
      ↔ start ≤ va ∧ va < start + count * pageSize := by
  unfold AddressSpace.pagesFrom pageOf
  simp only [List.mem_map, List.mem_range, pageSize] at *
  constructor
  · rintro ⟨index, small, same⟩
    omega
  · rintro ⟨low, high⟩
    exact ⟨va / 4096 - start / 4096, by omega, by omega⟩

theorem take_pagesFrom (start count taken : Nat)
    : (AddressSpace.pagesFrom start count).take taken
      = AddressSpace.pagesFrom start (min taken count) := by
  simp only [AddressSpace.pagesFrom, ← List.map_take, List.take_range]

theorem pageOf_of_mem_pagesFrom {start count page : Nat} (aligned : start % pageSize = 0)
    (listed : page ∈ AddressSpace.pagesFrom start count)
    : pageOf page = page := by
  unfold AddressSpace.pagesFrom at listed
  obtain ⟨index, -, rfl⟩ := List.mem_map.mp listed
  simp only [pageOf, pageSize] at *
  omega

theorem pagesFrom_nodup (start count : Nat) : (AddressSpace.pagesFrom start count).Nodup := by
  refine List.nodup_range.map (fun index other same => ?_)
  simp only [pageSize] at same
  omega

namespace AddressSpace

variable {scarce : Prop} {kernel : Table} {space : AddressSpace} {pages : Pages}
variable {held : List Nat} {ram : Ram}

/-- Pages of the window that were free show zeros once they are mapped, unless frames run out. -/
theorem Answered.shows {access : Access} {start count : Nat} {after : List Nat} {later : Ram}
    {result : AddressSpace × Except MapError Unit}
    (answered
      : Answered scarce kernel access (pagesFrom start count) pages held ram result after later)
    (aligned : start % pageSize = 0) (low : userBase ≤ start)
    (high : start + count * pageSize ≤ userEnd)
    (free : ∀ va, start ≤ va → va < start + count * pageSize → pages.view ram va = none)
    : ∃ pagesAfter added,
        Faithful kernel result.1 pagesAfter after later
        ∧ (∀ va,
            pagesAfter.view later va
            = if start ≤ va ∧ va < start + added * pageSize then some (0, access)
              else pages.view ram va)
        ∧ match result.2 with
          | .error error => error = .outOfMemory ∧ scarce ∧ added < count
          | .ok () => added = count := by
  obtain ⟨frames, taken, pagesAfter, adds, faithfulLater, grown, -, -⟩ := answered
  have lengths := adds.length_eq
  have length : (pagesFrom start count).length = count := by simp [pagesFrom]
  rw [length] at lengths
  obtain ⟨made, answer⟩ := result
  have most : frames.length ≤ count := by
    cases answer with
    | ok _ => exact Nat.le_of_eq lengths
    | error _ => exact Nat.le_of_lt lengths
  have asked {va : Nat}
      : pageOf va ∈ (pagesFrom start count).take frames.length
        ↔ start ≤ va ∧ va < start + frames.length * pageSize := by
    rw [take_pagesFrom, Nat.min_eq_left most, mem_pagesFrom aligned]
  refine ⟨pagesAfter, frames.length, faithfulLater, fun va => ?_, ?_⟩
  · split
    · rename_i inside
      obtain ⟨frame, mapped⟩ := adds.of_mem (asked.mpr inside)
      have fits := Nat.mul_le_mul_right pageSize most
      exact grown.view_of_new (Pages.unmapped_of_view (free va inside.1 (by omega))) mapped
    · rename_i outside
      have same := adds.of_notMem (fun listed => outside (asked.mp listed))
      cases mapped : pages (pageOf va) with
      | none =>
        rw [Pages.view_of_unmapped mapped, Pages.view_of_unmapped (same.trans mapped)]
      | some page => exact grown.view_of_mapped mapped
  · cases answer with
    | ok _ => exact lengths
    | error error =>
      have reason := adds.error_eq (pagesFrom_nodup ..) (fun page listed => ?_)
      · exact ⟨reason.1, reason.2, lengths⟩
      have whole : pageOf page = page := pageOf_of_mem_pagesFrom aligned listed
      rw [← whole, mem_pagesFrom aligned] at listed
      refine ⟨?_, whole ▸ Pages.unmapped_of_view (free page listed.1 listed.2)⟩
      rw [← whole]
      exact pageOf_userPage (by omega) (by omega)

section Faithful

variable (faithful : Faithful kernel space pages held ram)
include faithful

/-- Mapping a free range of the window shows zeros there, unless frames run out. -/
theorem mapRange_ensures {start len : Nat}
    (access : Access) (aligned : start % pageSize = 0) (low : userBase ≤ start)
    (high : start + wholePages len ≤ userEnd)
    (free : ∀ va, start ≤ va → va < start + wholePages len → pages.view ram va = none)
    : (space.mapRange start len access).Ensures (source scarce)
        (fun result after later =>
          ∃ pagesAfter,
            Faithful kernel result.1 pagesAfter after later
            ∧ match result.2 with
              | .error error => error = .outOfMemory ∧ scarce
              | .ok () =>
                ∀ va,
                  pagesAfter.view later va
                  = if start ≤ va ∧ va < start + wholePages len then some (0, access)
                    else pages.view ram va)
        held ram := by
  unfold mapRange
  have covers : len ≤ wholePages len := by
    simp only [wholePages, pageSize]
    omega
  rw [if_neg (by simp only [wordLimit, userEnd] at *; omega)]
  refine (mapPages_ensures faithful access _ start).mono (fun result after later answered => ?_)
  obtain ⟨pagesAfter, added, faithful, view, outcome⟩ := answered.shows aligned low high free
  refine ⟨pagesAfter, faithful, ?_⟩
  obtain ⟨made, answer⟩ := result
  cases answer with
  | error error => exact ⟨outcome.1, outcome.2.1⟩
  | ok _ =>
    obtain rfl : added = _ := outcome
    exact view

theorem map_shows (access : Access) (userPage : UserPage va)
    (free : ∀ other, va ≤ other → other < va + pageSize → pages.view ram other = none)
    : (space.map va access).Ensures (source scarce)
        (fun result after later =>
          ∃ pagesAfter,
            Faithful kernel result.1 pagesAfter after later
            ∧ match result.2 with
              | .error error =>
                error = .outOfMemory
                ∧ scarce
                ∧ ∀ other, pagesAfter.view later other = pages.view ram other
              | .ok () =>
                ∀ other,
                  pagesAfter.view later other
                  = if va ≤ other ∧ other < va + pageSize then some (0, access)
                    else pages.view ram other)
        held ram := by
  obtain ⟨aligned, low, high⟩ := userPage
  have inWindow : va + 1 * pageSize ≤ userEnd := by
    simp only [userEnd, pageSize] at *
    omega
  refine (map_ensures faithful va access).mono (fun result after later answered => ?_)
  have one : pagesFrom va 1 = [va] := rfl
  rw [← one] at answered
  obtain ⟨pagesAfter, added, faithful, view, outcome⟩ :=
    answered.shows aligned low inWindow (by simpa only [Nat.one_mul] using free)
  refine ⟨pagesAfter, faithful, ?_⟩
  obtain ⟨made, answer⟩ := result
  cases answer with
  | error error =>
    obtain ⟨rfl, short, few⟩ := outcome
    obtain rfl : added = 0 := by omega
    refine ⟨rfl, short, fun other => ?_⟩
    rw [view, if_neg (by omega)]
  | ok _ =>
    obtain rfl : added = 1 := outcome
    simpa only [Nat.one_mul] using view

theorem load_ensures {bytes : List UInt8}
    (mapped : ∀ offset < bytes.length, (pages.view ram (va + offset)).isSome)
    : (space.load va bytes).Ensures (source scarce)
        (fun result after later =>
          after = held
          ∧ result = .ok ()
          ∧ Faithful kernel space pages held later
          ∧ ∀ other,
              pages.view later other
              = (pages.view ram other).map (fun (old, access) =>
                  (if va ≤ other then bytes[other - va]?.getD old else old, access)))
        held ram := by
  refine (copyIn_ensures faithful _ va bytes).mono (fun result after later copied => ?_)
  obtain ⟨rfl, faithfulLater, count, -, written, -, outcome⟩ := copied
  cases result with
  | error fault =>
    obtain ⟨inside, refused⟩ := outcome
    have there := mapped count inside
    cases found : pages.translate (va + count) with
    | none => simp [Pages.view, found] at there
    | some place => exact absurd ⟨place.1, place.2, found, rfl⟩ refused
  | ok _ =>
    obtain rfl : count = bytes.length := outcome
    rw [List.take_length] at written
    exact ⟨rfl, rfl, faithfulLater, written.view_eq⟩

end Faithful

theorem freeAll_ensures {frames : List Nat} (owned : held.Perm frames)
    : (freeAll frames).Ensures (source scarce) (fun _ after _ => after = []) held ram := by
  induction frames generalizing held ram with
  | nil => exact owned.eq_nil
  | cons frame rest ih =>
    unfold freeAll
    rw [Program.ensures_bind, Program.ensures_given]
    refine ⟨owned.mem_iff.mpr List.mem_cons_self, fun between _ => ih ?_⟩
    simpa using owned.erase frame

end AddressSpace

end RustyPi.Memory
