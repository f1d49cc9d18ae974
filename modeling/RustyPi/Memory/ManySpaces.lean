import RustyPi.Memory.PageTables

/-! Many address spaces that take their frames from one source. Each has frames of its own, so that
a copy in one of them changes just the bytes at its addresses there.
-/

namespace RustyPi.Memory

open RustyPi.Leases

/-- What happens to a list of address spaces: a new one, or a call on one of them. -/
inductive Building
  | create (kernel : Table)
  | call (index : Nat) (call : Call)

/-- Where there are no frames for a new space, there is none. -/
def build (spaces : List AddressSpace) : List Building → Paging (List AddressSpace)
  | [] => return spaces
  | .create kernel :: rest => do
      let new ← AddressSpace.new kernel
      build (spaces ++ new.toList) rest
  | .call index call :: rest =>
    match spaces[index]? with
    | none => build spaces rest
    | some space => do
        let (space, _) ← space.serve call
        build (spaces.set index space) rest

/-- Each space stands for some pages, and no two have a frame in common. -/
structure Standing (spaces : List AddressSpace) (held : List Nat) (ram : Ram) : Prop where
  holdings : held.Perm (spaces.flatMap AddressSpace.allFrames)
  distinct : held.Nodup
  faithful : ∀ space ∈ spaces, ∃ kernel pages, Faithful kernel space pages space.allFrames ram

variable {scarce : Prop} {kernel : Table} {space : AddressSpace} {pages : Pages}
variable {spaces : List AddressSpace} {held : List Nat} {ram later : Ram} {index : Nat}

theorem Faithful.own (faithful : Faithful kernel space pages held ram)
    : Faithful kernel space pages space.allFrames ram :=
  { faithful with
    holdings := .rfl
    distinct := faithful.holdings.nodup_iff.mp faithful.distinct
    usable := fun _ => faithful.usable_of_mem }

namespace Standing

variable (standing : Standing spaces held ram)
include standing

theorem usable {frame : Nat} (listed : frame ∈ spaces.flatMap AddressSpace.allFrames)
    : UsableFrame frame := by
  obtain ⟨space, here, inside⟩ := List.mem_flatMap.mp listed
  obtain ⟨kernel, pages, faithful⟩ := standing.faithful space here
  exact faithful.usable frame inside

theorem kept (keeps : (source scarce).Keeps held ram later)
    : Standing spaces held later :=
  { standing with
    faithful := fun space listed => by
      obtain ⟨kernel, pages, faithful⟩ := standing.faithful space listed
      exact ⟨kernel, pages, faithful.kept (keeps.mono (fun _ inside =>
        standing.holdings.mem_iff.mpr (List.mem_flatMap.mpr ⟨space, listed, inside⟩)))⟩ }

omit standing in
theorem set_perm {Item : Type} {list : List Item} (inside : index < list.length) (item : Item)
    : (list.set index item).Perm (item :: list.eraseIdx index) := by
  have perm := List.getElem_cons_eraseIdx_perm (l := list.set index item) (n := index)
    (by simpa using inside)
  rw [List.getElem_set_self, List.eraseIdx_set_eq] at perm
  exact perm.symm

/-- What keeps a contract on one space leaves the others as they are. -/
theorem frame {Result : Type} {program : Paging Result} {ends : Result → List Nat → Ram → Prop}
    (found : spaces[index]? = some space)
    (ensures : program.Ensures (source scarce) ends space.allFrames ram)
    : program.Ensures (source scarce)
        (fun result after later =>
          ∃ mine,
            ends result mine later
            ∧ (∀ kernel new pages,
                Faithful kernel new pages mine later
                → Standing (spaces.set index new) after later)
            ∧ ∀ place other,
                place ≠ index
                → spaces[place]? = some other
                → (source scarce).Keeps other.allFrames ram later)
        held ram := by
  obtain ⟨inside, rfl⟩ := List.getElem?_eq_some_iff.mp found
  have split := (List.getElem_cons_eraseIdx_perm inside).symm
  have together := standing.holdings.trans (split.flatMap_right AddressSpace.allFrames)
  refine (ensures.frame together standing.distinct (fun frame listed => ?_) (.refl _ _)).mono
    (fun result after later framed => ?_)
  · exact standing.usable ((split.flatMap_right _).mem_iff.mpr (List.mem_append_right _ listed))
  · obtain ⟨mine, joined, distinct, ended, kept⟩ := framed
    have keeps {other : AddressSpace} (listed : other ∈ spaces.eraseIdx index)
        : (source scarce).Keeps other.allFrames ram later :=
      kept.mono fun _ inside => List.mem_flatMap.mpr ⟨other, listed, inside⟩
    refine ⟨mine, ended, fun kernel new pages faithful => ⟨?_, distinct, fun other listed => ?_⟩,
      fun place other differ there => keeps ?_⟩
    · exact joined.trans ((faithful.holdings.append_right _).trans
        ((set_perm inside new).flatMap_right _).symm)
    · rcases List.mem_cons.mp ((set_perm inside new).mem_iff.mp listed) with rfl | old
      · exact ⟨kernel, pages, faithful.own⟩
      · obtain ⟨kernel, pages, faithful⟩ := standing.faithful other (List.mem_of_mem_eraseIdx old)
        exact ⟨kernel, pages, faithful.kept (keeps old)⟩
    · exact List.mem_eraseIdx_iff_getElem?.mpr ⟨place, differ, there⟩

theorem create (kernel : Table)
    : (AddressSpace.new kernel).Ensures (source scarce)
        (fun new => Standing (spaces ++ new.toList)) held ram := by
  have contract := (AddressSpace.new_ensures scarce kernel ram).frame
    (show held.Perm ([] ++ held) from .rfl) standing.distinct
    (fun frame listed => standing.usable (standing.holdings.mem_iff.mp listed)) (.refl _ _)
  refine contract.mono (fun result after later made => ?_)
  obtain ⟨mine, joined, distinct, made, kept⟩ := made
  have old := standing.kept kept
  cases result with
  | none =>
    obtain ⟨-, rfl⟩ := made
    exact ⟨by simpa using joined.trans old.holdings, distinct, by simpa using old.faithful⟩
  | some space =>
    refine ⟨?_, distinct, fun other listed => ?_⟩
    · rw [Option.toList_some, List.flatMap_append, List.flatMap_singleton]
      exact joined.trans ((made.holdings.append old.holdings).trans List.perm_append_comm)
    · rcases List.mem_append.mp listed with before | new
      · exact old.faithful other before
      · obtain rfl := List.mem_singleton.mp new
        exact ⟨kernel, _, made.own⟩

/-- Whatever is built, the spaces stand apart. By induction on what happens. -/
theorem build (events : List Building)
    : (Memory.build spaces events).Ensures (source scarce) Standing held ram := by
  induction events generalizing spaces held ram with
  | nil => exact standing
  | cons event rest ih =>
    unfold Memory.build
    cases event with
    | create kernel => exact (standing.create kernel).bind fun _ _ _ created => ih created
    | call index call =>
      dsimp only
      split
      · exact ih standing
      · rename_i space found
        obtain ⟨kernel, pages, faithful⟩ := standing.faithful space (List.mem_of_getElem? found)
        refine (standing.frame found (AddressSpace.serve_ensures faithful call)).bind
          (fun result held later served => ?_)
        obtain ⟨mine, ⟨_, _, pages, -, faithful, -⟩, stands, -⟩ := served
        exact ih (stands kernel _ pages faithful)

end Standing

/-- The two ways to copy into a space. -/
inductive Copying
  | write
  | load
  deriving DecidableEq, Repr

namespace Copying

/-- The access that a page must have. -/
def allows : Copying → Access → Bool
  | .write => Access.writable
  | .load => fun _ => true

def copy (space : AddressSpace) (va : Nat) (bytes : List UInt8)
    : Copying → Paging (Except AccessFault Unit)
  | .write => space.writeUser va bytes
  | .load => space.load va bytes

/-- Copies, then reads at the same address. -/
def copyAndRead (copying : Copying) (space : AddressSpace) (va : Nat) (bytes buf : List UInt8)
    : Paging (Except AccessFault Unit × List UInt8 × Except AccessFault Unit) := do
  let answer ← copying.copy space va bytes
  let read ← space.readUser va buf
  return (answer, read)

end Copying

/-- Spaces after some calls on them, and a copy into one of them that is read back. -/
structure Copies where
  spaces : List AddressSpace
  /-- Memory before the copy. -/
  before : Ram
  answer : Except AccessFault Unit
  read : List UInt8 × Except AccessFault Unit

def Copies.run (events : List Building) (index : Nat) (copying : Copying) (va : Nat)
    (bytes buf : List UInt8)
    : Paging (Option Copies) := do
  let spaces ← build [] events
  let some space := spaces[index]? | return none
  let before ← Program.looked
  let (answer, read) ← copying.copyAndRead space va bytes buf
  return some { spaces, before, answer, read }

/-- A read changes nothing, and fetches the bytes up to the first address that isn't mapped. -/
theorem AddressSpace.readUser_ensures (faithful : Faithful kernel space pages held ram) (va : Nat)
    (buf : List UInt8)
    : (space.readUser va buf).Ensures (source scarce)
        (fun result after later =>
          after = held
          ∧ Faithful kernel space pages held later
          ∧ ∃ count ≤ buf.length,
              ((source scarce).Keeps held ram later
                ∧ result.1.length = buf.length
                ∧ ∀ offset < count,
                    result.1[offset]? = (pages.view ram (va + offset)).map Prod.fst)
              ∧ (∀ offset < count, pages.Grants (fun _ => true) (va + offset))
              ∧ match result.2 with
                | .ok () => count = buf.length
                | .error _ => count < buf.length ∧ ¬ pages.Grants (fun _ => true) (va + count))
        held ram := by
  refine forEachPiece_ensures (fun done_ (read : List UInt8) later =>
      (source scarce).Keeps held ram later
      ∧ read.length = buf.length
      ∧ ∀ offset < done_, read[offset]? = (pages.view ram (va + offset)).map Prod.fst)
    (fun _ _ _ _ _ keeps kept => ⟨kept.1.trans keeps, kept.2⟩) ?_ 0 buf faithful
    ⟨.refl _ _, rfl, nofun⟩ (Nat.zero_le _) nofun
  intro done_ read before physical access standing ⟨kept, length, fetched⟩ more found _
  rw [Program.ensures_bind, Program.ensures_looked]
  intro now keeps
  have loaded
      : (Ram.loadBytes physical (min (pageSize - (va + done_) % pageSize) (buf.length - done_))
          now).length
        = min (pageSize - (va + done_) % pageSize) (buf.length - done_) := by
    simp [Ram.loadBytes]
  have fits
      : done_
          + (Ram.loadBytes physical
              (min (pageSize - (va + done_) % pageSize) (buf.length - done_)) now).length
        ≤ read.length := by
    omega
  refine ⟨rfl, standing.kept keeps, kept.trans keeps, ?_, fun offset small => ?_⟩
  · rw [Bytes.splice_length fits, length]
  · rw [Bytes.getElem?_splice fits]
    split
    · obtain ⟨further, rfl⟩ := Nat.exists_eq_add_of_le (show done_ ≤ offset by omega)
      rw [← faithful.view_kept (kept.trans keeps), Pages.view, ← Nat.add_assoc,
        Pages.translate_add found (by omega)]
      simp only [Ram.loadBytes, List.getElem?_map, Nat.add_sub_cancel_left]
      rw [List.getElem?_range (by omega)]
      rfl
    · exact fetched offset (by omega)

theorem Pages.grants_iff_view (ram : Ram) (allowed : Access → Bool) (va : Nat)
    : pages.Grants allowed va
      ↔ ∃ byte access, pages.view ram va = some (byte, access) ∧ allowed access := by
  unfold Pages.Grants Pages.view
  rcases pages.translate va with _ | ⟨physical, access⟩ <;> simp

/-- A copy goes through just if every address is granted. -/
theorem Pages.granted_iff {answer : Except AccessFault Unit} {allowed : Access → Bool}
    {va count len : Nat} (granted : ∀ offset < count, pages.Grants allowed (va + offset))
    (outcome
      : match answer with
        | .ok () => count = len
        | .error _ => count < len ∧ ¬ pages.Grants allowed (va + count))
    : answer = .ok () ↔ ∀ offset < len, pages.Grants allowed (va + offset) := by
  cases answer with
  | ok _ =>
    obtain rfl : count = len := outcome
    exact ⟨fun _ => granted, fun _ => rfl⟩
  | error fault => exact ⟨nofun, fun all => absurd (all count outcome.1) outcome.2⟩

/-- A copy that goes through is read back, and nothing else changes. -/
theorem Copying.copyAndRead_ensures (faithful : Faithful kernel space pages held ram)
    (copying : Copying) (va : Nat) (bytes buf : List UInt8)
    : (copying.copyAndRead space va bytes buf).Ensures (source scarce)
        (fun result after later =>
          Faithful kernel space pages after later
          ∧ (result.1 = .ok ()
              ↔ ∀ offset < bytes.length, pages.Grants copying.allows (va + offset))
          ∧ (result.2.2 = .ok ()
              ↔ ∀ offset < buf.length, pages.Grants (fun _ => true) (va + offset))
          ∧ (result.1 = .ok ()
              → (buf.length = bytes.length → result.2 = (bytes, .ok ()))
                ∧ ∀ address,
                    address < va ∨ va + bytes.length ≤ address
                    → pages.view later address = pages.view ram address))
        held ram := by
  have same : copying.copy space va bytes = space.copyIn copying.allows va bytes := by
    cases copying <;> rfl
  rw [copyAndRead, same]
  refine (AddressSpace.copyIn_ensures faithful _ va bytes).bind (fun answer after middle copied => ?_)
  obtain ⟨rfl, faithful, count, -, written, granted, outcome⟩ := copied
  refine (AddressSpace.readUser_ensures faithful va buf).bind (fun read after later fetched => ?_)
  obtain ⟨rfl, faithfulLater, total, -, ⟨keeps, length, bytesRead⟩, mapped, readOutcome⟩ := fetched
  have answered := Pages.granted_iff granted outcome
  have readAnswered := Pages.granted_iff mapped readOutcome
  refine ⟨faithfulLater, answered, readAnswered, fun fine => ?_⟩
  obtain rfl : answer = .ok () := fine
  obtain rfl : count = bytes.length := outcome
  rw [List.take_length] at written
  refine ⟨fun sameLength => ?_, fun address outside => ?_⟩
  · have readFine : read.2 = .ok () := by
      refine readAnswered.mpr (fun offset small => ?_)
      obtain ⟨physical, access, found, -⟩ := granted offset (sameLength ▸ small)
      exact ⟨physical, access, found, rfl⟩
    obtain ⟨read, answer⟩ := read
    obtain rfl : answer = .ok () := readFine
    obtain rfl : total = buf.length := readOutcome
    refine Prod.ext (List.ext_getElem? fun offset => ?_) rfl
    rcases Nat.lt_or_ge offset bytes.length with small | large
    · obtain ⟨physical, access, found, -⟩ := granted offset small
      rw [bytesRead offset (sameLength ▸ small), written.view_eq, Pages.view, found]
      simp [small]
    · rw [List.getElem?_eq_none (show read.length ≤ offset by simp_all),
        List.getElem?_eq_none large]
  · rw [faithful.view_kept keeps, written.view_eq]
    rcases outside with low | high
    · simp [Nat.not_le.mpr low]
    · rw [List.getElem?_eq_none (by omega)]
      simp

/-- User copies are exact. For all spaces that any calls have built over one source of frames: a write
succeeds just if every byte of its range is mapped writable, a load or a read if it is mapped; bytes
that were copied are read back, and every other byte of this and every other space is unchanged.
-/
theorem copies_exact (scarce : Prop) (events : List Building) (index : Nat) (copying : Copying)
    (va : Nat) (bytes buf : List UInt8) (ram : Ram)
    : (Copies.run events index copying va bytes buf).Ensures (source scarce)
        (fun result _ later =>
          ∀ copies space,
            result = some copies
            → copies.spaces[index]? = some space
            → (copies.answer = .ok ()
                ↔ ∀ offset < bytes.length, ∃ byte access,
                    space.view copies.before (va + offset) = some (byte, access)
                    ∧ copying.allows access)
              ∧ (copies.read.2 = .ok ()
                  ↔ ∀ offset < buf.length, (space.view copies.before (va + offset)).isSome)
              ∧ (copies.answer = .ok ()
                  → (buf.length = bytes.length → copies.read = (bytes, .ok ()))
                    ∧ ∀ place other address,
                        copies.spaces[place]? = some other
                        → (place = index → address < va ∨ va + bytes.length ≤ address)
                        → other.view later address = other.view copies.before address))
        [] ram := by
  unfold Copies.run
  have none_ : Standing [] [] ram := ⟨.rfl, .nil, nofun⟩
  refine (none_.build events).bind (fun spaces held ram standing => ?_)
  cases found : spaces[index]? with
  | none => exact nofun
  | some space =>
    rw [Program.ensures_bind, Program.ensures_looked]
    intro now keeps
    have standing := standing.kept keeps
    obtain ⟨kernel, pages, faithful⟩ := standing.faithful space (List.mem_of_getElem? found)
    refine (standing.frame found (copying.copyAndRead_ensures faithful va bytes buf)).bind
      (fun result held later copied => ?_)
    obtain ⟨mine, ⟨faithfulLater, answered, readAnswered, exact_⟩, -, others⟩ := copied
    rintro _ _ ⟨⟩ there
    cases found.symm.trans there
    refine ⟨answered.trans ?_, readAnswered.trans ?_, fun fine => ⟨(exact_ fine).1, ?_⟩⟩
    · simp only [Pages.grants_iff_view now, faithful.view_eq]
    · simp [faithful.view_eq, Pages.view, Pages.Grants, Option.isSome_iff_exists]
    · intro place other address listed outside
      by_cases here : place = index
      · subst here
        cases found.symm.trans listed
        rw [faithfulLater.view_eq, faithful.view_eq]
        exact (exact_ fine).2 address (outside rfl)
      · obtain ⟨kernel, pages, faithful⟩ := standing.faithful other (List.mem_of_getElem? listed)
        have keeps := others place other here listed
        rw [(faithful.kept keeps).view_eq, faithful.view_eq]
        exact faithful.view_kept keeps address

end RustyPi.Memory
