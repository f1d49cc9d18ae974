import RustyPi.Memory.Views

/-! Whole runs of an address space: from a new one, any calls, each of which may fail. The tables
always mean what was mapped.
-/

namespace RustyPi.Memory

open RustyPi.Leases

/-- The calls of an address space. -/
inductive Call
  | map (va : Nat) (access : Access)
  | mapRange (start len : Nat) (access : Access)
  | load (va : Nat) (bytes : List UInt8)
  | writeUser (va : Nat) (bytes : List UInt8)
  deriving DecidableEq, Repr

namespace AddressSpace

/-- Serves a call. The answers of the copies are left out. -/
def serve (space : AddressSpace) : Call → Paging (AddressSpace × Except MapError Unit)
  | .map va access => space.map va access
  | .mapRange start len access => space.mapRange start len access
  | .load va bytes => do
      let _ ← space.load va bytes
      return (space, .ok ())
  | .writeUser va bytes => do
      let _ ← space.writeUser va bytes
      return (space, .ok ())

def serveAll (space : AddressSpace)
    : List Call → Paging (AddressSpace × List (Except MapError Unit))
  | [] => return (space, [])
  | call :: rest => do
      let (space, answer) ← space.serve call
      let (space, answers) ← space.serveAll rest
      return (space, answer :: answers)

end AddressSpace

namespace Call

/-- The pages that a call maps, in order. -/
def asked : Call → List Nat
  | .map va _ => [va]
  | .mapRange start len _ =>
    if wordLimit ≤ start + len then []
    else AddressSpace.pagesFrom start ((len + pageSize - 1) / pageSize)
  | .load _ _ => []
  | .writeUser _ _ => []

def access : Call → Option Access
  | .map _ access => some access
  | .mapRange _ _ access => some access
  | .load _ _ => none
  | .writeUser _ _ => none

/-- What a call means for the pages, with a frame for each page that it adds. -/
def Means (scarce : Prop) (pages : Pages) (frames : List Nat) (answer : Except MapError Unit)
    (after : Pages)
    : Call → Prop
  | .map va access => Adds scarce access [va] pages frames answer after
  | .mapRange start len access =>
    if wordLimit ≤ start + len then
      frames = [] ∧ answer = .error .outsideWindow ∧ after = pages
    else
      Adds scarce access (AddressSpace.pagesFrom start ((len + pageSize - 1) / pageSize)) pages
        frames answer after
  | .load _ _ => frames = [] ∧ after = pages
  | .writeUser _ _ => frames = [] ∧ after = pages

end Call

/-- The pages after these calls, when these frames were taken meanwhile. A page's frame is one that
its call took.
-/
inductive Served (scarce : Prop)
    : List Call → List (Except MapError Unit) → Pages → List Nat → Prop
  | start {held : List Nat} : Served scarce [] [] Pages.empty held
  | call {calls : List Call} {answers : List (Except MapError Unit)} {pages after : Pages}
      {held frames taken : List Nat} {call : Call} {answer : Except MapError Unit}
      (before : Served scarce calls answers pages held)
      (means : call.Means scarce pages frames answer after) (listed : frames ⊆ taken)
      : Served scarce (calls ++ [call]) (answers ++ [answer]) after (taken ++ held)

/-- EL0 may write a page with this descriptor. -/
def writableFromEl0 (descriptor : Nat) : Bool :=
  descriptor &&& apEl0 ≠ 0 ∧ descriptor &&& apReadOnly = 0

/-- EL0 may execute a page with this descriptor. -/
def executableFromEl0 (descriptor : Nat) : Bool :=
  descriptor &&& apEl0 ≠ 0 ∧ descriptor &&& userExecuteNever = 0

/-- The tables say just that these pages are mapped. -/
structure Reads (kernel : Table) (space : AddressSpace) (pages : Pages) (ram : Ram) : Prop where
  translates : ∀ va, space.translate va ram = pages.translate va
  apart
    : ∀ va other physical access otherPhysical otherAccess,
        space.translate va ram = some (physical, access)
        → space.translate other ram = some (otherPhysical, otherAccess)
        → pageOf va ≠ pageOf other
        → pageOf physical ≠ pageOf otherPhysical
  exclusive
    : ∀ va descriptor,
        space.descriptor va ram = some descriptor
        → ¬ (writableFromEl0 descriptor ∧ executableFromEl0 descriptor)
  shared
    : ∀ index < entries,
        index ≠ level1Index userBase
        → ram.loadWord (space.root + 8 * index) = kernel index % wordLimit

section Reading

variable {scarce : Prop} {kernel : Table} {space : AddressSpace} {pages : Pages}
variable {held : List Nat} {ram : Ram}

theorem UsableFrame.pageOf_add {frame offset : Nat} (usable : UsableFrame frame)
    (inside : offset < pageSize)
    : pageOf (frame + offset) = frame := by
  obtain ⟨aligned, -⟩ := usable
  simp only [pageOf, pageSize] at *
  omega

theorem Faithful.reads (faithful : Faithful kernel space pages held ram)
    : Reads kernel space pages ram where
  translates := faithful.translate_eq
  apart va other physical access otherPhysical otherAccess found otherFound differ := by
    rw [faithful.translate_eq] at found otherFound
    obtain ⟨frame, mapped, rfl, -⟩ := faithful.translate_held found
    obtain ⟨otherFrame, otherMapped, rfl, -⟩ := faithful.translate_held otherFound
    rw [(faithful.page_usable mapped).pageOf_add (Nat.mod_lt _ (by decide)),
      (faithful.page_usable otherMapped).pageOf_add (Nat.mod_lt _ (by decide))]
    exact fun same => differ (faithful.page_injective mapped otherMapped same)
  exclusive va descriptor found := by
    rw [faithful.descriptor_eq] at found
    cases mapped : pages (pageOf va) with
    | none => simp [mapped] at found
    | some page =>
      simp only [mapped, Option.map_some, Option.some.injEq] at found
      have usable := faithful.page_usable mapped
      simp only [← found, writableFromEl0, executableFromEl0,
        usable.and_attributes (show apEl0 &&& addressMask = 0 by decide),
        usable.and_attributes (show apReadOnly &&& addressMask = 0 by decide),
        usable.and_attributes (show userExecuteNever &&& addressMask = 0 by decide)]
      cases page.2 <;> decide
  shared index inside other := by
    rw [faithful.walks.root index inside, if_neg other]

end Reading

namespace AddressSpace

variable {scarce : Prop} {kernel : Table} {space : AddressSpace} {pages : Pages}
variable {held : List Nat} {ram : Ram}

theorem serve_ensures (faithful : Faithful kernel space pages held ram) (call : Call)
    : (space.serve call).Ensures (source scarce)
        (fun result after later =>
          ∃ frames taken pagesAfter,
            call.Means scarce pages frames result.2 pagesAfter
            ∧ Faithful kernel result.1 pagesAfter after later
            ∧ after = taken ++ held
            ∧ frames ⊆ taken)
        held ram := by
  have copies (allowed : Access → Bool) (va : Nat) (bytes : List UInt8)
      (nothing : ∀ answer, call.Means scarce pages [] answer pages)
      : (do
          let _ ← space.copyIn allowed va bytes
          return (space, .ok ()) : Paging (AddressSpace × Except MapError Unit)).Ensures
          (source scarce)
          (fun result after later =>
            ∃ frames taken pagesAfter,
              call.Means scarce pages frames result.2 pagesAfter
              ∧ Faithful kernel result.1 pagesAfter after later
              ∧ after = taken ++ held
              ∧ frames ⊆ taken)
          held ram :=
    (copyIn_ensures faithful allowed va bytes).bind (fun _ _ _ copied => by
      obtain ⟨rfl, faithful, -⟩ := copied
      exact ⟨[], [], pages, nothing _, faithful, rfl, List.nil_subset _⟩)
  cases call with
  | map va access =>
    refine (map_ensures faithful va access).mono (fun result after later answered => ?_)
    obtain ⟨frames, taken, pagesAfter, adds, faithful, -, same, listed⟩ := answered
    exact ⟨frames, taken, pagesAfter, adds, faithful, same, listed⟩
  | mapRange start len access =>
    unfold serve mapRange
    simp only [Call.Means]
    split
    · exact ⟨[], [], pages, ⟨rfl, rfl, rfl⟩, faithful, rfl, List.nil_subset _⟩
    · refine (mapPages_ensures faithful access _ start).mono
        (fun result after later answered => ?_)
      obtain ⟨frames, taken, pagesAfter, adds, faithful, -, same, listed⟩ := answered
      exact ⟨frames, taken, pagesAfter, adds, faithful, same, listed⟩
  | load va bytes => exact copies _ va bytes (fun _ => ⟨rfl, rfl⟩)
  | writeUser va bytes => exact copies _ va bytes (fun _ => ⟨rfl, rfl⟩)

theorem serveAll_ensures (faithful : Faithful kernel space pages held ram) (calls : List Call)
    {earlier : List Call} {answered : List (Except MapError Unit)}
    (served : Served scarce earlier answered pages held)
    : (space.serveAll calls).Ensures (source scarce)
        (fun result after later =>
          ∃ pagesAfter,
            Served scarce (earlier ++ calls) (answered ++ result.2) pagesAfter after
            ∧ Faithful kernel result.1 pagesAfter after later)
        held ram := by
  induction calls generalizing space pages held ram earlier answered with
  | nil => exact ⟨pages, by simpa using served, faithful⟩
  | cons call rest ih =>
    unfold serveAll
    refine (serve_ensures faithful call).bind (fun result after later first => ?_)
    obtain ⟨space, answer⟩ := result
    obtain ⟨frames, taken, pagesAfter, means, faithful, rfl, listed⟩ := first
    refine (ih faithful (served.call means listed)).bind (fun result after last others => ?_)
    obtain ⟨space, answers⟩ := result
    simpa using others

end AddressSpace

/-- A new space, the calls on it so far, and one more. -/
structure Session where
  /-- The space and memory before the last call, and the answers until then. -/
  space : AddressSpace
  ram : Ram
  answers : List (Except MapError Unit)
  /-- The space after it, and its answer. -/
  after : AddressSpace
  answer : Except MapError Unit

def Session.run (kernel : Table) (calls : List Call) (call : Call) : Paging (Option Session) := do
  let some space ← AddressSpace.new kernel | return none
  let (space, answers) ← space.serveAll calls
  let ram ← Program.looked
  let (after, answer) ← space.serve call
  return some { space, ram, answers, after, answer }

theorem Pages.translate_set (pages : Pages) {page va : Nat} (entry : Nat × Access)
    : (pages.set page entry).translate va
      = if pageOf va = page then some (entry.1 + va % pageSize, entry.2)
        else pages.translate va := by
  unfold Pages.translate
  split
  · rename_i same
    rw [same, Pages.set_same]
    rfl
  · rename_i differ
    rw [Pages.set_of_ne _ differ]

variable {scarce : Prop} {frames : List Nat} {pages after : Pages}

/-- The translations change only for the pages that were added, and those had none. -/
theorem Adds.translate_eq_or {access : Access} {asked : List Nat} {answer : Except MapError Unit}
    (adds : Adds scarce access asked pages frames answer after) (va : Nat)
    : after.translate va = pages.translate va
      ∨ pages.translate va = none
        ∧ ∃ frame,
            (pageOf va, frame) ∈ asked.zip frames
            ∧ after.translate va = some (frame + va % pageSize, access) := by
  induction adds with
  | done => exact .inl rfl
  | refused _ => exact .inl rfl
  | @mapped page frame asked frames pages after answer userPage free rest ih =>
    rw [Pages.translate_set] at ih
    by_cases here : pageOf va = page
    · rw [if_pos here] at ih
      have unmapped : pages.translate va = none := by rw [Pages.translate, here, free]; rfl
      rcases ih with same | ⟨missing, -⟩
      · exact .inr ⟨unmapped, frame, by simp [here], same⟩
      · cases missing
    · rw [if_neg here] at ih
      rcases ih with same | ⟨unmapped, other, listed, added⟩
      · exact .inl same
      · exact .inr ⟨unmapped, other, List.mem_cons_of_mem _ listed, added⟩

theorem Call.Means.translate_eq_or {answer : Except MapError Unit} {call : Call}
    (means : call.Means scarce pages frames answer after) (va : Nat)
    : after.translate va = pages.translate va
      ∨ pages.translate va = none
        ∧ ∃ frame access,
            (pageOf va, frame) ∈ call.asked.zip frames
            ∧ call.access = some access
            ∧ after.translate va = some (frame + va % pageSize, access) := by
  have added {access : Access} {asked : List Nat}
      (adds : Adds scarce access asked pages frames answer after) (same : call.asked = asked)
      (granted : call.access = some access) :=
    (adds.translate_eq_or va).imp_right (fun ⟨unmapped, frame, listed, translated⟩ =>
      (⟨unmapped, frame, access, same ▸ listed, granted, translated⟩ :
        pages.translate va = none
        ∧ ∃ frame access,
            (pageOf va, frame) ∈ call.asked.zip frames
            ∧ call.access = some access
            ∧ after.translate va = some (frame + va % pageSize, access)))
  cases call with
  | map page access => exact added means rfl rfl
  | mapRange start len access =>
    simp only [Call.Means] at means
    split at means
    · exact .inl (by rw [means.2.2])
    · rename_i fits
      exact added means (if_neg fits) rfl
  | load _ _ => exact .inl (by rw [means.2])
  | writeUser _ _ => exact .inl (by rw [means.2])

/-- A failed call mapped only some of its pages. -/
theorem Call.Means.length_lt {error : MapError} {call : Call}
    (means : call.Means scarce pages frames (.error error) after)
    : frames = [] ∨ frames.length < call.asked.length := by
  cases call with
  | map page access => exact .inr (Adds.length_eq means)
  | mapRange start len access =>
    simp only [Call.Means] at means
    split at means
    · exact .inl means.1
    · rename_i fits
      rw [asked, if_neg fits]
      exact .inr (Adds.length_eq means)
  | load _ _ => exact .inl means.1
  | writeUser _ _ => exact .inl means.1

/-- The page tables mean what was mapped. From a new address space, after any calls and one more,
whatever frames the source gives out and whatever happens to other memory: before and after the last
call the table walk reads back just the pages that the calls mapped, each in the frame that was taken
for it; and the last call changes translations only by adding pages, all that it asks for or, if it
fails, the first of them.
-/
theorem translate_of_calls (scarce : Prop) (kernel : Table) (calls : List Call) (call : Call)
    (ram : Ram)
    : (Session.run kernel calls call).Ensures (source scarce)
        (fun result held later =>
          match result with
          | none => scarce ∧ held = []
          | some session =>
            ∃ pages frames pagesAfter before,
              Served scarce calls session.answers pages before
              ∧ Reads kernel session.space pages session.ram
              ∧ call.Means scarce pages frames session.answer pagesAfter
              ∧ Served scarce (calls ++ [call]) (session.answers ++ [session.answer]) pagesAfter
                  held
              ∧ Reads kernel session.after pagesAfter later
              ∧ (∀ error,
                  session.answer = .error error
                  → frames = [] ∨ frames.length < call.asked.length)
              ∧ ∀ va,
                  session.after.translate va later = session.space.translate va session.ram
                  ∨ session.space.translate va session.ram = none
                    ∧ ∃ frame access,
                        (pageOf va, frame) ∈ call.asked.zip frames
                        ∧ call.access = some access
                        ∧ session.after.translate va later
                          = some (frame + va % pageSize, access))
        [] ram := by
  unfold Session.run
  refine (AddressSpace.new_ensures scarce kernel ram).bind (fun result held ram made => ?_)
  cases result with
  | none => exact made
  | some space =>
    refine (AddressSpace.serveAll_ensures made calls .start).bind
      (fun result held ram answered => ?_)
    obtain ⟨space, answers⟩ := result
    obtain ⟨pages, served, faithful⟩ := answered
    rw [Program.ensures_bind, Program.ensures_looked]
    intro now keeps
    have faithfulNow := faithful.kept keeps
    refine (AddressSpace.serve_ensures faithfulNow call).bind (fun result after later last => ?_)
    obtain ⟨final, answer⟩ := result
    obtain ⟨frames, taken, pagesAfter, means, faithfulLater, rfl, listed⟩ := last
    refine ⟨pages, frames, pagesAfter, held, by simpa using served, faithfulNow.reads, means,
      by simpa using served.call means listed, faithfulLater.reads,
      fun error failed => ?_, fun va => ?_⟩
    · obtain rfl : answer = .error error := failed
      exact means.length_lt
    · rw [faithfulLater.translate_eq, faithfulNow.translate_eq]
      exact means.translate_eq_or va

/-- A copy into a new space after some calls on it. -/
structure Copy where
  space : AddressSpace
  /-- Memory before the copy. -/
  ram : Ram
  answer : Except AccessFault Unit

def Copy.run (kernel : Table) (calls : List Call) (va : Nat) (bytes : List UInt8)
    : Paging (Option Copy) := do
  let some space ← AddressSpace.new kernel | return none
  let (space, _) ← space.serveAll calls
  let ram ← Program.looked
  let answer ← space.writeUser va bytes
  return some { space, ram, answer }

/-- The program can write the byte at the address. -/
def Copy.Writes (copy : Copy) (va : Nat) : Prop :=
  ∃ physical access, copy.space.translate va copy.ram = some (physical, access) ∧ access.writable

/-- The program can write all of the range, so that the copy doesn't fault; or each byte that comes
before the first one it can't write, where the copy stops, is there already.
-/
def Copy.Spares (copy : Copy) (va : Nat) (bytes : List UInt8) : Prop :=
  (∀ offset < bytes.length, copy.Writes (va + offset))
  ∨ ∀ offset byte,
      bytes[offset]? = some byte
      → (∀ earlier ≤ offset, copy.Writes (va + earlier))
      → (copy.space.view copy.ram (va + offset)).map Prod.fst = some byte

/-- Writing what is there already is all that can be written without a change. -/
theorem Written.unchanged_iff {pages : Pages} {ram later : Ram} {va : Nat} {bytes : List UInt8}
    (written : Written pages ram va bytes later)
    (mapped : ∀ offset < bytes.length, pages.view ram (va + offset) ≠ none)
    : (∀ other, pages.view later other = pages.view ram other)
      ↔ ∀ offset byte, bytes[offset]? = some byte
          → (pages.view ram (va + offset)).map Prod.fst = some byte := by
  constructor
  · intro unchanged offset byte there
    have same := (written.view_eq (va + offset)).symm.trans (unchanged _)
    cases found : pages.view ram (va + offset) with
    | none => exact absurd found (mapped offset (List.getElem?_eq_some_iff.mp there).1)
    | some seen =>
      obtain ⟨old, access⟩ := seen
      simpa [found, there, eq_comm] using same
  · intro already other
    rw [written.view_eq]
    cases found : pages.view ram other with
    | none => rfl
    | some seen =>
      obtain ⟨old, access⟩ := seen
      by_cases after : va ≤ other
      · cases there : bytes[other - va]? with
        | none => simp
        | some byte =>
          have same := already _ byte there
          rw [Nat.add_sub_cancel' after, found] at same
          simpa [after, eq_comm] using same
      · simp [after]

/-- When a copy faults, nothing has changed that the program sees, exactly if the program could write
all of the range, or all that comes before the first byte it can't write was there already: the
pieces before the fault are written.
-/
theorem view_of_fault_iff (scarce : Prop) (kernel : Table) (calls : List Call) (va : Nat)
    (bytes : List UInt8) (ram : Ram)
    : (Copy.run kernel calls va bytes).Ensures (source scarce)
        (fun result _ later =>
          ∀ copy,
            result = some copy
            → ((∀ fault,
                  copy.answer = .error fault
                  → ∀ other, copy.space.view later other = copy.space.view copy.ram other)
                ↔ copy.Spares va bytes))
        [] ram := by
  unfold Copy.run
  refine (AddressSpace.new_ensures scarce kernel ram).bind (fun result held ram made => ?_)
  cases result with
  | none => exact fun _ none => nomatch none
  | some space =>
    refine (AddressSpace.serveAll_ensures made calls .start).bind
      (fun result held ram answered => ?_)
    obtain ⟨space, answers⟩ := result
    obtain ⟨pages, -, faithful⟩ := answered
    rw [Program.ensures_bind, Program.ensures_looked]
    intro now keeps
    have faithfulNow := faithful.kept keeps
    refine (AddressSpace.copyIn_ensures faithfulNow _ va bytes).bind
      (fun result after later copied => ?_)
    rintro _ ⟨⟩
    obtain ⟨rfl, faithfulLater, count, -, written, granted, outcome⟩ := copied
    have writes (address : Nat) : Copy.Writes ⟨space, now, result⟩ address
        ↔ pages.Grants Access.writable address := by
      simp only [Copy.Writes, faithfulNow.translate_eq, Pages.Grants]
    simp only [Copy.Spares, writes, faithfulLater.view_eq, faithfulNow.view_eq]
    cases result with
    | ok =>
      obtain rfl : count = bytes.length := outcome
      exact ⟨fun _ => .inl granted, fun _ _ => nofun⟩
    | error fault =>
      obtain ⟨inside, refused⟩ := outcome
      have mapped (offset : Nat) (small : offset < (bytes.take count).length)
          : pages.view now (va + offset) ≠ none := by
        obtain ⟨physical, access, found, -⟩ := granted offset (by simp at small; omega)
        simp [Pages.view, found]
      have before {offset : Nat} : (∀ earlier ≤ offset, pages.Grants Access.writable (va + earlier))
          ↔ offset < count := by
        refine ⟨fun all => Nat.lt_of_not_le (fun past => refused (all count past)), fun small => ?_⟩
        exact fun earlier below => granted earlier (Nat.lt_of_le_of_lt below small)
      have some_refused : ¬ ∀ offset < bytes.length, pages.Grants Access.writable (va + offset) :=
        fun all => refused (all count inside)
      simp only [before, some_refused, false_or, Except.error.injEq, forall_eq',
        written.unchanged_iff mapped, List.getElem?_take, Option.ite_none_right_eq_some, and_imp]
      exact forall₂_congr (fun _ _ => imp.swap)

/-- Two bytes are copied across the end of the only page. -/
def acrossEnd : Option Copy × Ram :=
  (Copy.run (fun _ => 0) [.map userBase .readWrite] (userBase + 0xFFF) [7, 7]).alone
    [0x1000, 0x2000, 0x3000, 0x4000] (fun _ => 0)

/-- It faults at the second byte, with the first one written. -/
theorem view_changed_by_fault
    : acrossEnd.1.map Copy.answer = some (.error ⟨userBase + 0x1000⟩)
      ∧ acrossEnd.1.map (fun copy => copy.space.view copy.ram (userBase + 0xFFF))
        = some (some (0, .readWrite))
      ∧ acrossEnd.1.map (fun copy => copy.space.view acrossEnd.2 (userBase + 0xFFF))
        = some (some (7, .readWrite)) := by
  decide +kernel

end RustyPi.Memory
