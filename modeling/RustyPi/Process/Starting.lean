import RustyPi.Elf.Loading
import RustyPi.Process.Pipe

/-! Starting a program, `spawn_with` of `src/process/mod.rs`, and growing its heap with the `Map`
system call. A program that parses starts unless frames run out.
-/

namespace RustyPi.Process

open RustyPi.Memory RustyPi.Elf

/-- Where built-in program code goes. -/
def codeBase : Nat := userBase

/-- Most bytes of arguments a program is started with. -/
def maxArgs : Nat := 1024

inductive SpawnError
  | tooManyPrograms
  | argsTooLong
  | outOfMemory
  deriving DecidableEq, Repr

/-- What a program runs. -/
inductive Code
  /-- A built-in test program: the image of all of them, and where this one starts in it. -/
  | builtin (image : List UInt8) (offset : Nat)
  | elf (program : Elf.Program)

/-- Where the program's task starts. -/
structure UserStart where
  translationBase : Nat
  entry : Nat
  stackTop : Nat
  args : Nat × Nat
  deriving DecidableEq, Repr

/-- What the kernel keeps about a running program's memory. -/
structure Running where
  memory : AddressSpace
  /-- Where its heap ends: the next `Map` starts here. -/
  heapEnd : Nat
  deriving DecidableEq, Repr

inductive Spawned
  | refused (error : SpawnError)
  | panicked
  | started (start : UserStart) (running : Running)
  deriving DecidableEq, Repr

/-- Why a program isn't started: for want of memory, or since an assertion of the kernel failed. -/
inductive Failure
  | outOfMemory
  | panic
  deriving DecidableEq, Repr

/-- Mapping into a fresh address space: only running out of memory can go wrong. -/
def outOfMemory : MapError → Failure
  | .outOfMemory => .outOfMemory
  | _ => .panic

/-- A program's code in its address space. -/
structure Placed where
  entry : Nat
  /-- Start and length of the executable parts. -/
  codeRanges : List (Nat × Nat)
  programEnd : Nat

/-- The program's code and data are put into `memory`. -/
def Code.place (memory : AddressSpace) : Code → Paging (AddressSpace × Except Failure Placed)
  | .builtin image offset => do
      match ← memory.mapRange codeBase image.length .readExecute with
      | (memory, .error error) => return (memory, .error (outOfMemory error))
      | (memory, .ok ()) => do
          match ← memory.load codeBase image with
          | .error _ => return (memory, .error .panic)
          | .ok () =>
            return (memory, .ok
              { entry := codeBase + offset
                codeRanges := [(codeBase, image.length)]
                programEnd := codeBase + image.length })
  | .elf program => do
      match ← program.load memory with
      | (memory, .error (.map error)) => return (memory, .error (outOfMemory error))
      | (memory, .error (.access _)) => return (memory, .error .panic)
      | (memory, .ok ()) =>
        let code := program.segments.filter (fun segment => segment.access = .readExecute)
        match (program.segments.map Segment.stop).max? with
        | none => return (memory, .error .panic)
        | some programEnd =>
          return (memory, .ok
            { entry := program.entry
              codeRanges := code.map (fun segment => (segment.address, segment.size))
              programEnd })

/-- The instruction cache is synchronised for each of these pages. `false` if one isn't mapped. -/
def syncPages (memory : AddressSpace) : List Nat → Paging Bool
  | [] => return true
  | va :: rest => do
      match memory.translate va (← Leases.Program.looked) with
      | none => return false
      | some _ => syncPages memory rest

def codePages (codeRanges : List (Nat × Nat)) : List Nat :=
  codeRanges.flatMap (fun (start, len) =>
    AddressSpace.pagesFrom start ((len + pageSize - 1) / pageSize))

/-- A program that isn't started gives its memory back, unless the kernel stops right there. -/
def giveUp (memory : AddressSpace) : Failure → Paging Spawned
  | .outOfMemory => do
      memory.drop
      return .refused .outOfMemory
  | .panic => return .panicked

/-- Where the arguments go: at the top of the stack, aligned to 16 bytes. -/
def argsAt (args : List UInt8) : Nat := (stackTop - args.length) &&& (wordLimit - 16)

/-- The stack is mapped, with the arguments on top. -/
def placeStack (memory : AddressSpace) (args : List UInt8)
    : Paging (AddressSpace × Except Failure Unit) := do
  match ← memory.mapRange (stackTop - stackSize) stackSize .readWrite with
  | (memory, .error error) => return (memory, .error (outOfMemory error))
  | (memory, .ok ()) => do
      match ← memory.load (argsAt args) args with
      | .error _ => return (memory, .error .panic)
      | .ok () => return (memory, .ok ())

/-- Starts a program with `args`. `asid` is what `Asid::allocate` answers. -/
def spawnWith (kernel : Table) (code : Code) (args : List UInt8) (asid : Option Nat)
    : Paging Spawned :=
  if maxArgs < args.length then return .refused .argsTooLong
  else
    match asid with
    | none => return .refused .tooManyPrograms
    | some asid => do
        let some memory ← AddressSpace.new kernel | return .refused .outOfMemory
        match ← code.place memory with
        | (memory, .error failure) => giveUp memory failure
        | (memory, .ok placed) => do
            match ← syncPages memory (codePages placed.codeRanges) with
            | false => giveUp memory .panic
            | true => do
                match ← placeStack memory args with
                | (memory, .error failure) => giveUp memory failure
                | (memory, .ok ()) =>
                  return .started
                    { translationBase := memory.translationBase asid
                      entry := placed.entry
                      stackTop := argsAt args
                      args := (argsAt args, args.length) }
                    { memory, heapEnd := nextPage placed.programEnd }

/-- Why `Map` answers `NoMemory`. -/
inductive MapFailure
  | noRoom
  | map (error : MapError)
  deriving DecidableEq, Repr

/-- Maps pages at the end of the heap, and moves it, until one fails. -/
def growHeap (running : Running) : Nat → Nat → Paging (Running × Except MapError Unit)
  | 0, _ => return (running, .ok ())
  | count + 1, va => do
      match ← running.memory.map va .readWrite with
      | (memory, .error error) => return ({ running with memory }, .error error)
      | (memory, .ok ()) => growHeap { memory, heapEnd := va + pageSize } count (va + pageSize)

/-- Grows the program's heap by `len` bytes, in whole pages, up to `PROGRAM_END`. -/
def map (running : Running) (len : Nat) : Paging (Running × Except MapFailure Nat) :=
  let start := running.heapEnd
  if wordLimit ≤ wholePages len ∨ wordLimit ≤ start + wholePages len
      ∨ programEnd < start + wholePages len then
    return (running, .error .noRoom)
  else do
    match ← growHeap running ((len + pageSize - 1) / pageSize) start with
    | (running, .error error) => return (running, .error (.map error))
    | (running, .ok ()) => return (running, .ok start)

/-- What a running program does to its memory: `Map` calls, and stores, its own and the kernel's on
its behalf.
-/
inductive Deed
  | map (len : Nat)
  | store (va : Nat) (bytes : List UInt8)
  deriving DecidableEq, Repr

/-- A `Map` call, with where the heap ended before it. -/
structure Grown where
  heapEnd : Nat
  len : Nat
  answer : Except MapFailure Nat

/-- Runs the program's deeds, and lists its `Map` calls. -/
def perform (running : Running) : List Deed → Paging (Running × List Grown)
  | [] => return (running, [])
  | .map len :: rest => do
      let heapEnd := running.heapEnd
      let (running, answer) ← map running len
      let (running, calls) ← perform running rest
      return (running, { heapEnd, len, answer } :: calls)
  | .store va bytes :: rest => do
      let _ ← running.memory.writeUser va bytes
      perform running rest

section Start

variable {scarce : Prop} {kernel : Table} {memory : AddressSpace} {pages : Pages}
variable {held : List Nat} {ram : Ram}

theorem giveUp_ensures (faithful : Faithful kernel memory pages held ram)
    {post : Spawned → List Nat → Ram → Prop} (refused : ∀ later, post (.refused .outOfMemory) [] later)
    : (giveUp memory .outOfMemory).Ensures (source scarce) post held ram :=
  (AddressSpace.freeAll_ensures faithful.holdings).bind (fun _ _ later empty =>
    empty ▸ refused later)

theorem syncPages_ensures (faithful : Faithful kernel memory pages held ram) {list : List Nat}
    (mapped : ∀ va ∈ list, (pages.view ram va).isSome)
    : (syncPages memory list).Ensures (source scarce)
        (fun result after later =>
          result = true
          ∧ after = held
          ∧ Faithful kernel memory pages held later
          ∧ ∀ va, pages.view later va = pages.view ram va)
        held ram := by
  induction list generalizing ram with
  | nil => exact ⟨rfl, rfl, faithful, fun _ => rfl⟩
  | cons va rest ih =>
    unfold syncPages
    rw [Leases.Program.ensures_bind, Leases.Program.ensures_looked]
    intro now keeps
    have faithfulNow := faithful.kept keeps
    have same := faithful.view_kept keeps
    rw [faithfulNow.translate_eq]
    have here := mapped va List.mem_cons_self
    cases found : pages.translate va with
    | none => simp [Pages.view, found] at here
    | some place =>
      refine (ih faithfulNow (fun other there => ?_)).mono (fun result after later others => ?_)
      · rw [same]
        exact mapped other (List.mem_cons_of_mem _ there)
      · obtain ⟨rfl, rfl, faithful, view⟩ := others
        exact ⟨rfl, rfl, faithful, fun va => (view va).trans (same va)⟩

def InStack (va : Nat) : Prop := stackTop - stackSize ≤ va ∧ va < stackTop

instance (va : Nat) : Decidable (InStack va) := inferInstanceAs (Decidable (_ ∧ _))

/-- The stack holds the arguments, and zeros below them. -/
def stackShows (args : List UInt8) (va : Nat) : UInt8 × Access :=
  (if argsAt args ≤ va then args[va - argsAt args]?.getD 0 else 0, .readWrite)

theorem argsAt_inside {args : List UInt8} (allowed : args.length ≤ maxArgs)
    : stackTop - stackSize ≤ argsAt args ∧ argsAt args + args.length ≤ stackTop := by
  have aligned : argsAt args = (stackTop - args.length) / 2 ^ 4 * 2 ^ 4 :=
    @land_mask (stackTop - args.length) 4
      (Nat.lt_of_le_of_lt (Nat.sub_le ..) (by decide)) (by decide)
  simp only [stackTop, stackSize, userEnd, pageSize, maxArgs] at *
  omega

theorem placeStack_ensures (faithful : Faithful kernel memory pages held ram) {args : List UInt8}
    (allowed : args.length ≤ maxArgs) (free : ∀ va, InStack va → pages.view ram va = none)
    : (placeStack memory args).Ensures (source scarce)
        (fun result after later =>
          ∃ pagesAfter,
            Faithful kernel result.1 pagesAfter after later
            ∧ match result.2 with
              | .error failure => failure = .outOfMemory ∧ scarce
              | .ok () =>
                ∀ va,
                  pagesAfter.view later va
                  = if InStack va then some (stackShows args va) else pages.view ram va)
        held ram := by
  have whole : stackTop - stackSize + wholePages stackSize = stackTop := by decide
  unfold placeStack
  refine (AddressSpace.mapRange_ensures faithful .readWrite (by decide) (by decide)
    (by rw [whole]; decide) (fun va low high => free va ⟨low, by rw [whole] at high; exact high⟩)).bind
    (fun result held between mapped => ?_)
  obtain ⟨memory, answer⟩ := result
  obtain ⟨pagesMapped, faithful, outcome⟩ := mapped
  cases answer with
  | error error =>
    obtain ⟨rfl, short⟩ := outcome
    exact ⟨pagesMapped, faithful, rfl, short⟩
  | ok _ =>
    have zeros (va : Nat)
        : pagesMapped.view between va
          = if InStack va then some (0, .readWrite) else pages.view ram va := by
      have view := outcome va
      rw [whole] at view
      exact view
    obtain ⟨low, high⟩ := argsAt_inside allowed
    have covered (offset : Nat) (inside : offset < args.length)
        : (pagesMapped.view between (argsAt args + offset)).isSome := by
      rw [zeros, if_pos ⟨by omega, by omega⟩]
      rfl
    refine (AddressSpace.load_ensures faithful covered).bind (fun result held later loaded => ?_)
    obtain ⟨rfl, rfl, faithful, view⟩ := loaded
    refine ⟨pagesMapped, faithful, fun va => ?_⟩
    rw [view, zeros]
    by_cases inside : InStack va
    · simp only [inside, if_true, Option.map_some]
      rfl
    · simp only [inside, if_false]
      have apart : ¬ argsAt args ≤ va ∨ args.length ≤ va - argsAt args := by
        by_contra within
        exact inside ⟨by omega, by omega⟩
      rcases apart with early | late
      · simp [early]
      · simp [List.getElem?_eq_none late]

/-- What `place` knows of a program that was loaded. -/
structure Placed.Of (program : Elf.Program) (placed : Placed) : Prop where
  entry : placed.entry = program.entry
  code : ∀ va ∈ codePages placed.codeRanges, (program.image va).isSome
  low : userBase ≤ nextPage placed.programEnd
  high : nextPage placed.programEnd ≤ Elf.programEnd
  free : ∀ va, nextPage placed.programEnd ≤ va → program.image va = none

theorem nextPage_mono {first second : Nat} (order : first ≤ second)
    : nextPage first ≤ nextPage second :=
  Nat.mul_le_mul_right _ (Nat.div_le_div_right (by omega))

variable {program : Elf.Program} {running : Running}

/-- A valid program's code is in its image, which ends before the heap. -/
theorem placed_of_valid (valid : program.Valid) {stop : Nat}
    (most : (program.segments.map Segment.stop).max? = some stop)
    : Placed.Of program
        { entry := program.entry
          codeRanges :=
            (program.segments.filter (fun segment => segment.access = .readExecute)).map
              (fun segment => (segment.address, segment.size))
          programEnd := stop } := by
  obtain ⟨listed, most⟩ := List.max?_eq_some_iff.mp most
  obtain ⟨last, lastListed, rfl⟩ := List.mem_map.mp listed
  have lastValid := valid.segments last lastListed
  refine ⟨rfl, fun va code => ?_, ?_, ?_, fun va high => ?_⟩
  · obtain ⟨range, code, inRange⟩ := List.mem_flatMap.mp code
    obtain ⟨segment, filtered, rfl⟩ := List.mem_map.mp code
    have listed := List.mem_of_mem_filter filtered
    have whole := pageOf_of_mem_pagesFrom (valid.segments segment listed).aligned inRange
    rw [← whole, mem_pagesFrom (valid.segments segment listed).aligned] at inRange
    have shown : program.image va = some (segment.shows va) :=
      shows_of_mem valid.segments valid.apart listed inRange
    rw [shown]
    rfl
  · have low := lastValid.low
    simp only [nextPage, Segment.stop, pageSize] at *
    omega
  · have high := lastValid.high
    exact Nat.le_trans (nextPage_mono high) (show nextPage programEnd ≤ programEnd by decide)
  · refine shows_of_none (fun segment listed covers => ?_)
    have order := nextPage_mono (most segment.stop (List.mem_map_of_mem listed))
    have aligned := (valid.segments segment listed).aligned
    have before := covers.2
    simp only [wholePages, nextPage, Segment.stop, pageSize] at *
    omega

/-- Placing a valid program in a new address space fails only for want of frames. -/
theorem place_ensures (valid : program.Valid)
    (faithful : Faithful kernel memory Pages.empty held ram)
    : ((Code.elf program).place memory).Ensures (source scarce)
        (fun result after later =>
          ∃ pagesAfter,
            Faithful kernel result.1 pagesAfter after later
            ∧ match result.2 with
              | .error failure => failure = .outOfMemory ∧ scarce
              | .ok placed =>
                placed.Of program ∧ ∀ va, pagesAfter.view later va = program.image va)
        held ram := by
  unfold Code.place Program.load
  refine (loadSegments_ensures faithful valid.segments valid.apart (fun _ _ _ _ => rfl)).bind
    (fun result held later loaded => ?_)
  obtain ⟨memory, answer⟩ := result
  obtain ⟨pages, faithful, outcome⟩ := loaded
  cases answer with
  | error error =>
    obtain ⟨rfl, short⟩ := outcome
    exact ⟨pages, faithful, rfl, short⟩
  | ok _ =>
    dsimp only
    split
    · rename_i nothing
      obtain ⟨segment, listed, -⟩ := valid.entry
      rw [List.max?_eq_none_iff, List.map_eq_nil_iff] at nothing
      simp [nothing] at listed
    · rename_i stop most
      exact ⟨pages, faithful, placed_of_valid valid most, outcome⟩

/-- What a program sees when it starts. -/
def shownAtStart (program : Elf.Program) (args : List UInt8) (va : Nat) : Option (UInt8 × Access) :=
  if InStack va then some (stackShows args va) else program.image va

/-- A program that was started and may grow its heap: from `heapEnd` up to `PROGRAM_END` nothing is
mapped.
-/
def Roomy (kernel : Table) (running : Running) (held : List Nat) (ram : Ram) (pages : Pages) : Prop :=
  Faithful kernel running.memory pages held ram
  ∧ running.heapEnd % pageSize = 0
  ∧ userBase ≤ running.heapEnd
  ∧ running.heapEnd ≤ programEnd
  ∧ ∀ va, running.heapEnd ≤ va → va < programEnd → pages.view ram va = none

/-- Starting a valid program is refused only as it should be, and never panics. -/
theorem spawnWith_ensures (valid : program.Valid) (args : List UInt8) (asid : Option Nat)
    : (spawnWith kernel (.elf program) args asid).Ensures (source scarce)
        (fun result after later =>
          match result with
          | .refused .argsTooLong => maxArgs < args.length ∧ after = []
          | .refused .tooManyPrograms => asid = none ∧ after = []
          | .refused .outOfMemory => scarce ∧ after = []
          | .panicked => False
          | .started start running =>
            start.entry = program.entry
            ∧ start.stackTop = argsAt args
            ∧ start.args = (argsAt args, args.length)
            ∧ ∃ pages,
                Roomy kernel running after later pages
                ∧ ∀ va, pages.view later va = shownAtStart program args va)
        [] ram := by
  unfold spawnWith
  split
  · rename_i long
    exact ⟨long, rfl⟩
  rename_i allowed
  cases asid with
  | none => exact ⟨rfl, rfl⟩
  | some asid =>
    refine (AddressSpace.new_ensures scarce kernel ram).bind (fun result held ram made => ?_)
    cases result with
    | none => exact made
    | some memory =>
      refine (place_ensures valid made).bind (fun result held ram placing => ?_)
      obtain ⟨memory, placed⟩ := result
      obtain ⟨pages, faithful, outcome⟩ := placing
      cases placed with
      | error failure =>
        obtain ⟨rfl, short⟩ := outcome
        exact giveUp_ensures faithful (fun _ => ⟨short, rfl⟩)
      | ok placed =>
        obtain ⟨placedOf, image⟩ := outcome
        refine (syncPages_ensures faithful (fun va code => ?_)).bind
          (fun result held later synced => ?_)
        · rw [image]
          exact placedOf.code va code
        · obtain ⟨rfl, rfl, faithful, same⟩ := synced
          have image (va : Nat) : pages.view later va = program.image va :=
            (same va).trans (image va)
          refine (placeStack_ensures faithful (Nat.not_lt.mp allowed) (fun va inside => ?_)).bind
            (fun result held last stacked => ?_)
          · rw [image]
            exact placedOf.free va (Nat.le_trans placedOf.high
              (Nat.le_trans (show programEnd ≤ stackTop - stackSize by decide) inside.1))
          · obtain ⟨memory, answer⟩ := result
            obtain ⟨pages, faithful, outcome⟩ := stacked
            cases answer with
            | error failure =>
              obtain ⟨rfl, short⟩ := outcome
              exact giveUp_ensures faithful (fun _ => ⟨short, rfl⟩)
            | ok _ =>
              have shown (va : Nat) : pages.view last va = shownAtStart program args va := by
                rw [outcome va, image]
                rfl
              refine ⟨placedOf.entry, rfl, rfl, pages, ⟨faithful, ?_, placedOf.low,
                placedOf.high, fun va low high => ?_⟩, shown⟩
              · exact Nat.mul_mod_left ..
              · have below : ¬ InStack va := fun inside => by
                  have := inside.1
                  have := show programEnd ≤ stackTop - stackSize by decide
                  omega
                rw [shown, shownAtStart, if_neg below]
                exact placedOf.free va low

/-- A heap with room for `count` pages grows by them unless frames run out, by induction on them. -/
theorem growHeap_ensures (roomy : Roomy kernel running held ram pages) (count : Nat)
    (room : running.heapEnd + count * pageSize ≤ programEnd)
    : (growHeap running count running.heapEnd).Ensures (source scarce)
        (fun result after later =>
          (∃ pagesAfter, Roomy kernel result.1 after later pagesAfter)
          ∧ match result.2 with
            | .error error => error = .outOfMemory ∧ scarce
            | .ok () => result.1.heapEnd = running.heapEnd + count * pageSize)
        held ram := by
  induction count generalizing running held ram pages with
  | zero => exact ⟨⟨pages, roomy⟩, by simp⟩
  | succ count ih =>
    obtain ⟨faithful, aligned, low, high, free⟩ := roomy
    have more : running.heapEnd + pageSize + count * pageSize ≤ programEnd := by
      rw [Nat.succ_mul] at room
      omega
    have inWindow : running.heapEnd < userEnd :=
      Nat.lt_of_le_of_lt high (by decide)
    unfold growHeap
    refine (AddressSpace.map_shows faithful .readWrite ⟨aligned, low, inWindow⟩
      (fun va from_ before => free va from_ (by omega))).bind (fun result held later mapped => ?_)
    obtain ⟨memory, answer⟩ := result
    obtain ⟨pagesAfter, faithful, outcome⟩ := mapped
    cases answer with
    | error error =>
      obtain ⟨rfl, short, same⟩ := outcome
      refine ⟨⟨pagesAfter, faithful, aligned, low, high, fun va from_ before => ?_⟩, rfl, short⟩
      rw [same]
      exact free va from_ before
    | ok _ =>
      have roomy : Roomy kernel { memory, heapEnd := running.heapEnd + pageSize } held later
          pagesAfter := by
        refine ⟨faithful, ?_, Nat.le_trans low (Nat.le_add_right ..), ?_,
          fun va from_ before => ?_⟩
        · rw [Nat.add_mod, aligned]
          rfl
        · dsimp only
          omega
        · dsimp only at from_
          rw [outcome va, if_neg (by omega)]
          exact free va (by omega) before
      refine (ih roomy more).mono (fun result after last others => ?_)
      obtain ⟨grown, outcome⟩ := others
      refine ⟨grown, ?_⟩
      obtain ⟨final, answer⟩ := result
      cases answer with
      | error error => exact outcome
      | ok _ =>
        refine Eq.trans outcome ?_
        dsimp only
        rw [Nat.succ_mul]
        omega

/-- A `Map` call fails only for want of room or of frames. -/
def Grown.Fair (scarce : Prop) (call : Grown) : Prop :=
  match call.answer with
  | .error .noRoom => programEnd < call.heapEnd + wholePages call.len
  | .error (.map error) => error = .outOfMemory ∧ scarce
  | .ok start => start = call.heapEnd ∧ call.heapEnd + wholePages call.len ≤ programEnd

theorem map_ensures (roomy : Roomy kernel running held ram pages) (len : Nat)
    : (map running len).Ensures (source scarce)
        (fun result after later =>
          (∃ pagesAfter, Roomy kernel result.1 after later pagesAfter)
          ∧ Grown.Fair scarce { heapEnd := running.heapEnd, len, answer := result.2 })
        held ram := by
  unfold map
  dsimp only
  split
  · rename_i full
    refine ⟨⟨pages, roomy⟩, ?_⟩
    have small : programEnd < wordLimit := by decide
    show programEnd < running.heapEnd + wholePages len
    omega
  · rename_i room
    have fits : running.heapEnd + wholePages len ≤ programEnd := by omega
    refine (growHeap_ensures roomy _ fits).bind (fun result after later grown => ?_)
    obtain ⟨grown, outcome⟩ := grown
    obtain ⟨final, answer⟩ := result
    cases answer with
    | error error => exact ⟨grown, outcome⟩
    | ok _ => exact ⟨grown, rfl, fits⟩

/-- So do all its calls, whatever it stores meanwhile. By induction on the deeds. -/
theorem perform_ensures (roomy : Roomy kernel running held ram pages) (deeds : List Deed)
    : (perform running deeds).Ensures (source scarce)
        (fun result after later =>
          (∃ pagesAfter, Roomy kernel result.1 after later pagesAfter)
          ∧ ∀ call ∈ result.2, call.Fair scarce)
        held ram := by
  induction deeds generalizing running held ram pages with
  | nil => exact ⟨⟨pages, roomy⟩, by simp⟩
  | cons deed rest ih =>
    cases deed with
    | map len =>
      unfold perform
      refine (map_ensures roomy len).bind (fun result after later first => ?_)
      obtain ⟨running, answer⟩ := result
      obtain ⟨⟨pages, roomy⟩, fair⟩ := first
      refine (ih roomy).bind (fun result after last others => ?_)
      obtain ⟨final, calls⟩ := result
      exact ⟨others.1, List.forall_mem_cons.mpr ⟨fair, others.2⟩⟩
    | store va bytes =>
      unfold perform
      obtain ⟨faithful, aligned, low, high, free⟩ := roomy
      refine (AddressSpace.copyIn_ensures faithful _ va bytes).bind
        (fun result after later copied => ?_)
      obtain ⟨rfl, faithful, -⟩ := copied
      refine ih ⟨faithful, aligned, low, high, fun va from_ before => ?_⟩
      exact Pages.view_of_unmapped (Pages.unmapped_of_view (free va from_ before)) later

end Start

/-- The program is loaded into a new address space; `none` if there is no frame for its tables. -/
def loadNew (kernel : Table) (program : Elf.Program)
    : Paging (Option (AddressSpace × Except LoadError Unit)) := do
  let some space ← AddressSpace.new kernel | return none
  return some (← program.load space)

def launch (kernel : Table) (code : Code) (args : List UInt8) (asid : Option Nat) (deeds : List Deed)
    : Paging (Spawned × List Grown) := do
  match ← spawnWith kernel code args asid with
  | .started start running => do
      let (running, calls) ← perform running deeds
      return (.started start running, calls)
  | spawned => return (spawned, [])

/-- A program that parses can always be started given memory. Loading it into a new address space
fails only for want of frames; otherwise every page shows the program's image, in which each segment
is its data followed by zeros, and the entry point is in an executable page. Starting it, with the
stack and any arguments that are allowed, and any `Map` calls it then makes, fail only for want of
frames, or of room; in particular no assertion of the kernel fails.
-/
theorem starts_of_parse {bytes : List UInt8} {program : Elf.Program}
    (parsed : parse bytes = .ok program) (scarce : Prop) (kernel : Table) (args : List UInt8)
    (asid : Option Nat) (deeds : List Deed) (ram : Ram)
    : (loadNew kernel program).Ensures (source scarce)
        (fun result _ later =>
          match result with
          | none => scarce
          | some (_, .error error) => error = .map .outOfMemory ∧ scarce
          | some (space, .ok ()) =>
            (∀ va, space.view later va = program.image va)
            ∧ (∀ segment ∈ program.segments, ∀ offset < segment.size,
                space.view later (segment.address + offset)
                = some (segment.data[offset]?.getD 0, segment.access))
            ∧ ∃ byte, space.view later program.entry = some (byte, .readExecute))
        [] ram
      ∧ (spawnWith kernel (.elf program) args asid).Ensures (source scarce)
          (fun result _ later =>
            match result with
            | .refused .argsTooLong => maxArgs < args.length
            | .refused .tooManyPrograms => asid = none
            | .refused .outOfMemory => scarce
            | .panicked => False
            | .started start running =>
              start.entry = program.entry
              ∧ start.args = (argsAt args, args.length)
              ∧ ∀ va, running.memory.view later va = shownAtStart program args va)
          [] ram
      ∧ (launch kernel (.elf program) args asid deeds).Ensures (source scarce)
          (fun result _ _ =>
            result.1 ≠ .panicked
            ∧ (result.1 = .refused .outOfMemory → scarce)
            ∧ ∀ call ∈ result.2, call.Fair scarce)
          [] ram := by
  have valid := parse_valid parsed
  refine ⟨?_, ?_, ?_⟩
  · unfold loadNew Program.load
    refine (AddressSpace.new_ensures scarce kernel ram).bind (fun result held ram made => ?_)
    cases result with
    | none => exact made.1
    | some space =>
      refine (loadSegments_ensures made valid.segments valid.apart (fun _ _ _ _ => rfl)).bind
        (fun result held later loaded => ?_)
      obtain ⟨space, answer⟩ := result
      obtain ⟨pages, faithful, outcome⟩ := loaded
      cases answer with
      | error error => exact outcome
      | ok _ =>
        have view (va : Nat) : space.view later va = program.image va :=
          (faithful.view_eq va).trans (outcome va)
        refine ⟨view, fun segment listed offset inside => ?_, ?_⟩
        · have covers : segment.Covers (segment.address + offset) :=
            Segment.covers_of_lt_stop (Nat.le_add_right ..) (Nat.add_lt_add_left inside _)
          rw [view]
          refine (shows_of_mem valid.segments valid.apart listed covers).trans ?_
          rw [Segment.shows, Nat.add_sub_cancel_left]
        · rw [view]
          exact valid.image_entry
  · refine (spawnWith_ensures valid args asid).mono (fun result after later spawned => ?_)
    cases result with
    | refused error => cases error <;> exact spawned.1
    | panicked => exact spawned
    | started start running =>
      obtain ⟨entry, -, arguments, pages, ⟨faithful, -⟩, shown⟩ := spawned
      exact ⟨entry, arguments, fun va => (faithful.view_eq va).trans (shown va)⟩
  · unfold launch
    refine (spawnWith_ensures valid args asid).bind (fun result after later spawned => ?_)
    cases result with
    | refused error =>
      refine ⟨by simp, fun short => ?_, by simp⟩
      cases short
      exact spawned.1
    | panicked => exact spawned.elim
    | started start running =>
      obtain ⟨-, -, -, pages, roomy, -⟩ := spawned
      refine (perform_ensures roomy deeds).bind (fun result after last performed => ?_)
      exact ⟨by simp, by simp, performed.2⟩

/-- An executable with one page of code, of which the file has the first instruction. -/
def smallFile : List UInt8 :=
  magic ++ [2, 1, 1, 0, 0, 0, 0, 0, 0, 0, 0, 0]
    ++ [2, 0, 183, 0, 1, 0, 0, 0]
    ++ [0, 0, 0, 0x80, 0, 0, 0, 0] ++ [64, 0, 0, 0, 0, 0, 0, 0] ++ [0, 0, 0, 0, 0, 0, 0, 0]
    ++ [0, 0, 0, 0, 64, 0, 56, 0, 1, 0, 0, 0, 0, 0, 0, 0]
    ++ [1, 0, 0, 0, 5, 0, 0, 0] ++ [120, 0, 0, 0, 0, 0, 0, 0]
    ++ [0, 0, 0, 0x80, 0, 0, 0, 0] ++ [0, 0, 0, 0x80, 0, 0, 0, 0]
    ++ [4, 0, 0, 0, 0, 0, 0, 0] ++ [0, 0x10, 0, 0, 0, 0, 0, 0] ++ [0, 0x10, 0, 0, 0, 0, 0, 0]
    ++ [0, 0, 0, 0x14]

def smallProgram : Elf.Program :=
  { entry := userBase
    segments :=
      [{ address := userBase, size := pageSize, data := [0, 0, 0, 0x14], access := .readExecute }] }

theorem parse_smallFile : parse smallFile = .ok smallProgram := by
  decide +kernel

/-- Witness: with frames for everything, that program starts with an argument and gets two more
pages, while a heap bigger than the window is refused for want of room.
-/
theorem starts_of_smallFile
    : parse smallFile = .ok smallProgram
      ∧ (launch (fun _ => 0) (.elf smallProgram) [0x2d] (some 1) [.map 8192, .map (2 ^ 40)]).Ensures
          (source False)
          (fun result _ _ =>
            result.1 ≠ .panicked
            ∧ result.1 ≠ .refused .outOfMemory
            ∧ ∀ call ∈ result.2, call.Fair False)
          [] (fun _ => 0) := by
  refine ⟨parse_smallFile, ?_⟩
  have starts := starts_of_parse parse_smallFile False (fun _ => 0) [0x2d] (some 1)
    [.map 8192, .map (2 ^ 40)] (fun _ => 0)
  exact starts.2.2.mono (fun result _ _ launched => ⟨launched.1, launched.2.1, launched.2.2⟩)

end RustyPi.Process
