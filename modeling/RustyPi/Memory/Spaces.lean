import RustyPi.Lib.Reach
import RustyPi.Memory.Paging

/-! Any number of address spaces over one frame allocator. Their calls run interleaved: each call on
the allocator is a step of its own, so another space's calls may come between any two of them.
-/

namespace RustyPi.Memory

open RustyPi.Leases RustyPi.Reach

theorem insertKey_values {key : Nat} (value : Nat) {pairs : List (Nat × Nat)}
    (new : pairs.lookup key = none)
    : ((insertKey key value pairs).map Prod.snd).Perm (value :: pairs.map Prod.snd) := by
  induction pairs with
  | nil => exact List.Perm.refl _
  | cons pair rest ih =>
    obtain ⟨other, old⟩ := pair
    rw [List.lookup_cons] at new
    split at new
    · cases new
    · rename_i differs
      have differs : key ≠ other := by simpa using differs
      unfold insertKey
      split
      · exact List.Perm.refl _
      · exact ((ih new).cons old).trans (List.Perm.swap ..)

namespace AddressSpace

/-- A space has just the frames of its tables and pages; without a space there are none. -/
def Owned : Option AddressSpace → List Nat → Prop
  | none, held => held = []
  | some space, held => held.Perm space.allFrames

@[simp] theorem owns_zeroedFrame {ends : Option Nat → List Nat → Prop} {held : List Nat}
    : zeroedFrame.Owns ends held
      ↔ ends none held ∧ ∀ frame, frame ∉ held → ends (some frame) (frame :: held) := by
  simp [zeroedFrame, Program.Owns, Program.taken]

/-- A failed creation gives the root table back. -/
theorem owns_new (kernel : Table) : (new kernel).Owns Owned [] := by
  unfold new
  simp only [Program.owns_bind, owns_zeroedFrame]
  refine ⟨rfl, fun root _ => ⟨?_, fun level2 _ => ?_⟩⟩
  · simp [Owned]
  · simp only [Program.owns_modified, Program.owns_pure, Owned, allFrames]
    exact List.Perm.swap ..

variable {space : AddressSpace} {held : List Nat}

theorem allFrames_insertTable {index : Nat} (table : Nat) (absent : space.level3.lookup index = none)
    : (table :: space.allFrames).Perm
        { space with level3 := insertKey index table space.level3 }.allFrames := by
  have values := insertKey_values table absent
  unfold allFrames
  refine List.perm_middle.symm.trans ((List.perm_middle.symm.trans ?_).append_left _)
  exact values.symm.append_left _

theorem allFrames_insertPage {va : Nat} (frame : Nat) (free : space.frames.lookup va = none)
    : (frame :: space.allFrames).Perm
        { space with frames := insertKey va frame space.frames }.allFrames :=
  (insertKey_values frame free).symm.append_right _

section Owned

variable (owned : held.Perm space.allFrames)
include owned

/-- Making a level 3 table adds its frame to the space's, also if the mapping fails afterwards. -/
theorem owns_level3For (va : Nat)
    : (space.level3For va).Owns
        (fun result held => held.Perm result.1.allFrames ∧ result.1.frames = space.frames) held := by
  unfold level3For
  split
  · exact ⟨owned, rfl⟩
  · rename_i new
    simp only [Program.owns_bind, owns_zeroedFrame]
    refine ⟨⟨owned, rfl⟩, fun level3 _ => ?_⟩
    simp only [Program.owns_modified, Program.owns_pure]
    exact ⟨(owned.cons level3).trans (allFrames_insertTable level3 new), trivial⟩

theorem owns_map (va : Nat) (access : Access)
    : (space.map va access).Owns (fun result held => held.Perm result.1.allFrames) held := by
  unfold map
  split
  · exact owned
  split
  · exact owned
  split
  · exact owned
  · rename_i unmapped
    rw [Program.owns_bind]
    refine (owns_level3For owned va).mono (fun result held after => ?_)
    obtain ⟨made, level3⟩ := result
    obtain ⟨owned, same⟩ := after
    cases level3 with
    | none => exact owned
    | some level3 =>
      simp only [Program.owns_bind, owns_zeroedFrame]
      refine ⟨owned, fun frame _ => ?_⟩
      simp only [Program.owns_modified, Program.owns_pure]
      have new : made.frames.lookup va = none := by
        rw [show made.frames = space.frames from same]
        exact Option.not_isSome_iff_eq_none.mp unmapped
      exact (owned.cons frame).trans (allFrames_insertPage frame new)

/-- A range that fails half way keeps what it mapped, by induction on the pages. -/
theorem owns_mapPages (access : Access) (count va : Nat)
    : (space.mapPages access count va).Owns (fun result held => held.Perm result.1.allFrames)
        held := by
  induction count generalizing space held va with
  | zero => exact owned
  | succ count ih =>
    unfold mapPages
    rw [Program.owns_bind]
    refine (owns_map owned va access).mono (fun result held owned => ?_)
    obtain ⟨mapped, answer⟩ := result
    cases answer with
    | error error => exact owned
    | ok _ => exact ih owned _

end Owned

theorem owns_freeAll {frames : List Nat} (owned : held.Perm frames)
    : (freeAll frames).Owns (fun _ held => held = []) held := by
  induction frames generalizing held with
  | nil => exact owned.eq_nil
  | cons frame rest ih =>
    unfold freeAll
    rw [Program.owns_bind, Program.owns_given]
    refine ⟨owned.mem_iff.mpr List.mem_cons_self, ih ?_⟩
    simpa using owned.erase frame

end AddressSpace

/-- The allocator, physical memory and every address space, those in the middle of a call included.
-/
abbrev Spaces := Shared Frames Nat Ram (Option AddressSpace)

namespace Spaces

inductive Event
  | create (kernel : Table)
  | map (index va : Nat) (access : Access)
  | mapRange (index start len : Nat) (access : Access)
  | drop (index : Nat)
  /-- A call in progress goes on, up to its next call on the allocator. -/
  | advance (index : Nat)

/-- A call on a space, if there still is one. -/
def onSpace (call : AddressSpace → Paging (Option AddressSpace))
    : Option AddressSpace → Paging (Option AddressSpace)
  | none => return none
  | some space => call space

def step (spaces : Spaces) : Event → Option Spaces
  | .create kernel => some (spaces.join (AddressSpace.new kernel))
  | .map index va access =>
    spaces.resume index (onSpace (fun space => do return some (← space.map va access).1))
  | .mapRange index start len access =>
    spaces.resume index (onSpace (fun space => do
      return some (← space.mapRange start len access).1))
  | .drop index =>
    spaces.resume index (onSpace (fun space => do
      space.drop
      return none))
  | .advance index => spaces.advance Frames.calls index

/-- No spaces, and all frames of `start..stop` free. -/
def start (start stop : Nat) (ram : Ram) : Spaces :=
  { pool := Frames.new start stop, memory := ram, parties := [] }

/-- The spaces that aren't in the middle of a call. -/
def idle (spaces : Spaces) : List AddressSpace :=
  spaces.parties.filterMap (fun party =>
    match party.program with
    | .done result => result
    | _ => none)

/-- Who has which frames, as it should be. -/
structure Sound (spaces : Spaces) : Prop where
  /-- No frame is used twice, by two spaces or by one. -/
  distinct : spaces.held.Nodup
  idleDistinct : (spaces.idle.flatMap AddressSpace.allFrames).Nodup
  /-- What a space was given and hasn't given back are its tables and pages. -/
  holdings
    : ∀ party ∈ spaces.parties, ∀ space,
        party.program = .done (some space) → party.held.Perm space.allFrames
  /-- They are frames of the allocator, and just they are marked as allocated. -/
  inside : ∀ frame ∈ spaces.held, ∃ number < spaces.pool.count, frame = spaces.pool.address number
  marked
    : ∀ number < spaces.pool.count,
        spaces.pool.isUsed number = true ↔ spaces.pool.address number ∈ spaces.held
  counted : spaces.pool.freeCount + spaces.held.length = spaces.pool.count
  /-- No free fails: a call in progress can always go on. -/
  proceeds : ∀ index, spaces.busy index = true → (spaces.step (.advance index)).isSome
  /-- Once every space is dropped, all frames are free. -/
  allFree
    : (∀ party ∈ spaces.parties, party.program = .done none)
      → spaces.pool.freeCount = spaces.pool.count
        ∧ ∀ number < spaces.pool.count, spaces.pool.isUsed number = false

/-- The frames given out, of an allocator with these frames. -/
def OutOf (base count : Nat) (frames : Frames) (out : List Nat) : Prop :=
  frames.Out out ∧ frames.base = base ∧ frames.count = count

theorem keeps (base count : Nat) : Frames.calls.Keeps (OutOf base count) where
  takes pool out after frame held took := by
    obtain ⟨held, sameBase, sameCount⟩ := held
    obtain ⟨new, given⟩ := Frames.allocate_out held took
    obtain ⟨_, _, result⟩ := Option.map_eq_some_iff.mp took
    obtain ⟨rfl, _⟩ := Prod.mk.inj result
    exact ⟨new, given, sameBase, sameCount⟩
  gives pool out frame held listed := by
    obtain ⟨held, sameBase, sameCount⟩ := held
    obtain ⟨after, freed, given⟩ := Frames.free_out held listed
    obtain ⟨afterBase, afterCount⟩ := Frames.free_same freed
    exact ⟨after, by simp [Frames.calls, freed, Except.toOption], given, afterBase.trans sameBase,
      afterCount.trans sameCount⟩
  perm pool out same held permuted := ⟨held.1.perm permuted, held.2⟩

/-- The invariant of every run. -/
abbrev Kept (base count : Nat) (spaces : Spaces) : Prop :=
  spaces.Balanced (OutOf base count) AddressSpace.Owned

/-- What a call on a space owns, from what it owns of the space. -/
theorem owns_onSpace {call : AddressSpace → Paging (Option AddressSpace)}
    (owns
      : ∀ space held,
          held.Perm space.allFrames → (call space).Owns AddressSpace.Owned held)
    (result : Option AddressSpace) (held : List Nat) (owned : AddressSpace.Owned result held)
    : (onSpace call result).Owns AddressSpace.Owned held := by
  cases result with
  | none => exact owned
  | some space => exact owns space held owned

variable {base count : Nat} {spaces after : Spaces}

theorem Kept.step (kept : Kept base count spaces) {event : Event}
    (moved : spaces.step event = some after)
    : Kept base count after := by
  cases event with
  | create kernel =>
    cases moved
    exact kept.join (AddressSpace.owns_new kernel)
  | map index va access =>
    refine Shared.Balanced.resume (keeps base count) kept moved
      (owns_onSpace (fun space held owned => ?_))
    rw [Program.owns_bind]
    exact AddressSpace.owns_map owned va access
  | mapRange index start len access =>
    refine Shared.Balanced.resume (keeps base count) kept moved
      (owns_onSpace (fun space held owned => ?_))
    rw [Program.owns_bind]
    unfold AddressSpace.mapRange
    split
    · exact owned
    · exact AddressSpace.owns_mapPages owned ..
  | drop index =>
    refine Shared.Balanced.resume (keeps base count) kept moved
      (owns_onSpace (fun space held owned => ?_))
    rw [Program.owns_bind]
    exact AddressSpace.owns_freeAll owned
  | advance index =>
    obtain ⟨_, advanced, kept⟩ := Shared.Balanced.advance (keeps base count) kept
      (Shared.busy_of_advance moved)
    cases advanced.symm.trans moved
    exact kept

/-- The frames of the idle spaces are among all that are held, by induction on the parties. -/
theorem idle_subperm {parties : List (Party Nat Ram (Option AddressSpace))}
    (owns : ∀ party ∈ parties, party.program.Owns AddressSpace.Owned party.held)
    : ((parties.filterMap (fun party =>
          match party.program with
          | .done result => result
          | _ => none)).flatMap AddressSpace.allFrames).Subperm (parties.flatMap Party.held) := by
  induction parties with
  | nil => exact List.Subperm.refl _
  | cons party rest ih =>
    have later := ih (fun other listed => owns other (List.mem_cons_of_mem _ listed))
    have here := owns party List.mem_cons_self
    obtain ⟨program, held⟩ := party
    rw [List.filterMap_cons, List.flatMap_cons]
    split
    · exact later.trans (List.sublist_append_right _ _).subperm
    · rename_i space found
      cases program with
      | done result =>
        obtain rfl : result = some space := found
        rw [List.flatMap_cons]
        exact (List.Perm.subperm (List.Perm.symm here)).append later
      | _ => cases found

theorem Kept.marked (kept : Kept base count spaces) {number : Nat}
    (small : number < spaces.pool.count)
    : spaces.pool.isUsed number = true ↔ spaces.pool.address number ∈ spaces.held := by
  have words := kept.out.1.words
  rw [kept.out.1.marked number (by omega), or_iff_right (Nat.not_le.mpr small)]

theorem Kept.sound (kept : Kept base count spaces) : Sound spaces where
  distinct := kept.distinct
  idleDistinct := by
    obtain ⟨_, same, part⟩ := idle_subperm kept.owns
    exact same.nodup_iff.mp (kept.distinct.sublist part)
  holdings party listed space done := by
    have owns := kept.owns party listed
    rw [done] at owns
    exact owns
  inside := kept.out.1.inside
  marked number small := kept.marked small
  counted := kept.out.1.counted
  proceeds index busy := by
    obtain ⟨_, advanced, _⟩ := Shared.Balanced.advance (keeps base count) kept busy
    exact Option.isSome_of_eq_some advanced
  allFree dropped := by
    have nothing : spaces.held = [] := by
      refine List.flatMap_eq_nil_iff.mpr (fun party listed => ?_)
      have owns := kept.owns party listed
      rw [dropped party listed] at owns
      exact owns
    have counted := kept.out.1.counted
    rw [nothing] at counted
    refine ⟨counted, fun number small => ?_⟩
    have marked := kept.marked small
    rw [nothing] at marked
    simpa using marked

/-- Over one allocator, whatever address spaces are created, mapped into and dropped, in whatever
order their calls run: their frames are as they should be, and the allocator's frames stay the same.
-/
theorem separate_of_run {first last : Nat} (small : last < wordLimit) {ram : Ram} {spaces : Spaces}
    (run : Reaches step anyEvent (start first last ram) spaces)
    : spaces.Sound
      ∧ spaces.pool.base = (Frames.new first last).base
      ∧ spaces.pool.count = (Frames.new first last).count := by
  have kept : Kept (Frames.new first last).base (Frames.new first last).count spaces := by
    refine Reaches.invariant run ⟨by simp [start], List.nodup_nil, Frames.new_out small, rfl, rfl⟩ ?_
    exact fun before event after kept _ moved => kept.step moved
  exact ⟨kept.sound, kept.out.2⟩

/-- Witness: with five frames, two spaces are created at the same time, and mapping a page into one
of them gets a table but no page.
-/
theorem separate_of_twoSpaces
    : ∃ spaces : Spaces,
        Reaches step anyEvent (start 0x100001 0x106fff (fun _ => 0)) spaces
        ∧ spaces.pool.count = 5
        ∧ spaces.pool.freeCount = 0
        ∧ spaces.idle.length = 2
        ∧ spaces.Sound := by
  have executed : (runAll step anyEvent (start 0x100001 0x106fff (fun _ => 0))
      ([.create (fun _ => 0), .create (fun _ => 0)]
        ++ (List.replicate 6 [.advance 0, .advance 1]).flatten
        ++ [.map 1 0x80000000 .readWrite] ++ List.replicate 4 (.advance 1))).any
      (fun spaces => spaces.pool.count = 5 ∧ spaces.pool.freeCount = 0 ∧ spaces.idle.length = 2)
      = true := by
    decide +kernel
  obtain ⟨spaces, run, check⟩ := Reaches.of_check executed
  obtain ⟨total, none, two⟩ := of_decide_eq_true check
  exact ⟨spaces, run, total, none, two, (separate_of_run (by decide) run).1⟩

end Spaces

end RustyPi.Memory
