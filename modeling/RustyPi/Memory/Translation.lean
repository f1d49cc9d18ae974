import RustyPi.Lib.Contracts
import RustyPi.Memory.Spaces

/-! What the page tables mean. An address space stands for a map from pages to frames and accesses;
the table walk reads back just what was mapped, whatever else happens to memory.
-/

namespace RustyPi.Memory

open RustyPi.Leases

----------
-- Words in memory
----------

namespace Ram

def SameFrame (frame : Nat) (before after : Ram) : Prop :=
  ∀ offset < pageSize, after (frame + offset) = before (frame + offset)

def Zeroed (frame : Nat) (ram : Ram) : Prop := ∀ offset < pageSize, ram (frame + offset) = 0

variable {ram other : Ram} {address : Nat}

theorem loadLittle_congr {count : Nat}
    (same : ∀ offset < count, other (address + offset) = ram (address + offset))
    : other.loadLittle address count = ram.loadLittle address count := by
  induction count generalizing address with
  | zero => rfl
  | succ count ih =>
    have first := same 0 (by omega)
    have rest : other.loadLittle (address + 1) count = ram.loadLittle (address + 1) count :=
      ih (fun offset inside => by
        simpa only [Nat.add_assoc, Nat.add_comm 1] using same (offset + 1) (by omega))
    rw [Nat.add_zero] at first
    simp only [loadLittle, first, rest]

/-- Reading back the bytes of a stored word from the `skipped`-th on, by induction on how many. -/
theorem loadLittle_storeWord (ram : Ram) (address value count skipped : Nat)
    (inside : skipped + count ≤ 8)
    : (ram.storeWord address value).loadLittle (address + skipped) count
      = value / 0x100 ^ skipped % 0x100 ^ count := by
  induction count generalizing skipped with
  | zero => simp [loadLittle, Nat.mod_one]
  | succ count ih =>
    have stored
        : ram.storeWord address value (address + skipped)
          = UInt8.ofNat (value / 0x100 ^ skipped) := by
      simp only [storeWord, Nat.add_sub_cancel_left]
      exact if_pos ⟨by omega, by omega⟩
    have rest := ih (skipped + 1) (by omega)
    rw [← Nat.add_assoc] at rest
    rw [loadLittle, stored, rest, Nat.pow_succ, ← Nat.div_div_eq_div_mul, Nat.pow_succ,
      Nat.mul_comm (0x100 ^ count), Nat.mod_mul]
    simp

@[simp] theorem loadWord_storeWord (ram : Ram) (address value : Nat)
    : (ram.storeWord address value).loadWord address = value % wordLimit := by
  have read := loadLittle_storeWord ram address value 8 0 (by omega)
  simpa [loadWord, wordLimit] using read

variable {place index : Nat}

theorem storeWord_of_outside {value : Nat} (outside : place < address ∨ address + 8 ≤ place)
    : ram.storeWord address value place = ram place :=
  if_neg (by omega)

theorem loadWord_storeWord_of_apart {value : Nat}
    (apart : place + 8 ≤ address ∨ address + 8 ≤ place)
    : (ram.storeWord address value).loadWord place = ram.loadWord place :=
  loadLittle_congr (fun offset _ => storeWord_of_outside (by omega))

theorem SameFrame.loadWord {frame : Nat} (same : SameFrame frame ram other)
    (inside : index < entries)
    : other.loadWord (frame + 8 * index) = ram.loadWord (frame + 8 * index) := by
  refine loadLittle_congr (fun offset small => ?_)
  rw [Nat.add_assoc]
  refine same _ ?_
  simp only [entries, pageSize] at *
  omega

theorem Zeroed.loadWord {frame : Nat} (zeroed : ram.Zeroed frame) (inside : index < entries)
    : ram.loadWord (frame + 8 * index) = 0 := by
  have same : SameFrame frame (fun _ => 0) ram := fun offset small => zeroed offset small
  rw [same.loadWord inside]
  rfl

/-- A table read back after it was stored, by induction on how much of it was. -/
theorem loadWord_storeTable (frame : Nat) (table : Table) (ram : Ram) (inside : index < entries)
    : (ram.storeTable frame table).loadWord (frame + 8 * index) = table index % wordLimit := by
  have stored (count : Nat) (before : index < count)
      : ((List.range count).foldl (fun ram index => ram.storeWord (frame + 8 * index) (table index))
          ram).loadWord (frame + 8 * index)
        = table index % wordLimit := by
    induction count with
    | zero => omega
    | succ count ih =>
      rw [List.range_succ, List.foldl_append, List.foldl_cons, List.foldl_nil]
      by_cases last : index = count
      · rw [last, loadWord_storeWord]
      · rw [loadWord_storeWord_of_apart (by omega), ih (by omega)]
  exact stored entries inside

theorem storeTable_of_outside (frame : Nat) (table : Table) (ram : Ram)
    (outside : place < frame ∨ frame + pageSize ≤ place)
    : ram.storeTable frame table place = ram place := by
  have stored (count : Nat) (inside : count ≤ entries)
      : (List.range count).foldl (fun ram index => ram.storeWord (frame + 8 * index) (table index))
          ram place
        = ram place := by
    induction count with
    | zero => rfl
    | succ count ih =>
      rw [List.range_succ, List.foldl_append, List.foldl_cons, List.foldl_nil,
        storeWord_of_outside, ih (by omega)]
      simp only [entries, pageSize] at *
      omega
  exact stored entries (Nat.le_refl _)

end Ram

----------
-- Frames
----------

/-- The address of a page frame, as descriptors can hold it. -/
def UsableFrame (frame : Nat) : Prop := frame % pageSize = 0 ∧ frame < 2 ^ 48

/-- Where address spaces get frames: any usable one that isn't in use, or none if they are
`scarce`. Others change nothing in the frames of a space.
-/
def source (scarce : Prop) : Ground Nat Ram where
  usable := UsableFrame
  scarce := scarce
  same := Ram.SameFrame
  refl _ _ _ _ := rfl
  trans _ _ _ _ first second offset inside :=
    (second offset inside).trans (first offset inside)

variable {frame other : Nat} {pairs : List (Nat × Nat)}

section Usable

variable (usable : UsableFrame frame)
include usable

theorem UsableFrame.apart (otherUsable : UsableFrame other) (differ : other ≠ frame)
    : other + pageSize ≤ frame ∨ frame + pageSize ≤ other := by
  obtain ⟨aligned, -⟩ := usable
  obtain ⟨otherAligned, -⟩ := otherUsable
  simp only [pageSize] at *
  omega

theorem UsableFrame.sameFrame (otherUsable : UsableFrame other)
    (differ : other ≠ frame) {before after : Ram}
    (inside : ∀ place, place < frame ∨ frame + pageSize ≤ place → after place = before place)
    : Ram.SameFrame other before after := by
  intro offset small
  have := usable.apart otherUsable differ
  exact inside _ (by omega)

theorem UsableFrame.and_mask (bits : Nat) (attributes : bits &&& addressMask = 0)
    : (frame ||| bits) &&& addressMask = frame := by
  obtain ⟨aligned, small⟩ := usable
  rw [Nat.and_or_distrib_right, attributes, Nat.or_zero]
  refine Nat.eq_of_testBit_eq (fun bit => ?_)
  have mask : addressMask = (2 ^ 36 - 1) <<< 12 := by decide
  rw [Nat.testBit_and, mask, Nat.testBit_shiftLeft, Nat.testBit_two_pow_sub_one]
  rcases Nat.lt_or_ge bit 12 with low | high
  · have shape : frame = 2 ^ 12 * (frame / 2 ^ 12) := by
      simp only [pageSize] at aligned
      omega
    rw [shape, Nat.testBit_two_pow_mul]
    simp [Nat.not_le.mpr low]
  · rcases Nat.lt_or_ge bit 48 with inside | beyond
    · simp [high, show bit - 12 < 36 by omega]
    · have clear : frame.testBit bit = false :=
        Nat.testBit_lt_two_pow (Nat.lt_of_lt_of_le small (Nat.pow_le_pow_right (by omega) beyond))
      simp [clear]

theorem UsableFrame.and_attributes {bits mask : Nat} (attributes : mask &&& addressMask = 0)
    : (frame ||| bits) &&& mask = bits &&& mask := by
  have frameBits : frame = frame &&& addressMask := by
    simpa using (usable.and_mask 0 (by decide)).symm
  have clear : frame &&& mask = 0 := by
    rw [frameBits, Nat.and_assoc, Nat.and_comm addressMask, attributes, Nat.and_zero]
  rw [Nat.and_or_distrib_right, clear, Nat.zero_or]

theorem UsableFrame.or_offset {offset : Nat} (inside : offset < pageSize)
    : frame ||| offset = frame + offset := by
  obtain ⟨aligned, -⟩ := usable
  have shape : frame = (frame / 2 ^ 12) <<< 12 := by
    rw [Nat.shiftLeft_eq]
    simp only [pageSize] at aligned
    omega
  rw [shape]
  exact (Nat.shiftLeft_add_eq_or_of_lt inside _).symm

theorem UsableFrame.lt_wordLimit {bits : Nat} (small : bits < wordLimit)
    : (frame ||| bits) % wordLimit = frame ||| bits :=
  Nat.mod_eq_of_lt (Nat.or_lt_two_pow (Nat.lt_trans usable.2 (by decide)) small)

end Usable

namespace Access

theorem descriptorBits_lt (access : Access) : access.descriptorBits < wordLimit := by
  cases access <;> decide

/-- A page descriptor's access is read back, whatever the frame. -/
theorem fromDescriptor_descriptorBits (access : Access) {frame : Nat} (usable : UsableFrame frame)
    : fromDescriptor (frame ||| access.descriptorBits) = some access := by
  unfold fromDescriptor
  rw [usable.and_attributes (by decide)]
  cases access <;> decide

end Access

----------
-- What an address space stands for
----------

/-- What is mapped: the frame and access of each page, by the page's virtual address. -/
abbrev Pages := Nat → Option (Nat × Access)

def pageOf (va : Nat) : Nat := va / pageSize * pageSize

namespace Pages

def empty : Pages := fun _ => none

def set (pages : Pages) (va : Nat) (page : Nat × Access) : Pages :=
  Function.update pages va (some page)

/-- Where `va` is and how it may be used, by what is mapped. -/
def translate (pages : Pages) (va : Nat) : Option (Nat × Access) :=
  (pages (pageOf va)).map (fun page => (page.1 + va % pageSize, page.2))

/-- What a program sees at `va`. -/
def view (pages : Pages) (ram : Ram) (va : Nat) : Option (UInt8 × Access) :=
  (pages.translate va).map (fun (physical, access) => (ram physical, access))

@[simp] theorem set_same (pages : Pages) (va : Nat) (page : Nat × Access)
    : pages.set va page va = some page := by
  simp [set]

@[simp] theorem set_of_ne (pages : Pages) {va other : Nat} (differ : other ≠ va)
    (page : Nat × Access)
    : pages.set va page other = pages other := by
  simp [set, differ]

end Pages

def UserPage (va : Nat) : Prop := va % pageSize = 0 ∧ userBase ≤ va ∧ va < userEnd

/-- Why a page isn't mapped. -/
def Refuses (scarce : Prop) (pages : Pages) (va : Nat) : MapError → Prop
  | .notAligned => va % pageSize ≠ 0
  | .outsideWindow => ¬ (userBase ≤ va ∧ va < userEnd)
  | .alreadyMapped => (pages va).isSome
  | .outOfMemory => scarce

/-- Mapping pages one after another until one is refused. Each gets a frame of its own. -/
inductive Adds (scarce : Prop) (access : Access)
    : List Nat → Pages → List Nat → Except MapError Unit → Pages → Prop
  | done {pages : Pages} : Adds scarce access [] pages [] (.ok ()) pages
  | mapped {va frame : Nat} {asked frames : List Nat} {pages after : Pages}
      {result : Except MapError Unit} (userPage : UserPage va) (free : pages va = none)
      (rest : Adds scarce access asked (pages.set va (frame, access)) frames result after)
      : Adds scarce access (va :: asked) pages (frame :: frames) result after
  | refused {va : Nat} {asked : List Nat} {pages : Pages} {error : MapError}
      (reason : Refuses scarce pages va error)
      : Adds scarce access (va :: asked) pages [] (.error error) pages

/-- What the tables must hold for these pages. -/
structure Walks (kernel : Table) (space : AddressSpace) (pages : Pages) (ram : Ram) : Prop where
  root
    : ∀ index < entries,
        ram.loadWord (space.root + 8 * index)
        = if index = level1Index userBase then space.level2 ||| valid ||| tableOrPage
          else kernel index % wordLimit
  level2
    : ∀ index < entries,
        ram.loadWord (space.level2 + 8 * index)
        = ((space.level3.lookup index).map (· ||| valid ||| tableOrPage)).getD 0
  level3
    : ∀ va table,
        UserPage va
        → space.level3.lookup (level2Index va) = some table
        → ram.loadWord (table + 8 * level3Index va)
          = ((pages va).map (fun page => page.1 ||| page.2.descriptorBits)).getD 0

/-- The space stands for these pages: its own records say so, and its tables do. -/
structure Faithful (kernel : Table) (space : AddressSpace) (pages : Pages) (held : List Nat)
    (ram : Ram)
    : Prop where
  holdings : held.Perm space.allFrames
  distinct : held.Nodup
  usable : ∀ frame ∈ held, UsableFrame frame
  recorded : ∀ va, space.frames.lookup va = (pages va).map Prod.fst
  /-- Each page is in the window and has its level 3 table. -/
  covered : ∀ va, (pages va).isSome → UserPage va ∧ (space.level3.lookup (level2Index va)).isSome
  walks : Walks kernel space pages ram

theorem lookup_cons_eq (key value : Nat) (rest : List (Nat × Nat)) (other : Nat)
    : ((key, value) :: rest).lookup other
      = if other = key then some value else rest.lookup other := by
  rw [List.lookup_cons]
  by_cases same : other = key
  · simp [same]
  · rw [if_neg same, beq_false_of_ne same]

theorem lookup_insertKey (key value : Nat) (pairs : List (Nat × Nat)) (other : Nat)
    : (insertKey key value pairs).lookup other
      = if other = key then some value else pairs.lookup other := by
  induction pairs with
  | nil => exact lookup_cons_eq ..
  | cons pair rest ih =>
    obtain ⟨first, old⟩ := pair
    unfold insertKey
    split
    · exact lookup_cons_eq ..
    · split
      · rename_i same
        subst same
        simp only [lookup_cons_eq]
        split <;> rfl
      · rename_i differ
        simp only [lookup_cons_eq, ih]
        split
        · rename_i found
          rw [if_neg (by omega)]
        · rfl

theorem mem_of_lookup {key value : Nat} (found : pairs.lookup key = some value)
    : (key, value) ∈ pairs := by
  obtain ⟨before, after, rfl, -⟩ := List.lookup_eq_some_iff.mp found
  simp

theorem lookup_injective (distinct : (pairs.map Prod.snd).Nodup) {key value : Nat}
    (found : pairs.lookup key = some value) (also : pairs.lookup other = some value)
    : key = other :=
  congrArg Prod.fst
    (List.inj_on_of_nodup_map distinct (mem_of_lookup found) (mem_of_lookup also) rfl)

namespace AddressSpace

def tables (space : AddressSpace) : List Nat :=
  [space.root, space.level2] ++ space.level3.map Prod.snd

end AddressSpace

section Indices

variable {va other : Nat}

theorem level1Index_of_window (low : userBase ≤ va) (high : va < userEnd)
    : level1Index va = level1Index userBase := by
  simp only [level1Index, Nat.shiftRight_eq_div_pow, entries, userBase, userEnd] at *
  omega

theorem level1Index_lt (va : Nat) : level1Index va < entries := Nat.mod_lt _ (by decide)

theorem level2Index_lt (va : Nat) : level2Index va < entries := Nat.mod_lt _ (by decide)

theorem level3Index_lt (va : Nat) : level3Index va < entries := Nat.mod_lt _ (by decide)

theorem UserPage.ext (page : UserPage va) (otherPage : UserPage other)
    (same2 : level2Index va = level2Index other) (same3 : level3Index va = level3Index other)
    : va = other := by
  obtain ⟨aligned, low, high⟩ := page
  obtain ⟨otherAligned, otherLow, otherHigh⟩ := otherPage
  simp only [level2Index, level3Index, Nat.shiftRight_eq_div_pow, entries, userBase, userEnd,
    pageSize] at *
  omega

theorem pageOf_userPage (low : userBase ≤ va) (high : va < userEnd) : UserPage (pageOf va) := by
  simp only [UserPage, pageOf, userBase, userEnd, pageSize] at *
  omega

@[simp] theorem level2Index_pageOf (va : Nat) : level2Index (pageOf va) = level2Index va := by
  simp only [level2Index, pageOf, Nat.shiftRight_eq_div_pow, entries, pageSize]
  omega

@[simp] theorem level3Index_pageOf (va : Nat) : level3Index (pageOf va) = level3Index va := by
  simp only [level3Index, pageOf, Nat.shiftRight_eq_div_pow, entries, pageSize]
  omega

end Indices

----------
-- The walk
----------

namespace Faithful

variable {kernel : Table} {space : AddressSpace} {pages : Pages} {held : List Nat} {ram : Ram}

theorem usable_of_mem (faithful : Faithful kernel space pages held ram) {frame : Nat}
    (listed : frame ∈ space.allFrames)
    : UsableFrame frame :=
  faithful.usable frame (faithful.holdings.mem_iff.mpr listed)

theorem table_mem {index table : Nat} (found : space.level3.lookup index = some table)
    : table ∈ space.tables := by
  have listed := mem_of_lookup found
  exact List.mem_append_right _ (List.mem_map.mpr ⟨_, listed, rfl⟩)

variable {va : Nat} {page : Nat × Access}

variable (faithful : Faithful kernel space pages held ram)
include faithful

theorem page_mem (mapped : pages va = some page)
    : page.1 ∈ space.frames.map Prod.snd := by
  have recorded := faithful.recorded va
  rw [mapped] at recorded
  exact List.mem_map.mpr ⟨_, mem_of_lookup recorded, rfl⟩

theorem page_usable (mapped : pages va = some page)
    : UsableFrame page.1 :=
  faithful.usable_of_mem (List.mem_append_left _ (faithful.page_mem mapped))

theorem page_injective {other : Nat} {otherPage : Nat × Access} (mapped : pages va = some page)
    (otherMapped : pages other = some otherPage) (same : page.1 = otherPage.1)
    : va = other := by
  have distinct : (space.frames.map Prod.snd).Nodup :=
    (List.nodup_append.mp (faithful.holdings.nodup_iff.mp faithful.distinct)).1
  have found := faithful.recorded va
  have otherFound := faithful.recorded other
  rw [mapped] at found
  rw [otherMapped] at otherFound
  exact lookup_injective distinct found (otherFound.trans (congrArg some same.symm))

theorem page_notMem_tables (mapped : pages va = some page)
    : page.1 ∉ space.tables := by
  have apart := (List.nodup_append.mp (faithful.holdings.nodup_iff.mp faithful.distinct)).2.2
  exact fun listed => apart _ (faithful.page_mem mapped) _ listed rfl

omit faithful in
theorem next_table {table : Nat} (usable : UsableFrame table)
    : AddressSpace.next (table ||| valid ||| tableOrPage) = some table := by
  unfold AddressSpace.next
  rw [Nat.or_assoc, usable.and_attributes (by decide), usable.and_mask _ (by decide)]
  exact if_pos (by decide)

/-- The walk finds the page's descriptor, and nothing where nothing is mapped. -/
theorem descriptor_eq (va : Nat)
    : space.descriptor va ram
      = (pages (pageOf va)).map (fun page => page.1 ||| page.2.descriptorBits) := by
  unfold AddressSpace.descriptor
  split
  · rename_i outside
    cases mapped : pages (pageOf va) with
    | none => rfl
    | some page =>
      obtain ⟨⟨-, low, high⟩, -⟩ := faithful.covered (pageOf va) (by simp [mapped])
      refine absurd ⟨?_, ?_⟩ outside <;>
        simp only [pageOf, userBase, userEnd, pageSize] at * <;> omega
  · rename_i inside
    rw [Decidable.not_not] at inside
    have userPage := pageOf_userPage inside.1 inside.2
    have root := faithful.walks.root (level1Index va) (level1Index_lt va)
    rw [if_pos (level1Index_of_window inside.1 inside.2)] at root
    have level2Usable : UsableFrame space.level2 :=
      faithful.usable_of_mem (List.mem_append_right _ (by simp))
    simp only [root, next_table level2Usable, Option.bind_eq_bind, Option.bind_some,
      faithful.walks.level2 _ (level2Index_lt va)]
    cases found : space.level3.lookup (level2Index va) with
    | none =>
      have unmapped : pages (pageOf va) = none := by
        by_contra mapped
        obtain ⟨-, table⟩ := faithful.covered (pageOf va) (Option.isSome_iff_ne_none.mpr mapped)
        rw [level2Index_pageOf, found] at table
        cases table
      rw [unmapped]
      rfl
    | some table =>
      have tableUsable : UsableFrame table :=
        faithful.usable_of_mem (List.mem_append_right _ (table_mem found))
      have entry := faithful.walks.level3 (pageOf va) table userPage (by simpa using found)
      rw [level3Index_pageOf] at entry
      simp only [Option.map_some, Option.getD_some, next_table tableUsable, Option.bind_some,
        entry]
      cases mapped : pages (pageOf va) with
      | none => rfl
      | some page =>
        have usable := faithful.page_usable mapped
        simp only [Option.map_some, Option.getD_some, usable.and_attributes
          (show valid &&& addressMask = 0 by decide)]
        rw [if_pos]
        cases page.2 <;> decide

theorem translate_eq (va : Nat)
    : space.translate va ram = pages.translate va := by
  unfold AddressSpace.translate Pages.translate
  rw [faithful.descriptor_eq]
  cases mapped : pages (pageOf va) with
  | none => rfl
  | some page =>
    have usable := faithful.page_usable mapped
    have bits : page.2.descriptorBits &&& addressMask = 0 := by cases page.2 <;> decide
    simp only [Option.map_some, Option.bind_eq_bind, Option.bind_some,
      Access.fromDescriptor_descriptorBits page.2 usable, usable.and_mask _ bits,
      usable.or_offset (Nat.mod_lt va (by decide))]
    rfl

/-- Only the tables matter to the walk. -/
theorem tables_same {other : Ram} (same : ∀ table ∈ space.tables, Ram.SameFrame table ram other)
    : Faithful kernel space pages held other where
  holdings := faithful.holdings
  distinct := faithful.distinct
  usable := faithful.usable
  recorded := faithful.recorded
  covered := faithful.covered
  walks :=
    { root := fun index inside => by
        rw [(same _ (by simp [AddressSpace.tables])).loadWord inside]
        exact faithful.walks.root index inside
      level2 := fun index inside => by
        rw [(same _ (by simp [AddressSpace.tables])).loadWord inside]
        exact faithful.walks.level2 index inside
      level3 := fun va table userPage found => by
        rw [(same _ (table_mem found)).loadWord (level3Index_lt va)]
        exact faithful.walks.level3 va table userPage found }

/-- What others do doesn't matter. -/
theorem kept {scarce : Prop} {other : Ram} (keeps : (source scarce).Keeps held ram other)
    : Faithful kernel space pages held other :=
  faithful.tables_same (fun table listed =>
    keeps table (faithful.holdings.mem_iff.mpr (List.mem_append_right _ listed)))

end Faithful

end RustyPi.Memory
