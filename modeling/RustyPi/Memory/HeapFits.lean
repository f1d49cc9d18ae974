import RustyPi.Elf.Parsing
import RustyPi.Memory.HeapRuns

/-! The free list is all that is free, in blocks as long as they can be: an allocation fails only if
it fits nowhere, and freeing finds any overlap. So the allocator of `rustypi-user/src/heap.rs`, which
asks for more memory when an allocation fails, fails only if it gets none.
-/

namespace RustyPi.Memory

open RustyPi.Spans RustyPi.Reach

/-- A block has room for an allocation. -/
def Room (layout : Layout) (block : Span) : Prop :=
  ∃ address, layout.align ∣ address ∧ block.start ≤ address
    ∧ address + blockSize layout ≤ block.stop

theorem alignUp_le {value shift other : Nat} (bound : shift ≤ 63)
    (small : value + 2 ^ shift ≤ wordLimit) (above : value ≤ other) (multiple : 2 ^ shift ∣ other)
    : alignUp value (2 ^ shift) ≤ other := by
  obtain ⟨_, near, divides⟩ := alignUp_spec bound small
  refine Nat.le_of_not_lt (fun beyond => ?_)
  have step := Nat.le_of_dvd (by omega) (Nat.dvd_sub divides multiple)
  omega

theorem fits_of_room {layout : Layout} {block : Span}
    (whole : 16 ∣ block.start ∧ 16 ∣ block.size ∧ 0 < block.size) (bound : block.stop ≤ 2 ^ 63)
    (room : Room layout block)
    : alignUp block.start (max layout.align blockAlign) + blockSize layout ≤ block.stop := by
  obtain ⟨address, multiple, above, stop⟩ := room
  suffices alignUp block.start (max layout.align blockAlign) ≤ address by omega
  obtain ⟨shift, power, _, most, _⟩ := align_power layout
  have limit : 2 ^ shift ≤ 2 ^ 63 := Nat.pow_le_pow_right (by decide) most
  have small : block.start + 2 ^ shift ≤ wordLimit := by
    simp only [Span.stop, wordLimit] at *
    omega
  rcases Nat.le_total layout.align blockAlign with low | high
  · have same : 2 ^ shift = blockAlign := power ▸ max_eq_right low
    rw [power]
    exact Nat.le_trans (alignUp_le most small (Nat.le_refl _) (same ▸ whole.1)) above
  · have same : 2 ^ shift = layout.align := power ▸ max_eq_left high
    rw [power]
    exact alignUp_le most small above (same ▸ multiple)

section List

variable {heap : Heap} {free : List Span} (linked : Linked heap.memory heap.head free)
  (orderly : Orderly free)

include linked orderly

/-- An allocation fails and changes nothing if no block has room for it, and else succeeds. -/
theorem alloc_cases (layout : Layout)
    : (heap.alloc layout = some (heap, 0) ∧ ∀ block ∈ free, ¬ Room layout block)
      ∨ (∃ after address, heap.alloc layout = some (after, address) ∧ address ≠ 0)
        ∧ ∃ block ∈ free, Room layout block := by
  rcases @allocFrom_spec layout heap [] free Heap.maxBlocks linked orderly orderly.length_lt with
    ⟨none, full⟩ | ⟨before, block, after, taken, rfl, size, divides, _, start, stop, found⟩
  · refine .inl ⟨none, fun block listed room => ?_⟩
    have fits := fits_of_room (orderly.aligned block listed) (orderly.bounded block listed).2 room
    exact Nat.not_le_of_lt (full block listed) fits
  · have low := (orderly.bounded block (by simp)).1
    refine .inr ⟨⟨_, _, found, Nat.ne_of_gt (Nat.lt_of_lt_of_le low start)⟩, block, by simp,
      taken.start, divides, start, ?_⟩
    rw [← size]
    exact stop

/-- Freeing panics exactly if some of the range is free. -/
theorem free_eq_none_iff {span : Span} (some : 0 < span.size) (small : span.stop < wordLimit)
    : heap.free span.start span.size = none
      ↔ ∃ address ∈ span, ∃ other ∈ free, address ∈ other := by
  obtain ⟨before, after, behind, rfl, starts, first, rest, path, found⟩ :=
    @findGap_spec heap.memory span.start heap.head Heap.maxBlocks [] free linked orderly.length_lt
  have found : Heap.findGap heap.memory span.start Heap.maxBlocks 0 heap.head
      = Option.some (prevOf before, behind) := found
  have stopEq : wrap (span.start + span.size) = span.stop := wrap_of_lt small
  have shared : (∃ address ∈ span, ∃ other ∈ before ++ after, address ∈ other)
      ↔ ∃ other ∈ before ++ after, ¬ other.Apart span := by
    constructor
    · rintro ⟨address, inside, other, listed, there⟩
      refine ⟨other, listed, ?_⟩
      simp only [Span.mem_iff, Span.Apart] at *
      omega
    · rintro ⟨other, listed, touches⟩
      have positive := (orderly.aligned other listed).2.2
      refine ⟨max span.start other.start, ?_, other, listed, ?_⟩ <;>
        simp only [Span.mem_iff, Span.Apart, Span.stop] at * <;> omega
  rw [shared, ← overlap_iff path rest orderly starts first some]
  simp only [Heap.free, found, Option.bind_some, stopEq]
  generalize (if prevOf before = 0 then 0
    else wrap (prevOf before + (heap.memory (prevOf before)).size)) = prevEnd
  by_cases overlaps : span.start < prevEnd ∨ (behind ≠ 0 ∧ behind < span.stop)
  · rw [if_pos overlaps]
    exact iff_of_true rfl overlaps
  · rw [if_neg overlaps]
    exact iff_of_false (by split_ifs <;> simp) overlaps

end List

/-- Where an allocation goes is decided by the list alone, by induction on the walk. -/
theorem allocFrom_address {one other : Heap} {link link' : Link} {free : List Span} (size align : Nat)
    (path : Linked one.memory (one.follow link) free)
    (path' : Linked other.memory (other.follow link') free) (fuel : Nat)
    : (Heap.allocFrom size align fuel one link).map Prod.snd
      = (Heap.allocFrom size align fuel other link').map Prod.snd := by
  induction fuel generalizing link link' free with
  | zero => rfl
  | succ fuel ih =>
    cases free with
    | nil =>
      have last : one.follow link = 0 := path
      have last' : other.follow link' = 0 := path'
      simp [Heap.allocFrom, last, last']
    | cons block after =>
      obtain ⟨start, something, size, next⟩ := path
      obtain ⟨start', -, size', next'⟩ := path'
      simp only [Heap.allocFrom, start, start', something, size, size', if_false]
      split
      · rfl
      · exact ih next next'

namespace Arena

/-- The heap was given the address, and no allocation has it. -/
def Free (arena : Arena) (address : Nat) : Prop :=
  Usable arena.given address ∧ ∀ entry ∈ arena.live, address ∉ blockOf entry

theorem Kept.free_iff {arena : Arena} {free : List Span} (kept : Kept arena free) (address : Nat)
    : arena.Free address ↔ ∃ span ∈ free, address ∈ span := by
  rw [Free, kept.covers]
  constructor
  · rintro ⟨listed | ⟨entry, live, there⟩, none⟩
    · exact listed
    · exact absurd there (none entry live)
  · rintro ⟨span, listed, there⟩
    refine ⟨.inl ⟨span, listed, there⟩, fun entry live inside => ?_⟩
    have apart := kept.apart span listed entry live
    simp only [Span.mem_iff, Span.Apart] at *
    omega

theorem Kept.longest_iff {arena : Arena} {free : List Span} (kept : Kept arena free) (run : Span)
    : run ∈ free ↔ Longest arena.Free run :=
  kept.orderly.separated.longest_iff (fun span listed => (kept.orderly.aligned span listed).2.2)
    kept.free_iff run

/-- While only ranges of the lower half of the address space are given, the free list is exactly the
longest runs of free memory: of all that was given, once nothing is allocated. An allocation fails
exactly if no such run has room for it, and freeing panics exactly on memory that is free.
-/
theorem runs_of_run (memory : Nat → FreeBlock) {first last : Nat} (order : first ≤ last)
    (block : alignUp first blockAlign + blockAlign ≤ alignDown last) (low : LowRange first last)
    : ∃ begun,
        start memory first last = some begun
        ∧ ∀ arena,
            Reaches step Low begun arena
            → (∃ free,
                Sound arena free
                ∧ (∀ run, run ∈ free ↔ Longest arena.Free run)
                ∧ (arena.live = [] → ∀ run, run ∈ free ↔ Longest (Usable arena.given) run))
              ∧ (∀ layout,
                  (∃ heap, arena.heap.alloc layout = some (heap, 0))
                    ↔ ¬ ∃ run, Longest arena.Free run ∧ Room layout run)
              ∧ ∀ span : Span,
                  0 < span.size
                  → span.stop < wordLimit
                  → (arena.heap.free span.start span.size = none
                      ↔ ∃ address ∈ span, arena.Free address) := by
  obtain ⟨begun, started, kept⟩ := start_kept memory order block low
  refine ⟨begun, started, fun arena run => ?_⟩
  obtain ⟨free, kept⟩ := kept_of_run kept run
  refine ⟨⟨free, kept.sound, kept.longest_iff, fun none run => ?_⟩, fun layout => ?_,
    fun span some small => ?_⟩
  · rw [kept.longest_iff]
    have same : arena.Free = Usable arena.given := by
      funext address
      simp [Free, none]
    rw [same]
  · simp only [← kept.longest_iff]
    rcases alloc_cases kept.linked kept.orderly layout with ⟨null, full⟩ | ⟨found, room⟩
    · exact ⟨fun _ ⟨block, listed, room⟩ => full block listed room, fun _ => ⟨_, null⟩⟩
    · obtain ⟨after, address, found, something⟩ := found
      refine ⟨fun ⟨heap, null⟩ => ?_, fun none => absurd room none⟩
      rw [found] at null
      cases null
      exact absurd rfl something
  · simp only [kept.free_iff]
    exact free_eq_none_iff kept.linked kept.orderly some small

/-- Witness: a heap of one page, of which freeing any part panics. -/
theorem runs_of_onePage
    : ∃ begun,
        start (fun _ => ⟨7, 9⟩) 4096 8192 = some begun
        ∧ (begun.heap.free 5000 8 = none ↔ ∃ address ∈ (⟨5000, 8⟩ : Span), begun.Free address) := by
  obtain ⟨begun, started, all⟩ := runs_of_run (fun _ => ⟨7, 9⟩) (by decide : 4096 ≤ 8192)
    (by decide +kernel) (by decide)
  exact ⟨begun, started, (all begun .start).2.2 ⟨5000, 8⟩ (by decide) (by decide)⟩

/-- A heap with no memory yet. -/
def blank (memory : Nat → FreeBlock) : Arena := { heap := .empty memory, live := [], given := [] }

/-- What an allocation gets depends only on which ranges the heap was given and which allocations are
live, not on the order of the calls, on what was freed, or on what was in the memory.
-/
theorem alloc_of_live {memory memory' : Nat → FreeBlock} {one other : Arena}
    (run : Reaches step Low (blank memory) one) (run' : Reaches step Low (blank memory') other)
    (given : one.given.Perm other.given) (live : one.live.Perm other.live) (layout : Layout)
    : (one.heap.alloc layout).map Prod.snd = (other.heap.alloc layout).map Prod.snd := by
  obtain ⟨free, kept⟩ := kept_of_run ⟨[], empty_kept memory⟩ run
  obtain ⟨free', kept'⟩ := kept_of_run ⟨[], empty_kept memory'⟩ run'
  have same : one.Free = other.Free := by
    funext address
    simp only [Free, Usable, given.mem_iff, live.mem_iff]
  obtain rfl : free = free' := by
    refine kept.orderly.separated.ext kept'.orderly.separated (fun block => ?_)
    rw [kept.longest_iff, kept'.longest_iff, same]
  exact allocFrom_address _ _ kept.linked kept'.linked _

/-- Witness: a block that was freed leaves no trace. The one heap only allocates the block that is live
in both, the other has allocated and freed another one behind it.
-/
theorem alloc_of_live_freed
    : ∃ one other : Arena,
        Reaches step Low (blank (fun _ => ⟨7, 9⟩)) one
        ∧ Reaches step Low (blank (fun _ => ⟨0, 0⟩)) other
        ∧ (one.given = [⟨4096, 4096⟩] ∧ one.live = [(4096, ⟨100, 8, ⟨3, rfl⟩, by decide⟩)])
        ∧ (other.given = one.given ∧ other.live = one.live)
        ∧ ∀ layout, (one.heap.alloc layout).map Prod.snd = (other.heap.alloc layout).map Prod.snd := by
  have reached {memory : Nat → FreeBlock} {events : List Event}
      (executed : (runAll step Low (blank memory) events).any (fun arena =>
        arena.given = [⟨4096, 4096⟩] ∧ arena.live = [(4096, ⟨100, 8, ⟨3, rfl⟩, by decide⟩)]) = true)
      : ∃ arena, Reaches step Low (blank memory) arena ∧ arena.given = [⟨4096, 4096⟩]
          ∧ arena.live = [(4096, ⟨100, 8, ⟨3, rfl⟩, by decide⟩)] := by
    obtain ⟨arena, run, found⟩ := Reaches.of_check executed
    exact ⟨arena, run, of_decide_eq_true found⟩
  obtain ⟨one, run, given, live⟩ := @reached (fun _ => ⟨7, 9⟩)
    [.extend 4096 8192, .alloc ⟨100, 8, ⟨3, rfl⟩, by decide⟩] (by decide +kernel)
  obtain ⟨other, run', given', live'⟩ := @reached (fun _ => ⟨0, 0⟩)
    [.extend 4096 8192, .alloc ⟨100, 8, ⟨3, rfl⟩, by decide⟩, .alloc ⟨5, 64, ⟨6, rfl⟩, by decide⟩,
      .dealloc 0] (by decide +kernel)
  have same : other.given = one.given ∧ other.live = one.live := by
    rw [given', live', given, live]
    exact ⟨rfl, rfl⟩
  exact ⟨one, other, run, run', ⟨given, live⟩, same,
    alloc_of_live run run' (by rw [same.1]) (by rw [same.2])⟩

end Arena

end RustyPi.Memory
