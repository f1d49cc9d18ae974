import RustyPi.Lib.Reach
import RustyPi.Memory.HeapLists

/-! The heap over whole runs: what is free and what was given out, and what the memory it was
given adds up to. The owners of allocations may write anything into them.
-/

namespace RustyPi.Memory

open RustyPi.Spans RustyPi.Reach

/-- The heap with the allocations that are live and the ranges it was given. -/
structure Arena where
  heap : Heap
  live : List (Nat × Layout)
  given : List Span

/-- The memory of an allocation. -/
def blockOf (entry : Nat × Layout) : Span := ⟨entry.1, blockSize entry.2⟩

def range (start stop : Nat) : Span := ⟨start, stop - start⟩

/-- The part of a range that the heap uses: whole blocks inside it. -/
def wholeBlocks (start stop : Nat) : Span :=
  ⟨alignUp start blockAlign, alignDown stop - alignUp start blockAlign⟩

/-- What `Heap::init`'s contract says of a range, that it is memory which can be written: it is not at
the null address, and in the lower half of the address space, which is all that the kernel maps.
-/
def LowRange (start stop : Nat) : Prop := 0 < start ∧ stop ≤ 2 ^ 63

instance (start stop : Nat) : Decidable (LowRange start stop) :=
  inferInstanceAs (Decidable (_ ∧ _))

namespace Arena

inductive Event
  | extend (start stop : Nat)
  | alloc (layout : Layout)
  | dealloc (index : Nat)
  /-- The owner of an allocation writes into it. -/
  | scribble (address : Nat) (block : FreeBlock)

/-- What a caller may do: give memory that is apart from all it gave before, allocate, free what is
live, and write into what is live.
-/
def Permitted (arena : Arena) : Event → Prop
  | .extend start stop =>
    start ≤ stop ∧ stop < wordLimit ∧ ∀ earlier ∈ arena.given, earlier.Apart (range start stop)
  | .alloc _ => True
  | .dealloc index => index < arena.live.length
  | .scribble address _ => ∃ entry ∈ arena.live, address ∈ blockOf entry

instance (arena : Arena) (event : Event) : Decidable (arena.Permitted event) := by
  unfold Permitted
  split <;> infer_instance

/-- The call itself; `none` if it panics or doesn't return. -/
def perform (arena : Arena) : Event → Option Arena
  | .extend start stop =>
    (arena.heap.extend start stop).map (fun heap =>
      { arena with heap, given := range start stop :: arena.given })
  | .alloc layout =>
    (arena.heap.alloc layout).map (fun (heap, address) =>
      if address = 0 then { arena with heap }
      else { arena with heap, live := (address, layout) :: arena.live })
  | .dealloc index =>
    arena.live[index]?.bind (fun (address, layout) =>
      (arena.heap.dealloc address layout).map (fun heap =>
        { arena with heap, live := arena.live.eraseIdx index }))
  | .scribble address block => some { arena with heap := arena.heap.write address block }

def step (arena : Arena) (event : Event) : Option Arena :=
  if arena.Permitted event then arena.perform event else none

/-- The heap takes over `start..stop`, with anything in it. -/
def start (memory : Nat → FreeBlock) (start stop : Nat) : Option Arena :=
  ((Heap.empty memory).init start stop).map (fun heap =>
    { heap, live := [], given := [range start stop] })

/-- Only memory is given. -/
def Low (_ : Arena) : Event → Prop
  | .extend start stop => LowRange start stop
  | _ => True

instance (arena : Arena) (event : Event) : Decidable (arena.Low event) := by
  unfold Low
  split <;> infer_instance

/-- The spans lie in the ranges given. -/
def Within (arena : Arena) (span : Span) : Prop :=
  ∀ address ∈ span, ∃ earlier ∈ arena.given, address ∈ earlier

/-- The addresses the heap can use of the ranges it was given: those of whole blocks in them. -/
def Usable (given : List Span) (address : Nat) : Prop :=
  ∃ earlier ∈ given, address ∈ earlier
    ∧ alignUp earlier.start blockAlign ≤ address ∧ address < alignDown earlier.stop

/-- The free list in memory, the live allocations and the counts fit together. -/
structure Kept (arena : Arena) (free : List Span) : Prop where
  linked : Linked arena.heap.memory arena.heap.head free
  orderly : Orderly free
  whole
    : ∀ entry ∈ arena.live,
        16 ∣ entry.1 ∧ 0 < entry.1 ∧ entry.2.align ∣ entry.1 ∧ (blockOf entry).stop ≤ 2 ^ 63
  disjoint : (arena.live.map blockOf).Pairwise Span.Apart
  apart : ∀ span ∈ free, ∀ entry ∈ arena.live, span.Apart (blockOf entry)
  /-- Each address that can be used is free or in an allocation. -/
  covers
    : ∀ address,
        Usable arena.given address
          ↔ (∃ span ∈ free, address ∈ span) ∨ ∃ entry ∈ arena.live, address ∈ blockOf entry
  accounted : total free + arena.heap.used = arena.heap.total
  used : arena.heap.used = total (arena.live.map blockOf)

section Kept

variable {arena : Arena} {free : List Span}

variable (kept : Kept arena free)
include kept

theorem Kept.freeWithin {span : Span} (listed : span ∈ free)
    : arena.Within span := by
  intro address there
  obtain ⟨earlier, given, inside, _⟩ := (kept.covers address).mpr (.inl ⟨span, listed, there⟩)
  exact ⟨earlier, given, inside⟩

theorem Kept.liveWithin {entry : Nat × Layout} (live : entry ∈ arena.live)
    : arena.Within (blockOf entry) := by
  intro address there
  obtain ⟨earlier, given, inside, _⟩ := (kept.covers address).mpr (.inr ⟨entry, live, there⟩)
  exact ⟨earlier, given, inside⟩

theorem Kept.pairwise
    : (free ++ arena.live.map blockOf).Pairwise Span.Apart := by
  refine List.pairwise_append.mpr ⟨kept.orderly.separated.apart, kept.disjoint, ?_⟩
  intro span listed block there
  obtain ⟨entry, live, rfl⟩ := List.mem_map.mp there
  exact kept.apart span listed entry live

theorem Kept.total_le : arena.heap.total ≤ 2 ^ 63 := by
  have bound : total (free ++ arena.live.map blockOf) ≤ 2 ^ 63 := by
    refine Spans.total_le kept.pairwise (fun span listed => ?_)
    rcases List.mem_append.mp listed with free | live
    · exact (kept.orderly.bounded span free).2
    · obtain ⟨entry, there, rfl⟩ := List.mem_map.mp live
      exact (kept.whole entry there).2.2.2
  rw [total_append, ← kept.used, kept.accounted] at bound
  exact bound

theorem Kept.scribble {address : Nat} (block : FreeBlock)
    (permitted : arena.Permitted (.scribble address block))
    : Kept { arena with heap := arena.heap.write address block } free := by
  obtain ⟨entry, live, inside⟩ := permitted
  refine { kept with linked := kept.linked.update block (fun span listed same => ?_) }
  have apart := kept.apart span listed entry live
  have some := (kept.orderly.aligned span listed).2.2
  rw [Span.mem_iff] at inside
  simp only [Span.Apart, Span.stop] at *
  omega

end Kept

/-- What is left of an orderly list after taking part of a block is orderly. -/
theorem carve_orderly {before after : List Span} {block taken : Span}
    (orderly : Orderly (before ++ block :: after)) (some : 0 < taken.size)
    (start : block.start ≤ taken.start) (stop : taken.stop ≤ block.stop)
    (aligned : 16 ∣ taken.start) (multiple : 16 ∣ taken.size)
    : Orderly (before ++ (pieces block taken ++ after)) := by
  obtain ⟨blockStart, blockSize, _⟩ := orderly.aligned block (by simp)
  obtain ⟨positive, bound⟩ := orderly.bounded block (by simp)
  refine ⟨orderly.separated.carve some start stop, fun span listed => ?_, fun span listed => ?_⟩
  all_goals
    simp only [List.mem_append] at listed
    rcases listed with earlier | piece | later
  · exact orderly.aligned span (by simp [earlier])
  · rcases mem_pieces.mp piece with ⟨front, rfl⟩ | ⟨behind, rfl⟩ <;>
      simp only [Span.stop] at * <;> omega
  · exact orderly.aligned span (by simp [later])
  · exact orderly.bounded span (by simp [earlier])
  · have inside := piece_inside start stop piece
    omega
  · exact orderly.bounded span (by simp [later])

theorem give_orderly {before after : List Span} {span : Span} (orderly : Orderly (before ++ after))
    (fits : Fits (before ++ after) span) (earlier : ∀ other ∈ before, other.stop ≤ span.start)
    (later : ∀ other ∈ after, span.stop ≤ other.start)
    : Orderly (give before span after) := by
  refine ⟨orderly.separated.give earlier later, ?_, ?_⟩
  · refine give_all (fun left right first second touch => ?_)
      (fun other listed => orderly.aligned other (by simp [listed])) fits.aligned
      (fun other listed => orderly.aligned other (by simp [listed]))
    dsimp only
    omega
  · refine give_all (fun left right first second touch => ?_)
      (fun other listed => orderly.bounded other (by simp [listed])) fits.bounded
      (fun other listed => orderly.bounded other (by simp [listed]))
    simp only [Span.stop] at *
    omega

section Calls

variable {arena : Arena} {free : List Span}

theorem take_counts (heap : Heap) (link : Link) (block start size : Nat)
    : (heap.take link block start size).total = heap.total
      ∧ (heap.take link block start size).used = wrap (heap.used + size) := by
  unfold Heap.take
  cases link <;> dsimp only <;> split_ifs <;> exact ⟨rfl, rfl⟩

/-- What stays true when a part of a free block becomes an allocation. -/
theorem Kept.taken {before after : List Span} {block : Span} {entry : Nat × Layout} {heap : Heap}
    (kept : Kept arena (before ++ block :: after))
    (linked : Linked heap.memory heap.head (before ++ (pieces block (blockOf entry) ++ after)))
    (sameTotal : heap.total = arena.heap.total)
    (moreUsed : heap.used = arena.heap.used + blockSize entry.2)
    (start : block.start ≤ entry.1) (stop : (blockOf entry).stop ≤ block.stop)
    (aligned : 16 ∣ entry.1) (divides : entry.2.align ∣ entry.1)
    : Kept { arena with heap, live := entry :: arena.live }
        (before ++ (pieces block (blockOf entry) ++ after)) := by
  obtain ⟨_, positive, multiple, _⟩ := blockSize_spec entry.2
  obtain ⟨low, bound⟩ := kept.orderly.bounded block (by simp)
  obtain ⟨_, later, between⟩ := separated_append.mp kept.orderly.separated
  obtain ⟨beyond, _⟩ := separated_cons.mp later
  have others : ∀ span : Span, block.start ≤ span.start → span.stop ≤ block.stop
      → ∀ other ∈ arena.live, span.Apart (blockOf other) := fun span front behind other live =>
    (kept.apart block (by simp) other live).mono front behind (Nat.le_refl _) (Nat.le_refl _)
  refine ⟨linked, ?_, ?_, ?_, ?_, ?_, ?_, ?_⟩
  · exact carve_orderly kept.orderly positive start stop aligned multiple
  · rintro other (_ | ⟨_, live⟩)
    · exact ⟨aligned, Nat.lt_of_lt_of_le low start, divides, Nat.le_trans stop bound⟩
    · exact kept.whole other live
  · refine List.pairwise_cons.mpr ⟨fun other listed => ?_, kept.disjoint⟩
    obtain ⟨other, live, rfl⟩ := List.mem_map.mp listed
    exact others _ start stop other live
  · intro span listed other live
    simp only [List.mem_append] at listed
    rcases listed with earlier | piece | later
    · rcases List.mem_cons.mp live with rfl | live
      · have gap := between span earlier block List.mem_cons_self
        exact .inl (Nat.le_trans (Nat.le_of_lt gap) start)
      · exact kept.apart span (by simp [earlier]) other live
    · obtain ⟨front, behind, _, apart⟩ := piece_inside start stop piece
      rcases List.mem_cons.mp live with rfl | live
      · exact apart
      · exact others span front behind other live
    · rcases List.mem_cons.mp live with rfl | live
      · have gap := beyond span later
        exact .inr (Nat.le_trans stop (Nat.le_of_lt gap))
      · exact kept.apart span (by simp [later]) other live
  · intro address
    rw [kept.covers, mem_carve start stop]
    simp only [List.mem_cons, or_and_right, exists_or, exists_eq_left, or_assoc]
  · have parts := total_pieces start stop
    have accounted := kept.accounted
    simp only [total_append, total_cons, blockOf, sameTotal, moreUsed] at *
    omega
  · simp only [moreUsed, kept.used, List.map_cons, total_cons, blockOf]
    omega

/-- An allocation takes a part out of a free block, or changes nothing. -/
theorem Kept.alloc (kept : Kept arena free) (layout : Layout)
    : ∃ after, arena.perform (.alloc layout) = some after ∧ ∃ free, Kept after free := by
  have spec := @allocFrom_spec layout arena.heap [] free Heap.maxBlocks kept.linked kept.orderly
    kept.orderly.length_lt
  rw [linkAfter_nil] at spec
  rcases spec with ⟨none, _⟩ | ⟨before, block, after, taken, rfl, size, divides, aligned, start, stop, spec⟩
  · exact ⟨arena, by simp [perform, Heap.alloc, none], free, kept⟩
  obtain ⟨address, _⟩ := taken
  obtain rfl : _ = blockSize layout := size
  obtain ⟨_, positive, _, _⟩ := blockSize_spec layout
  have low := (kept.orderly.bounded block (by simp)).1
  have something : address ≠ 0 := Nat.ne_of_gt (Nat.lt_of_lt_of_le low start)
  have fits : arena.heap.used + blockSize layout < wordLimit := by
    have limit := kept.total_le
    have accounted := kept.accounted
    simp only [total_append, total_cons, wordLimit, Span.stop] at *
    omega
  obtain ⟨sameTotal, moreUsed⟩ :=
    take_counts arena.heap (linkAfter before) block.start address (blockSize layout)
  rw [wrap_of_lt fits] at moreUsed
  refine ⟨_, ?_, _, kept.taken (@take_linked arena.heap before after block (blockOf (address, layout))
    kept.linked kept.orderly positive start stop) sameTotal moreUsed start stop aligned divides⟩
  simp [perform, Heap.alloc, spec, something, blockOf]

/-- Giving back a block that is apart from everything the heap has. -/
theorem Kept.give {before after : List Span} {span : Span} (kept : Kept arena (before ++ after))
    (heap : Heap) (fits : Fits (before ++ after) span)
    (linked : Linked heap.memory heap.head (Spans.give before span after))
    (earlier : ∀ other ∈ before, other.stop ≤ span.start)
    (later : ∀ other ∈ after, span.stop ≤ other.start)
    {live : List (Nat × Layout)} {given : List Span}
    (fewer : ∀ entry ∈ live, entry ∈ arena.live)
    (disjoint : (live.map blockOf).Pairwise Span.Apart)
    (apart : ∀ entry ∈ live, span.Apart (blockOf entry))
    (covers
      : ∀ address,
          Usable given address
            ↔ (∃ other ∈ before ++ after, address ∈ other) ∨ address ∈ span
              ∨ ∃ entry ∈ live, address ∈ blockOf entry)
    (accounted : total (before ++ after) + span.size + heap.used = heap.total)
    (used : heap.used = total (live.map blockOf))
    : Kept { heap, live, given } (Spans.give before span after) := by
  refine ⟨linked, ?_, ?_, disjoint, ?_, ?_, ?_, used⟩
  · exact give_orderly kept.orderly fits earlier later
  · exact fun entry there => kept.whole entry (fewer entry there)
  · refine give_all (fun left right first second touch entry there => ?_)
      (fun other listed entry there => kept.apart other (by simp [listed]) entry (fewer entry there))
      apart
      (fun other listed entry there => kept.apart other (by simp [listed]) entry (fewer entry there))
    have first := first entry there
    have second := second entry there
    have some := (blockSize_spec entry.2).2.1
    simp only [Span.Apart, Span.stop, blockOf] at *
    omega
  · exact fun address => by rw [covers, mem_give, or_assoc]
  · show total (Spans.give before span after) + heap.used = heap.total
    rw [total_give]
    rw [total_append] at accounted
    omega

theorem Kept.dealloc (kept : Kept arena free) {index : Nat} (live : index < arena.live.length)
    : ∃ after, arena.perform (.dealloc index) = some after ∧ ∃ free, Kept after free := by
  have there := List.getElem_mem live
  generalize found : arena.live[index] = entry at there
  have perm : (entry :: arena.live.eraseIdx index).Perm arena.live := by
    rw [← found]
    exact List.getElem_cons_eraseIdx_perm live
  have disjoint : ((entry :: arena.live.eraseIdx index).map blockOf).Pairwise Span.Apart :=
    (perm.map blockOf).symm.pairwise kept.disjoint (fun apart => apart.symm)
  have sum : total ((entry :: arena.live.eraseIdx index).map blockOf) = arena.heap.used := by
    rw [kept.used]
    exact ((perm.map blockOf).map Span.size).sum_eq
  obtain ⟨apart, disjoint⟩ := List.pairwise_cons.mp disjoint
  obtain ⟨aligned, positive, _, bound⟩ := kept.whole entry there
  obtain ⟨_, some, multiple, _⟩ := blockSize_spec entry.2
  have fits : Fits free (blockOf entry) := ⟨⟨aligned, multiple, some⟩, ⟨positive, bound⟩,
    fun other listed => kept.apart other listed entry there⟩
  obtain ⟨before, after, freed, rfl, earlier, later, result, linked, sameTotal, sameUsed⟩ :=
    free_spec kept.linked kept.orderly fits
  have limit := kept.total_le
  have accounted := kept.accounted
  simp only [List.map_cons, total_cons] at sum
  have less : wrapSub freed.used (blockSize entry.2)
      = total ((arena.live.eraseIdx index).map blockOf) := by
    have size : (blockOf entry).size = blockSize entry.2 := rfl
    rw [sameUsed, wrapSub_of_le (by simp only [wordLimit]; omega) (by omega)]
    omega
  refine ⟨_, ?_, _, @Kept.give arena _ _ _ kept
    { freed with used := wrapSub freed.used (blockSize entry.2) } fits linked earlier later _
    arena.given ?_ disjoint ?_ ?_ ?_ less⟩
  · have result : arena.heap.free entry.1 (blockSize entry.2) = Option.some freed := result
    have found : arena.live[index]? = Option.some entry := by
      rw [List.getElem?_eq_getElem live, found]
    simp [perform, Heap.dealloc, found, result]
  · exact fun other listed => List.mem_of_mem_eraseIdx listed
  · exact fun other listed => apart _ (List.mem_map_of_mem listed)
  · intro address
    rw [kept.covers]
    simp only [← perm.mem_iff, List.mem_cons, or_and_right, exists_or, exists_eq_left]
  · have size : (blockOf entry).size = blockSize entry.2 := rfl
    simp only [less, sameTotal]
    omega

theorem aligned_range {start stop : Nat} (low : LowRange start stop) (order : start ≤ stop)
    : 16 ∣ alignUp start blockAlign
      ∧ 16 ∣ alignDown stop
      ∧ start ≤ alignUp start blockAlign
      ∧ alignDown stop ≤ stop := by
  obtain ⟨positive, bound⟩ := low
  obtain ⟨below, _, down⟩ := @alignDown_spec stop (by simp only [wordLimit]; omega)
  obtain ⟨above, _, up⟩ := @alignUp_spec start 4 (by decide) (by simp only [wordLimit]; omega)
  exact ⟨up, down, above, below⟩

theorem usable_cons {given : List Span} {start stop address : Nat} (low : LowRange start stop)
    (order : start ≤ stop)
    : Usable (range start stop :: given) address
      ↔ Usable given address ∨ address ∈ wholeBlocks start stop := by
  obtain ⟨_, _, above, below⟩ := aligned_range low order
  have ends : (range start stop).stop = stop := Nat.add_sub_cancel' order
  have begins : (range start stop).start = start := rfl
  simp only [Usable, List.mem_cons, or_and_right, exists_or, exists_eq_left, ends, begins,
    Span.mem_iff]
  rw [or_comm]
  refine or_congr_right ?_
  simp only [wholeBlocks, Span.stop]
  omega

/-- A new range becomes one free block, or part of one. -/
theorem Kept.extend (kept : Kept arena free) {start stop : Nat} (low : LowRange start stop)
    (permitted : arena.Permitted (.extend start stop))
    : ∃ after, arena.perform (.extend start stop) = some after ∧ ∃ free, Kept after free := by
  obtain ⟨order, _, new⟩ := permitted
  obtain ⟨up, down, above, below⟩ := aligned_range low order
  have ⟨positive, bound⟩ := low
  by_cases nonempty : alignUp start blockAlign < alignDown stop
  · -- Nothing the heap has reaches into the new range.
    have outside : ∀ span : Span, 0 < span.size → arena.Within span
        → span.Apart (wholeBlocks start stop) := by
      intro span some within
      refine Span.apart_of_disjoint some (Nat.sub_pos_of_lt nonempty) (fun address here there => ?_)
      obtain ⟨earlier, listed, inside⟩ := within address here
      have apart := new earlier listed
      simp only [Span.mem_iff, Span.Apart, Span.stop, range, wholeBlocks] at *
      omega
    have fits : Fits free (wholeBlocks start stop) := by
      refine ⟨⟨up, Nat.dvd_sub down up, Nat.sub_pos_of_lt nonempty⟩, ?_, fun other listed => ?_⟩
      · simp only [wholeBlocks, Span.stop]
        omega
      · exact outside other (kept.orderly.aligned other listed).2.2 (kept.freeWithin listed)
    obtain ⟨before, after, freed, rfl, earlier, later, result, linked, sameTotal, sameUsed⟩ :=
      @free_spec free
        { arena.heap with total := wrap (arena.heap.total + (wholeBlocks start stop).size) }
        _ kept.linked kept.orderly fits
    have limit := kept.total_le
    simp only [wholeBlocks] at sameTotal sameUsed result
    rw [wrap_of_lt (by simp only [wordLimit]; omega)] at sameTotal
    refine ⟨_, ?_, _, @Kept.give arena _ _ _ kept freed fits linked earlier later arena.live
      (range start stop :: arena.given) (fun _ listed => listed) kept.disjoint ?_ ?_ ?_ ?_⟩
    · simp [perform, Heap.extend, nonempty, result]
    · exact fun entry there =>
        (outside _ (blockSize_spec entry.2).2.1 (kept.liveWithin there)).symm
    · intro address
      rw [usable_cons low order, kept.covers, or_right_comm, or_assoc]
    · have accounted := kept.accounted
      simp only [wholeBlocks]
      omega
    · exact sameUsed.trans kept.used
  · refine ⟨{ arena with given := range start stop :: arena.given }, ?_, free, ?_⟩
    · simp [perform, Heap.extend, nonempty]
    · refine { kept with covers := fun address => ?_ }
      rw [usable_cons low order, kept.covers, or_iff_left]
      simp only [Span.mem_iff, Span.stop, wholeBlocks]
      omega

/-- Every permitted call returns, and keeps the heap as it should be. -/
theorem Kept.perform (kept : Kept arena free) {event : Event} (permitted : arena.Permitted event)
    (low : arena.Low event)
    : ∃ after, arena.perform event = some after ∧ ∃ free, Kept after free := by
  cases event with
  | extend start stop => exact kept.extend low permitted
  | alloc layout => exact kept.alloc layout
  | dealloc index => exact kept.dealloc permitted
  | scribble address block => exact ⟨_, rfl, free, kept.scribble block permitted⟩

theorem start_eq (memory : Nat → FreeBlock) {start stop : Nat}
    (some : alignUp start blockAlign < alignDown stop) (small : alignDown stop < wordLimit)
    : Arena.start memory start stop
      = Arena.perform { heap := Heap.empty memory, live := [], given := [] } (.extend start stop) := by
  simp only [Arena.start, Arena.perform, Heap.init, Heap.extend, Heap.empty, if_pos some,
    Nat.zero_add, wrap_of_lt (Nat.lt_of_le_of_lt (Nat.sub_le _ _) small),
    wrapSub_of_le small (Nat.le_of_lt some)]

end Calls

/-- The heap's free list and its allocations as they should be. -/
structure Sound (arena : Arena) (free : List Span) : Prop where
  /-- These are the blocks of the free list. -/
  linked : Linked arena.heap.memory arena.heap.head free
  /-- In order, with something between each and the next. -/
  separated : Separated free
  whole : ∀ span ∈ free, 16 ∣ span.start ∧ 16 ∣ span.size ∧ 0 < span.size
  /-- Allocations share no memory with each other and with what is free. -/
  disjoint : (free ++ arena.live.map blockOf).Pairwise Span.Apart
  aligned : ∀ entry ∈ arena.live, entry.2.align ∣ entry.1 ∧ entry.2.size ≤ blockSize entry.2
  /-- Every address of an allocation is one that the heap was given. -/
  within : ∀ entry ∈ arena.live, arena.Within (blockOf entry)
  accounted : total free + arena.heap.used = arena.heap.total
  used : arena.heap.used = total (arena.live.map blockOf)

theorem Kept.sound {arena : Arena} {free : List Span} (kept : Kept arena free)
    : Sound arena free where
  linked := kept.linked
  separated := kept.orderly.separated
  whole := kept.orderly.aligned
  disjoint := kept.pairwise
  aligned := fun entry there => ⟨(kept.whole entry there).2.2.1, (blockSize_spec entry.2).1⟩
  within := fun _ => kept.liveWithin
  accounted := kept.accounted
  used := kept.used

theorem empty_kept (memory : Nat → FreeBlock)
    : Kept { heap := Heap.empty memory, live := [], given := [] } [] :=
  ⟨rfl, ⟨List.Pairwise.nil, by simp, by simp⟩, by simp, List.Pairwise.nil, by simp,
    by simp [Usable], rfl, rfl⟩

theorem start_kept (memory : Nat → FreeBlock) {first last : Nat} (order : first ≤ last)
    (block : alignUp first blockAlign + blockAlign ≤ alignDown last) (low : LowRange first last)
    : ∃ begun, start memory first last = some begun ∧ ∃ free, Kept begun free := by
  obtain ⟨_, _, _, below⟩ := aligned_range low order
  have bound := low.2
  rw [start_eq memory (by simp only [blockAlign] at *; omega) (by simp only [wordLimit]; omega)]
  exact (empty_kept memory).extend low ⟨order, by simp only [wordLimit]; omega, by simp⟩

theorem kept_of_run {begun arena : Arena} (kept : ∃ free, Kept begun free)
    (run : Reaches step Low begun arena)
    : ∃ free, Kept arena free := by
  refine @Reaches.invariant _ _ _ _ _ _ (fun arena => ∃ free, Kept arena free) run kept ?_
  rintro before event after ⟨free, kept⟩ low moved
  unfold step at moved
  split at moved
  · rename_i permitted
    obtain ⟨_, performed, kept⟩ := kept.perform permitted low
    cases performed.symm.trans moved
    exact kept
  · cases moved

/-- Whatever a caller may do returns, and the heap is sound after it, for every range of memory that it
may be given.
-/
theorem sound_of_run (memory : Nat → FreeBlock) {first last : Nat} (order : first ≤ last)
    (block : alignUp first blockAlign + blockAlign ≤ alignDown last) (low : LowRange first last)
    : ∃ begun,
        start memory first last = some begun
        ∧ ∀ arena,
            Reaches step Low begun arena
            → (∃ free, Sound arena free)
              ∧ ∀ event, arena.Permitted event → arena.Low event → (arena.step event).isSome := by
  obtain ⟨begun, started, kept⟩ := start_kept memory order block low
  refine ⟨begun, started, fun arena run => ?_⟩
  obtain ⟨free, kept⟩ := kept_of_run kept run
  refine ⟨⟨free, kept.sound⟩, fun event permitted low => ?_⟩
  obtain ⟨after, performed, _⟩ := kept.perform permitted low
  simp [step, permitted, performed]

/-- Witness: a heap of one page that grows by the next, with an allocation that needs both. -/
theorem sound_of_twoPages
    : ∃ begun arena,
        start (fun _ => ⟨7, 9⟩) 4096 8192 = some begun
        ∧ Reaches step Low begun arena
        ∧ arena.live.length = 2
        ∧ ∃ free, Sound arena free := by
  obtain ⟨begun, started, sound⟩ := sound_of_run (fun _ => ⟨7, 9⟩) (by decide : 4096 ≤ 8192)
    (by decide +kernel) (by decide)
  have executed : (start (fun _ => ⟨7, 9⟩) 4096 8192).any (fun begun =>
      (runAll step Low begun
        [.alloc ⟨100, 64, ⟨6, rfl⟩, by decide⟩, .alloc ⟨5, 1, ⟨0, rfl⟩, by decide⟩,
          .scribble 4208 ⟨1, 2⟩, .dealloc 1, .extend 8192 12288,
          .alloc ⟨8000, 8, ⟨3, rfl⟩, by decide⟩]).any
        (fun arena => arena.live.length = 2)) = true := by
    decide +kernel
  rw [started] at executed
  obtain ⟨arena, run, two⟩ := Reaches.of_check executed
  exact ⟨begun, arena, started, run, by simpa using two, (sound arena run).1⟩

end Arena

end RustyPi.Memory
