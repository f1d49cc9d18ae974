import RustyPi.Memory.Heap

/-! The free list in memory. A list of spans is linked in memory when each span's header is at its
start and points to the next; the heap's operations change the memory as the operations on spans
change the list.
-/

namespace RustyPi.Memory

open Function RustyPi.Spans

----------
-- Blocks linked in memory
----------

/-- From `head`, the headers in memory lead through the spans to `target`. -/
def Path (memory : Nat → FreeBlock) : Nat → List Span → Nat → Prop
  | head, [], target => head = target
  | head, span :: rest, target =>
    head = span.start
    ∧ span.start ≠ 0
    ∧ (memory span.start).size = span.size
    ∧ Path memory (memory span.start).next rest target

/-- The spans are the whole list from `head`. -/
def Linked (memory : Nat → FreeBlock) (head : Nat) (spans : List Span) : Prop :=
  Path memory head spans 0

/-- The pointer that leads on from the last of the spans. -/
def linkAfter (spans : List Span) : Link :=
  match spans.getLast? with
  | none => .head
  | some last => .next last.start

@[simp] theorem linkAfter_nil : linkAfter [] = .head := rfl

@[simp] theorem linkAfter_concat (front : List Span) (last : Span)
    : linkAfter (front ++ [last]) = .next last.start := by
  simp [linkAfter]

section Path

variable {memory other : Nat → FreeBlock} {head target : Nat}

theorem path_append {left right : List Span}
    : Path memory head (left ++ right) target
      ↔ ∃ middle, Path memory head left middle ∧ Path memory middle right target := by
  induction left generalizing head with
  | nil => simp [Path]
  | cons span rest ih =>
    simp only [List.cons_append, Path, ih]
    constructor
    · rintro ⟨start, something, size, middle, left, right⟩
      exact ⟨middle, ⟨start, something, size, left⟩, right⟩
    · rintro ⟨middle, ⟨start, something, size, left⟩, right⟩
      exact ⟨start, something, size, middle, left, right⟩

variable {spans : List Span}

theorem Path.congr (path : Path memory head spans target)
    (same : ∀ span ∈ spans, other span.start = memory span.start)
    : Path other head spans target := by
  induction spans generalizing head with
  | nil => exact path
  | cons span rest ih =>
    obtain ⟨start, something, size, path⟩ := path
    have here := same span List.mem_cons_self
    refine ⟨start, something, here ▸ size, ?_⟩
    rw [here]
    exact ih path (fun other listed => same other (List.mem_cons_of_mem _ listed))

theorem Path.update (path : Path memory head spans target) {address : Nat} (block : FreeBlock)
    (elsewhere : ∀ span ∈ spans, span.start ≠ address)
    : Path (update memory address block) head spans target :=
  path.congr (fun span listed => update_of_ne (elsewhere span listed) ..)

theorem Path.follow {heap : Heap} (path : Path heap.memory heap.head spans target)
    : heap.follow (linkAfter spans) = target := by
  rcases List.eq_nil_or_concat' spans with rfl | ⟨front, last, rfl⟩
  · exact path
  · obtain ⟨middle, _, rfl, _, _, next⟩ := path_append.mp path
    rw [linkAfter_concat]
    exact next

theorem Path.setLink {heap : Heap} (path : Path heap.memory heap.head spans target)
    (separated : Separated spans) (new : Nat)
    : Path (heap.setLink new (linkAfter spans)).memory
        (heap.setLink new (linkAfter spans)).head spans new := by
  rcases List.eq_nil_or_concat' spans with rfl | ⟨front, last, rfl⟩
  · rfl
  · obtain ⟨middle, front_path, rfl, something, size, _⟩ := path_append.mp path
    obtain ⟨_, _, between⟩ := separated_append.mp separated
    rw [linkAfter_concat]
    refine path_append.mpr ⟨last.start, front_path.update _ (fun span listed same => ?_), rfl,
      something, ?_, ?_⟩
    · have gap := between span listed last (by simp)
      simp only [Span.stop] at gap
      omega
    · simp [Heap.setLink, Heap.write, size]
    · simp [Heap.setLink, Heap.write, Path]

end Path

/-- A list the heap may have: in order with gaps, of whole blocks in the lower half of memory. -/
structure Orderly (spans : List Span) : Prop where
  separated : Separated spans
  aligned : ∀ span ∈ spans, 16 ∣ span.start ∧ 16 ∣ span.size ∧ 0 < span.size
  bounded : ∀ span ∈ spans, 0 < span.start ∧ span.stop ≤ 2 ^ 63

theorem Orderly.after_ne {before after : List Span} {block span : Span}
    (orderly : Orderly (before ++ block :: after)) (listed : span ∈ after)
    : block.stop < span.start := by
  have later := (separated_append.mp orderly.separated).2.1
  exact (separated_cons.mp later).1 span listed

theorem wrap_stop {span : Span} (bound : span.stop ≤ 2 ^ 63)
    : wrap (span.start + span.size) = span.stop :=
  wrap_of_lt (by simp only [Span.stop, wordLimit] at *; omega)

----------
-- Taking part of a block
----------

/-- The end of `take`: what is before the part taken stays a block, or the link to it now leads to
the rest.
-/
theorem front_linked {heap : Heap} {before rest : List Span} {block : Span} {next stop : Nat}
    (path : Path heap.memory heap.head before block.start) (separated : Separated before)
    (linked : Path heap.memory next rest 0) (something : block.start ≠ 0)
    (earlier : ∀ span ∈ before, span.start < block.start)
    (later : ∀ span ∈ rest, block.start < span.start)
    : (block.start < stop
        → Linked (heap.write block.start { size := stop - block.start, next }).memory
            (heap.write block.start { size := stop - block.start, next }).head
            (before ++ ⟨block.start, stop - block.start⟩ :: rest))
      ∧ Linked (heap.setLink next (linkAfter before)).memory
          (heap.setLink next (linkAfter before)).head (before ++ rest) := by
  constructor
  · intro front
    refine path_append.mpr ⟨block.start,
      path.update _ (fun span listed => Nat.ne_of_lt (earlier span listed)), rfl, something,
      by simp [Heap.write], ?_⟩
    simp only [Heap.write, update_self]
    exact linked.update _ (fun span listed => Nat.ne_of_gt (later span listed))
  · refine path_append.mpr ⟨next, path.setLink separated next, ?_⟩
    rcases List.eq_nil_or_concat' before with rfl | ⟨front, last, rfl⟩
    · exact linked
    · rw [linkAfter_concat]
      refine linked.update _ (fun span listed same => ?_)
      have order := later span listed
      have before := earlier last (by simp)
      omega

theorem take_linked {heap : Heap} {before after : List Span} {block taken : Span}
    (linked : Linked heap.memory heap.head (before ++ block :: after))
    (orderly : Orderly (before ++ block :: after)) (some : 0 < taken.size)
    (start : block.start ≤ taken.start) (stop : taken.stop ≤ block.stop)
    : Linked (heap.take (linkAfter before) block.start taken.start taken.size).memory
        (heap.take (linkAfter before) block.start taken.start taken.size).head
        (before ++ (pieces block taken ++ after)) := by
  obtain ⟨_, path, rfl, something, size, rest⟩ := path_append.mp linked
  have bound := (orderly.bounded block (by simp)).2
  obtain ⟨separated, -, between⟩ := separated_append.mp orderly.separated
  have earlier : ∀ span ∈ before, span.start < block.start := fun span listed => by
    have gap := between span listed block List.mem_cons_self
    simp only [Span.stop] at gap
    omega
  have later : ∀ span ∈ after, block.start < span.start := fun span listed => by
    have order := orderly.after_ne listed
    simp only [Span.stop] at order
    omega
  unfold Heap.take
  simp only [size, wrap_stop bound, wrap_stop (Nat.le_trans stop bound)]
  by_cases behind : taken.stop < block.stop
  · have order : block.start < taken.stop := by
      unfold Span.stop
      omega
    -- The block's tail becomes a block of its own, which leads to the rest of the list.
    have tail : Path (update heap.memory taken.stop
          { size := block.stop - taken.stop, next := (heap.memory block.start).next })
        taken.stop (⟨taken.stop, block.stop - taken.stop⟩ :: after) 0 := by
      refine ⟨rfl, Nat.ne_of_gt (Nat.zero_lt_of_lt order), by simp, ?_⟩
      rw [update_self]
      exact rest.update _ (fun span listed =>
        Nat.ne_of_gt (Nat.lt_trans behind (orderly.after_ne listed)))
    have halves := @front_linked (heap.write taken.stop
      { size := block.stop - taken.stop, next := (heap.memory block.start).next }) before _ block _
      taken.start (path.update _ (fun span listed => Nat.ne_of_lt (Nat.lt_trans
        (earlier span listed) order))) separated tail something earlier
      (by simpa [order] using later)
    simp only [behind, if_true]
    by_cases front : block.start < taken.start
    · simpa only [pieces, front, behind, if_true, List.cons_append, List.nil_append]
        using halves.1 front
    · simpa only [pieces, front, behind, if_true, if_false, List.cons_append, List.nil_append]
        using halves.2
  · have halves := @front_linked heap before _ block _ taken.start path separated rest something
      earlier later
    simp only [behind, if_false]
    by_cases front : block.start < taken.start
    · simpa only [pieces, front, behind, if_true, if_false, List.cons_append, List.nil_append]
        using halves.1 front
    · simpa only [pieces, front, behind, if_false, List.nil_append] using halves.2

theorem Orderly.length_lt (orderly : Orderly spans) : spans.length < Heap.maxBlocks := by
  have sizes : 16 * spans.length ≤ total spans := by
    have aligned := orderly.aligned
    clear orderly
    induction spans with
    | nil => simp
    | cons span rest ih =>
      obtain ⟨_, multiple, some⟩ := aligned span List.mem_cons_self
      have rest := ih (fun other listed => aligned other (List.mem_cons_of_mem _ listed))
      rw [List.length_cons, total_cons]
      omega
  have bound := total_le orderly.separated.apart (fun span listed => (orderly.bounded span listed).2)
  simp only [Heap.maxBlocks]
  omega

/-- The walk of `alloc` stops at the first block that the allocation fits in, by induction on the
rest of the list.
-/
theorem allocFrom_spec (layout : Layout) {heap : Heap} {before rest : List Span} {fuel : Nat}
    (linked : Linked heap.memory heap.head (before ++ rest)) (orderly : Orderly (before ++ rest))
    (enough : rest.length < fuel)
    : Heap.allocFrom (blockSize layout) (max layout.align blockAlign) fuel heap (linkAfter before)
        = some (heap, 0)
        ∧ (∀ block ∈ rest,
          block.stop < alignUp block.start (max layout.align blockAlign) + blockSize layout)
      ∨ ∃ (skipped : List Span) (block : Span) (after : List Span) (taken : Span),
          rest = skipped ++ block :: after
          ∧ taken.size = blockSize layout
          ∧ layout.align ∣ taken.start
          ∧ 16 ∣ taken.start
          ∧ block.start ≤ taken.start
          ∧ taken.stop ≤ block.stop
          ∧ Heap.allocFrom (blockSize layout) (max layout.align blockAlign) fuel heap
              (linkAfter before)
            = some (heap.take (linkAfter (before ++ skipped)) block.start taken.start taken.size,
                taken.start) := by
  induction rest generalizing before fuel with
  | nil =>
    obtain ⟨fuel, rfl⟩ := Nat.exists_eq_succ_of_ne_zero (Nat.ne_of_gt enough)
    obtain ⟨middle, path, rfl⟩ := path_append.mp linked
    left
    simp [Heap.allocFrom, path.follow]
  | cons block after ih =>
    obtain ⟨fuel, rfl⟩ := Nat.exists_eq_succ_of_ne_zero (Nat.ne_of_gt (Nat.zero_lt_of_lt enough))
    obtain ⟨_, path, rfl, something, size, next⟩ := path_append.mp linked
    obtain ⟨aligned, multiple, some⟩ := orderly.aligned block (by simp)
    have bound := (orderly.bounded block (by simp)).2
    obtain ⟨above, blocks, divides, small⟩ := start_spec layout aligned (by
      simp only [Span.stop] at bound
      omega)
    simp only [Heap.allocFrom, path.follow, something, if_false, wrap_of_lt small, size,
      wrap_stop bound]
    by_cases fits : alignUp block.start (max layout.align blockAlign) + blockSize layout ≤ block.stop
    · refine Or.inr ⟨[], block, after,
        ⟨alignUp block.start (max layout.align blockAlign), blockSize layout⟩, rfl, rfl, divides,
        blocks, above, fits, ?_⟩
      rw [if_pos fits, List.append_nil]
    · rw [if_neg fits]
      have shape : before ++ block :: after = (before ++ [block]) ++ after := by simp
      rw [shape] at linked orderly
      have further := ih linked orderly (by simpa using enough)
      rw [linkAfter_concat] at further
      rcases further with ⟨none, full⟩ | ⟨skipped, found, later, taken, rfl, rest⟩
      · exact .inl ⟨none, List.forall_mem_cons.mpr ⟨Nat.lt_of_not_le fits, full⟩⟩
      · refine Or.inr ⟨block :: skipped, found, later, taken, rfl, ?_⟩
        rwa [List.append_assoc] at rest

----------
-- Putting a block back
----------

/-- The block before the gap behind the spans, 0 if there is none. -/
def prevOf (spans : List Span) : Nat := (spans.getLast?.map Span.start).getD 0

@[simp] theorem prevOf_concat (front : List Span) (last : Span)
    : prevOf (front ++ [last]) = last.start := by
  simp [prevOf]

/-- `findGap` passes the blocks that start before `start`, by induction on the rest. -/
theorem findGap_spec {memory : Nat → FreeBlock} {start next fuel : Nat} {before rest : List Span}
    (linked : Path memory next rest 0) (enough : rest.length < fuel)
    : ∃ passed after behind,
        rest = passed ++ after
        ∧ (∀ span ∈ passed, span.start < start)
        ∧ (∀ span ∈ after.head?, start ≤ span.start)
        ∧ Path memory behind after 0
        ∧ Path memory next passed behind
        ∧ Heap.findGap memory start fuel (prevOf before) next
          = some (prevOf (before ++ passed), behind) := by
  induction rest generalizing before next fuel with
  | nil =>
    obtain ⟨fuel, rfl⟩ := Nat.exists_eq_succ_of_ne_zero (Nat.ne_of_gt enough)
    obtain rfl := linked
    exact ⟨[], [], 0, rfl, by simp, by simp, rfl, rfl, by simp [Heap.findGap]⟩
  | cons span rest ih =>
    obtain ⟨fuel, rfl⟩ := Nat.exists_eq_succ_of_ne_zero (Nat.ne_of_gt (Nat.zero_lt_of_lt enough))
    obtain ⟨rfl, something, size, onward⟩ := linked
    by_cases earlier : span.start < start
    · obtain ⟨passed, after, behind, rfl, before_start, at_start, later, path, found⟩ :=
        @ih _ fuel (before ++ [span]) onward (by simpa using enough)
      refine ⟨span :: passed, after, behind, rfl, ?_, at_start, later,
        ⟨rfl, something, size, path⟩, ?_⟩
      · simpa [earlier] using before_start
      · rw [prevOf_concat] at found
        rw [Heap.findGap, if_pos ⟨something, earlier⟩, found]
        simp
    · refine ⟨[], span :: rest, span.start, rfl, by simp, by simpa using earlier,
        ⟨rfl, something, size, onward⟩, rfl, ?_⟩
      simp [Heap.findGap, earlier]

/-- The test of `free`, which looks at the neighbours only, finds any overlap with the list. -/
theorem overlap_iff {memory : Nat → FreeBlock} {head behind : Nat} {before after : List Span}
    {span : Span} (path : Path memory head before behind) (rest : Path memory behind after 0)
    (orderly : Orderly (before ++ after)) (starts : ∀ other ∈ before, other.start < span.start)
    (first : ∀ other ∈ after.head?, span.start ≤ other.start) (some : 0 < span.size)
    : (span.start < (if prevOf before = 0 then 0
          else wrap (prevOf before + (memory (prevOf before)).size))
        ∨ (behind ≠ 0 ∧ behind < span.stop))
      ↔ ∃ other ∈ before ++ after, ¬ other.Apart span := by
  obtain ⟨front, back, _⟩ := separated_append.mp orderly.separated
  have positive (other : Span) (listed : other ∈ before ++ after) :=
    (orderly.aligned other listed).2.2
  simp only [List.mem_append, or_and_right, exists_or]
  refine or_congr ?_ ?_
  · rcases List.eq_nil_or_concat' before with rfl | ⟨others, last, rfl⟩
    · simp [prevOf]
    · obtain ⟨_, _, rfl, started, size, _⟩ := path_append.mp path
      have start := starts last (by simp)
      have bound := (orderly.bounded last (by simp)).2
      rw [prevOf_concat, if_neg started, size, wrap_stop bound]
      constructor
      · intro inside
        exact ⟨last, by simp, by simp only [Span.Apart, Span.stop] at *; omega⟩
      · rintro ⟨other, listed, touches⟩
        rcases List.mem_append.mp listed with early | here
        · have gap := (separated_append.mp front).2.2 other early last (by simp)
          simp only [Span.Apart, Span.stop] at *
          omega
        · obtain rfl := List.mem_singleton.mp here
          simp only [Span.Apart, Span.stop] at *
          omega
  · cases after with
    | nil =>
      obtain rfl : behind = 0 := rest
      simp
    | cons next later =>
      obtain ⟨rfl, something, _⟩ := rest
      have head := first next rfl
      have nonempty := positive next (by simp)
      constructor
      · rintro ⟨_, overlaps⟩
        exact ⟨next, by simp, by simp only [Span.Apart, Span.stop] at *; omega⟩
      · rintro ⟨other, listed, touches⟩
        refine ⟨something, ?_⟩
        rcases List.mem_cons.mp listed with rfl | further
        · simp only [Span.Apart, Span.stop] at *
          omega
        · have gap := (separated_cons.mp back).1 other further
          simp only [Span.Apart, Span.stop] at *
          omega

/-- The block to free lies in a gap of the list. -/
structure Fits (spans : List Span) (span : Span) : Prop where
  aligned : 16 ∣ span.start ∧ 16 ∣ span.size ∧ 0 < span.size
  bounded : 0 < span.start ∧ span.stop ≤ 2 ^ 63
  apart : ∀ other ∈ spans, other.Apart span

/-- The end of `free`: the block becomes part of the one before it, or one of its own that the one
before it (or the head) leads to.
-/
theorem extend_linked {heap : Heap} {before rest : List Span} {grown : Span} {behind next : Nat}
    (path : Path heap.memory heap.head before behind) (separated : Separated before)
    (linked : Path heap.memory next rest 0) (something : grown.start ≠ 0)
    (bound : grown.stop ≤ 2 ^ 63)
    (earlier : ∀ span ∈ before, span.stop ≤ grown.start ∧ 0 < span.size)
    (later : ∀ span ∈ rest, grown.start < span.start)
    : ∃ freed,
        (if prevOf before ≠ 0
            ∧ (if prevOf before = 0 then 0
                else wrap (prevOf before + (heap.memory (prevOf before)).size)) = grown.start then
          some (heap.write (prevOf before)
            { size := wrap ((heap.memory (prevOf before)).size + grown.size), next })
        else
          some ((heap.write grown.start { size := grown.size, next }).setLink grown.start
            (if prevOf before = 0 then .head else .next (prevOf before))))
        = some freed
        ∧ Linked freed.memory freed.head (Spans.extend grown before ++ rest)
        ∧ freed.total = heap.total
        ∧ freed.used = heap.used := by
  rcases List.eq_nil_or_concat' before with rfl | ⟨front, last, rfl⟩
  · refine ⟨_, if_neg (by simp [prevOf]), ?_, rfl, rfl⟩
    refine ⟨rfl, something, by simp [Heap.setLink, Heap.write, prevOf], ?_⟩
    simp only [prevOf, Heap.setLink, Heap.write, List.getLast?_nil, Option.map_none, Option.getD_none,
      if_true, update_self]
    exact linked.update _ (fun span listed => Nat.ne_of_gt (later span listed))
  · obtain ⟨_, front_path, rfl, started, size, _⟩ := path_append.mp path
    obtain ⟨reach, nonempty⟩ := earlier last (by simp)
    have lastEnd : wrap (last.start + (heap.memory last.start).size) = last.stop := by
      rw [size]
      exact wrap_stop (by simp only [Span.stop] at *; omega)
    have front_ne : ∀ span ∈ front, span.start < last.start := fun span listed => by
      have gap := (separated_append.mp separated).2.2 span listed last (by simp)
      simp only [Span.stop] at gap
      omega
    rw [prevOf_concat, extend_concat]
    simp only [started, if_false, lastEnd, ne_eq, not_false_iff, true_and]
    by_cases touch : last.stop = grown.start
    · rw [if_pos touch, if_pos touch]
      refine ⟨_, rfl, ?_, rfl, rfl⟩
      rw [List.append_assoc]
      refine path_append.mpr ⟨last.start, front_path.update _ (fun span listed => ?_), rfl, started,
        ?_, ?_⟩
      · exact Nat.ne_of_lt (front_ne span listed)
      · simp only [Heap.write, update_self, size]
        exact wrap_of_lt (by simp only [Span.stop, wordLimit] at *; omega)
      · simp only [Heap.write, update_self]
        refine linked.update _ (fun span listed same => ?_)
        have order := later span listed
        simp only [Span.stop] at *
        omega
    · rw [if_neg touch, if_neg touch]
      refine ⟨_, rfl, ?_, rfl, rfl⟩
      have lastBefore : last.start < grown.start := by
        simp only [Span.stop] at reach
        omega
      have written : Path (heap.write grown.start { size := grown.size, next }).memory
          (heap.write grown.start { size := grown.size, next }).head (front ++ [last]) behind := by
        refine path.update _ (fun span listed same => ?_)
        obtain ⟨reach, nonempty⟩ := earlier span listed
        simp only [Span.stop] at reach
        omega
      have linkedTo := written.setLink separated grown.start
      rw [linkAfter_concat] at linkedTo
      have shape : front ++ [last, grown] ++ rest = (front ++ [last]) ++ grown :: rest := by simp
      rw [shape]
      refine path_append.mpr ⟨grown.start, linkedTo, rfl, something, ?_, ?_⟩
      · simp [Heap.setLink, Heap.write, update_of_ne (Nat.ne_of_gt lastBefore)]
      · simp only [Heap.setLink, Heap.write, update_of_ne (Nat.ne_of_gt lastBefore),
          update_self]
        exact (linked.update _ (fun span listed => Nat.ne_of_gt (later span listed))).update _
          (fun span listed => Nat.ne_of_gt (Nat.lt_trans lastBefore (later span listed)))

/-- The middle of `free`: the block takes in the one behind it if they touch. -/
theorem absorb_linked {memory : Nat → FreeBlock} {behind : Nat} {after : List Span} {span : Span}
    (path : Path memory behind after 0) (bound : span.stop ≤ 2 ^ 63)
    (bounded : ∀ other ∈ after, other.stop ≤ 2 ^ 63)
    : ∃ next,
        (if behind ≠ 0 ∧ span.stop = behind then
          (wrap (span.size + (memory behind).size), (memory behind).next)
        else (span.size, behind))
        = ((absorb span after).1.size, next)
        ∧ Path memory next (absorb span after).2 0
        ∧ (absorb span after).1.stop ≤ 2 ^ 63 := by
  rcases absorb_cases span after with ⟨same, apart⟩ | ⟨next, rest, rfl, touch, joined⟩
  · rw [same]
    refine ⟨behind, if_neg (fun both => ?_), path, bound⟩
    cases after with
    | nil => exact both.1 path
    | cons next rest => exact apart next rfl (both.2.trans path.1)
  · obtain ⟨rfl, something, size, path⟩ := path
    have limit := bounded next List.mem_cons_self
    rw [joined]
    refine ⟨_, ?_, path, ?_⟩
    · rw [if_pos ⟨something, touch⟩, size, wrap_of_lt]
      simp only [Span.stop, wordLimit] at *
      omega
    · simp only [Span.stop] at *
      omega

/-- Freeing puts the block in its gap, joined with its neighbours. -/
theorem free_spec {heap : Heap} {span : Span} (linked : Linked heap.memory heap.head spans)
    (orderly : Orderly spans) (fits : Fits spans span)
    : ∃ before after freed,
        spans = before ++ after
        ∧ (∀ other ∈ before, other.stop ≤ span.start)
        ∧ (∀ other ∈ after, span.stop ≤ other.start)
        ∧ heap.free span.start span.size = some freed
        ∧ Linked freed.memory freed.head (give before span after)
        ∧ freed.total = heap.total
        ∧ freed.used = heap.used := by
  obtain ⟨positive, bound⟩ := fits.bounded
  obtain ⟨_, _, nonempty⟩ := fits.aligned
  obtain ⟨before, after, behind, rfl, starts, first, later_path, path, found⟩ :=
    @findGap_spec heap.memory span.start heap.head Heap.maxBlocks [] spans linked orderly.length_lt
  obtain ⟨front, back, between⟩ := separated_append.mp orderly.separated
  have earlier : ∀ other ∈ before, other.stop ≤ span.start := by
    intro other listed
    have start := starts other listed
    have apart := fits.apart other (List.mem_append_left _ listed)
    simp only [Span.Apart, Span.stop] at *
    omega
  have later : ∀ other ∈ after, span.stop ≤ other.start := by
    intro other listed
    have start : span.start ≤ other.start := by
      cases after with
      | nil => cases listed
      | cons next rest =>
        have head := first next rfl
        rcases List.mem_cons.mp listed with rfl | further
        · exact head
        · have gap := (separated_cons.mp back).1 other further
          simp only [Span.stop] at gap
          omega
    have apart := fits.apart other (List.mem_append_right _ listed)
    have some := (orderly.aligned other (List.mem_append_right _ listed)).2.2
    simp only [Span.Apart, Span.stop] at *
    omega
  obtain ⟨next, absorbed, rest, reach⟩ := absorb_linked later_path bound
    (fun other listed => (orderly.bounded other (List.mem_append_right _ listed)).2)
  obtain ⟨start, _, beyond⟩ := absorb_spec back later
  have quiet : ¬ (span.start < (if prevOf before = 0 then 0
        else wrap (prevOf before + (heap.memory (prevOf before)).size))
      ∨ (behind ≠ 0 ∧ behind < span.stop)) := by
    rw [overlap_iff path later_path orderly starts first nonempty]
    rintro ⟨other, listed, touches⟩
    exact touches (fits.apart other listed)
  obtain ⟨freed, result, linked, total, used⟩ := extend_linked path front rest
    (by rw [start]; exact Nat.ne_of_gt positive) reach
    (fun other listed => ⟨start ▸ earlier other listed,
      (orderly.aligned other (List.mem_append_left _ listed)).2.2⟩)
    (fun other listed => by
      have gap := (beyond other listed).2
      simp only [Span.stop] at gap
      omega)
  refine ⟨before, after, freed, rfl, earlier, later, ?_, linked, total, used⟩
  rw [start] at result
  have found : Heap.findGap heap.memory span.start Heap.maxBlocks 0 heap.head
      = some (prevOf before, behind) := found
  simp only [Heap.free, found, Option.bind_some, wrap_stop bound, if_neg quiet, absorbed]
  exact result

end RustyPi.Memory
