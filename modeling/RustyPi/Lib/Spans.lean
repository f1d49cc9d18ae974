import Mathlib.Algebra.BigOperators.Group.List.Basic
import Mathlib.Algebra.GroupWithZero.Nat
import Mathlib.Data.Finset.Card
import Mathlib.Order.Interval.Finset.Nat

/-! Spans of addresses, and lists of them with gaps in between: taking part of one out, and
putting one back so that it joins its neighbours.
-/

namespace RustyPi.Spans

/-- The addresses from `start` on, `size` of them. -/
structure Span where
  start : Nat
  size : Nat
  deriving DecidableEq, Repr

namespace Span

def stop (span : Span) : Nat := span.start + span.size

instance : Membership Nat Span where
  mem span address := span.start ≤ address ∧ address < span.stop

variable {address : Nat}

theorem mem_iff {span : Span} : address ∈ span ↔ span.start ≤ address ∧ address < span.stop :=
  Iff.rfl

instance (address : Nat) (span : Span) : Decidable (address ∈ span) :=
  inferInstanceAs (Decidable (_ ∧ _))

/-- One ends before the other starts. -/
def Apart (left right : Span) : Prop := left.stop ≤ right.start ∨ right.stop ≤ left.start

instance (left right : Span) : Decidable (Apart left right) :=
  inferInstanceAs (Decidable (_ ∨ _))

variable {left right : Span}

theorem Apart.symm (apart : Apart left right) : Apart right left :=
  Or.symm apart

theorem Apart.mono {part other : Span} (apart : Apart left right)
    (partStart : left.start ≤ part.start) (partStop : part.stop ≤ left.stop)
    (otherStart : right.start ≤ other.start) (otherStop : other.stop ≤ right.stop)
    : Apart part other := by
  unfold Apart at apart ⊢
  omega

theorem apart_of_disjoint (some : 0 < left.size) (other : 0 < right.size)
    (disjoint : ∀ address ∈ left, address ∉ right)
    : Apart left right := by
  by_contra meet
  simp only [Apart, stop, not_or, Nat.not_le] at meet
  refine disjoint (max left.start right.start) ?_ ?_ <;> rw [mem_iff, stop] <;> omega

end Span

/-- In order of their addresses, with something between each and the next. -/
def Separated (spans : List Span) : Prop :=
  spans.Pairwise (fun left right => left.stop < right.start)

/-- How many addresses the spans have together. -/
def total (spans : List Span) : Nat := (spans.map Span.size).sum

@[simp] theorem total_nil : total [] = 0 := rfl

@[simp] theorem total_cons (span : Span) (spans : List Span)
    : total (span :: spans) = span.size + total spans :=
  List.sum_cons

@[simp] theorem total_append (left right : List Span)
    : total (left ++ right) = total left + total right := by
  simp [total]

theorem separated_append {left right : List Span}
    : Separated (left ++ right)
      ↔ Separated left ∧ Separated right
        ∧ ∀ first ∈ left, ∀ second ∈ right, first.stop < second.start :=
  List.pairwise_append

variable {spans : List Span}

theorem separated_cons {span : Span}
    : Separated (span :: spans)
      ↔ (∀ other ∈ spans, span.stop < other.start) ∧ Separated spans :=
  List.pairwise_cons

def cover (spans : List Span) : Finset Nat :=
  spans.foldr (fun span rest => Finset.Ico span.start span.stop ∪ rest) ∅

theorem mem_cover : address ∈ cover spans ↔ ∃ span ∈ spans, address ∈ span := by
  induction spans with
  | nil => simp [cover]
  | cons span rest ih =>
    have unfolded : cover (span :: rest) = Finset.Ico span.start span.stop ∪ cover rest := rfl
    simp [unfolded, ih, Span.mem_iff]

theorem card_cover (apart : spans.Pairwise Span.Apart)
    : (cover spans).card = total spans := by
  induction spans with
  | nil => rfl
  | cons span rest ih =>
    obtain ⟨first, apart⟩ := List.pairwise_cons.mp apart
    have disjoint : Disjoint (Finset.Ico span.start span.stop) (cover rest) := by
      rw [Finset.disjoint_left]
      intro address here there
      obtain ⟨other, listed, inside⟩ := mem_cover.mp there
      have order := first other listed
      simp only [Finset.mem_Ico, Span.mem_iff, Span.Apart] at *
      omega
    have unfolded : cover (span :: rest) = Finset.Ico span.start span.stop ∪ cover rest := rfl
    rw [unfolded, Finset.card_union_of_disjoint disjoint, ih apart, total_cons, Nat.card_Ico]
    simp [Span.stop]

/-- So below `bound` there are at most `bound` of them. -/
theorem total_le {bound : Nat} (apart : spans.Pairwise Span.Apart)
    (below : ∀ span ∈ spans, span.stop ≤ bound)
    : total spans ≤ bound := by
  have inside : cover spans ⊆ Finset.range bound := by
    intro address there
    obtain ⟨span, listed, _, stop⟩ := mem_cover.mp there
    have limit := below span listed
    exact Finset.mem_range.mpr (by omega)
  have count := Finset.card_le_card inside
  rwa [card_cover apart, Finset.card_range] at count

section Separated

variable (separated : Separated spans)
include separated

theorem Separated.apart
    : spans.Pairwise Span.Apart :=
  separated.imp (fun order => Or.inl (Nat.le_of_lt order))

/-- A longest run of addresses with a property. -/
structure Longest (has : Nat → Prop) (run : Span) : Prop where
  some : 0 < run.size
  all : ∀ address ∈ run, has address
  ends : ¬ has run.stop
  begins : ∀ address, address + 1 = run.start → ¬ has address

theorem Separated.order {span other : Span} (listed : span ∈ spans) (there : other ∈ spans)
    : span = other ∨ span.stop < other.start ∨ other.stop < span.start := by
  obtain ⟨i, inside, rfl⟩ := List.getElem_of_mem listed
  obtain ⟨j, within, rfl⟩ := List.getElem_of_mem there
  rcases Nat.lt_trichotomy i j with before | rfl | after
  · exact .inr (.inl (List.pairwise_iff_getElem.mp separated i j _ _ before))
  · exact .inl rfl
  · exact .inr (.inr (List.pairwise_iff_getElem.mp separated j i _ _ after))

theorem Separated.stop_not_mem {span other : Span} (listed : span ∈ spans) (there : other ∈ spans)
    : span.stop ∉ other := by
  rw [Span.mem_iff]
  rcases separated.order listed there with rfl | before | after <;> simp only [Span.stop] at * <;>
    omega

/-- A run of addresses that all are in some span lies in one of them. -/
theorem Separated.within_one {run : Span} (some : 0 < run.size)
    (all : ∀ address ∈ run, ∃ span ∈ spans, address ∈ span)
    : ∃ span ∈ spans, span.start ≤ run.start ∧ run.stop ≤ span.stop := by
  obtain ⟨span, listed, low, high⟩ := all run.start ⟨Nat.le_refl _, by simp only [Span.stop]; omega⟩
  refine ⟨span, listed, low, Nat.le_of_not_lt (fun short => ?_)⟩
  obtain ⟨other, there, inside⟩ := all span.stop ⟨Nat.le_of_lt high, short⟩
  exact separated.stop_not_mem listed there inside

/-- Separated spans are the longest runs of their addresses. -/
theorem Separated.longest_iff (some : ∀ span ∈ spans, 0 < span.size)
    {has : Nat → Prop} (exact_ : ∀ address, has address ↔ ∃ span ∈ spans, address ∈ span)
    (run : Span)
    : run ∈ spans ↔ Longest has run := by
  constructor
  · intro listed
    refine ⟨some run listed, fun address there => (exact_ address).mpr ⟨run, listed, there⟩, ?_, ?_⟩
    · rw [exact_]
      rintro ⟨other, there, inside⟩
      exact separated.stop_not_mem listed there inside
    · intro address before
      rw [exact_]
      rintro ⟨other, there, low, high⟩
      rcases separated.order listed there with rfl | after | behind <;>
        simp only [Span.stop] at * <;> omega
  · intro longest
    obtain ⟨span, listed, low, high⟩ := separated.within_one longest.some
      (fun address there => (exact_ address).mp (longest.all address there))
    have ends := longest.ends
    have begins := longest.begins (run.start - 1)
    have positive := longest.some
    rw [exact_] at ends begins
    have sameStart : span.start = run.start := by
      refine Nat.le_antisymm low (Nat.le_of_not_lt (fun earlier => begins (by omega) ⟨span, listed, ?_⟩))
      simp only [Span.mem_iff, Span.stop] at *
      omega
    have sameStop : span.stop = run.stop := by
      refine Nat.le_antisymm (Nat.le_of_not_lt (fun longer => ends ⟨span, listed, ?_⟩)) high
      simp only [Span.mem_iff, Span.stop] at *
      omega
    obtain ⟨start, size⟩ := span
    obtain ⟨runStart, runSize⟩ := run
    obtain rfl : start = runStart := sameStart
    obtain rfl : size = runSize := by simpa [Span.stop] using sameStop
    exact listed

/-- Separated spans are in order, so which there are is all there is to know of them. -/
theorem Separated.ext {other : List Span} (separated' : Separated other)
    (same : ∀ span, span ∈ spans ↔ span ∈ other)
    : spans = other := by
  have distinct {list : List Span} (separated : Separated list) : list.Nodup := by
    refine separated.imp (fun order => ?_)
    rintro rfl
    simp only [Span.stop] at order
    omega
  have perm := (List.perm_ext_iff_of_nodup (distinct separated) (distinct separated')).mpr same
  refine perm.eq_of_pairwise (fun left right _ _ before after => ?_) separated separated'
  simp only [Span.stop] at before after
  omega

end Separated

/-- What is left of `block` before and behind the part taken. -/
def pieces (block taken : Span) : List Span :=
  (if block.start < taken.start then [⟨block.start, taken.start - block.start⟩] else [])
    ++ (if taken.stop < block.stop then [⟨taken.stop, block.stop - taken.stop⟩] else [])

section Pieces

variable {block taken piece : Span}

theorem mem_pieces
    : piece ∈ pieces block taken
      ↔ (block.start < taken.start ∧ piece = ⟨block.start, taken.start - block.start⟩)
        ∨ (taken.stop < block.stop ∧ piece = ⟨taken.stop, block.stop - taken.stop⟩) := by
  unfold pieces
  split_ifs <;> simp [*]

theorem piece_inside (start : block.start ≤ taken.start) (stop : taken.stop ≤ block.stop)
    (listed : piece ∈ pieces block taken)
    : block.start ≤ piece.start ∧ piece.stop ≤ block.stop ∧ 0 < piece.size
      ∧ piece.Apart taken := by
  unfold Span.Apart
  rcases mem_pieces.mp listed with ⟨before, rfl⟩ | ⟨behind, rfl⟩ <;>
    simp only [Span.stop] at * <;> omega

theorem pieces_separated (some : 0 < taken.size) : Separated (pieces block taken) := by
  have order : taken.start < taken.stop := by
    unfold Span.stop
    omega
  unfold pieces
  split_ifs with front behind
  · simpa [Separated, Span.stop, Nat.add_sub_of_le (Nat.le_of_lt front)] using some
  all_goals simp [Separated]

theorem total_pieces (start : block.start ≤ taken.start) (stop : taken.stop ≤ block.stop)
    : total (pieces block taken) + taken.size = block.size := by
  by_cases front : block.start < taken.start <;> by_cases behind : taken.stop < block.stop <;>
    simp only [pieces, front, behind, if_true, if_false, total_append, total_cons, total_nil] <;>
    unfold Span.stop at * <;> omega

theorem mem_carve {before after : List Span} (start : block.start ≤ taken.start)
    (stop : taken.stop ≤ block.stop)
    : (∃ span ∈ before ++ block :: after, address ∈ span)
      ↔ (∃ span ∈ before ++ (pieces block taken ++ after), address ∈ span) ∨ address ∈ taken := by
  have split : address ∈ block
      ↔ (∃ piece ∈ pieces block taken, address ∈ piece) ∨ address ∈ taken := by
    simp only [mem_pieces, or_and_right, exists_or, and_assoc, exists_and_left, exists_eq_left,
      Span.mem_iff, Span.stop] at *
    omega
  simp only [List.mem_append, List.mem_cons, or_and_right, exists_or, exists_eq_left, split]
  exact iff_of_eq (by ac_rfl)

theorem Separated.carve {before after : List Span}
    (separated : Separated (before ++ block :: after)) (some : 0 < taken.size)
    (start : block.start ≤ taken.start) (stop : taken.stop ≤ block.stop)
    : Separated (before ++ (pieces block taken ++ after)) := by
  obtain ⟨earlier, later, between⟩ := separated_append.mp separated
  obtain ⟨beyond, later⟩ := separated_cons.mp later
  refine separated_append.mpr ⟨earlier,
    separated_append.mpr ⟨pieces_separated some, later, fun piece listed other there => ?_⟩,
    fun first there other listed => ?_⟩
  · have inside := piece_inside start stop listed
    have gap := beyond other there
    omega
  · rcases List.mem_append.mp listed with piece | beyond
    · have inside := piece_inside start stop piece
      have gap := between first there block List.mem_cons_self
      omega
    · exact between first there other (List.mem_cons_of_mem _ beyond)

end Pieces

/-- Joins `span` with the first of the spans behind it if they touch. -/
def absorb (span : Span) : List Span → Span × List Span
  | [] => (span, [])
  | next :: rest =>
    if span.stop = next.start then (⟨span.start, span.size + next.size⟩, rest)
    else (span, next :: rest)

/-- Puts `span` behind the spans `before`, joining it with the last of them if they touch. -/
def extend (span : Span) : List Span → List Span
  | [] => [span]
  | [last] =>
    if last.stop = span.start then [⟨last.start, last.size + span.size⟩] else [last, span]
  | first :: rest => first :: extend span rest

/-- Puts `span` between two lists, joining it with its neighbours. -/
def give (before : List Span) (span : Span) (after : List Span) : List Span :=
  extend (absorb span after).1 before ++ (absorb span after).2

section Give

variable {span : Span} {before after : List Span}

theorem absorb_cases (span : Span) (after : List Span)
    : (absorb span after = (span, after) ∧ ∀ next ∈ after.head?, span.stop ≠ next.start)
      ∨ ∃ next rest,
          after = next :: rest
          ∧ span.stop = next.start
          ∧ absorb span after = (⟨span.start, span.size + next.size⟩, rest) := by
  cases after with
  | nil => exact .inl ⟨rfl, by simp⟩
  | cons next rest =>
    by_cases touch : span.stop = next.start
    · exact .inr ⟨next, rest, rfl, touch, if_pos touch⟩
    · exact .inl ⟨if_neg touch, by simpa using touch⟩

/-- `extend` by whether the last span touches, by induction on the list. -/
theorem extend_concat (front : List Span) (last span : Span)
    : extend span (front ++ [last])
      = if last.stop = span.start then front ++ [⟨last.start, last.size + span.size⟩]
        else front ++ [last, span] := by
  induction front with
  | nil => rfl
  | cons first rest ih =>
    have step : extend span (first :: (rest ++ [last])) = first :: extend span (rest ++ [last]) := by
      cases rest <;> rfl
    rw [List.cons_append, step, ih]
    split <;> rfl

theorem total_give : total (give before span after) = total before + span.size + total after := by
  have extended (span : Span) : total (extend span before) = total before + span.size := by
    rcases List.eq_nil_or_concat' before with rfl | ⟨front, last, rfl⟩
    · simp [extend]
    · rw [extend_concat]
      split <;> simp <;> omega
  unfold give
  rw [total_append, extended]
  rcases absorb_cases span after with ⟨same, _⟩ | ⟨next, rest, rfl, _, joined⟩
  · rw [same]
  · rw [joined, total_cons]
    dsimp only
    omega

theorem mem_give
    : (∃ other ∈ give before span after, address ∈ other)
      ↔ (∃ other ∈ before ++ after, address ∈ other) ∨ address ∈ span := by
  have joins (left right : Span) (touch : left.stop = right.start)
      : address ∈ (⟨left.start, left.size + right.size⟩ : Span)
        ↔ address ∈ left ∨ address ∈ right := by
    simp only [Span.mem_iff, Span.stop] at *
    omega
  have extended (span : Span) : (∃ other ∈ extend span before, address ∈ other)
      ↔ (∃ other ∈ before, address ∈ other) ∨ address ∈ span := by
    rcases List.eq_nil_or_concat' before with rfl | ⟨front, last, rfl⟩
    · simp [extend]
    · rw [extend_concat]
      split
      · simp [or_and_right, exists_or, joins _ _ ‹_›, or_assoc]
      · simp [or_and_right, exists_or, or_assoc]
  simp only [give, List.mem_append, or_and_right, exists_or, extended]
  rcases absorb_cases span after with ⟨same, _⟩ | ⟨next, rest, rfl, touch, joined⟩
  · rw [same]
    exact iff_of_eq (by ac_rfl)
  · simp only [joined, joins _ _ touch, List.mem_cons, or_and_right, exists_or, exists_eq_left]
    exact iff_of_eq (by ac_rfl)

/-- A property of the spans that joining two keeps holds of what putting one back leaves. -/
theorem give_all {P : Span → Prop}
    (join
      : ∀ left right,
          P left
          → P right
          → left.stop = right.start
          → P ⟨left.start, left.size + right.size⟩)
    (earlier : ∀ other ∈ before, P other) (here : P span) (later : ∀ other ∈ after, P other)
    : ∀ other ∈ give before span after, P other := by
  have absorbed : P (absorb span after).1 ∧ ∀ other ∈ (absorb span after).2, P other := by
    rcases absorb_cases span after with ⟨same, _⟩ | ⟨next, rest, rfl, touch, joined⟩
    · rw [same]
      exact ⟨here, later⟩
    · rw [joined]
      exact ⟨join span next here (later next List.mem_cons_self) touch,
        fun other listed => later other (List.mem_cons_of_mem _ listed)⟩
  intro other listed
  rcases List.mem_append.mp listed with front | behind
  · rcases List.eq_nil_or_concat' before with rfl | ⟨start, last, rfl⟩
    · obtain rfl := List.mem_singleton.mp front
      exact absorbed.1
    · have atLast := earlier last (by simp)
      rw [extend_concat] at front
      split at front
      · rename_i touch
        rcases List.mem_append.mp front with old | joined
        · exact earlier other (by simp [old])
        · obtain rfl := List.mem_singleton.mp joined
          exact join last _ atLast absorbed.1 touch
      · rcases List.mem_append.mp front with old | new
        · exact earlier other (by simp [old])
        · simp only [List.mem_cons, List.not_mem_nil, or_false] at new
          rcases new with rfl | rfl
          · exact atLast
          · exact absorbed.1
  · exact absorbed.2 other behind

/-- What is absorbed keeps its start and ends before what is left. -/
theorem absorb_spec (separated : Separated after) (later : ∀ other ∈ after, span.stop ≤ other.start)
    : (absorb span after).1.start = span.start
      ∧ Separated (absorb span after).2
      ∧ ∀ other ∈ (absorb span after).2,
          other ∈ after ∧ (absorb span after).1.stop < other.start := by
  rcases absorb_cases span after with ⟨same, apart⟩ | ⟨next, rest, rfl, touch, joined⟩
  · rw [same]
    refine ⟨rfl, separated, fun other listed => ⟨listed, ?_⟩⟩
    show span.stop < other.start
    cases after with
    | nil => cases listed
    | cons next rest =>
      have first := later next List.mem_cons_self
      have apart := apart next rfl
      rcases List.mem_cons.mp listed with rfl | further
      · omega
      · have gap := (separated_cons.mp separated).1 other further
        simp only [Span.stop] at *
        omega
  · rw [joined]
    obtain ⟨beyond, separated⟩ := separated_cons.mp separated
    refine ⟨rfl, separated, fun other listed => ⟨List.mem_cons_of_mem _ listed, ?_⟩⟩
    have gap := beyond other listed
    simp only [Span.stop] at *
    omega

/-- Behind separated spans, a span is put or joined so that they stay separated. -/
theorem extend_spec (separated : Separated before)
    (earlier : ∀ other ∈ before, other.stop ≤ span.start)
    : Separated (extend span before)
      ∧ ∀ other ∈ extend span before, other ∈ before ∨ other.stop = span.stop := by
  rcases List.eq_nil_or_concat' before with rfl | ⟨front, last, rfl⟩
  · exact ⟨List.pairwise_singleton _ _, fun other listed => by simp_all [extend]⟩
  · obtain ⟨front, _, between⟩ := separated_append.mp separated
    have reach := earlier last (by simp)
    rw [extend_concat]
    split
    · rename_i touch
      constructor
      · refine separated_append.mpr ⟨front, List.pairwise_singleton _ _, fun first there other => ?_⟩
        rintro listed
        obtain rfl := List.mem_singleton.mp listed
        exact between first there last (by simp)
      · intro other listed
        rcases List.mem_append.mp listed with old | joined
        · exact .inl (by simp [old])
        · obtain rfl := List.mem_singleton.mp joined
          refine Or.inr ?_
          simp only [Span.stop] at *
          omega
    · rename_i apart
      constructor
      · refine separated_append.mpr ⟨front, ?_, fun first there other listed => ?_⟩
        · simp only [Separated, List.pairwise_cons, List.mem_singleton, forall_eq,
            List.not_mem_nil, false_implies, implies_true, List.Pairwise.nil, and_true]
          omega
        · have gap := between first there last (by simp)
          simp only [List.mem_cons, List.not_mem_nil, or_false] at listed
          rcases listed with rfl | rfl
          · exact gap
          · simp only [Span.stop] at *
            omega
      · intro other listed
        simp only [List.mem_append, List.mem_cons, List.not_mem_nil, or_false] at listed ⊢
        rcases listed with old | rfl | rfl
        · exact .inl (Or.inl old)
        · exact .inl (Or.inr rfl)
        · exact .inr rfl

/-- Joining keeps the gaps: what is put back reaches at most as far as its neighbours. -/
theorem Separated.give (separated : Separated (before ++ after))
    (earlier : ∀ other ∈ before, other.stop ≤ span.start)
    (later : ∀ other ∈ after, span.stop ≤ other.start)
    : Separated (give before span after) := by
  obtain ⟨front, behind, between⟩ := separated_append.mp separated
  obtain ⟨start, rest, beyond⟩ := absorb_spec behind later
  obtain ⟨extended, reach⟩ := extend_spec front (fun other listed =>
    start.symm ▸ earlier other listed)
  refine separated_append.mpr ⟨extended, rest, fun first there second listed => ?_⟩
  obtain ⟨old, gap⟩ := beyond second listed
  rcases reach first there with before | same
  · exact between first before second old
  · rw [same]
    exact gap

end Give

end RustyPi.Spans
