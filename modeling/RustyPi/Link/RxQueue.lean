import RustyPi.Lib.Reach
import RustyPi.Lib.RingBuffer

/-! The receive queue of `src/drivers/uart.rs`, between the UART's interrupt handler and the link
task. A step is one access of one of them to memory that both use, so that pushes and pops interleave
at any of those.
-/

namespace RustyPi.Link

def rxQueueLen : Nat := 1024

/-- The error bits of the data register. -/
def uartDrErrors : UInt16 := 0xF00

/-- The queue's memory: data register values, where to write and to read next, and whether bytes were
dropped.
-/
structure RxQueue where
  entries : Nat → UInt16
  head : Nat
  tail : Nat
  overflowed : Bool

/-- Where the interrupt handler is in `push`. -/
inductive Pushing
  | idle
  /-- With `head` loaded: about to load `tail`. -/
  | loaded (head : Nat) (entry : UInt16)
  /-- There was no room: about to flag that. -/
  | full (entry : UInt16)
  /-- About to write the slot. -/
  | writing (head : Nat) (entry : UInt16)
  /-- About to publish the slot. -/
  | written (head : Nat) (entry : UInt16)
  deriving DecidableEq, Repr

/-- Where the link task is in `pop`. -/
inductive Popping
  | idle
  /-- No overflow was flagged: about to load `tail`. -/
  | unflagged
  /-- About to load `head`. -/
  | loaded (tail : Nat)
  /-- About to read the slot. -/
  | reading (tail : Nat)
  /-- About to release the slot. -/
  | read (tail : Nat) (entry : UInt16)
  deriving DecidableEq, Repr

/-- What came of a push. -/
inductive Pushed
  | kept (entry : UInt16)
  | dropped (entry : UInt16)
  deriving DecidableEq, Repr

/-- What a pop took: an entry, or the mark that bytes were lost. -/
inductive Popped
  | taken (entry : UInt16)
  | lost
  deriving DecidableEq, Repr

/-- The data register value that `pop` returns for it. -/
def Popped.value : Popped → UInt16
  | .taken entry => entry
  | .lost => uartDrErrors

/-- What `receive_checked` makes of a value: a byte, or a damaged one. -/
def receiveChecked (value : UInt16) : Except UInt8 UInt8 :=
  if value &&& uartDrErrors ≠ 0 then .error value.toUInt8 else .ok value.toUInt8

-- The link task sees the mark as a damaged byte.
example : receiveChecked Popped.lost.value = .error 0 := by decide

/-- The queue with its two users, and what has been pushed and popped. -/
structure Receiving where
  queue : RxQueue
  push : Pushing
  pop : Popping
  pushed : List Pushed
  popped : List Popped

namespace Receiving

/-- `RX_QUEUE` at boot. -/
def start : Receiving :=
  { queue := { entries := fun _ => 0, head := 0, tail := 0, overflowed := false }
    push := .idle
    pop := .idle
    pushed := []
    popped := [] }

inductive Event
  /-- The interrupt handler pushes an entry. -/
  | push (entry : UInt16)
  /-- It goes on with that. -/
  | pushOn
  /-- The link task pops. -/
  | pop
  /-- It goes on with that. -/
  | popOn
  deriving DecidableEq, Repr

/-- The first access of a push. -/
def beginPush (state : Receiving) (entry : UInt16) : Option Receiving :=
  match state.push with
  | .idle => some { state with push := .loaded state.queue.head entry }
  | _ => none

def pushOn (state : Receiving) : Option Receiving :=
  match state.push with
  | .idle => none
  | .loaded head entry =>
    if (head + 1) % rxQueueLen = state.queue.tail then some { state with push := .full entry }
    else some { state with push := .writing head entry }
  | .full entry =>
    some { state with
      queue := { state.queue with overflowed := true }
      push := .idle
      pushed := state.pushed ++ [.dropped entry] }
  | .writing head entry =>
    some { state with
      queue := { state.queue with entries := Function.update state.queue.entries head entry }
      push := .written head entry }
  | .written head entry =>
    some { state with
      queue := { state.queue with head := (head + 1) % rxQueueLen }
      push := .idle
      pushed := state.pushed ++ [.kept entry] }

/-- The first access of a pop, which is all of it if bytes were dropped. -/
def beginPop (state : Receiving) : Option Receiving :=
  match state.pop with
  | .idle =>
    if state.queue.overflowed then
      some { state with
        queue := { state.queue with overflowed := false }
        popped := state.popped ++ [.lost] }
    else some { state with pop := .unflagged }
  | _ => none

def popOn (state : Receiving) : Option Receiving :=
  match state.pop with
  | .idle => none
  | .unflagged => some { state with pop := .loaded state.queue.tail }
  | .loaded tail =>
    if tail = state.queue.head then some { state with pop := .idle }
    else some { state with pop := .reading tail }
  | .reading tail => some { state with pop := .read tail (state.queue.entries tail) }
  | .read tail entry =>
    some { state with
      queue := { state.queue with tail := (tail + 1) % rxQueueLen }
      pop := .idle
      popped := state.popped ++ [.taken entry] }

def step (state : Receiving) : Event → Option Receiving
  | .push entry => state.beginPush entry
  | .pushOn => state.pushOn
  | .pop => state.beginPop
  | .popOn => state.popOn

/-- The entries that were kept, with a mark wherever others were dropped, once for those dropped one
after the other; `gap` if the one before was dropped.
-/
def marked (gap : Bool) : List Pushed → List Popped
  | [] => []
  | .kept entry :: rest => .taken entry :: marked false rest
  | .dropped _ :: rest => if gap then marked true rest else .lost :: marked true rest

/-- What was popped is what was pushed, with the gaps marked, as far as it goes; all of it if nothing
is left.
-/
def Unspliced (state : Receiving) : Prop :=
  state.popped <+: marked false state.pushed
  ∧ (state.queue.head = state.queue.tail ∧ state.queue.overflowed = false
    → state.popped = marked false state.pushed)

/-- A push that looks for room finds some. -/
def hasRoom (state : Receiving) : Event → Bool
  | .pushOn =>
    match state.push with
    | .loaded head _ => (head + 1) % rxQueueLen != state.queue.tail
    | _ => true
  | _ => true

def Roomy (state : Receiving) (event : Event) : Prop := state.hasRoom event = true

instance (state : Receiving) (event : Event) : Decidable (state.Roomy event) :=
  inferInstanceAs (Decidable (_ = true))

theorem marked_kept (gap : Bool) (entries : List UInt16)
    : marked gap (entries.map .kept) = entries.map .taken := by
  induction entries generalizing gap with
  | nil => rfl
  | cons entry rest ih => rw [List.map_cons, marked, ih, List.map_cons]

open RustyPi.RingBuffer

/-- Where a push is, with `count` entries in the queue. -/
def PushSound (queue : RxQueue) (count : Nat) : Pushing → Prop
  | .idle => True
  | .loaded head _ => head = queue.head
  | .full _ => False
  | .writing head _ => head = queue.head ∧ count + 1 < rxQueueLen
  | .written head entry => head = queue.head ∧ count + 1 < rxQueueLen ∧ queue.entries head = entry

def PopSound (queue : RxQueue) (count : Nat) : Popping → Prop
  | .idle => True
  | .unflagged => True
  | .loaded tail => tail = queue.tail
  | .reading tail => tail = queue.tail ∧ 0 < count
  | .read tail entry => tail = queue.tail ∧ 0 < count ∧ queue.entries tail = entry

/-- Everything pushed was kept, and is what was popped and then the `count` entries in the queue. -/
structure Sound (state : Receiving) (count : Nat) : Prop where
  inside : state.queue.tail < rxQueueLen
  fits : count < rxQueueLen
  head : state.queue.head = ahead rxQueueLen state.queue.tail count
  unflagged : state.queue.overflowed = false
  push : PushSound state.queue count state.push
  pop : PopSound state.queue count state.pop
  passed : ∃ taken : List UInt16,
    state.popped = taken.map .taken
    ∧ state.pushed
      = (taken ++ contents rxQueueLen state.queue.entries state.queue.tail count).map .kept

theorem start_sound : start.Sound 0 where
  inside := by decide
  fits := by decide
  head := rfl
  unflagged := rfl
  push := trivial
  pop := trivial
  passed := ⟨[], rfl, rfl⟩

variable {state next : Receiving} {count : Nat}

section Sound

variable (sound : state.Sound count)
include sound

theorem next_head
    : (state.queue.head + 1) % rxQueueLen = ahead rxQueueLen state.queue.tail (count + 1) := by
  rw [sound.head, ← ahead_ahead]
  rfl

/-- The slot to write isn't the one to read, while there is something to read. -/
theorem head_ne_tail (some : 0 < count)
    : state.queue.head ≠ state.queue.tail := by
  rw [sound.head, ne_eq, ahead_eq_self sound.inside sound.fits]
  exact Nat.ne_of_gt some

theorem pushOn_sound (roomy : state.Roomy .pushOn) (taken : state.pushOn = some next)
    : ∃ count, next.Sound count := by
  obtain ⟨taken', popped, pushed⟩ := sound.passed
  have push := sound.push
  unfold pushOn at taken
  split at taken
  · cases taken
  · rename_i head entry place
    rw [place] at push
    obtain rfl : head = state.queue.head := push
    have room : (state.queue.head + 1) % rxQueueLen ≠ state.queue.tail := by
      simpa [Roomy, hasRoom, place] using roomy
    rw [if_neg room] at taken
    cases taken
    rw [next_head sound, ne_eq, ahead_succ_eq_self sound.inside sound.fits] at room
    have fits := sound.fits
    exact ⟨count, { sound with push := ⟨rfl, by omega⟩ }⟩
  · rename_i entry place
    rw [place] at push
    cases push
  · rename_i head entry place
    cases taken
    rw [place] at push
    obtain ⟨rfl, room⟩ := push
    refine ⟨count, { sound with push := ⟨rfl, room, Function.update_self ..⟩, pop := ?pop, passed := ?passed }⟩
    case pop =>
      have pop := sound.pop
      revert pop
      cases state.pop with
      | read tail entry =>
        rintro ⟨rfl, some, rfl⟩
        refine ⟨rfl, some, Function.update_of_ne ?_ _ _⟩
        exact (head_ne_tail sound some).symm
      | _ => exact id
    case passed =>
      refine ⟨taken', popped, ?_⟩
      dsimp only
      rw [sound.head, contents_update _ _ sound.inside sound.fits]
      exact pushed
  · rename_i head entry place
    cases taken
    rw [place] at push
    obtain ⟨rfl, room, rfl⟩ := push
    refine ⟨count + 1, {
      inside := sound.inside, fits := room, head := next_head sound, unflagged := sound.unflagged,
      push := trivial, pop := ?pop, passed := ⟨taken', popped, ?passed⟩ }⟩
    case pop =>
      have pop := sound.pop
      revert pop
      cases state.pop with
      | reading tail => exact fun pop => ⟨pop.1, Nat.succ_pos _⟩
      | read tail entry => exact fun pop => ⟨pop.1, Nat.succ_pos _, pop.2.2⟩
      | _ => exact id
    case passed =>
      dsimp only
      rw [contents_succ, ← sound.head, ← List.append_assoc, List.map_append, ← pushed]
      rfl

theorem popOn_sound (taken : state.popOn = some next)
    : ∃ count, next.Sound count := by
  obtain ⟨taken', popped, pushed⟩ := sound.passed
  have pop := sound.pop
  unfold popOn at taken
  split at taken
  · cases taken
  · cases taken
    exact ⟨count, { sound with pop := rfl }⟩
  · rename_i tail place
    rw [place] at pop
    obtain rfl : tail = state.queue.tail := pop
    split at taken
    · cases taken
      exact ⟨count, { sound with pop := trivial }⟩
    · rename_i differ
      cases taken
      rw [sound.head, eq_comm, ahead_eq_self sound.inside sound.fits] at differ
      exact ⟨count, { sound with pop := ⟨rfl, Nat.pos_of_ne_zero differ⟩ }⟩
  · rename_i tail place
    cases taken
    rw [place] at pop
    exact ⟨count, { sound with pop := ⟨pop.1, pop.2, rfl⟩ }⟩
  · rename_i tail entry place
    cases taken
    rw [place] at pop
    obtain ⟨rfl, some, rfl⟩ := pop
    obtain ⟨count, rfl⟩ := Nat.exists_eq_succ_of_ne_zero (Nat.ne_of_gt some)
    refine ⟨count, {
      inside := ahead_lt _ 1 sound.inside, fits := Nat.lt_of_succ_lt sound.fits, head := ?head,
      unflagged := sound.unflagged, push := ?push, pop := trivial,
      passed := ⟨taken' ++ [state.queue.entries state.queue.tail], ?popped, ?pushed⟩ }⟩
    case head =>
      rw [sound.head]
      exact (Nat.add_comm 1 count ▸ ahead_ahead state.queue.tail 1 count).symm
    case push =>
      have push := sound.push
      revert push
      cases state.push with
      | writing head entry => exact fun push => ⟨push.1, Nat.lt_of_succ_lt push.2⟩
      | written head entry => exact fun push => ⟨push.1, Nat.lt_of_succ_lt push.2.1, push.2.2⟩
      | _ => exact id
    case popped => rw [popped, List.map_append]; rfl
    case pushed =>
      rw [pushed, contents_eq_cons _ sound.inside, List.append_assoc]
      rfl

/-- A step keeps the queue sound, if a push that looks for room finds some. -/
theorem step_sound {event : Event} (roomy : state.Roomy event)
    (taken : state.step event = some next)
    : ∃ count, next.Sound count := by
  cases event with
  | push entry =>
    change state.beginPush entry = some next at taken
    unfold beginPush at taken
    split at taken
    · cases taken
      exact ⟨count, { sound with push := rfl }⟩
    · cases taken
  | pushOn => exact pushOn_sound sound roomy taken
  | pop =>
    change state.beginPop = some next at taken
    unfold beginPop at taken
    split at taken
    · rw [if_neg (by rw [sound.unflagged]; decide)] at taken
      cases taken
      exact ⟨count, { sound with pop := trivial }⟩
    · cases taken
  | popOn => exact popOn_sound sound taken

theorem Sound.unspliced
    : state.Unspliced := by
  obtain ⟨taken, popped, pushed⟩ := sound.passed
  rw [Unspliced, popped, pushed, marked_kept, List.map_append]
  refine ⟨List.prefix_append _ _, ?_⟩
  rintro ⟨empty, _⟩
  rw [sound.head, ahead_eq_self sound.inside sound.fits] at empty
  rw [empty, contents_zero, List.map_nil, List.append_nil]

end Sound

theorem exists_sound (run : Reach.Reaches step Roomy start state)
    : ∃ count, state.Sound count := by
  refine run.invariant (I := fun state => ∃ count, state.Sound count) ⟨0, start_sound⟩ ?_
  rintro _ _ _ ⟨_, sound⟩ roomy taken
  exact step_sound sound roomy taken

/-- While every push finds room, what is popped is what was pushed, however the two interleave. -/
theorem unspliced_of_roomy {state : Receiving} (run : Reach.Reaches step Roomy start state)
    : state.Unspliced := by
  obtain ⟨count, sound⟩ := exists_sound run
  exact sound.unspliced

/-- Witness: two bytes arrive, the second one while the first is popped. -/
theorem unspliced_of_overlap
    : ∃ state, Reach.Reaches step Roomy start state
        ∧ state.popped = [.taken 0x41]
        ∧ state.Unspliced := by
  have executed : (Reach.runAll step Roomy start
      [.push 0x41, .pushOn, .pop, .popOn, .pushOn, .pushOn, .popOn, .push 0x42, .popOn, .pushOn,
        .pushOn, .popOn, .pushOn]).any (fun state => decide (state.popped = [.taken 0x41])) = true := by
    decide +kernel
  obtain ⟨state, run, popped⟩ := Reach.Reaches.of_check executed
  exact ⟨state, run, of_decide_eq_true popped, unspliced_of_roomy run⟩

/-- The accesses of a push, up to the one that publishes its entry. -/
def pushAll (entry : UInt16) : List Event := [.push entry, .pushOn, .pushOn, .pushOn]

/-- One byte more than fits arrives before the link task runs. The mark that it is lost comes out
before the bytes that were queued ahead of it.
-/
theorem spliced_of_full
    : ∃ state, Reach.Reaches step Reach.anyEvent start state ∧ ¬state.Unspliced := by
  have executed : (Reach.runAll step Reach.anyEvent start
      ((List.replicate 1023 (pushAll 0x41)).flatten ++ [.push 0x42, .pushOn, .pushOn, .pop])).any
        (fun state => decide (state.popped = [.lost] ∧ state.pushed.head? = some (.kept 0x41)))
      = true := by
    decide +kernel
  obtain ⟨state, run, found⟩ := Reach.Reaches.of_check executed
  obtain ⟨popped, pushed⟩ := of_decide_eq_true found
  refine ⟨state, run, fun unspliced => ?_⟩
  obtain ⟨rest, pushed⟩ := List.head?_eq_some_iff.mp pushed
  have start := unspliced.1
  rw [popped, pushed, marked, List.cons_prefix_cons] at start
  cases start.1

end Receiving

end RustyPi.Link
