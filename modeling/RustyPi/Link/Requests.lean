import Mathlib.Data.List.Flatten
import Mathlib.Data.List.Nodup
import RustyPi.Link.Tasks

/-! Requests over the link. The Uno has one request at a time and sends it as often as it likes;
frames in both directions may be lost, but stay in order. A request is tagged with how many came
before it.
-/

namespace RustyPi.Link

open RustyPi.Reach

/-- What the Uno sends as a `MSG` payload for one command. -/
structure Request where
  payload : List Char
  seq : Nat
  text : List Char
  parses : parseRequest payload = some (seq, text)

/-- Whether a frame is `END` for the number. -/
def Outgoing.ends (frame : Outgoing) (seq : Nat) : Bool :=
  match frame with
  | .ended number _ => number = seq
  | _ => false

/-- The Uno, the link and the kernel's tasks. -/
structure Exchange where
  tasks : Tasks Nat
  /-- The frames on their way to the kernel. -/
  up : List (Received Nat)
  /-- How many of the frames the kernel sent have arrived or were lost. -/
  arrived : Nat
  /-- What the Uno has asked for so far. -/
  requests : List Request
  /-- Whether the Uno got `END` for the last request. -/
  answered : Bool

inductive ExchangeEvent
  /-- The Uno goes on to its next request. -/
  | ask (request : Request)
  /-- The Uno sends its request, or sends it again. -/
  | transmit
  /-- The Uno sends a frame that is neither a request nor `HELLO`. -/
  | ping (payload : List Char)
  | unknown (kind : List Char)
  /-- A frame from the Uno is lost. -/
  | lose
  /-- The link task reads a frame. -/
  | arrive
  /-- One of the tasks does something else. -/
  | task (event : TaskEvent Nat)
  /-- A frame from the kernel arrives, or is lost. -/
  | reply (lost : Bool)

namespace Exchange

def start : Exchange :=
  { tasks := .start, up := [], arrived := 0, requests := [], answered := false }

/-- The Uno sends a new number only after `END` for the one before, and not the same one. -/
def MayAsk (state : Exchange) (request : Request) : Prop :=
  ∀ last ∈ state.requests.getLast?, state.answered = true ∧ last.seq ≠ request.seq

instance (state : Exchange) (request : Request) : Decidable (state.MayAsk request) :=
  inferInstanceAs (Decidable (∀ last ∈ state.requests.getLast?, _))

def step (state : Exchange) : ExchangeEvent → Option Exchange
  | .ask request =>
    if state.MayAsk request then
      some { state with requests := state.requests ++ [request], answered := false }
    else none
  | .transmit => do
      let request ← state.requests.getLast?
      return { state with up := state.up ++ [.msg request.payload (state.requests.length - 1)] }
  | .ping payload => some { state with up := state.up ++ [.ping payload] }
  | .unknown kind => some { state with up := state.up ++ [.unknown kind] }
  | .lose => some { state with up := state.up.tail }
  | .arrive => do
      let frame ← state.up.head?
      let tasks ← state.tasks.step (.receive frame)
      return { state with tasks, up := state.up.tail }
  | .task event =>
    if event matches .receive _ then none
    else (state.tasks.step event).map (fun tasks => { state with tasks })
  | .reply lost => do
      let (frame, _) ← state.tasks.sent[state.arrived]?
      let ended := state.requests.getLast?.any (fun last => frame.ends last.seq)
      return { state with
        arrived := state.arrived + 1, answered := state.answered || (!lost && ended) }

/-- The frames that the shell sent for a request. -/
def sentFor (state : Exchange) (k : Nat) : List Outgoing :=
  ((Tasks.answersOf state.tasks.sent).filter (fun answer => answer.2 = k)).map Prod.fst

/-- The copies of requests that are on their way, in order. -/
def copies (state : Exchange) : List (Copy Nat) :=
  state.tasks.copies ++ state.up.flatMap Received.copies

/-- A step, by what it does. -/
inductive Steps (state : Exchange) : ExchangeEvent → Exchange → Prop
  | ask {request} (may : state.MayAsk request)
    : Steps state (.ask request)
        { state with requests := state.requests ++ [request], answered := false }
  | transmit {request k} (last : state.requests.length = k + 1)
    (asked : state.requests[k]? = some request)
    : Steps state .transmit { state with up := state.up ++ [.msg request.payload k] }
  | ping {payload}
    : Steps state (.ping payload) { state with up := state.up ++ [.ping payload] }
  | unknown {kind}
    : Steps state (.unknown kind) { state with up := state.up ++ [.unknown kind] }
  | lose : Steps state .lose { state with up := state.up.tail }
  | arrive {frame rest tasks}
    (first : state.up = frame :: rest) (taken : state.tasks.Steps (.receive frame) tasks)
    : Steps state .arrive { state with tasks, up := rest }
  | task {event tasks} (quiet : event.copies = [])
    (known : event ≠ .receive .hello) (taken : state.tasks.Steps event tasks)
    : Steps state (.task event) { state with tasks }
  | missed {lost frame of}
    (next : state.tasks.sent[state.arrived]? = some (frame, of))
    : Steps state (.reply lost) { state with arrived := state.arrived + 1 }
  | ended {frame of request k}
    (next : state.tasks.sent[state.arrived]? = some (frame, of))
    (last : state.requests.length = k + 1) (asked : state.requests[k]? = some request)
    (ends : frame.ends request.seq = true)
    : Steps state (.reply false) { state with arrived := state.arrived + 1, answered := true }

theorem getElem?_of_getLast? {α : Type} {list : List α} {last : α} (h : list.getLast? = some last)
    : ∃ k, list.length = k + 1 ∧ list[k]? = some last := by
  rw [List.getLast?_eq_getElem?] at h
  have inside := (List.getElem?_eq_some_iff.mp h).1
  exact ⟨list.length - 1, by omega, h⟩

variable {state after : Exchange} {event : ExchangeEvent} {k tag seq : Nat} {request : Request}
variable {reply frames rest : List Outgoing} {frame : Outgoing} {run : Run Nat}
variable {payload : List Char} {up : List (Received Nat)} {tasks : Tasks Nat}

theorem steps_of_step (taken : state.step event = some after)
    : Steps state event after := by
  cases event with
  | ask request =>
    obtain ⟨may, ⟨⟩⟩ := Option.ite_none_right_eq_some.mp taken
    exact .ask may
  | transmit =>
    simp only [step, bind, Option.bind_eq_some_iff] at taken
    obtain ⟨request, last, taken⟩ := taken
    cases taken
    obtain ⟨k, length, asked⟩ := getElem?_of_getLast? last
    rw [length, Nat.add_sub_cancel]
    exact .transmit length asked
  | ping | unknown | lose =>
    cases taken
    constructor
  | arrive =>
    simp only [step, bind, Option.bind_eq_some_iff] at taken
    obtain ⟨frame, first, tasks, taken, done⟩ := taken
    cases done
    obtain ⟨rest, first⟩ := List.head?_eq_some_iff.mp first
    rw [first, List.tail_cons]
    exact .arrive first (Tasks.steps_of_step taken)
  | task event =>
    have others : ∀ frame, event ≠ .receive frame := by
      rintro frame rfl
      cases taken
    have taken : (state.tasks.step event).map (fun tasks => { state with tasks }) = some after := by
      cases event with
      | receive frame => exact absurd rfl (others frame)
      | _ => exact taken
    obtain ⟨tasks, moved, rfl⟩ := Option.map_eq_some_iff.mp taken
    refine .task ?_ (others .hello) (Tasks.steps_of_step moved)
    cases event with
    | receive frame => exact absurd rfl (others frame)
    | _ => rfl
  | reply lost =>
    simp only [step, bind, Option.bind_eq_some_iff] at taken
    obtain ⟨⟨frame, of⟩, next, taken⟩ := taken
    cases taken
    cases ended : !lost && state.requests.getLast?.any (fun last => frame.ends last.seq) with
    | false =>
      rw [Bool.or_false]
      exact .missed next
    | true =>
      rw [Bool.or_true]
      rw [Bool.and_eq_true, Option.any_eq_true_iff_get] at ended
      obtain ⟨received, isSome, ends⟩ := ended
      obtain ⟨k, length, asked⟩ := getElem?_of_getLast? (Option.some_get isSome).symm
      obtain rfl : lost = false := by simpa using received
      exact .ended next length asked ends

----------
-- Requests on their way
----------

/-- What is on its way to the shell are copies of the Uno's requests, in the order it asked, and no
`HELLO`.
-/
structure Ordered (state : Exchange) : Prop where
  asked
    : ∀ copy ∈ state.copies, ∃ request,
        state.requests[copy.tag]? = some request ∧ copy.payload = request.payload
  sorted : state.copies.Pairwise (fun one next => one.tag ≤ next.tag)
  noHello : state.tasks.NoHello
  noneComing : .hello ∉ state.up

theorem ordered_start : Ordered start where
  asked := by simp [copies, start, Tasks.copies, Tasks.held, Tasks.start, ShellPhase.copies,
    LinkPhase.copies]
  sorted := by simp [copies, start, Tasks.copies, Tasks.held, Tasks.start, ShellPhase.copies,
    LinkPhase.copies]
  noHello := by simp [start, Tasks.start, Tasks.NoHello]
  noneComing := by simp [start]

/-- Only a transmission adds a copy. -/
theorem Steps.copies_sublist (steps : Steps state event after) (others : event ≠ .transmit)
    : after.copies.Sublist state.copies := by
  cases steps with
  | ask | missed | ended => exact .refl _
  | transmit => exact absurd rfl others
  | ping | unknown => simp [copies, Received.copies]
  | lose =>
    refine List.Sublist.append_left ?_ _
    exact (List.tail_sublist state.up).flatMap Received.copies
  | arrive first taken =>
    have moved := taken.copies_sublist.append_right
      ((state.up.tail).flatMap Received.copies)
    simpa [copies, first, TaskEvent.copies] using moved
  | task quiet _ taken =>
    have moved := taken.copies_sublist
    rw [quiet, List.append_nil] at moved
    exact moved.append_right _

theorem Steps.requests_kept (steps : Steps state event after)
    (asked : state.requests[k]? = some request)
    : after.requests[k]? = some request := by
  cases steps with
  | ask =>
    have inside := (List.getElem?_eq_some_iff.mp asked).1
    rw [List.getElem?_append_left inside]
    exact asked
  | _ => exact asked

theorem Steps.ordered (steps : Steps state event after) (ordered : state.Ordered)
    : after.Ordered := by
  have shrunk (others : event ≠ .transmit) (noHello : after.tasks.NoHello)
      (noneComing : .hello ∉ after.up)
      : after.Ordered := by
    have sublist := steps.copies_sublist others
    refine ⟨fun copy member => ?_, ordered.sorted.sublist sublist, noHello, noneComing⟩
    obtain ⟨request, asked, same⟩ := ordered.asked copy (sublist.subset member)
    exact ⟨request, steps.requests_kept asked, same⟩
  cases steps with
  | ask | missed | ended => exact shrunk (by simp) ordered.noHello ordered.noneComing
  | transmit last asked =>
    rename_i request k
    have copies : copies { state with up := state.up ++ [.msg request.payload k] }
        = state.copies ++ [⟨request.payload, k⟩] := by
      simp [Exchange.copies, Received.copies]
    refine ⟨?_, ?_, ordered.noHello, by simpa using ordered.noneComing⟩
    · intro copy member
      rw [copies, List.mem_append, List.mem_singleton] at member
      rcases member with member | rfl
      · exact ordered.asked copy member
      · exact ⟨request, asked, rfl⟩
    · rw [copies, List.pairwise_append]
      refine ⟨ordered.sorted, List.pairwise_singleton _ _, ?_⟩
      intro one member next new
      obtain rfl := List.mem_singleton.mp new
      obtain ⟨_, asked, _⟩ := ordered.asked one member
      have inside := (List.getElem?_eq_some_iff.mp asked).1
      show one.tag ≤ k
      omega
  | ping | unknown => exact shrunk (by simp) ordered.noHello (by simpa using ordered.noneComing)
  | lose =>
    exact shrunk (by simp) ordered.noHello (fun coming =>
      ordered.noneComing (List.mem_of_mem_tail coming))
  | arrive first taken =>
    have coming := ordered.noneComing
    rw [first, List.mem_cons, not_or] at coming
    refine shrunk (by simp) (taken.noHello ?_ ordered.noHello) coming.2
    rintro ⟨⟩
    exact coming.1 rfl
  | task _ known taken =>
    exact shrunk (by simp) (taken.noHello known ordered.noHello) ordered.noneComing

----------
-- Replies
----------

/-- Frames that are copies of a reply, the last one up to what is left to send. -/
def Replied (reply frames rest : List Outgoing) : Prop :=
  ∃ count part, frames = (List.replicate count reply).flatten ++ part ∧ part ++ rest = reply

theorem replied_start (reply : List Outgoing) : Replied reply [] reply := ⟨0, [], rfl, rfl⟩

/-- A complete reply can be sent once more. -/
theorem Replied.again (replied : Replied reply frames [])
    : Replied reply frames reply := by
  obtain ⟨count, part, rfl, whole⟩ := replied
  rw [List.append_nil] at whole
  refine ⟨count + 1, [], ?_, rfl⟩
  rw [whole, List.append_nil, List.replicate_succ', List.flatten_append, List.flatten_singleton]

theorem Replied.sent (replied : Replied reply frames (frame :: rest))
    : Replied reply (frames ++ [frame]) rest := by
  obtain ⟨count, part, rfl, whole⟩ := replied
  exact ⟨count, part ++ [frame], by rw [List.append_assoc], by rw [← whole]; simp⟩

theorem Replied.mem (replied : Replied reply frames rest) (member : frame ∈ frames)
    : frame ∈ reply := by
  obtain ⟨count, part, rfl, rfl⟩ := replied
  rcases List.mem_append.mp member with copied | partly
  · obtain ⟨copy, replicated, inside⟩ := List.mem_flatten.mp copied
    rwa [(List.mem_replicate.mp replicated).2] at inside
  · exact List.mem_append_left _ partly

/-- The requests, what was run and sent for them, and which reply has how much left to send. -/
structure Desk where
  requests : List Request
  runs : List (Run Nat)
  session : Session
  answers : List (Outgoing × Nat)
  turn : Option (Nat × List Outgoing)

namespace Desk

def sentFor (answers : List (Outgoing × Nat)) (k : Nat) : List Outgoing :=
  (answers.filter (fun answer => answer.2 = k)).map Prod.fst

def left (turn : Option (Nat × List Outgoing)) (k : Nat) : List Outgoing :=
  match turn with
  | some (tag, rest) => if tag = k then rest else []
  | none => []

/-- The commands were run in the order they were asked for, each once, the session has the last
reply, and what was sent for each are copies of its reply.
-/
structure Kept (desk : Desk) : Prop where
  runs
    : ∀ k run,
        desk.runs[k]? = some run
        → run.tag = k
          ∧ ∃ request,
              desk.requests[k]? = some request
              ∧ run.text = request.text
              ∧ Replied (replyFrames request.seq run.lines) (sentFor desk.answers k)
                (left desk.turn k)
  behind : desk.requests.length ≤ desk.runs.length + 1
  fresh : desk.runs = [] → desk.session.lastSeq = none
  cached
    : ∀ k run request,
        k + 1 = desk.runs.length
        → desk.runs[k]? = some run
        → desk.requests[k]? = some request
        → desk.session = { lastSeq := some request.seq, reply := run.lines }
  known : ∀ answer ∈ desk.answers, answer.2 < desk.runs.length
  inOrder : desk.answers.Pairwise (fun one next => one.2 ≤ next.2)
  current : ∀ k rest, desk.turn = some (k, rest) → k + 1 = desk.runs.length

variable {desk : Desk}

variable (kept : desk.Kept)
include kept

theorem Kept.bounded : desk.runs.length ≤ desk.requests.length := by
  by_contra more
  obtain ⟨_, request, asked, _⟩ := kept.runs desk.requests.length _
    (List.getElem?_eq_getElem (Nat.lt_of_not_le more))
  simp at asked

theorem Kept.ask (request : Request) (all : desk.runs.length = desk.requests.length)
    : Kept { desk with requests := desk.requests ++ [request] } := by
  constructor
  all_goals grind [Kept, sentFor, left]

/-- The session answers from its cache: the reply of the last run is sent once more. -/
theorem Kept.again (idle : desk.turn = none)
    (last : k + 1 = desk.runs.length) (ran : desk.runs[k]? = some run)
    (asked : desk.requests[k]? = some request)
    : Kept { desk with turn := some (k, replyFrames request.seq run.lines) } := by
  refine { kept with runs := fun j other found => ?_, current := by grind }
  obtain ⟨tag, before, askedBefore, text, replied⟩ := kept.runs j other found
  refine ⟨tag, before, askedBefore, text, ?_⟩
  simp only [left, idle] at replied ⊢
  split
  · rename_i same
    subst same
    cases ran.symm.trans found
    cases asked.symm.trans askedBefore
    exact replied.again
  · exact replied

theorem Kept.ran (idle : desk.turn = none)
    (next : run.tag = desk.runs.length) (asked : desk.requests[run.tag]? = some request)
    (text : run.text = request.text)
    : Kept { desk with
        runs := desk.runs ++ [run]
        session := { lastSeq := some request.seq, reply := run.lines }
        turn := some (run.tag, replyFrames request.seq run.lines) } := by
  have unsent : sentFor desk.answers run.tag = [] := by
    rw [sentFor, List.map_eq_nil_iff, List.filter_eq_nil_iff]
    intro answer member same
    have known := kept.known answer member
    rw [of_decide_eq_true same] at known
    omega
  refine ⟨fun k other found => ?_, ?_, ?_, ?_, ?_, kept.inOrder, ?_⟩
  · rcases Nat.lt_or_ge k desk.runs.length with earlier | new
    · rw [List.getElem?_append_left earlier] at found
      simpa [left, idle, show run.tag ≠ k by omega] using kept.runs k other found
    · obtain rfl : k = run.tag := by grind
      obtain rfl : run = other := by grind
      refine ⟨rfl, request, asked, text, ?_⟩
      simpa [unsent, left] using replied_start _
  · have behind := kept.behind
    grind
  · simp
  · grind
  · grind [Kept]
  · grind

theorem Kept.sent (turn : desk.turn = some (k, frame :: rest))
    : Kept { desk with answers := desk.answers ++ [(frame, k)], turn := some (k, rest) } := by
  have last := kept.current k _ turn
  refine { kept with
    runs := fun j run found => ?_
    known := ?_
    inOrder := ?_
    current := ?_ }
  · obtain ⟨tag, request, asked, text, replied⟩ := kept.runs j run found
    refine ⟨tag, request, asked, text, ?_⟩
    simp only [sentFor, left, turn, List.filter_append, List.map_append] at replied ⊢
    by_cases same : k = j
    · simp only [same, if_true] at replied ⊢
      simpa using replied.sent
    · simpa [same] using replied
  · grind [Kept]
  · grind [Kept]
  · grind [Kept]

theorem Kept.released (turn : desk.turn = some (k, []))
    : Kept { desk with turn := none } := by
  refine { kept with runs := fun j run found => ?_, current := by simp }
  simpa [left, turn] using kept.runs j run found

end Desk

def desk (state : Exchange) : Desk :=
  {
    requests := state.requests
    runs := state.tasks.runs
    session := state.tasks.session
    answers := Tasks.answersOf state.tasks.sent
    turn :=
      match state.tasks.shell with
      | .replying _ tag rest _ => some (tag, rest)
      | _ => none
  }

theorem turn_of_replying {action : Option Unit}
    (shell : state.tasks.shell = .replying payload tag rest action)
    : state.desk.turn = some (tag, rest) := by
  simp [desk, shell]

/-- No copy on its way is of a request before the last one that was run. -/
structure Replying (state : Exchange) : Prop where
  kept : state.desk.Kept
  recent : ∀ copy ∈ state.copies, state.tasks.runs.length ≤ copy.tag + 1

theorem replying_start : Replying start where
  kept := by constructor <;> simp [desk, start, Tasks.start, Tasks.answersOf, Session.new]
  recent := fun _ _ => Nat.zero_le _

/-- Steps that don't touch replies keep everything about them. -/
theorem Replying.same (replying : state.Replying) (desk : after.desk = state.desk)
    (copies : after.copies ⊆ state.copies)
    : after.Replying where
  kept := desk ▸ replying.kept
  recent copy member := by
    rw [show after.tasks.runs = state.tasks.runs from congrArg Desk.runs desk]
    exact replying.recent copy (copies member)

theorem Replying.counts (replying : state.Replying)
    : state.tasks.runs.length ≤ state.requests.length
      ∧ state.requests.length ≤ state.tasks.runs.length + 1 :=
  ⟨replying.kept.bounded, replying.kept.behind⟩

/-- Consecutive requests have different numbers. -/
def Differ (requests : List Request) : Prop :=
  ∀ k one next, requests[k]? = some one → requests[k + 1]? = some next → one.seq ≠ next.seq

/-- A request that the shell handles is either the last one that was run, whose reply the session
has, or the next one, whose number the session doesn't have.
-/
theorem Replying.turn (replying : state.Replying) (ordered : state.Ordered)
    (differ : Differ state.requests) (handling : state.tasks.shell = .handling payload tag)
    : ∃ request, state.requests[tag]? = some request
        ∧ parseRequest payload = some (request.seq, request.text)
        ∧ ((∃ run, state.tasks.runs[tag]? = some run
              ∧ tag + 1 = state.tasks.runs.length
              ∧ state.tasks.session = { lastSeq := some request.seq, reply := run.lines })
            ∨ tag = state.tasks.runs.length
              ∧ state.tasks.session.lastSeq ≠ some request.seq) := by
  have member : (⟨payload, tag⟩ : Copy Nat) ∈ state.copies := by
    simp [copies, Tasks.copies, Tasks.held, handling, ShellPhase.copies]
  obtain ⟨request, asked, same⟩ := ordered.asked _ member
  obtain rfl : payload = request.payload := same
  refine ⟨request, asked, request.parses, ?_⟩
  have inside : tag < state.requests.length := (List.getElem?_eq_some_iff.mp asked).1
  have recent : state.tasks.runs.length ≤ tag + 1 := replying.recent _ member
  have counts := replying.counts
  rcases Nat.lt_or_ge tag state.tasks.runs.length with ran | new
  · have last : tag + 1 = state.tasks.runs.length := by omega
    have found := List.getElem?_eq_getElem ran
    exact .inl ⟨_, found, last, replying.kept.cached tag _ request last found asked⟩
  · obtain rfl : tag = state.tasks.runs.length := by omega
    refine Or.inr ⟨rfl, ?_⟩
    cases count : state.tasks.runs.length with
    | zero =>
      have fresh : state.tasks.session.lastSeq = none :=
        replying.kept.fresh (List.length_eq_zero_iff.mp count)
      simp [fresh]
    | succ k =>
      -- the request after the one that the session has
      have found := List.getElem?_eq_getElem (show k < state.tasks.runs.length by omega)
      obtain ⟨_, before, askedBefore, _⟩ := replying.kept.runs k _ found
      have session : state.tasks.session = _ :=
        replying.kept.cached k _ before count.symm found askedBefore
      rw [session]
      rw [count] at asked
      exact fun same => differ k before request askedBefore asked (Option.some.inj same)

theorem Replying.task (replying : state.Replying) (ordered : state.Ordered)
    (differ : Differ state.requests) {event : TaskEvent Nat} (taken : state.tasks.Steps event tasks)
    (copies : Exchange.copies { state with tasks, up } ⊆ state.copies)
    : Replying { state with tasks, up } := by
  have recent (copy : Copy Nat) (member : copy ∈ Exchange.copies { state with tasks, up }) :=
    replying.recent copy (copies member)
  cases taken with
  | reset _ first =>
    refine absurd ordered.noHello.2 (not_not.mpr ?_)
    simp [first]
  | rejected handling malformed =>
    obtain ⟨request, _, parsed, _⟩ := replying.turn ordered differ handling
    rw [malformed] at parsed
    cases parsed
  | cached handling parsed last =>
    obtain ⟨request, asked, parsed', ⟨run, ran, tag, session⟩ | ⟨_, other⟩⟩ :=
      replying.turn ordered differ handling
    all_goals
      rw [parsed] at parsed'
      cases parsed'
    · have again := replying.kept.again (by simp [desk, handling]) tag ran asked
      rw [show run.lines = state.tasks.session.reply by rw [session]] at again
      exact ⟨again, recent⟩
    · exact absurd last other
  | ran handling parsed other =>
    rename_i payload tag lines action seq text
    obtain ⟨request, asked, parsed', ⟨run, _, _, session⟩ | ⟨next, _⟩⟩ :=
      replying.turn ordered differ handling
    all_goals
      rw [parsed] at parsed'
      cases parsed'
    · rw [session] at other
      exact absurd rfl other
    · refine ⟨replying.kept.ran (by simp [desk, handling])
        (show Run.tag ⟨tag, request.text, lines⟩ = _ from next) asked rfl, ?_⟩
      -- the request in hand is the oldest on its way
      intro copy member
      have sorted := ordered.sorted
      have member := copies member
      simp only [Exchange.copies, Tasks.copies, Tasks.held, handling, ShellPhase.copies,
        List.cons_append, List.pairwise_cons, List.mem_cons] at sorted member
      have later : tag ≤ copy.tag := by
        rcases member with rfl | member
        · exact Nat.le_refl _
        · exact sorted.1 copy member
      simpa [← next] using later
  | sent sending =>
    refine ⟨?_, recent⟩
    simpa [desk, Tasks.answersOf] using replying.kept.sent (turn_of_replying sending)
  | took idle | passed idle => exact replying.same (by simp [desk, idle]) copies
  | released finished =>
    exact ⟨replying.kept.released (turn_of_replying finished), recent⟩
  | sentOwn => exact replying.same (by simp [desk, Tasks.answersOf]) copies
  | pinged | unknown | restarted | busy | new | unnumbered | marked | queued | refused | cleared
  | greeted | lost | delivered | dropped => exact replying.same rfl copies

----------
-- What the Uno has seen
----------

/-- Frames of the link task are never `END`, and what is still on its way to the Uno is for its
request or the one before.
-/
structure Asking (state : Exchange) : Prop where
  differ : Differ state.requests
  own
    : ∀ frame, (frame, none) ∈ state.tasks.sent ∨ state.tasks.link = .sending frame
        → ∀ seq, frame.ends seq = false
  late
    : ∀ answer ∈ Tasks.answersOf (state.tasks.sent.drop state.arrived),
        state.requests.length ≤ answer.2 + 2
  done
    : state.answered = true → state.requests.length = state.tasks.runs.length
        ∧ ∀ answer ∈ Tasks.answersOf (state.tasks.sent.drop state.arrived),
            state.requests.length ≤ answer.2 + 1
  inside : state.arrived ≤ state.tasks.sent.length

theorem asking_start : Asking start where
  differ := by simp [Differ, start]
  own := by simp [start, Tasks.start]
  late := by simp [start, Tasks.start, Tasks.answersOf]
  done := by simp [start]
  inside := Nat.le_refl _

theorem ends_replyFrames {number : Nat} {lines : List Line}
    (member : frame ∈ replyFrames number lines) (ends : frame.ends seq = true)
    : number = seq := by
  rcases List.mem_append.mp member with line | ended
  · obtain ⟨index, inside, rfl⟩ := List.mem_mapIdx.mp line
    cases ends
  · obtain rfl := List.mem_singleton.mp ended
    exact of_decide_eq_true ends

/-- The shell's frames are those of the request they are for. -/
theorem Replying.ends (replying : state.Replying)
    (member : (frame, tag) ∈ Tasks.answersOf state.tasks.sent) (ends : frame.ends seq = true)
    : ∃ request, state.requests[tag]? = some request ∧ request.seq = seq := by
  obtain ⟨_, request, asked, _, replied⟩ := replying.kept.runs tag _
    (List.getElem?_eq_getElem (replying.kept.known _ member))
  have sentFor : frame ∈ state.sentFor tag :=
    List.mem_map.mpr ⟨(frame, tag), List.mem_filter.mpr ⟨member, by simp⟩, rfl⟩
  exact ⟨request, asked, ends_replyFrames (replied.mem sentFor) ends⟩

/-- A step sends at most a frame that the link task has, or the first one that the shell has left.
-/
theorem sent_of_steps {after : Tasks Nat} {event : TaskEvent Nat} (steps : tasks.Steps event after)
    : ∃ new, after.sent = tasks.sent ++ new
        ∧ ∀ frame tag, (frame, tag) ∈ new
          → tag = none ∧ tasks.link = .sending frame
            ∨ ∃ k payload rest action,
                tag = some k ∧ tasks.shell = .replying payload k (frame :: rest) action := by
  cases steps with
  | sentOwn sending =>
    refine ⟨_, rfl, fun frame tag member => ?_⟩
    obtain ⟨rfl, rfl⟩ := Prod.mk.inj (List.mem_singleton.mp member)
    exact .inl ⟨rfl, sending⟩
  | sent replying =>
    refine ⟨_, rfl, fun frame tag member => ?_⟩
    obtain ⟨rfl, rfl⟩ := Prod.mk.inj (List.mem_singleton.mp member)
    exact .inr ⟨_, _, _, _, rfl, replying⟩
  | _ => exact ⟨[], (List.append_nil _).symm, by simp⟩

/-- What the link task starts to send isn't `END`. -/
theorem own_of_steps {after : Tasks Nat} {event : TaskEvent Nat} (steps : tasks.Steps event after)
    (sending : after.link = .sending frame)
    : tasks.link = .sending frame ∨ ∀ seq, frame.ends seq = false := by
  cases steps with
  | pinged | unknown | busy | greeted | lost =>
    obtain rfl := LinkPhase.sending.inj sending
    exact .inr (fun _ => rfl)
  | restarted | new | unnumbered | sentOwn | marked | queued | refused | cleared => cases sending
  | delivered | dropped | reset | took | passed | rejected | cached | ran | sent | released =>
    exact .inl sending

theorem runs_of_steps {after : Tasks Nat} {event : TaskEvent Nat} (steps : tasks.Steps event after)
    : tasks.runs.length ≤ after.runs.length := by
  cases steps with
  | ran => simp
  | _ => exact Nat.le_refl _

/-- A step of the tasks keeps what the Uno will see in order. -/
theorem Asking.task (asking : state.Asking) (replying : state.Replying) {event : TaskEvent Nat}
    (taken : state.tasks.Steps event tasks) (after : Replying { state with tasks, up })
    : Asking { state with tasks, up } := by
  obtain ⟨new, sent, origin⟩ := sent_of_steps taken
  -- a new frame of the shell is for the last request that was run
  have current : ∀ answer ∈ Tasks.answersOf new, answer.2 + 1 = state.tasks.runs.length := by
    intro answer member
    obtain ⟨⟨frame, tag⟩, inside, same⟩ := List.mem_filterMap.mp member
    obtain ⟨k, rfl, rfl⟩ := Option.map_eq_some_iff.mp same
    rcases origin frame (some k) inside with ⟨none, _⟩ | ⟨_, payload, rest, action, same, shell⟩
    · cases none
    · cases same
      exact replying.kept.current k _ (turn_of_replying shell)
  have answers (answer) (member : answer ∈ Tasks.answersOf (tasks.sent.drop state.arrived))
      : answer ∈ Tasks.answersOf (state.tasks.sent.drop state.arrived)
        ∨ answer.2 + 1 = state.tasks.runs.length := by
    rw [sent, List.drop_append_of_le_length asking.inside, Tasks.answersOf,
      List.filterMap_append, List.mem_append] at member
    exact member.imp_right (current answer)
  have counts := replying.counts
  constructor
  case differ => exact asking.differ
  case own =>
    rintro frame (member | sending)
    · rw [sent, List.mem_append] at member
      rcases member with earlier | new
      · exact asking.own frame (Or.inl earlier)
      · rcases origin frame none new with ⟨_, sending⟩ | ⟨_, _, _, _, some, _⟩
        · exact asking.own frame (Or.inr sending)
        · cases some
    · exact (own_of_steps taken sending).elim (fun before => asking.own frame (Or.inr before)) id
  case late =>
    intro answer member
    rcases answers answer member with earlier | tag
    · exact asking.late answer earlier
    · show state.requests.length ≤ _
      omega
  case done =>
    intro answered
    obtain ⟨count, soon⟩ := asking.done answered
    have bounded : tasks.runs.length ≤ state.requests.length := after.kept.bounded
    have more := runs_of_steps taken
    refine ⟨?_, fun answer member => ?_⟩
    · show state.requests.length = tasks.runs.length
      omega
    · rcases answers answer member with earlier | tag
      · exact soon answer earlier
      · show state.requests.length ≤ _
        omega
  case inside =>
    have inside := asking.inside
    show state.arrived ≤ tasks.sent.length
    rw [sent, List.length_append]
    omega

/-- A later frame isn't for an earlier request. -/
theorem Replying.later (replying : state.Replying) {i : Nat}
    (next : state.tasks.sent[i]? = some (frame, some k))
    : (frame, k) ∈ Tasks.answersOf (state.tasks.sent.drop i)
      ∧ ∀ answer ∈ Tasks.answersOf (state.tasks.sent.drop (i + 1)), k ≤ answer.2 := by
  obtain ⟨inside, get⟩ := List.getElem?_eq_some_iff.mp next
  have sorted : (Tasks.answersOf (state.tasks.sent.drop i)).Pairwise _ :=
    replying.kept.inOrder.sublist ((List.drop_sublist i _).filterMap _)
  have answers : Tasks.answersOf (state.tasks.sent.drop i)
      = (frame, k) :: Tasks.answersOf (state.tasks.sent.drop (i + 1)) := by
    rw [List.drop_eq_getElem_cons inside, get]
    rfl
  rw [answers] at sorted ⊢
  exact ⟨List.mem_cons_self, (List.pairwise_cons.mp sorted).1⟩

/-- The frames still on their way after one more has arrived are among those before. -/
theorem answersOf_drop_succ (sent : List (Outgoing × Option Nat)) (i : Nat)
    : Tasks.answersOf (sent.drop (i + 1)) ⊆ Tasks.answersOf (sent.drop i) := by
  have sublist : (sent.drop (i + 1)).Sublist (sent.drop i) := by
    rw [← List.tail_drop]
    exact List.tail_sublist _
  exact (sublist.filterMap _).subset

/-- When `END` for the current request arrives, that request has been run. -/
theorem Asking.ended (asking : state.Asking) (replying : state.Replying) {of : Option Nat}
    (next : state.tasks.sent[state.arrived]? = some (frame, of))
    (last : state.requests.length = k + 1) (asked : state.requests[k]? = some request)
    (ends : frame.ends request.seq = true)
    : state.tasks.runs.length = k + 1
      ∧ ∀ answer ∈ Tasks.answersOf (state.tasks.sent.drop (state.arrived + 1)), k ≤ answer.2 := by
  cases of with
  | none =>
    have own := asking.own frame (Or.inl (List.mem_of_getElem? next)) request.seq
    rw [ends] at own
    cases own
  | some tag =>
    obtain ⟨coming, later⟩ := replying.later next
    have member := ((List.drop_sublist _ _).filterMap _).subset coming
    obtain ⟨other, askedOther, same⟩ := replying.ends member ends
    have late : state.requests.length ≤ tag + 2 := asking.late (frame, tag) coming
    have known : tag < state.tasks.runs.length := replying.kept.known _ member
    have counts := replying.counts
    -- the request before has another number
    have tag_ne : tag + 1 ≠ k := by
      rintro rfl
      exact asking.differ tag other request askedOther asked same
    obtain rfl : tag = k := by omega
    exact ⟨by omega, later⟩

theorem differ_append {requests : List Request} (differ : Differ requests)
    (other : ∀ last ∈ requests.getLast?, last.seq ≠ request.seq)
    : Differ (requests ++ [request]) := by
  intro k one next first second
  have inside := (List.getElem?_eq_some_iff.mp second).1
  rw [List.length_append, List.length_singleton] at inside
  rw [List.getElem?_append_left (by omega)] at first
  rcases Nat.lt_or_ge (k + 1) requests.length with earlier | new
  · rw [List.getElem?_append_left earlier] at second
    exact differ k one next first second
  · obtain rfl : k = requests.length - 1 := by omega
    rw [List.getElem?_append_right new, List.getElem?_singleton, if_pos (by omega)] at second
    cases second
    refine other one ?_
    rw [List.getLast?_eq_getElem?]
    exact first

/-- Every step keeps the replies and what the Uno sees in order. -/
theorem Steps.asking (steps : Steps state event after) (ordered : state.Ordered)
    (replying : state.Replying) (asking : state.Asking)
    : after.Replying ∧ after.Asking := by
  have copies (others : event ≠ .transmit) := (steps.copies_sublist others).subset
  cases steps with
  | ask may =>
    rename_i request
    have runs : state.tasks.runs.length = state.requests.length := by
      cases last : state.requests.getLast? with
      | none =>
        have counts := replying.counts
        rw [List.getLast?_eq_none_iff] at last
        rw [last, List.length_nil] at counts ⊢
        omega
      | some last' => exact (asking.done (may last' last).1).1.symm
    refine ⟨⟨replying.kept.ask request runs, replying.recent⟩, { asking with
      differ := differ_append asking.differ (fun last is => (may last is).2)
      late := ?_
      done := by rintro ⟨⟩ }⟩
    intro answer member
    rw [List.length_append, List.length_singleton]
    cases last : state.requests.getLast? with
    | none =>
      rw [List.getLast?_eq_none_iff] at last
      rw [last]
      exact Nat.le_add_left 1 _
    | some last' => exact Nat.succ_le_succ ((asking.done (may last' last).1).2 answer member)
  | transmit last asked =>
    rename_i request k
    refine ⟨{ replying with recent := ?_ }, { asking with }⟩
    intro copy member
    have split : copy ∈ state.copies ∨ copy = ⟨request.payload, k⟩ := by
      simpa [Exchange.copies, Received.copies, or_assoc] using member
    rcases split with earlier | rfl
    · exact replying.recent copy earlier
    · have counts := replying.counts
      show state.tasks.runs.length ≤ k + 1
      omega
  | ping | unknown | lose =>
    exact ⟨replying.same rfl (copies (by simp)), { asking with }⟩
  | arrive _ taken | task _ _ taken =>
    have after := replying.task ordered asking.differ taken (copies (by simp))
    exact ⟨after, asking.task replying taken after⟩
  | missed next =>
    refine ⟨replying.same rfl (copies (by simp)), { asking with
      late := fun answer member => asking.late answer (answersOf_drop_succ _ _ member)
      done := fun answered => ⟨(asking.done answered).1, fun answer member =>
        (asking.done answered).2 answer (answersOf_drop_succ _ _ member)⟩
      inside := (List.getElem?_eq_some_iff.mp next).1 }⟩
  | ended next last asked ends =>
    obtain ⟨runs, later⟩ := asking.ended replying next last asked ends
    refine ⟨replying.same rfl (copies (by simp)), { asking with
      late := fun answer member => asking.late answer (answersOf_drop_succ _ _ member)
      done := fun _ => ⟨last.trans runs.symm, fun answer member => ?_⟩
      inside := (List.getElem?_eq_some_iff.mp next).1 }⟩
    have recent := later answer member
    show state.requests.length ≤ _
    omega

----------
-- Commands run once
----------

theorem invariants (reached : Reaches step anyEvent start state)
    : state.Ordered ∧ state.Replying ∧ state.Asking ∧ state.tasks.Marked := by
  refine reached.invariant
    (I := fun state => state.Ordered ∧ state.Replying ∧ state.Asking ∧ state.tasks.Marked)
    ⟨ordered_start, replying_start, asking_start, Tasks.marked_start⟩ ?_
  rintro before event after ⟨ordered, replying, asking, marked⟩ _ taken
  have steps := steps_of_step taken
  obtain ⟨replying', asking'⟩ := steps.asking ordered replying asking
  refine ⟨steps.ordered ordered, replying', asking', ?_⟩
  cases steps with
  | arrive _ moved | task _ _ moved => exact moved.keeps_marked marked
  | ask | transmit | ping | unknown | lose | missed | ended => exact marked

/-- Two copies on their way with the same number are of the same request: at most the last request
that was run and the next one are on their way.
-/
theorem same_tag (ordered : state.Ordered) (replying : state.Replying) (asking : state.Asking)
    {one other : Copy Nat} (first : one ∈ state.copies) (second : other ∈ state.copies)
    (number : requestSeq one.payload = requestSeq other.payload)
    : one.tag = other.tag := by
  obtain ⟨request, asked, payload⟩ := ordered.asked one first
  obtain ⟨request', asked', payload'⟩ := ordered.asked other second
  have recent := replying.recent one first
  have recent' := replying.recent other second
  have inside := (List.getElem?_eq_some_iff.mp asked).1
  have inside' := (List.getElem?_eq_some_iff.mp asked').1
  have counts := replying.counts
  have same : request.seq = request'.seq := by
    rw [payload, payload', requestSeq_of_parse request.parses,
      requestSeq_of_parse request'.parses] at number
    exact Option.some.inj number
  have before : one.tag + 1 ≠ other.tag := fun next =>
    asking.differ one.tag request request' asked (next ▸ asked') same
  have after : other.tag + 1 ≠ one.tag := fun next =>
    asking.differ other.tag request' request asked' (next ▸ asked) same.symm
  omega

theorem busy_held (ordered : state.Ordered) (replying : state.Replying) (asking : state.Asking)
    (marked : state.tasks.Marked) (steps : Steps state event after)
    (busy : after.tasks.link = .sending (.busy seq)) (new : state.tasks.link ≠ .sending (.busy seq))
    : ∃ payload k rest,
        state.up = .msg payload k :: rest ∧ requestSeq payload = some seq
        ∧ ∃ copy ∈ state.tasks.held, copy.tag = k := by
  cases steps with
  | ask | transmit | ping | unknown | lose | missed | ended => exact absurd busy new
  | task quiet known taken =>
    cases taken with
    | pinged | unknown | busy | new | unnumbered | restarted | sentOwn | marked | queued
    | refused | cleared | greeted | lost => simp_all [TaskEvent.copies, Received.copies]
    | delivered | dropped | reset | took | passed | rejected | cached | ran | sent | released =>
      exact absurd busy new
  | arrive first taken =>
    cases taken with
    | pinged | unknown | restarted | new | unnumbered => cases busy
    | busy idle numbered pending =>
      rename_i rest payload k number
      obtain rfl : number = seq := by simpa using busy
      obtain ⟨copy, held, numbered'⟩ := marked.held pending (by simp [idle]) (by simp [idle])
      refine ⟨payload, k, rest, first, numbered, copy, held, ?_⟩
      have coming : (⟨payload, k⟩ : Copy Nat) ∈ state.copies := by
        simp [copies, first, Received.copies]
      have member : copy ∈ state.copies := by simp [copies, Tasks.copies, held]
      exact same_tag ordered replying asking member coming (numbered'.trans numbered.symm)

/-- What the Uno has run and is told: each request's command at most once, complete replies only of
the lines of that one run, and `BUSY` only for a request that is queued or being handled when the
link task receives the copy that it answers.
-/
theorem runs_once {state : Exchange} (reached : Reaches step anyEvent start state)
    : (state.tasks.runs.map Run.tag).Nodup
      ∧ (∀ run ∈ state.tasks.runs, ∃ request,
          state.requests[run.tag]? = some request ∧ run.text = request.text)
      ∧ (∀ k request, state.requests[k]? = some request → state.sentFor k ≠ []
          → ∃ run ∈ state.tasks.runs, run.tag = k
              ∧ ∃ count part, part <+: replyFrames request.seq run.lines
                  ∧ state.sentFor k
                    = (List.replicate count (replyFrames request.seq run.lines)).flatten ++ part)
      ∧ ∀ event after seq,
          state.step event = some after
          → after.tasks.link = .sending (.busy seq)
          → state.tasks.link ≠ .sending (.busy seq)
          → ∃ payload k rest,
              state.up = .msg payload k :: rest ∧ requestSeq payload = some seq
              ∧ ∃ copy ∈ state.tasks.held, copy.tag = k := by
  obtain ⟨ordered, replying, asking, marked⟩ := invariants reached
  refine ⟨?_, fun run member => ?_, fun k request asked some => ?_, ?_⟩
  · have tags : state.tasks.runs.map Run.tag = List.range state.tasks.runs.length := by
      refine List.ext_getElem (by simp) (fun k inside _ => ?_)
      rw [List.length_map] at inside
      rw [List.getElem_map, List.getElem_range]
      exact (replying.kept.runs k _ (List.getElem?_eq_getElem inside)).1
    rw [tags]
    exact List.nodup_range
  · obtain ⟨k, found⟩ := List.getElem?_of_mem member
    obtain ⟨rfl, request, asked, text, _⟩ := replying.kept.runs k run found
    exact ⟨request, asked, text⟩
  · obtain ⟨frame, member⟩ := List.exists_mem_of_ne_nil _ some
    obtain ⟨⟨frame, tag⟩, filtered, rfl⟩ := List.mem_map.mp member
    obtain ⟨sent, tag_eq⟩ := List.mem_filter.mp filtered
    obtain rfl : tag = k := of_decide_eq_true tag_eq
    have found := List.getElem?_eq_getElem (replying.kept.known _ sent)
    obtain ⟨same, other, asked', _, count, part, frames, whole⟩ := replying.kept.runs tag _ found
    cases asked'.symm.trans asked
    exact ⟨_, List.mem_of_getElem? found, same, count, part, ⟨_, whole⟩, frames⟩
  · intro event after seq taken busy new
    exact busy_held ordered replying asking marked (steps_of_step taken) busy new

def toggle : Request :=
  { payload := "7,led toggle".toList, seq := 7, text := "led toggle".toList, parses := by decide }

/-- The request is sent three times: one copy runs, one comes while it runs, and one is answered from
the cache.
-/
def retransmits : List ExchangeEvent :=
  [.ask toggle, .transmit, .transmit, .transmit, .arrive, .task .link, .task .link, .task .take,
    .arrive, .task .link, .task (.finish [{ kind := .rsp, text := "on".toList }] none),
    .task .send, .task .send, .task .release, .arrive, .task .link, .task .link, .task .take,
    .task (.finish [{ kind := .rsp, text := "off".toList }] none), .task .send, .task .send,
    .task .release]

/-- The reply of the one run is sent twice. -/
theorem runs_once_of_retransmits
    : ∃ state, Reaches step anyEvent start state
        ∧ state.sentFor 0 = replyFrames 7 [{ kind := .rsp, text := "on".toList }]
            ++ replyFrames 7 [{ kind := .rsp, text := "on".toList }]
        ∧ (state.tasks.runs.map Run.tag).Nodup := by
  have executed : (runAll step anyEvent start retransmits).any (fun state => state.sentFor 0
      = replyFrames 7 [{ kind := .rsp, text := "on".toList }]
        ++ replyFrames 7 [{ kind := .rsp, text := "on".toList }]) = true := by
    decide +kernel
  obtain ⟨state, reached, sent⟩ := Reaches.of_check executed
  exact ⟨state, reached, of_decide_eq_true sent, (runs_once reached).1⟩

end Exchange

end RustyPi.Link
