import RustyPi.Link.Tasks

/-! Restarts of the Uno. Its `HELLO` reaches the session through the inbox, in order with the
requests. A request is tagged with whether its number is new since the last `HELLO` that the link
task handled.
-/

namespace RustyPi.Link

open RustyPi.Reach

/-- The tasks, with the numbers that were queued since the last `HELLO`, once there was one. -/
structure Restarts where
  tasks : Tasks Bool
  used : Option (List Nat)

/-- A frame from the Uno, or something that the tasks do. -/
inductive RestartEvent
  | ping (payload : List Char)
  | hello
  | msg (payload : List Char)
  | unknown (kind : List Char)
  | link
  | deliver (input : Input)
  | take
  | finish (lines : List Line) (action : Option Unit)
  | send
  | release
  deriving DecidableEq

namespace Restarts

def start : Restarts := { tasks := .start, used := none }

/-- The number of a request was not used since a `HELLO`. -/
def isNew (state : Restarts) (payload : List Char) : Bool :=
  match state.used, requestSeq payload with
  | some used, some seq => !used.contains seq
  | _, _ => false

/-- What an event is for the tasks. -/
def taskEvent (state : Restarts) : RestartEvent → TaskEvent Bool
  | .ping payload => .receive (.ping payload)
  | .hello => .receive .hello
  | .msg payload => .receive (.msg payload (state.isNew payload))
  | .unknown kind => .receive (.unknown kind)
  | .link => .link
  | .deliver input => .deliver input
  | .take => .take
  | .finish lines action => .finish lines action
  | .send => .send
  | .release => .release

/-- The numbers in use after an event: a handled `HELLO` frees all, a queued request uses its own. -/
def nextUsed (state : Restarts) : RestartEvent → Option (List Nat)
  | .link =>
    match state.tasks.link with
    | .greeting => some []
    | .queueing payload _ =>
      if state.tasks.inbox.length < inboxLimit then
        state.used.map ((requestSeq payload).toList ++ ·)
      else state.used
    | _ => state.used
  | _ => state.used

def step (state : Restarts) (event : RestartEvent) : Option Restarts :=
  (state.tasks.step (state.taskEvent event)).map
    (fun tasks => { tasks, used := state.nextUsed event })

/-- The inbox has room when the link task queues that the Uno restarted. -/
def Heard (state : Restarts) (event : RestartEvent) : Prop :=
  event = .link → state.tasks.link = .greeting → state.tasks.inbox.length < inboxLimit

/-- The last number after what is in the inbox was handled. -/
def after (last : Option Nat) : Inbound Bool → Option Nat
  | .hello => none
  | .msg payload _ => (requestSeq payload).or last
  | .input _ => last

/-- A request whose number isn't the last one, so that it is run. -/
def Runs (last : Option Nat) (payload : List Char) : Prop :=
  ∃ seq, requestSeq payload = some seq ∧ last ≠ some seq

/-- The new requests in the inbox will be run. -/
def Clean : Option Nat → List (Inbound Bool) → Prop
  | _, [] => True
  | last, frame :: rest =>
    (∀ payload, frame = .msg payload true → Runs last payload) ∧ Clean (after last frame) rest

variable {frame : Inbound Bool} {state next : Restarts} {payload : List Char}

theorem clean_append {last : Option Nat} {inbox : List (Inbound Bool)} (clean : Clean last inbox)
    (fresh : ∀ payload, frame = .msg payload true → Runs (inbox.foldl after last) payload)
    : Clean last (inbox ++ [frame]) := by
  induction inbox generalizing last with
  | nil => exact ⟨fresh, trivial⟩
  | cons first rest ih => exact ⟨clean.1, ih clean.2 fresh⟩

/-- The last number once the shell has done with what it has in hand. -/
def inHand (tasks : Tasks Bool) : Option Nat :=
  match tasks.shell with
  | .handling payload _ => (requestSeq payload).or tasks.session.lastSeq
  | _ => tasks.session.lastSeq

/-- A request is new: its number isn't among those in use. -/
def New (state : Restarts) (payload : List Char) : Prop :=
  ∃ used seq, state.used = some used ∧ requestSeq payload = some seq ∧ seq ∉ used

theorem new_of_isNew (isNew : state.isNew payload = true)
    : state.New payload := by
  unfold Restarts.isNew at isNew
  split at isNew
  · rename_i used seq known numbered
    exact ⟨used, seq, known, numbered, by simpa using isNew⟩
  · cases isNew

/-- New requests are run wherever they are, and the last number after everything in the inbox is in
use.
-/
structure Fresh (state : Restarts) : Prop where
  handling
    : ∀ payload, state.tasks.shell = .handling payload true
        → Runs state.tasks.session.lastSeq payload
  clean : Clean (inHand state.tasks) state.tasks.inbox
  coming
    : ∀ payload, state.tasks.link = .unmarked payload true
        ∨ state.tasks.link = .queueing payload true → state.New payload
  used
    : ∀ used, state.used = some used
        → ∀ seq, state.tasks.inbox.foldl after (inHand state.tasks) = some seq → seq ∈ used

theorem fresh_start : Fresh start where
  handling := by simp [start, Tasks.start]
  clean := trivial
  coming := by simp [start, Tasks.start]
  used := by simp [start]

section Fresh

variable (fresh : state.Fresh)
include fresh

/-- A new request will be run once everything before it is handled. -/
theorem Fresh.runs (new : state.New payload)
    : Runs (state.tasks.inbox.foldl after (inHand state.tasks)) payload := by
  obtain ⟨used, seq, known, numbered, absent⟩ := new
  exact ⟨seq, numbered, fun last => absent (fresh.used used known seq last)⟩

/-- Steps of the tasks that leave the shell and the inbox as they are. -/
theorem Fresh.unmoved (shell : next.tasks.shell = state.tasks.shell)
    (session : next.tasks.session = state.tasks.session)
    (inbox : next.tasks.inbox = state.tasks.inbox) (used : next.used = state.used)
    (coming
      : ∀ payload, next.tasks.link = .unmarked payload true
          ∨ next.tasks.link = .queueing payload true → state.New payload)
    : next.Fresh := by
  have hand : inHand next.tasks = inHand state.tasks := by rw [inHand, shell, session]; rfl
  constructor
  case handling => rw [shell, session]; exact fresh.handling
  case clean => rw [hand, inbox]; exact fresh.clean
  case coming =>
    intro payload phase
    obtain ⟨numbers, seq, known, new⟩ := coming payload phase
    exact ⟨numbers, seq, used.trans known, new⟩
  case used => rw [used, hand, inbox]; exact fresh.used

/-- Something more in the inbox: the last number afterwards has to be in use. -/
theorem Fresh.queued (shell : next.tasks.shell = state.tasks.shell)
    (session : next.tasks.session = state.tasks.session)
    (inbox : next.tasks.inbox = state.tasks.inbox ++ [frame])
    (runs
      : ∀ payload, frame = .msg payload true
          → Runs (state.tasks.inbox.foldl after (inHand state.tasks)) payload)
    (coming
      : ∀ payload, next.tasks.link = .unmarked payload true
          ∨ next.tasks.link = .queueing payload true → next.New payload)
    (used
      : ∀ used, next.used = some used
          → ∀ seq, after (state.tasks.inbox.foldl after (inHand state.tasks)) frame = some seq
            → seq ∈ used)
    : next.Fresh := by
  have hand : inHand next.tasks = inHand state.tasks := by rw [inHand, shell, session]; rfl
  constructor
  case handling => rw [shell, session]; exact fresh.handling
  case clean => rw [hand, inbox]; exact clean_append fresh.clean runs
  case coming => exact coming
  case used => rw [hand, inbox, List.foldl_append]; exact used

/-- The shell has done with something from the inbox, or with a request. -/
theorem Fresh.handled (used : next.used = state.used) (link : next.tasks.link = state.tasks.link)
    (handling
      : ∀ payload, next.tasks.shell = .handling payload true
          → Runs next.tasks.session.lastSeq payload)
    (clean : Clean (inHand next.tasks) next.tasks.inbox)
    (last
      : next.tasks.inbox.foldl after (inHand next.tasks)
        = state.tasks.inbox.foldl after (inHand state.tasks))
    : next.Fresh where
  handling := handling
  clean := clean
  coming := by
    intro payload phase
    rw [link] at phase
    obtain ⟨numbers, seq, known, new⟩ := fresh.coming payload phase
    exact ⟨numbers, seq, used.trans known, new⟩
  used := by
    rw [used, last]
    exact fresh.used

theorem Fresh.took (used : next.used = state.used)
    (link : next.tasks.link = state.tasks.link) {rest : List (Inbound Bool)}
    (idle : state.tasks.shell = .idle) (first : state.tasks.inbox = frame :: rest)
    (inbox : next.tasks.inbox = rest)
    (hand : inHand next.tasks = after state.tasks.session.lastSeq frame)
    (handling
      : ∀ payload, next.tasks.shell = .handling payload true
          → frame = .msg payload true ∧ next.tasks.session = state.tasks.session)
    : next.Fresh := by
  have before : inHand state.tasks = state.tasks.session.lastSeq := by rw [inHand, idle]
  have clean := fresh.clean
  rw [first, before] at clean
  refine fresh.handled used link (fun payload phase => ?_) ?_ ?_
  · obtain ⟨same, session⟩ := handling payload phase
    rw [session]
    exact clean.1 payload same
  · rw [hand, inbox]
    exact clean.2
  · rw [hand, inbox, first, before, List.foldl_cons]

/-- A step of the shell that leaves the inbox. -/
theorem Fresh.answered (used : next.used = state.used)
    (link : next.tasks.link = state.tasks.link) (inbox : next.tasks.inbox = state.tasks.inbox)
    (handling : ∀ payload, next.tasks.shell ≠ .handling payload true)
    (hand : inHand next.tasks = inHand state.tasks)
    : next.Fresh := by
  refine fresh.handled used link (fun payload phase => absurd phase (handling payload)) ?_ ?_
  · rw [hand, inbox]
    exact fresh.clean
  · rw [hand, inbox]

theorem used_queued {tag : Bool} (queueing : state.tasks.link = .queueing payload tag)
    (room : state.tasks.inbox.length < inboxLimit)
    : ∀ used, state.nextUsed .link = some used
        → ∀ seq, after (state.tasks.inbox.foldl after (inHand state.tasks)) (.msg payload tag)
            = some seq
          → seq ∈ used := by
  intro used next seq last
  simp only [nextUsed, queueing, if_pos room, Option.map_eq_some_iff] at next
  obtain ⟨before, known, rfl⟩ := next
  cases numbered : requestSeq payload with
  | none =>
    rw [after, numbered, Option.none_or] at last
    exact List.mem_append_right _ (fresh.used before known seq last)
  | some number =>
    rw [after, numbered, Option.some_or] at last
    simp [Option.some.inj last]

/-- Every step keeps new requests new, as long as restarts are heard. -/
theorem step_fresh {event : RestartEvent} (heard : state.Heard event)
    (taken : state.step event = some next)
    : next.Fresh := by
  obtain ⟨tasks, moved, rfl⟩ := Option.map_eq_some_iff.mp taken
  have steps := Tasks.steps_of_step moved
  cases event with
  | ping | unknown | hello =>
    cases steps
    exact fresh.unmoved rfl rfl rfl rfl (by simp)
  | msg payload =>
    cases steps with
    | busy => exact fresh.unmoved rfl rfl rfl rfl (by simp)
    | new | unnumbered =>
      refine fresh.unmoved rfl rfl rfl rfl (fun other phase => new_of_isNew ?_)
      have same : payload = other ∧ state.isNew payload = true := by simpa using phase
      rw [← same.1]
      exact same.2
  | link =>
    cases steps with
    | sentOwn sending =>
      exact fresh.unmoved rfl rfl rfl (by simp [nextUsed, sending]) (by simp)
    | marked unmarked =>
      refine fresh.unmoved rfl rfl rfl (by simp [nextUsed, unmarked]) (fun payload phase => ?_)
      obtain ⟨rfl, rfl⟩ : _ = payload ∧ _ = true := by simpa using phase
      exact fresh.coming _ (Or.inl unmarked)
    | queued queueing room =>
      refine fresh.queued rfl rfl rfl (fun payload same => ?_) (by simp) ?_
      · obtain ⟨rfl, rfl⟩ : _ = payload ∧ _ = true := by simpa using same
        exact fresh.runs (fresh.coming _ (Or.inr queueing))
      · exact used_queued fresh queueing room
    | refused queueing full =>
      exact fresh.unmoved rfl rfl rfl (by simp [nextUsed, queueing, full]) (by simp)
    | cleared refused =>
      exact fresh.unmoved rfl rfl rfl (by simp [nextUsed, refused]) (by simp)
    | greeted greeting =>
      exact fresh.queued rfl rfl rfl (by simp) (by simp) (by simp [after])
    | lost greeting full => exact absurd (heard rfl greeting) full
  | deliver input =>
    cases steps with
    | delivered => exact fresh.queued rfl rfl rfl (by simp) fresh.coming fresh.used
    | dropped => exact fresh
  | take =>
    cases steps with
    | reset idle first =>
      exact fresh.took rfl rfl idle first rfl (by simp [inHand, idle, after, Session.reset])
        (by simp [idle])
    | took idle first =>
      exact fresh.took rfl rfl idle first rfl (by simp [inHand, after]) (by simp)
    | passed idle first =>
      exact fresh.took rfl rfl idle first rfl (by simp [inHand, idle, after]) (by simp [idle])
  | finish lines action =>
    cases steps with
    | rejected handling malformed =>
      refine fresh.answered rfl rfl rfl (by simp) ?_
      simp [inHand, handling, requestSeq, malformed]
    | cached handling parsed last =>
      refine fresh.answered rfl rfl rfl (by simp) ?_
      simp [inHand, handling, requestSeq_of_parse parsed, last]
    | ran handling parsed =>
      refine fresh.answered rfl rfl rfl (by simp) ?_
      simp [inHand, handling, requestSeq_of_parse parsed]
  | send =>
    cases steps with
    | sent replying => exact fresh.answered rfl rfl rfl (by simp) (by simp [inHand, replying])
  | release =>
    cases steps with
    | released replying => exact fresh.answered rfl rfl rfl (by simp) (by simp [inHand, replying])

end Fresh

/-- The session handles every request. -/
theorem step_finish {tag : Bool} (handling : state.tasks.shell = .handling payload tag)
    (lines : List Line) (action : Option Unit)
    : ∃ tasks, state.step (.finish lines action) = some { state with tasks }
        ∧ state.tasks.Steps (.finish lines action) tasks := by
  cases moved : state.tasks.step (.finish lines action) with
  | none => simp [Tasks.step, Tasks.finish, handling] at moved
  | some tasks =>
    refine ⟨tasks, ?_, Tasks.steps_of_step moved⟩
    rw [step, taskEvent, moved]
    rfl

/-- If every `HELLO` finds room in the inbox, then a request that the shell handles and whose number
wasn't used since the last one is run as a new command, and its reply is what that gave.
-/
theorem ran_of_new {state : Restarts} (reached : Reaches step Heard start state)
    {payload : List Char} (handling : state.tasks.shell = .handling payload true)
    (lines : List Line) (action : Option Unit)
    : ∃ text next,
        state.step (.finish lines action) = some next
        ∧ next.tasks.runs = state.tasks.runs ++ [{ tag := true, text, lines }]
        ∧ next.tasks.session.reply = lines := by
  have fresh : state.Fresh := by
    refine reached.invariant fresh_start ?_
    exact fun _ _ _ fresh heard taken => step_fresh fresh heard taken
  obtain ⟨seq, numbered, other⟩ := fresh.handling payload handling
  obtain ⟨tasks, taken, steps⟩ := step_finish handling lines action
  cases steps with
  | rejected handling' malformed =>
    cases handling.symm.trans handling'
    simp [requestSeq, malformed] at numbered
  | cached handling' parsed last =>
    cases handling.symm.trans handling'
    rw [requestSeq_of_parse parsed] at numbered
    exact absurd (last.trans numbered) other
  | ran handling' parsed =>
    cases handling.symm.trans handling'
    exact ⟨_, _, taken, rfl, rfl⟩

instance (state : Restarts) (event : RestartEvent) : Decidable (state.Heard event) :=
  inferInstanceAs (Decidable (_ → _ → _))

/-- A request, a restart that is heard, and the same number again. -/
def heardRestart : List RestartEvent :=
  [.msg "1,led toggle".toList, .link, .link, .take,
    .finish [{ kind := .rsp, text := "on".toList }] none, .send, .send, .release, .hello, .link,
    .link, .msg "1,uptime".toList, .link, .link, .take, .take]

theorem ran_of_heardRestart
    : ∃ state, Reaches step Heard start state
        ∧ state.tasks.session.reply = [{ kind := .rsp, text := "on".toList }]
        ∧ ∃ text next,
            state.step (.finish [] none) = some next
            ∧ next.tasks.runs = state.tasks.runs ++ [{ tag := true, text, lines := [] }]
            ∧ next.tasks.session.reply = [] := by
  have executed : (runAll step Heard start heardRestart).any (fun state =>
      state.tasks.shell = .handling "1,uptime".toList true
      ∧ state.tasks.session.reply = [{ kind := .rsp, text := "on".toList }]) = true := by
    decide +kernel
  obtain ⟨state, reached, found⟩ := Reaches.of_check executed
  obtain ⟨handling, reply⟩ := of_decide_eq_true found
  exact ⟨state, reached, reply, ran_of_new reached handling [] none⟩

/-- A request with the number 1, eight typed lines, a restart, and the number 1 again. -/
def unheard : List RestartEvent :=
  [.msg "1,led toggle".toList, .link, .link, .take,
    .finish [{ kind := .rsp, text := "on".toList }] none, .send, .send, .release]
  ++ List.replicate 8 (.deliver (.typed []))
  ++ [.hello, .link, .link, .take, .msg "1,uptime".toList, .link, .link]
  ++ List.replicate 8 .take

/-- With a full inbox the restart isn't heard: the request after it is answered with the reply from
before it, and nothing is run.
-/
theorem stale_of_unheard
    : ∃ state, Reaches step anyEvent start state
        ∧ state.tasks.shell = .handling "1,uptime".toList true
        ∧ ∀ lines action, ∃ next,
            state.step (.finish lines action) = some next
            ∧ next.tasks.runs = state.tasks.runs
            ∧ next.tasks.shell = .replying "1,uptime".toList true
                (replyFrames 1 [{ kind := .rsp, text := "on".toList }]) none := by
  have executed : (runAll step anyEvent start unheard).any (fun state =>
      state.tasks.shell = .handling "1,uptime".toList true
      ∧ state.tasks.session
        = { lastSeq := some 1, reply := [{ kind := .rsp, text := "on".toList }] }) = true := by
    decide +kernel
  obtain ⟨state, reached, found⟩ := Reaches.of_check executed
  obtain ⟨handling, session⟩ := of_decide_eq_true found
  refine ⟨state, reached, handling, fun lines action => ?_⟩
  have parses : parseRequest "1,uptime".toList = some (1, "uptime".toList) := by decide +kernel
  obtain ⟨tasks, taken, steps⟩ := step_finish handling lines action
  cases steps with
  | rejected handling' malformed =>
    cases handling.symm.trans handling'
    rw [parses] at malformed
    cases malformed
  | cached handling' parsed last =>
    cases handling.symm.trans handling'
    rw [parses] at parsed
    cases parsed
    refine ⟨_, taken, rfl, ?_⟩
    rw [session]
  | ran handling' parsed other =>
    cases handling.symm.trans handling'
    rw [parses] at parsed
    cases parsed
    rw [session] at other
    exact absurd rfl other

end Restarts

end RustyPi.Link
