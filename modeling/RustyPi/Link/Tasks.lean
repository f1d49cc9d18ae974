import RustyPi.Link.Session
import RustyPi.Lib.Reach

/-! The link task and the shell task of `src/main.rs`. They share the inbox and the number of the
pending request; each access to one of them is a step, so that the two tasks interleave at any of
them. Requests carry a tag that the kernel doesn't see, to tell copies of one request from others.
-/

namespace RustyPi.Link

/-- More than this many waiting and new ones are dropped. -/
def inboxLimit : Nat := 8

/-- What other tasks hand the shell: typed lines, Ctrl+C, lines from the network. -/
inductive Input
  | typed (line : List Char)
  | interrupt
  | remote (text : List Char)
  deriving DecidableEq, Repr

/-- What waits for the shell task. -/
inductive Inbound (Tag : Type)
  | hello
  | msg (payload : List Char) (tag : Tag)
  | input (input : Input)
  deriving DecidableEq, Repr

/-- A frame from the Uno, by its kind. -/
inductive Received (Tag : Type)
  | ping (payload : List Char)
  | hello
  | msg (payload : List Char) (tag : Tag)
  | unknown (kind : List Char)
  deriving DecidableEq, Repr

/-- Where the link task is. -/
inductive LinkPhase (Tag : Type)
  | idle
  | sending (frame : Outgoing)
  /-- A request that isn't pending: about to mark it as pending. -/
  | unmarked (payload : List Char) (tag : Tag)
  /-- About to queue it. -/
  | queueing (payload : List Char) (tag : Tag)
  /-- It didn't fit: about to clear the mark. -/
  | refused
  /-- The Uno restarted, and nothing is pending: about to queue that. -/
  | greeting
  deriving DecidableEq, Repr

/-- Where the shell task is. -/
inductive ShellPhase (Tag : Type)
  | idle
  /-- The session handles a request. -/
  | handling (payload : List Char) (tag : Tag)
  /-- These frames of its reply are left to send; afterwards it is not pending any more. -/
  | replying (payload : List Char) (tag : Tag) (rest : List Outgoing) (action : Option Unit)
  deriving DecidableEq, Repr

/-- A command that was run for a request. -/
structure Run (Tag : Type) where
  tag : Tag
  text : List Char
  lines : List Line
  deriving DecidableEq, Repr

structure Tasks (Tag : Type) where
  /-- The sequence number of the request the shell has queued or is running, plus one; 0 for none. -/
  pending : Nat
  inbox : List (Inbound Tag)
  link : LinkPhase Tag
  shell : ShellPhase Tag
  session : Session
  /-- The frames that were sent, the shell's with the request they are for. -/
  sent : List (Outgoing × Option Tag)
  /-- The commands that were run for requests. -/
  runs : List (Run Tag)

inductive TaskEvent (Tag : Type)
  /-- The link task reads a frame. -/
  | receive (frame : Received Tag)
  /-- The link task goes on. -/
  | link
  /-- Another task delivers something. -/
  | deliver (input : Input)
  /-- The shell task takes what is first in the inbox. -/
  | take
  /-- The session has handled the request; if it ran the command, this is what that gave. -/
  | finish (lines : List Line) (action : Option Unit)
  /-- The shell task sends a frame of the reply. -/
  | send
  /-- The shell task has sent the reply. -/
  | release
  deriving DecidableEq, Repr

namespace Tasks

variable {Tag : Type}

def start : Tasks Tag :=
  { pending := 0, inbox := [], link := .idle, shell := .idle, session := .new, sent := [],
    runs := [] }

/-- Queues something for the shell task; it is dropped if the inbox is full. -/
def deliver (tasks : Tasks Tag) (frame : Inbound Tag) : Tasks Tag × Bool :=
  if tasks.inbox.length < inboxLimit then ({ tasks with inbox := tasks.inbox ++ [frame] }, true)
  else (tasks, false)

/-- The link task reads a frame, up to its first access to what it shares with the shell. -/
def receive (tasks : Tasks Tag) : Received Tag → Tasks Tag
  | .ping payload => { tasks with link := .sending (.pong payload) }
  | .hello => { tasks with pending := 0, link := .greeting }
  | .msg payload tag =>
    match requestSeq payload with
    | some seq =>
      if tasks.pending = seq + 1 then { tasks with link := .sending (.busy seq) }
      else { tasks with link := .unmarked payload tag }
    | none => { tasks with link := .queueing payload tag }
  | .unknown kind => { tasks with link := .sending (.err ("unknown kind ".toList ++ kind)) }

/-- The next step of the link task in the middle of a frame. -/
def goOn (tasks : Tasks Tag) : Option (Tasks Tag) :=
  match tasks.link with
  | .idle => none
  | .sending frame => some { tasks with sent := tasks.sent ++ [(frame, none)], link := .idle }
  | .unmarked payload tag =>
    some { tasks with
      pending := (requestSeq payload).elim tasks.pending (· + 1), link := .queueing payload tag }
  | .queueing payload tag =>
    let (tasks, queued) := tasks.deliver (.msg payload tag)
    some { tasks with link := if queued then .idle else .refused }
  | .refused => some { tasks with pending := 0, link := .idle }
  | .greeting =>
    let (tasks, _) := tasks.deliver .hello
    some { tasks with link := .sending .hello }

/-- The shell task takes what is first in the inbox. What isn't a request it handles at once: that
needs nothing it shares with the link task.
-/
def take (tasks : Tasks Tag) : Option (Tasks Tag) :=
  match tasks.shell, tasks.inbox with
  | .idle, .hello :: rest => some { tasks with inbox := rest, session := tasks.session.reset }
  | .idle, .msg payload tag :: rest =>
    some { tasks with inbox := rest, shell := .handling payload tag }
  | .idle, .input _ :: rest => some { tasks with inbox := rest }
  | _, _ => none

def finish (tasks : Tasks Tag) (lines : List Line) (action : Option Unit) : Option (Tasks Tag) :=
  match tasks.shell with
  | .handling payload tag =>
    let (session, frames, action) := tasks.session.handle payload (fun _ => (lines, action))
    some { tasks with
      session
      shell := .replying payload tag frames action
      runs := tasks.runs
        ++ (tasks.session.runs payload).toList.map (fun text => { tag, text, lines }) }
  | _ => none

def send (tasks : Tasks Tag) : Option (Tasks Tag) :=
  match tasks.shell with
  | .replying payload tag (frame :: rest) action =>
    some { tasks with
      sent := tasks.sent ++ [(frame, some tag)], shell := .replying payload tag rest action }
  | _ => none

/-- A retransmit now gets the cached reply, unless the Uno already sent its next request, which is
pending now instead.
-/
def release (tasks : Tasks Tag) : Option (Tasks Tag) :=
  match tasks.shell with
  | .replying payload _ [] _ =>
    let ours := (requestSeq payload).any (fun seq => tasks.pending = seq + 1)
    some { tasks with pending := if ours then 0 else tasks.pending, shell := .idle }
  | _ => none

def step (tasks : Tasks Tag) : TaskEvent Tag → Option (Tasks Tag)
  | .receive frame => if tasks.link matches .idle then some (tasks.receive frame) else none
  | .link => tasks.goOn
  | .deliver input => some (tasks.deliver (.input input)).1
  | .take => tasks.take
  | .finish lines action => tasks.finish lines action
  | .send => tasks.send
  | .release => tasks.release

/-- The steps of the two tasks, one constructor for each way a step can go. -/
inductive Steps (tasks : Tasks Tag) : TaskEvent Tag → Tasks Tag → Prop
  | pinged {payload} (idle : tasks.link = .idle)
    : Steps tasks (.receive (.ping payload)) { tasks with link := .sending (.pong payload) }
  | unknown {kind} (idle : tasks.link = .idle)
    : Steps tasks (.receive (.unknown kind))
        { tasks with link := .sending (.err ("unknown kind ".toList ++ kind)) }
  | restarted (idle : tasks.link = .idle)
    : Steps tasks (.receive .hello) { tasks with pending := 0, link := .greeting }
  | busy {payload tag seq} (idle : tasks.link = .idle)
    (numbered : requestSeq payload = some seq) (pending : tasks.pending = seq + 1)
    : Steps tasks (.receive (.msg payload tag)) { tasks with link := .sending (.busy seq) }
  | new {payload tag} (idle : tasks.link = .idle)
    : Steps tasks (.receive (.msg payload tag)) { tasks with link := .unmarked payload tag }
  | unnumbered {payload tag} (idle : tasks.link = .idle)
    (unnumbered : requestSeq payload = none)
    : Steps tasks (.receive (.msg payload tag)) { tasks with link := .queueing payload tag }
  | sentOwn {frame} (sending : tasks.link = .sending frame)
    : Steps tasks .link { tasks with sent := tasks.sent ++ [(frame, none)], link := .idle }
  | marked {payload tag} (unmarked : tasks.link = .unmarked payload tag)
    : Steps tasks .link
        { tasks with
          pending := (requestSeq payload).elim tasks.pending (· + 1)
          link := .queueing payload tag }
  | queued {payload tag} (queueing : tasks.link = .queueing payload tag)
    (room : tasks.inbox.length < inboxLimit)
    : Steps tasks .link
        { tasks with inbox := tasks.inbox ++ [.msg payload tag], link := .idle }
  | refused {payload tag} (queueing : tasks.link = .queueing payload tag)
    (full : ¬tasks.inbox.length < inboxLimit)
    : Steps tasks .link { tasks with link := .refused }
  | cleared (refused : tasks.link = .refused)
    : Steps tasks .link { tasks with pending := 0, link := .idle }
  | greeted (greeting : tasks.link = .greeting) (room : tasks.inbox.length < inboxLimit)
    : Steps tasks .link
        { tasks with inbox := tasks.inbox ++ [.hello], link := .sending .hello }
  | lost (greeting : tasks.link = .greeting) (full : ¬tasks.inbox.length < inboxLimit)
    : Steps tasks .link { tasks with link := .sending .hello }
  | delivered {input} (room : tasks.inbox.length < inboxLimit)
    : Steps tasks (.deliver input) { tasks with inbox := tasks.inbox ++ [.input input] }
  | dropped {input} : Steps tasks (.deliver input) tasks
  | reset {rest} (idle : tasks.shell = .idle)
    (first : tasks.inbox = .hello :: rest)
    : Steps tasks .take { tasks with inbox := rest, session := tasks.session.reset }
  | took {payload tag rest}
    (idle : tasks.shell = .idle) (first : tasks.inbox = .msg payload tag :: rest)
    : Steps tasks .take { tasks with inbox := rest, shell := .handling payload tag }
  | passed {input rest}
    (idle : tasks.shell = .idle) (first : tasks.inbox = .input input :: rest)
    : Steps tasks .take { tasks with inbox := rest }
  | rejected {payload tag lines action}
    (handling : tasks.shell = .handling payload tag) (malformed : parseRequest payload = none)
    : Steps tasks (.finish lines action)
        { tasks with
          shell := .replying payload tag [.err "MSG needs a sequence number".toList] none }
  | cached {payload tag lines action seq text} (handling : tasks.shell = .handling payload tag)
    (parsed : parseRequest payload = some (seq, text)) (last : tasks.session.lastSeq = some seq)
    : Steps tasks (.finish lines action)
        { tasks with
          shell := .replying payload tag (replyFrames seq tasks.session.reply) none }
  | ran {payload tag lines action seq text} (handling : tasks.shell = .handling payload tag)
    (parsed : parseRequest payload = some (seq, text)) (other : tasks.session.lastSeq ≠ some seq)
    : Steps tasks (.finish lines action)
        { tasks with
          session := { lastSeq := some seq, reply := lines }
          shell := .replying payload tag (replyFrames seq lines) action
          runs := tasks.runs ++ [{ tag, text, lines }] }
  | sent {payload tag frame rest action} (replying : tasks.shell = .replying payload tag (frame :: rest) action)
    : Steps tasks .send
        { tasks with
          sent := tasks.sent ++ [(frame, some tag)], shell := .replying payload tag rest action }
  | released {payload tag action pending}
    (replying : tasks.shell = .replying payload tag [] action)
    (cleared
      : pending = 0
        ∨ pending = tasks.pending ∧ ∀ seq, requestSeq payload = some seq → pending ≠ seq + 1)
    : Steps tasks .release { tasks with pending, shell := .idle }

/-- Every step is one of the listed ones, by the cases of the step function. -/
theorem steps_of_step {tasks after : Tasks Tag} {event : TaskEvent Tag}
    (taken : tasks.step event = some after)
    : Steps tasks event after := by
  cases event with
  | receive frame => cases frame <;> grind [step, receive, Steps]
  | finish lines action =>
    simp only [step, finish, Session.handle, Session.runs] at taken
    grind [Steps, Option.toList]
  | release =>
    simp only [step, release] at taken
    split at taken
    · cases taken
      refine .released ‹_› ?_
      grind
    · cases taken
  | _ => grind [step, goOn, deliver, take, send, Steps]

end Tasks

/-- A copy of a request. -/
structure Copy (Tag : Type) where
  payload : List Char
  tag : Tag

variable {Tag : Type}

def Received.copies : Received Tag → List (Copy Tag)
  | .msg payload tag => [{ payload, tag }]
  | _ => []

def Inbound.copies : Inbound Tag → List (Copy Tag)
  | .msg payload tag => [{ payload, tag }]
  | _ => []

def LinkPhase.copies : LinkPhase Tag → List (Copy Tag)
  | .unmarked payload tag | .queueing payload tag => [{ payload, tag }]
  | _ => []

def ShellPhase.copies : ShellPhase Tag → List (Copy Tag)
  | .handling payload tag | .replying payload tag _ _ => [{ payload, tag }]
  | .idle => []

def TaskEvent.copies : TaskEvent Tag → List (Copy Tag)
  | .receive frame => frame.copies
  | _ => []

namespace Tasks

/-- The requests that are queued or being handled. -/
def held (tasks : Tasks Tag) : List (Copy Tag) :=
  tasks.shell.copies ++ tasks.inbox.flatMap Inbound.copies

/-- The requests that the tasks have, in the order they came. -/
def copies (tasks : Tasks Tag) : List (Copy Tag) := tasks.held ++ tasks.link.copies

/-- The shell's frames among those that were sent, with the requests they are for. -/
def answersOf (sent : List (Outgoing × Option Tag)) : List (Outgoing × Tag) :=
  sent.filterMap (fun (frame, tag) => tag.map (fun tag => (frame, tag)))

variable {tasks after : Tasks Tag} {event : TaskEvent Tag}

/-- A step moves the requests on or drops them, but doesn't reorder them. -/
theorem Steps.copies_sublist (steps : Steps tasks event after)
    : after.copies.Sublist (tasks.copies ++ event.copies) := by
  cases steps
  all_goals
    simp [copies, held, TaskEvent.copies, Received.copies, Inbound.copies, LinkPhase.copies,
      ShellPhase.copies, *]

def NoHello (tasks : Tasks Tag) : Prop := tasks.link ≠ .greeting ∧ .hello ∉ tasks.inbox

theorem Steps.noHello (steps : Steps tasks event after) (quiet : event ≠ .receive .hello)
    (none : tasks.NoHello)
    : after.NoHello := by
  obtain ⟨noGreeting, absent⟩ := none
  cases steps with
  | restarted => exact absurd rfl quiet
  | greeted greeting | lost greeting => exact absurd greeting noGreeting
  | reset idle first | took idle first | passed idle first =>
    rw [first, List.mem_cons, not_or] at absent
    exact ⟨noGreeting, absent.2⟩
  | _ => simp [NoHello, *]

/-- Some of the requests has this number. -/
def Numbered (copies : List (Copy Tag)) (seq : Nat) : Prop :=
  ∃ copy ∈ copies, requestSeq copy.payload = some seq

/-- What is pending is queued or being handled, or the link task is at it. -/
def Marked (tasks : Tasks Tag) : Prop :=
  ∀ seq, tasks.pending = seq + 1
    → tasks.link = .refused ∨ Numbered tasks.held seq
      ∨ ∃ payload tag, tasks.link = .queueing payload tag ∧ requestSeq payload = some seq

theorem marked_start : Marked (start : Tasks Tag) := fun _ pending => nomatch pending

theorem Numbered.mono {copies more : List (Copy Tag)} {seq : Nat}
    (numbered : Numbered copies seq) (subset : copies ⊆ more)
    : Numbered more seq := by
  obtain ⟨copy, member, parsed⟩ := numbered
  exact ⟨copy, subset member, parsed⟩

/-- While the link task isn't at a request, what is pending is held. -/
theorem Marked.held (marked : tasks.Marked) {seq : Nat} (pending : tasks.pending = seq + 1)
    (others : tasks.link ≠ .refused) (away : ∀ payload tag, tasks.link ≠ .queueing payload tag)
    : Numbered tasks.held seq := by
  rcases marked seq pending with refused | held | ⟨payload, tag, queueing, _⟩
  · exact absurd refused others
  · exact held
  · exact absurd queueing (away payload tag)

theorem Steps.keeps_marked (steps : Steps tasks event after) (marked : tasks.Marked)
    : after.Marked := by
  intro seq pending
  cases steps with
  | pinged idle | unknown idle | busy idle | new idle | unnumbered idle =>
    exact .inr (Or.inl (marked.held pending (by simp [idle]) (by simp [idle])))
  | sentOwn sending =>
    exact .inr (Or.inl (marked.held pending (by simp [sending]) (by simp [sending])))
  | restarted | cleared => cases pending
  | marked unmarked =>
    rename_i payload tag
    cases numbered : requestSeq payload with
    | none =>
      rw [numbered] at pending
      exact .inr (Or.inl (marked.held pending (by simp [unmarked]) (by simp [unmarked])))
    | some number =>
      rw [numbered] at pending
      obtain rfl : number = seq := Nat.succ.inj pending
      exact .inr (Or.inr ⟨payload, tag, rfl, numbered⟩)
  | queued queueing room =>
    rename_i payload tag
    rcases marked seq pending with refused | held | ⟨payload', tag', same, numbered⟩
    · rw [queueing] at refused
      cases refused
    · exact .inr (Or.inl (held.mono (by simp [Tasks.held])))
    · rw [queueing] at same
      cases same
      exact .inr (Or.inl ⟨⟨payload, tag⟩, by simp [Tasks.held, Inbound.copies], numbered⟩)
  | refused => exact .inl rfl
  | greeted greeting | lost greeting =>
    have held := marked.held pending (by simp [greeting]) (by simp [greeting])
    exact .inr (Or.inl (held.mono (by simp [Tasks.held])))
  | delivered =>
    refine (marked seq pending).imp_right (Or.imp_left (·.mono ?_))
    simp [Tasks.held]
  | dropped => exact marked seq pending
  | reset idle first | took idle first | passed idle first =>
    refine (marked seq pending).imp_right (Or.imp_left (·.mono ?_))
    simp [Tasks.held, idle, first, ShellPhase.copies, Inbound.copies]
  | rejected busy | cached busy | ran busy | sent busy =>
    refine (marked seq pending).imp_right (Or.imp_left (·.mono ?_))
    simp [Tasks.held, busy, ShellPhase.copies]
  | released replying cleared =>
    -- what is still pending isn't the request that was just answered
    rcases cleared with rfl | ⟨rfl, others⟩
    · cases pending
    · refine (marked seq pending).imp_right (Or.imp_left ?_)
      rintro ⟨copy, member, numbered⟩
      refine ⟨copy, ?_, numbered⟩
      simp only [Tasks.held, replying, ShellPhase.copies, List.cons_append, List.nil_append,
        List.mem_cons] at member ⊢
      refine member.resolve_left ?_
      rintro rfl
      exact others seq numbered pending

end Tasks

end RustyPi.Link
