import Mathlib.Data.List.Perm.Basic
import RustyPi.Lib.Reach
import RustyPi.Net.Dns
import RustyPi.Net.Interface

/-! Looking names up: `src/sys/net/lookup.rs`, and `resolve` with the network task that answers it, of
`src/sys/net/mod.rs`. A call puts a request into one queue and waits for its number in another; the
task carries the request from one to the other, for as long as it runs.
-/

namespace RustyPi.Net.Lookups

----------
-- The resolver
----------

def dnsPort : UInt16 := 49152
def dnsRetryUs : Nat := 1_000_000
def dnsTries : Nat := 3

inductive ResolveError
  | noNetwork
  | noServer
  | badName
  | noSuchName
  | failed (code : UInt8)
  | timeout
  deriving DecidableEq, Repr

/-- A lookup's result: the name's addresses. -/
abbrev Resolved : Type := Except ResolveError (List Ipv4)

/-- Who a lookup is for: a call that waits for its number, or the clock. -/
inductive Purpose
  | command (number : UInt32)
  | clock
  deriving DecidableEq, Repr

def Purpose.number : Purpose → Option UInt32
  | .command number => some number
  | .clock => none

/-- A datagram for the interface to send. -/
structure Datagram where
  target : Ipv4
  port : UInt16
  sourcePort : UInt16
  data : List UInt8

structure Lookup where
  id : UInt16
  query : List UInt8
  server : Ipv4
  purpose : Purpose
  sentAt : Nat
  tries : Nat

def Lookup.datagram (lookup : Lookup) : Datagram :=
  { target := lookup.server, port := Dns.port, sourcePort := dnsPort, data := lookup.query }

/-- Lookups in flight. -/
structure Resolver where
  nextId : UInt16
  pending : List Lookup

namespace Resolver

def new (seed : UInt16) : Resolver := { nextId := seed, pending := [] }

def start (resolver : Resolver) (name : List UInt8) (server : Ipv4) (purpose : Purpose) (now : Nat)
    : Resolver × Except ResolveError Datagram :=
  let id := resolver.nextId + 1
  match Dns.query name id with
  | none => ({ resolver with nextId := id }, .error .badName)
  | some query =>
    let lookup := { id, query, server, purpose, sentAt := now, tries := 1 }
    ({ nextId := id, pending := resolver.pending ++ [lookup] }, .ok lookup.datagram)

/-- Lookups that go on, those that are out of tries, and queries to send again. -/
def pollPending (now : Nat) : List Lookup → List Lookup × List (Purpose × Resolved) × List Datagram
  | [] => ([], [], [])
  | lookup :: rest =>
    let (pending, done, out) := pollPending now rest
    if now < lookup.sentAt + dnsRetryUs then (lookup :: pending, done, out)
    else if dnsTries ≤ lookup.tries then
      (pending, (lookup.purpose, .error .timeout) :: done, out)
    else
      let lookup := { lookup with tries := lookup.tries + 1, sentAt := now }
      (lookup :: pending, done, lookup.datagram :: out)

def poll (resolver : Resolver) (now : Nat)
    : Resolver × List (Purpose × Resolved) × List Datagram :=
  let (pending, rest) := pollPending now resolver.pending
  ({ resolver with pending }, rest)

def resultOf : Dns.Answer → Resolved
  | .addresses [] => .error .noSuchName
  | .addresses addresses => .ok addresses
  | .noSuchName => .error .noSuchName
  | .failed code => .error (.failed code)

/-- The first lookup that a datagram answers, and the others. -/
def receivePending (source : Ipv4) (data : List UInt8)
    : List Lookup → Option (List Lookup × Purpose × Resolved)
  | [] => none
  | lookup :: rest =>
    match if lookup.server = source then Dns.parse data lookup.id else none with
    | some answer => some (rest, lookup.purpose, resultOf answer)
    | none => (receivePending source data rest).map (fun (pending, found) =>
      (lookup :: pending, found))

def receive (resolver : Resolver) (source : Ipv4) (data : List UInt8)
    : Resolver × Option (Purpose × Resolved) :=
  match receivePending source data resolver.pending with
  | none => (resolver, none)
  | some (pending, found) => ({ resolver with pending }, some found)

/-- The numbers of calls that wait for a lookup. -/
def numbers (resolver : Resolver) : List UInt32 :=
  resolver.pending.filterMap (fun lookup => lookup.purpose.number)

/-- No lookup has been tried too often. -/
def Tried (resolver : Resolver) : Prop := ∀ lookup ∈ resolver.pending, lookup.tries ≤ dnsTries

/-- A lookup that was started is one more, and one that wasn't is none. -/
theorem numbers_start (resolver : Resolver) (name : List UInt8) (server : Ipv4) (purpose : Purpose)
    (now : Nat)
    : (resolver.start name server purpose now).1.numbers
      = match (resolver.start name server purpose now).2 with
        | .ok _ => resolver.numbers ++ purpose.number.toList
        | .error _ => resolver.numbers := by
  unfold start
  dsimp only
  split
  · rfl
  · rw [numbers, List.filterMap_append]
    cases purpose <;> rfl

theorem Tried.start {resolver : Resolver} (tried : resolver.Tried) (name : List UInt8) (server : Ipv4)
    (purpose : Purpose) (now : Nat)
    : (resolver.start name server purpose now).1.Tried := by
  unfold Resolver.start
  dsimp only
  split
  · exact tried
  · intro lookup member
    rcases List.mem_append.mp member with earlier | new
    · exact tried lookup earlier
    · rw [List.mem_singleton.mp new]
      exact show 1 ≤ 3 by decide

/-- A lookup goes on or is reported. -/
theorem count_pollPending (now : Nat) (pending : List Lookup) (number : UInt32)
    : ((pollPending now pending).1.filterMap (fun lookup => lookup.purpose.number)).count number
        + ((pollPending now pending).2.1.filterMap (fun found => found.1.number)).count number
      = (pending.filterMap (fun lookup => lookup.purpose.number)).count number := by
  induction pending with
  | nil => rfl
  | cons lookup rest ih =>
    unfold pollPending
    dsimp only
    split
    · grind
    · split <;> grind

variable {pending : List Lookup}

theorem tried_pollPending (now : Nat) (tried : ∀ lookup ∈ pending, lookup.tries ≤ dnsTries)
    : ∀ lookup ∈ (pollPending now pending).1, lookup.tries ≤ dnsTries := by
  induction pending with
  | nil => exact nofun
  | cons lookup rest ih =>
    have ih := ih (fun lookup member => tried lookup (List.mem_cons_of_mem _ member))
    unfold pollPending
    dsimp only
    split
    · exact List.forall_mem_cons.mpr ⟨tried lookup List.mem_cons_self, ih⟩
    · split
      · exact ih
      · exact List.forall_mem_cons.mpr ⟨by dsimp only; omega, ih⟩

/-- A lookup that is out of tries, and whose last query is old, is reported. -/
theorem reported_of_due {now : Nat} {lookup : Lookup} (member : lookup ∈ pending)
    (last : lookup.tries = dnsTries) (due : lookup.sentAt + dnsRetryUs ≤ now)
    : (lookup.purpose, .error .timeout) ∈ (pollPending now pending).2.1 := by
  induction pending with
  | nil => cases member
  | cons first rest ih =>
    unfold pollPending
    dsimp only
    rcases List.mem_cons.mp member with rfl | later
    · rw [if_neg (Nat.not_lt.mpr due), if_pos (Nat.le_of_eq last.symm)]
      exact List.mem_cons_self
    · split
      · exact ih later
      · split
        · exact List.mem_cons_of_mem _ (ih later)
        · exact ih later

/-- An answer takes a lookup from those in flight. -/
theorem receivePending_perm {source : Ipv4} {data : List UInt8} {rest : List Lookup}
    {purpose : Purpose} {result : Resolved}
    (received : receivePending source data pending = some (rest, purpose, result))
    : ∃ lookup, lookup.purpose = purpose ∧ pending.Perm (lookup :: rest) := by
  induction pending generalizing rest with
  | nil => cases received
  | cons first others ih =>
    unfold receivePending at received
    split at received
    · cases received
      exact ⟨first, rfl, .rfl⟩
    · obtain ⟨⟨left, found⟩, isFound, taken⟩ := Option.map_eq_some_iff.mp received
      cases taken
      obtain ⟨lookup, isPurpose, perm⟩ := ih isFound
      exact ⟨lookup, isPurpose, (perm.cons first).trans (.swap lookup first left)⟩

end Resolver

----------
-- Calls and the task
----------

structure Request where
  number : UInt32
  name : List UInt8

/-- The network task in its loop: its resolver, the request that it has just taken, and results that
it has yet to hand over.
-/
structure Running where
  resolver : Resolver
  taken : Option Request
  done : List (Purpose × Resolved)

inductive Task
  | starting
  | running (running : Running)
  | ended

def Task.isEnded : Task → Bool
  | .ended => true
  | .starting | .running _ => false

/-- The queues, the task, and the calls of `resolve`: those with a number that they have yet to ask
for, and the numbers that the others wait for.
-/
structure Resolving where
  nextRequest : UInt32
  requests : List Request
  answers : List (UInt32 × Resolved)
  task : Task
  fetched : List Request
  waiting : List UInt32

namespace Resolving

def start : Resolving :=
  { nextRequest := 0, requests := [], answers := [], task := .starting, fetched := [], waiting := [] }

def maxAnswers : Nat := 16

/-- An answer is queued; the oldest are dropped. -/
def pushAnswer (answers : List (UInt32 × Resolved)) (number : UInt32) (result : Resolved)
    : List (UInt32 × Resolved) :=
  let answers := answers ++ [(number, result)]
  answers.drop (answers.length - maxAnswers)

def answerLookup (state : Resolving) (number : UInt32) (result : Resolved) : Resolving :=
  { state with answers := pushAnswer state.answers number result }

/-- What is done with a request. -/
def started (running : Running) (request : Request) (config : Option Config) (now : Nat)
    : Resolver × Except ResolveError Datagram :=
  match config with
  | none => (running.resolver, .error .noNetwork)
  | some config =>
    match config.dns with
    | none => (running.resolver, .error .noServer)
    | some server =>
      running.resolver.start request.name server (.command request.number) now

/-- What the task does in its loop. -/
inductive Move
  /-- It takes the next request. -/
  | take
  /-- It starts what it took. -/
  | begin (config : Option Config) (now : Nat)
  /-- The clock looks the time servers up. -/
  | clock (name : List UInt8) (server : Ipv4) (now : Nat)
  | poll (now : Nat)
  /-- A datagram came to the resolver's port. -/
  | receive (source : Ipv4) (data : List UInt8)
  /-- The next result is handed over. -/
  | finish

inductive Event
  /-- A call of `resolve` gets its number. -/
  | fetch (name : List UInt8)
  /-- It queues its request. -/
  | ask (index : Nat)
  /-- It looks for its answer, and returns if there is one. -/
  | collect (index : Nat)
  /-- The controller is up. -/
  | bringUp (seed : UInt16)
  /-- There is no controller, it didn't start, or USB stopped. -/
  | stop
  | task (move : Move)

def move (state : Resolving) (running : Running) : Move → Option Resolving
  | .take =>
    match running.taken, state.requests with
    | none, request :: requests =>
      some { state with requests, task := .running { running with taken := some request } }
    | _, _ => none
  | .begin config now => do
      let request ← running.taken
      let (resolver, result) := started running request config now
      let state := { state with task := .running { running with resolver, taken := none } }
      match result with
      | .ok _ => return state
      | .error error => return state.answerLookup request.number (.error error)
  | .clock name server now =>
    let resolver := (running.resolver.start name server .clock now).1
    some { state with task := .running { running with resolver } }
  | .poll now =>
    let (resolver, done, _) := running.resolver.poll now
    some { state with task := .running { running with resolver, done := running.done ++ done } }
  | .receive source data =>
    let (resolver, found) := running.resolver.receive source data
    some { state with
      task := .running { running with resolver, done := running.done ++ found.toList } }
  | .finish =>
    match running.done with
    | [] => none
    | (purpose, result) :: done =>
      let state := { state with task := .running { running with done } }
      match purpose with
      | .command number => some (state.answerLookup number result)
      | .clock => some state

def step (state : Resolving) : Event → Option Resolving
  | .fetch name =>
    some { state with
      nextRequest := state.nextRequest + 1
      fetched := state.fetched ++ [{ number := state.nextRequest, name }] }
  | .ask index => do
      let request ← state.fetched[index]?
      return { state with
        fetched := state.fetched.eraseIdx index
        requests := state.requests ++ [request]
        waiting := state.waiting ++ [request.number] }
  | .collect index => do
      let number ← state.waiting[index]?
      match state.answers.findIdx? (fun answer => answer.1 = number) with
      | none => return state
      | some found =>
        return { state with
          answers := state.answers.eraseIdx found, waiting := state.waiting.eraseIdx index }
  | .bringUp seed =>
    match state.task with
    | .starting =>
      some { state with
        task := .running { resolver := .new seed, taken := none, done := [] } }
    | .running _ | .ended => none
  | .stop => some { state with task := .ended }
  | .task move =>
    match state.task with
    | .running running => state.move running move
    | .starting | .ended => none

----------
-- Where the numbers are
----------

/-- The numbers of requests that the task has taken and not answered. -/
def held : Task → List UInt32
  | .running running =>
    running.taken.toList.map Request.number
      ++ (running.resolver.numbers ++ running.done.filterMap (fun found => found.1.number))
  | .starting | .ended => []

/-- Every number that is waited for is in a queue or with the task, as often as it is waited for; and
no lookup is tried too often.
-/
structure Ok (state : Resolving) : Prop where
  balanced
    : ∀ number,
        state.waiting.count number
          = (state.requests.map Request.number).count number
            + ((held state.task).count number + (state.answers.map Prod.fst).count number)
  ended : state.task.isEnded = true → state.waiting = []
  tries
    : ∀ running, state.task = .running running → running.resolver.Tried

/-- The step loses no answer: the task ends only when nobody waits, nobody asks once it has ended, and
answers are taken before there are too many.
-/
def Served (state : Resolving) : Event → Prop
  | .stop => state.waiting = []
  | .ask _ => state.task.isEnded = false
  | .task (.begin ..) | .task .finish => state.answers.length < maxAnswers
  | _ => True

theorem count_eraseIdx {list : List UInt32} {index : Nat} {found : UInt32}
    (isFound : list[index]? = some found) (number : UInt32)
    : list.count number = [found].count number + (list.eraseIdx index).count number := by
  obtain ⟨inside, rfl⟩ := List.getElem?_eq_some_iff.mp isFound
  rw [← (List.getElem_cons_eraseIdx_perm inside).count_eq number, ← List.singleton_append,
    List.count_append]

theorem count_pushAnswer {answers : List (UInt32 × Resolved)} (room : answers.length < maxAnswers)
    (number : UInt32) (result : Resolved) (other : UInt32)
    : ((pushAnswer answers number result).map Prod.fst).count other
      = (answers.map Prod.fst).count other + [number].count other := by
  have all : answers.length + 1 - maxAnswers = 0 := by omega
  rw [pushAnswer, List.length_append, List.length_singleton, all, List.drop_zero, List.map_append,
    List.count_append]
  rfl

variable {state after : Resolving}

variable {running : Running}

/-- The task goes on with the same requests in its hands, or in the answers. -/
theorem Ok.go (ok : Ok state) {resolver : Resolver} {taken : Option Request}
    {done : List (Purpose × Resolved)} {answers : List (UInt32 × Resolved)}
    (isRunning : state.task = .running running)
    (same : ∀ number,
      (held (.running { resolver, taken, done })).count number + (answers.map Prod.fst).count number
        = (held (.running running)).count number + (state.answers.map Prod.fst).count number)
    (tries : resolver.Tried)
    : Ok { state with task := .running { resolver, taken, done }, answers } where
  balanced number := by
    rw [ok.balanced, isRunning, same]
  ended := nofun
  tries := by
    rintro _ ⟨⟩
    exact tries

theorem started_spec (tried : running.resolver.Tried) (request : Request) (config : Option Config)
    (now : Nat)
    : (started running request config now).1.Tried
      ∧ (started running request config now).1.numbers
        = match (started running request config now).2 with
          | .ok _ => running.resolver.numbers ++ [request.number]
          | .error _ => running.resolver.numbers := by
  unfold started
  split
  · exact ⟨tried, rfl⟩
  · split
    · exact ⟨tried, rfl⟩
    · exact ⟨tried.start _ _ _ _, running.resolver.numbers_start _ _ _ _⟩

theorem Ok.move {action : Move} (ok : Ok state) (isRunning : state.task = .running running)
    (served : state.Served (.task action)) (taken : state.move running action = some after)
    : Ok after := by
  have tries := ok.tries running isRunning
  cases action with
  | take =>
    dsimp only [Resolving.move] at taken
    split at taken
    · rename_i request requests free first
      cases taken
      refine ⟨fun number => ?_, nofun, ?_⟩
      · rw [ok.balanced, isRunning, first]
        simp only [held, free, List.map_cons, List.count_cons, Option.toList, List.map_nil,
          List.count_append, List.count_nil]
        omega
      · rintro _ ⟨⟩
        exact tries
    · cases taken
  | begin config now =>
    obtain ⟨request, isTaken, taken⟩ := Option.bind_eq_some_iff.mp taken
    obtain ⟨tried, numbers⟩ := started_spec tries request config now
    generalize started running request config now = result at *
    obtain ⟨resolver, result⟩ := result
    cases result with
    | ok datagram =>
      cases taken
      refine ok.go isRunning (fun number => ?_) tried
      dsimp only at numbers
      simp only [held, numbers, isTaken, List.count_append, Option.toList, List.map_cons,
        List.map_nil, List.count_nil]
      omega
    | error error =>
      cases taken
      refine ok.go isRunning (fun number => ?_) tried
      dsimp only at numbers
      rw [count_pushAnswer served]
      simp only [held, numbers, isTaken, List.count_append, Option.toList, List.map_cons,
        List.map_nil, List.count_nil]
      omega
  | clock name server now =>
    cases taken
    refine ok.go isRunning (fun number => ?_) (tries.start name server .clock now)
    have numbers := running.resolver.numbers_start name server .clock now
    dsimp only [held]
    rw [numbers]
    split <;> simp [Purpose.number]
  | poll now =>
    have count := Resolver.count_pollPending now running.resolver.pending
    have tried := Resolver.tried_pollPending now tries
    dsimp only [Resolving.move, Resolver.poll] at taken
    generalize Resolver.pollPending now running.resolver.pending = polled at *
    cases taken
    refine ok.go isRunning (fun number => ?_) tried
    have count := count number
    simp only [held, Resolver.numbers, List.filterMap_append, List.count_append]
    omega
  | receive source data =>
    dsimp only [Resolving.move, Resolver.receive] at taken
    cases received : Resolver.receivePending source data running.resolver.pending with
    | none =>
      rw [received] at taken
      cases taken
      refine ok.go isRunning (fun number => ?_) tries
      rw [Option.toList, List.append_nil]
    | some found =>
      obtain ⟨rest, purpose, result⟩ := found
      rw [received] at taken
      cases taken
      obtain ⟨lookup, rfl, perm⟩ := Resolver.receivePending_perm received
      refine ok.go isRunning (fun number => ?_) (fun other member =>
        tries other (perm.symm.subset (List.mem_cons_of_mem _ member)))
      have count := (perm.filterMap (fun lookup => lookup.purpose.number)).count_eq number
      rw [← List.singleton_append, List.filterMap_append, List.count_append,
        show [lookup].filterMap (fun lookup => lookup.purpose.number)
          = [(lookup.purpose, result)].filterMap (fun found => found.1.number) from rfl] at count
      simp only [held, Resolver.numbers, List.filterMap_append, List.count_append, count,
        Option.toList]
      omega
  | finish =>
    dsimp only [Resolving.move] at taken
    cases isDone : running.done with
    | nil =>
      rw [isDone] at taken
      cases taken
    | cons found done =>
      obtain ⟨purpose, result⟩ := found
      rw [isDone] at taken
      cases purpose with
      | command waiter =>
        cases taken
        refine ok.go isRunning (fun number => ?_) tries
        rw [count_pushAnswer served]
        simp only [held, isDone, List.filterMap_cons, Purpose.number, List.count_append,
          List.count_cons, List.count_nil]
        omega
      | clock =>
        cases taken
        refine ok.go isRunning (fun number => ?_) tries
        simp only [held, isDone, List.filterMap_cons, Purpose.number]

theorem Ok.step {event : Event} (ok : Ok state) (served : state.Served event)
    (taken : state.step event = some after)
    : Ok after := by
  cases event with
  | fetch name =>
    cases taken
    exact ⟨ok.balanced, ok.ended, ok.tries⟩
  | ask index =>
    obtain ⟨request, isRequest, taken⟩ := Option.bind_eq_some_iff.mp taken
    cases taken
    refine ⟨fun number => ?_, fun ended => ?_, ok.tries⟩
    · have balanced := ok.balanced number
      simp only [List.map_append, List.map_singleton, List.count_append]
      omega
    · exact absurd ended (Bool.eq_false_iff.mp served)
  | collect index =>
    obtain ⟨number, isNumber, taken⟩ := Option.bind_eq_some_iff.mp taken
    split at taken
    · cases taken
      exact ok
    · rename_i found isFound
      cases taken
      refine ⟨fun other => ?_, fun ended => ?_, ok.tries⟩
      · obtain ⟨inside, matched, _⟩ := List.findIdx?_eq_some_iff_getElem.mp isFound
        have answer : (state.answers.map Prod.fst)[found]? = some number := by
          rw [List.getElem?_map, List.getElem?_eq_getElem inside]
          exact congrArg some (of_decide_eq_true matched)
        have balanced := ok.balanced other
        rw [count_eraseIdx isNumber, count_eraseIdx answer] at balanced
        dsimp only
        rw [← List.eraseIdx_map]
        omega
      · rw [ok.ended ended] at isNumber
        cases isNumber
  | bringUp seed =>
    cases starting : state.task with
    | starting =>
      rw [Resolving.step, starting] at taken
      cases taken
      refine ⟨fun number => ?_, nofun, ?_⟩
      · rw [ok.balanced, starting]
        rfl
      · rintro _ ⟨⟩
        exact fun lookup => nofun
    | running _ | ended =>
      rw [Resolving.step, starting] at taken
      cases taken
  | stop =>
    cases taken
    have empty : state.waiting = [] := served
    refine ⟨fun number => ?_, fun _ => empty, nofun⟩
    have balanced := ok.balanced number
    rw [empty, List.count_nil] at balanced ⊢
    dsimp only [held]
    rw [List.count_nil]
    omega
  | task action =>
    cases isRunning : state.task with
    | running running =>
      rw [Resolving.step, isRunning] at taken
      exact ok.move isRunning served taken
    | starting | ended =>
      rw [Resolving.step, isRunning] at taken
      cases taken

/-- An answer for a number can come: its request is queued for a task that has not ended, the task has
it, or the answer is there.
-/
def Comes (state : Resolving) (number : UInt32) : Prop :=
  (number ∈ state.requests.map Request.number ∧ state.task.isEnded = false)
    ∨ number ∈ held state.task
    ∨ number ∈ state.answers.map Prod.fst

/-- If the task ends only when nobody waits, nobody asks afterwards, and answers are taken before there
are too many, then every call that waits gets an answer: it can come, and a lookup on the way is given
up at the latest when its third query is not answered in time.
-/
theorem comes_of_served {state : Resolving} (run : Reach.Reaches step Served start state)
    : (∀ number ∈ state.waiting, state.Comes number)
      ∧ ∀ running, state.task = .running running
          → ∀ lookup ∈ running.resolver.pending,
              lookup.tries ≤ dnsTries
              ∧ (lookup.tries = dnsTries → ∀ now, lookup.sentAt + dnsRetryUs ≤ now
                  → (lookup.purpose, .error .timeout) ∈ (running.resolver.poll now).2.1) := by
  have ok : state.Ok :=
    run.invariant (I := Ok) ⟨fun _ => rfl, nofun, nofun⟩
      (fun _ _ _ ok served taken => ok.step served taken)
  refine ⟨fun number waits => ?_, fun running isRunning lookup member => ?_⟩
  · have going : state.task.isEnded = false := by
      refine Bool.eq_false_iff.mpr (fun ended => ?_)
      rw [ok.ended ended] at waits
      cases waits
    have balanced := ok.balanced number
    have some := List.count_pos_iff.mpr waits
    by_cases asked : number ∈ state.requests.map Request.number
    · exact .inl ⟨asked, going⟩
    · rw [List.count_eq_zero.mpr asked] at balanced
      by_cases isHeld : number ∈ held state.task
      · exact .inr (.inl isHeld)
      · rw [List.count_eq_zero.mpr isHeld] at balanced
        exact .inr (.inr (List.count_pos_iff.mp (by omega)))
  · exact ⟨ok.tries running isRunning lookup member,
      fun last now due => Resolver.reported_of_due member last due⟩

/-- The network task ends, as there is no controller; a name is asked for all the same. -/
theorem strands_of_ended
    : ∃ state, Reach.Reaches step Reach.anyEvent start state
        ∧ ∃ number ∈ state.waiting, ¬ state.Comes number := by
  refine ⟨_, .next (.next (.next .start trivial (show start.step .stop = some _ from rfl)) trivial
    (show step _ (.fetch []) = some _ from rfl)) trivial (show step _ (.ask 0) = some _ from rfl),
    0, List.mem_singleton_self 0, ?_⟩
  rintro (⟨_, going⟩ | isHeld | answered)
  · cases going
  · cases isHeld
  · cases answered

instance (state : Resolving) (event : Event) : Decidable (state.Served event) :=
  match event with
  | .stop => inferInstanceAs (Decidable (state.waiting = []))
  | .ask _ => inferInstanceAs (Decidable (state.task.isEnded = false))
  | .task (.begin ..) | .task .finish => inferInstanceAs (Decidable (state.answers.length < maxAnswers))
  | .fetch _ | .collect _ | .bringUp _ | .task .take | .task (.clock ..) | .task (.poll _)
  | .task (.receive ..) => .isTrue trivial

/-- How often the lookups in flight have been tried. -/
def Task.tries : Task → List Nat
  | .running running => running.resolver.pending.map Lookup.tries
  | .starting | .ended => []

/-- A name is looked up, and its query is sent again; another call asks once there is no address any
more, and is told so.
-/
def twoCalls : List Event :=
  let config : Config :=
    { address := ⟨192, 168, 1, 50⟩, netmask := ⟨255, 255, 255, 0⟩, gateway := none
      dns := some ⟨192, 168, 1, 1⟩, leaseSecs := 3600 }
  [.bringUp 0, .fetch [112, 105], .ask 0, .task .take, .task (.begin (some config) 0),
    .task (.poll 1_000_000), .fetch [112, 105], .ask 0, .task .take, .task (.begin none 1_000_000)]

theorem comes_of_unconfigured
    : ∃ state, Reach.Reaches step Served start state
        ∧ state.waiting = [0, 1] ∧ Task.tries state.task = [2] ∧ state.answers.map Prod.fst = [1]
        ∧ ∀ number ∈ state.waiting, state.Comes number := by
  have executed : (Reach.runAll step Served start twoCalls).any (fun state =>
      decide (state.waiting = [0, 1] ∧ Task.tries state.task = [2]
        ∧ state.answers.map Prod.fst = [1])) = true := by
    decide +kernel
  obtain ⟨state, run, found⟩ := Reach.Reaches.of_check executed
  obtain ⟨waits, tries, answers⟩ := of_decide_eq_true found
  exact ⟨state, run, waits, tries, answers, (comes_of_served run).1⟩

/-- Requests are neither lost nor answered twice: where answers aren't dropped, each number is in as
many requests, lookups and answers together as there are calls that wait for it.
-/
theorem count_of_served {state : Resolving} (run : Reach.Reaches step Served start state)
    (number : UInt32)
    : (state.requests.map Request.number).count number + (held state.task).count number
        + (state.answers.map Prod.fst).count number
      = state.waiting.count number := by
  have ok : state.Ok :=
    run.invariant ⟨fun _ => rfl, nofun, nofun⟩ (fun _ _ _ ok served taken => ok.step served taken)
  rw [ok.balanced, Nat.add_assoc]

/-- Witness: the call whose query was sent again has its lookup, and nothing else. -/
theorem count_of_unconfigured
    : ∃ state, Reach.Reaches step Served start state
        ∧ state.waiting = [0, 1] ∧ Task.tries state.task = [2]
        ∧ (state.requests.map Request.number).count 0 + (held state.task).count 0
            + (state.answers.map Prod.fst).count 0
          = state.waiting.count 0 := by
  have executed : (Reach.runAll step Served start twoCalls).any (fun state =>
      decide (state.waiting = [0, 1] ∧ Task.tries state.task = [2])) = true := by
    decide +kernel
  obtain ⟨state, run, found⟩ := Reach.Reaches.of_check executed
  obtain ⟨waits, tries⟩ := of_decide_eq_true found
  exact ⟨state, run, waits, tries, count_of_served run 0⟩

end Resolving

end RustyPi.Net.Lookups
