import RustyPi.Link.Frames

/-! Requests and replies on top of frames, `rustypi-core/src/session.rs`. A request with the same
sequence number as the last one is a retransmit, which is answered from the cached reply.
-/

namespace RustyPi.Link

inductive LineKind
  | rsp
  | help
  deriving DecidableEq, Repr

/-- A line of a reply. -/
structure Line where
  kind : LineKind
  text : List Char
  deriving DecidableEq, Repr

/-- A frame that the kernel sends, by its kind and what its payload is made of. -/
inductive Outgoing
  /-- `RSP` or `HELP`: a numbered line of a reply. -/
  | line (kind : LineKind) (seq index : Nat) (text : List Char)
  /-- `END`: the reply is complete, with this many lines. -/
  | ended (seq count : Nat)
  | busy (seq : Nat)
  | hello
  | pong (payload : List Char)
  | err (reason : List Char)
  deriving DecidableEq, Repr

/-- One more digit of a number below 2^16. -/
def pushDigit (value : Option Nat) (digit : Char) : Option Nat := do
  let value ← value
  if '0' ≤ digit ∧ digit ≤ '9' ∧ value * 10 + (digit.toNat - '0'.toNat) < 2 ^ 16 then
    some (value * 10 + (digit.toNat - '0'.toNat))
  else none

/-- `str::parse::<u16>`: digits, perhaps after a `+`. -/
def parseU16 (text : List Char) : Option Nat :=
  let digits :=
    match text with
    | '+' :: rest => rest
    | _ => text
  if digits = [] then none else digits.foldl pushDigit (some 0)

/-- Splits `<seq>,<text>`. -/
def parseRequest (payload : List Char) : Option (Nat × List Char) := do
  let (seq, text) := (splitOnce ',' payload).getD (payload, [])
  return (← parseU16 seq, text)

/-- The sequence number of a `MSG` payload, without handling it. -/
def requestSeq (payload : List Char) : Option Nat := (parseRequest payload).map Prod.fst

theorem requestSeq_of_parse {payload text : List Char} {seq : Nat}
    (parsed : parseRequest payload = some (seq, text))
    : requestSeq payload = some seq := by
  rw [requestSeq, parsed]
  rfl

structure Session where
  lastSeq : Option Nat
  reply : List Line
  deriving DecidableEq, Repr

/-- The frames of a reply: its lines in order, then how many there are. -/
def replyFrames (seq : Nat) (reply : List Line) : List Outgoing :=
  reply.mapIdx (fun index line => .line line.kind seq index line.text) ++ [.ended seq reply.length]

namespace Session

def new : Session := { lastSeq := none, reply := [] }

def reset (session : Session) : Session := { session with lastSeq := none }

/-- Handles the payload of a `MSG` frame. For a new request, `run` executes the command; it may give
an action to perform after the reply has been sent. Returns the frames to send.
-/
def handle {Action : Type} (session : Session) (payload : List Char)
    (run : List Char → List Line × Option Action)
    : Session × List Outgoing × Option Action :=
  match parseRequest payload with
  | none => (session, [.err "MSG needs a sequence number".toList], none)
  | some (seq, text) =>
    if session.lastSeq = some seq then (session, replyFrames seq session.reply, none)
    else
      let (reply, action) := run text
      ({ lastSeq := some seq, reply }, replyFrames seq reply, action)

/-- The command that handling a payload runs, if it runs one. -/
def runs (session : Session) (payload : List Char) : Option (List Char) :=
  match parseRequest payload with
  | none => none
  | some (seq, text) => if session.lastSeq = some seq then none else some text

end Session

end RustyPi.Link
