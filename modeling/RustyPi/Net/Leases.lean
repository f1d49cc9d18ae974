import RustyPi.Net.Sources

/-! How long an interface keeps its address. Only the server takes it back: the timers ask for more time,
and start over when nobody answers, but leave the configuration as it is.
-/

namespace RustyPi.Net

namespace Interface

variable {interface : Interface}

/-- The server acknowledges the interface's request: a DHCP message from port 67 to 68 that is its
answer, an ACK of the transaction under way, arrives while the interface is requesting.
-/
def acks (interface : Interface) (bytes : List UInt8) : Bool := interface.answered .ack bytes

/-- The server refuses the interface's request: the answer that arrives is a NAK. -/
def refuses (interface : Interface) (bytes : List UInt8) : Bool := interface.answered .nak bytes

theorem requesting_of_answered {kind : Dhcp.Kind} {bytes : List UInt8}
    (answered : interface.answered kind bytes = true)
    : ∃ reply, interface.replyIn bytes = some reply ∧ reply.kind = kind
        ∧ ∃ xid offered server nextTry tries,
            interface.dhcp = .requesting xid offered server nextTry tries := by
  unfold Interface.answered at answered
  split at answered
  · rename_i before
    obtain ⟨reply, isReply, isKind⟩ := (Option.any_eq_true _ _).mp answered
    exact ⟨reply, isReply, of_decide_eq_true isKind, _, _, _, _, _, before⟩
  · cases answered
  · cases answered

/-- A refusal takes the configuration back. -/
theorem config_of_refuses {bytes : List UInt8} (refused : interface.refuses bytes = true) (now : Nat)
    : (interface.receive bytes now).1.config = none := by
  obtain ⟨reply, isReply, isNak, xid, offered, server, nextTry, tries, before⟩ :=
    requesting_of_answered refused
  have received := interface.received bytes now
  generalize interface.receive bytes now = result at *
  cases received with
  | ignored noReply | arp noReply | datagram noReply | echo noReply =>
    cases noReply.symm.trans isReply
  | replied found replied =>
    cases isReply.symm.trans found
    cases replied with
    | ignored unasked => exact absurd isNak (unasked before).2
    | offered discovering => cases before.symm.trans discovering
    | acked _ isAck => cases isNak.symm.trans isAck
    | refused => rfl

variable (isNone : interface.config = none)
include isNone

theorem receiveArp_of_none (arp : Arp)
    : interface.receiveArp arp = (interface, []) := by
  rw [receiveArp, isNone]

/-- After a call, there is no configuration, and nothing but DHCP messages was said. -/
structure Silent (result : Interface × Frames) : Prop where
  config : result.1.config = none
  speaks : ∀ frame ∈ result.2, Speaks none frame

theorem Silent.nothing : Silent (interface, []) := ⟨isNone, nofun⟩

omit isNone in
theorem silent_dhcpFrame {other : Interface} {message : List UInt8}
    {framed : List UInt8 × Interface} (isFramed : other.dhcpFrame message = framed)
    (isNone : other.config = none)
    : Silent (framed.2, [framed.1]) := by
  subst isFramed
  refine ⟨isNone, fun frame member => ?_⟩
  rw [List.mem_singleton.mp member]
  exact speaks_dhcpFrame _ _ _

theorem silent_receive (bytes : List UInt8) (now : Nat)
    (unacked : interface.acks bytes = false)
    : Silent (interface.receive bytes now) := by
  have received := interface.received bytes now
  generalize interface.receive bytes now = result at *
  cases received with
  | ignored => exact .nothing isNone
  | arp _ arp =>
    rw [receiveArp_of_none isNone]
    exact .nothing isNone
  | replied isReply replied =>
    cases replied with
    | ignored => exact .nothing isNone
    | offered before isFramed => exact silent_dhcpFrame isFramed isNone
    | acked before isAck =>
      have acked := answered_of_requesting before isReply
      rw [isAck] at acked
      cases unacked.symm.trans acked
    | refused => exact ⟨rfl, nofun⟩
  | datagram => exact ⟨isNone, nofun⟩
  | echo _ isHeld => cases isNone.symm.trans isHeld

theorem silent_poll (now : Nat)
    : Silent (interface.poll now) := by
  have polled : Silent (interface.pollDhcp now) := by
    have prompted := interface.prompted now
    generalize interface.pollDhcp now = result at *
    cases prompted with
    | quiet => exact .nothing isNone
    | asks dhcp random isFramed => exact silent_dhcpFrame isFramed isNone
  refine ⟨polled.config, fun frame member => ?_⟩
  rcases List.mem_append.mp member with earlier | asked
  · exact polled.speaks frame earlier
  · obtain ⟨hop, _, asked⟩ := List.mem_filterMap.mp asked
    rw [← polled.config]
    exact speaks_arpRequest asked

theorem silent_ping (target : Ipv4) (seq : UInt16) (now : Nat)
    : Silent (interface.ping target seq now) := by
  dsimp only [ping, sendIp]
  rw [isNone]
  exact .nothing rfl

end Interface

/-- An interface after a call, with what was returned, and with what happened to its lease. -/
structure Leased where
  interface : Interface
  returned : Frames
  /-- When the last call was. -/
  now : Nat
  /-- When the lease of the last acknowledgement ends. -/
  ends : Option Nat
  /-- Whether the server has refused a request since that acknowledgement. -/
  refused : Bool
  /-- Whether a poll came since that acknowledgement at the lease's end or later. -/
  past : Bool

namespace Leased

def start (mac : Mac) (seed : UInt32) : Leased :=
  { interface := .new mac seed, returned := [], now := 0, ends := none, refused := false,
    past := false }

/-- When the lease ends that an acknowledgement gives now. -/
def endOf (reply : Dhcp.Reply) (now : Nat) : Nat :=
  now + (Interface.configOf reply).leaseSecs.toNat * 1_000_000

/-- What has happened once a call at a time was made. -/
def after (leased : Leased) (action : Interface.Action) (now : Nat) : Leased :=
  let (interface, returned) := leased.interface.act action
  match action with
  | .receive bytes _ =>
    if leased.interface.acks bytes then
      let ends := (leased.interface.replyIn bytes).map (fun reply => endOf reply now)
      { interface, returned, now, ends, refused := false, past := false }
    else
      let refused := leased.refused || leased.interface.refuses bytes
      { leased with interface, returned, now, refused }
  | .poll _ =>
    let past := leased.past || leased.ends.any (· ≤ now)
    { leased with interface, returned, now, past }
  | _ => { leased with interface, returned, now }

/-- The time of a call that is given one. -/
def time : Interface.Action → Option Nat
  | .receive _ now => some now
  | .poll now => some now
  | .ping _ _ now => some now
  | .sendUdp _ _ _ _ now => some now
  | .takeEvents => none

/-- The times of calls do not decrease. -/
def step (leased : Leased) (action : Interface.Action) : Option Leased :=
  let now := (time action).getD leased.now
  if leased.now ≤ now then some (leased.after action now) else none

/-- If the call is a poll at the end of the lease or later, the server has refused to renew it. -/
def Refused (leased : Leased) (action : Interface.Action) : Prop :=
  match action with
  | .poll now => leased.ends.any (· ≤ now) = true → leased.refused = true
  | _ => True

/-- A lease that was refused is no longer used, and neither is one that a poll found to be over. -/
structure Ok (leased : Leased) : Prop where
  refused : leased.refused = true → leased.interface.config = none
  past : leased.past = true → leased.refused = true
  speaks : leased.past = true → ∀ frame ∈ leased.returned, Speaks none frame

/-- A call that changes the lease in nothing, when silence is kept without a configuration. -/
theorem Ok.keep {leased : Leased} (ok : leased.Ok) {result : Interface × Frames} (now : Nat)
    (silent : leased.interface.config = none → Interface.Silent result)
    : Ok { leased with interface := result.1, returned := result.2, now } :=
  { refused := fun refused => (silent (ok.refused refused)).config
    past := ok.past
    speaks := fun past => (silent (ok.refused (ok.past past))).speaks }

theorem Ok.after {leased : Leased} (ok : leased.Ok) {action : Interface.Action} {now : Nat}
    (timed : ∀ given, time action = some given → now = given) (allowed : leased.Refused action)
    : Ok (leased.after action now) := by
  cases action with
  | receive bytes given =>
    unfold Leased.after
    dsimp only [Interface.act]
    split
    · exact ⟨nofun, nofun, nofun⟩
    · rename_i unacked
      have silent := fun isNone =>
        Interface.silent_receive isNone bytes given (Bool.eq_false_iff.mpr unacked)
      refine ⟨fun refused => ?_, fun past => ?_, (ok.keep now silent).speaks⟩
      · rcases Bool.or_eq_true_iff.mp refused with earlier | now
        · exact (ok.keep given silent).refused earlier
        · exact Interface.config_of_refuses now given
      · exact Bool.or_eq_true_iff.mpr (.inl (ok.past past))
  | poll given =>
    obtain rfl := timed given rfl
    have kept := ok.keep now (fun isNone => Interface.silent_poll isNone now)
    have refused (past : (leased.past || leased.ends.any (· ≤ now)) = true)
        : leased.refused = true := by
      rcases Bool.or_eq_true_iff.mp past with earlier | ended
      · exact ok.past earlier
      · exact allowed ended
    exact ⟨kept.refused, refused,
      fun past => (Interface.silent_poll (ok.refused (refused past)) now).speaks⟩
  | ping target seq given =>
    exact ok.keep now (fun isNone => Interface.silent_ping isNone target seq given)
  | sendUdp target port sourcePort data given =>
    refine ok.keep now (fun isNone => ?_)
    rw [isNone]
    exact .nothing isNone
  | takeEvents =>
    have silent (isNone : leased.interface.config = none)
        : Interface.Silent (leased.interface.takeEvents.2, []) :=
      ⟨isNone, fun frame => nofun⟩
    exact ok.keep now silent

/-- What leaves an interface without a configuration: nothing but DHCP messages. -/
def Unheard (frame : List UInt8) : Prop :=
  ∃ parsed, Ethernet.parse frame = some parsed ∧ parsed.ethertype = Ethernet.ipv4
    ∧ ClientMessage parsed.payload

theorem unheard_of_speaks {frame : List UInt8} (speaks : Speaks none frame) : Unheard frame := by
  cases speaks with
  | @message dst src payload isMessage =>
    obtain ⟨padding, built⟩ := Ethernet.parse_build dst src Ethernet.ipv4 payload
    exact ⟨_, built, rfl, isMessage padding⟩
  | arp isHeld => cases isHeld
  | packet isHeld => cases isHeld

/-- If a lease is refused before a poll finds it to be over, then from that poll until another
acknowledgement the interface has no configuration, and says nothing but DHCP messages.
-/
theorem unconfigured_of_refused {mac : Mac} {seed : UInt32} {leased : Leased}
    (run : Reach.Reaches step Refused (start mac seed) leased) (past : leased.past = true)
    : leased.interface.config = none ∧ ∀ frame ∈ leased.returned, Unheard frame := by
  have ok : leased.Ok := by
    refine run.invariant ⟨nofun, nofun, nofun⟩ ?_
    intro before action after ok allowed taken
    obtain ⟨_, taken⟩ := Option.ite_none_right_eq_some.mp taken
    cases taken
    refine ok.after (fun given isGiven => ?_) allowed
    rw [isGiven]
    rfl
  exact ⟨ok.refused (ok.past past), fun frame member => unheard_of_speaks (ok.speaks past frame member)⟩

instance (leased : Leased) (action : Interface.Action) : Decidable (leased.Refused action) :=
  match action with
  | .receive .. | .ping .. | .sendUdp .. | .takeEvents => .isTrue trivial
  | .poll now => inferInstanceAs (Decidable (leased.ends.any (· ≤ now) = true → _))

/-- Two minutes after an acknowledgement for two minutes, with nothing from the server since, the
interface is polled, and sends a ping: it asks for the neighbour in the name of the old address.
-/
theorem configured_of_unanswered
    : ∃ leased, Reach.Reaches step Reach.anyEvent (start Turn.client 1) leased
        ∧ leased.past = true ∧ leased.interface.config ≠ none
        ∧ ∃ frame ∈ leased.returned, ¬ Unheard frame := by
  have executed : (Reach.runAll step Reach.anyEvent (start Turn.client 1)
      (Turn.handshake 1 Turn.client ⟨192, 168, 1, 50⟩ ++
      [.poll 120_000_000, .ping Turn.neighbour 1 120_000_000])).any
      (fun leased => decide (leased.past = true ∧ leased.interface.config ≠ none
        ∧ ∃ frame ∈ leased.returned,
            (Ethernet.parse frame).map Ethernet.Frame.ethertype = some Ethernet.arp)) = true := by
    decide +kernel
  obtain ⟨leased, run, found⟩ := Reach.Reaches.of_check executed
  obtain ⟨past, held, frame, member, isArp⟩ := of_decide_eq_true found
  refine ⟨leased, run, past, held, frame, member, ?_⟩
  rintro ⟨parsed, isParsed, isIp, _⟩
  rw [isParsed, Option.map_some, isIp] at isArp
  cases isArp

/-- The server refuses the renewal, and then the lease's end comes. -/
theorem unconfigured_of_nak
    : ∃ leased, Reach.Reaches step Refused (start Turn.client 1) leased ∧ leased.past = true
        ∧ leased.interface.config = none ∧ ∀ frame ∈ leased.returned, Unheard frame := by
  have executed : (Reach.runAll step Refused (start Turn.client 1)
      (Turn.handshake 1 Turn.client ⟨192, 168, 1, 50⟩ ++
      [.poll 60_000_000, .receive (Turn.routerFrame .nak 270369 Turn.client .unspecified) 60_000_000,
        .poll 120_000_000])).any (fun leased => leased.past) = true := by
    decide +kernel
  obtain ⟨leased, run, past⟩ := Reach.Reaches.of_check executed
  exact ⟨leased, run, past, unconfigured_of_refused run past⟩

end Leased

end RustyPi.Net
