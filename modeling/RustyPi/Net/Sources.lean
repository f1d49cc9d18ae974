import RustyPi.Lib.Reach
import RustyPi.Net.Interface

/-! Which addresses an interface speaks with. A packet is built with the address of its time, and may
wait for ARP until another time.
-/

namespace RustyPi.Net

----------
-- Frames
----------

/-- The payload of an IPv4 frame is a DHCP message of a client: from no address, to everyone. -/
structure ClientMessage (payload : List UInt8) : Prop where
  src : ipv4At payload 12 = .unspecified
  dst : ipv4At payload 16 = .broadcast
  protocol : octetAt payload 9 = Ip.udp
  srcPort : u16At payload 20 = Dhcp.clientPort
  dstPort : u16At payload 22 = Dhcp.serverPort

theorem Ip.length_build (src dst : Ipv4) (protocol : UInt8) (id : UInt16) (payload : List UInt8)
    : (Ip.build src dst protocol id payload).length = Ip.header + payload.length := by
  rw [Ip.build, List.length_append, Ip.summed_eq]
  rfl

theorem Ip.source_build (src dst : Ipv4) (protocol : UInt8) (id : UInt16) (payload : List UInt8)
    : ipv4At (Ip.build src dst protocol id payload) 12 = src := by
  rw [Ip.build, Ip.summed_eq]
  generalize checksum _ = sum
  rfl

/-- An IPv4 frame is a DHCP message, or comes from the address of a configuration. -/
def OwnSource (config : Option Config) (frame : List UInt8) : Prop :=
  ∀ parsed, Ethernet.parse frame = some parsed → parsed.ethertype = Ethernet.ipv4
    → ClientMessage parsed.payload
      ∨ ∃ held, config = some held ∧ ipv4At parsed.payload 12 = held.address

/-- What an interface with a configuration, or none, says: DHCP messages; and with one, ARP and IPv4
packets from its address.
-/
inductive Speaks (config : Option Config) : List UInt8 → Prop
  | message {dst src : Mac} {payload : List UInt8}
    (isMessage : ∀ padding, ClientMessage (payload ++ padding))
    : Speaks config (Ethernet.build dst src Ethernet.ipv4 payload)
  | arp {dst src : Mac} {held : Config} {arp : Arp} (isHeld : config = some held)
    (own : arp.senderIp = held.address)
    : Speaks config (Ethernet.build dst src Ethernet.arp arp.toBytes)
  | packet {dst src : Mac} {held : Config} {packet : List UInt8} (isHeld : config = some held)
    (long : Ip.header ≤ packet.length) (own : ipv4At packet 12 = held.address)
    : Speaks config (Ethernet.build dst src Ethernet.ipv4 packet)

theorem ipv4At_append {packet : List UInt8} (padding : List UInt8) {at_ : Nat}
    (inside : at_ + 4 ≤ packet.length)
    : ipv4At (packet ++ padding) at_ = ipv4At packet at_ := by
  have same {index : Nat} (before : index < packet.length)
      : octetAt (packet ++ padding) index = octetAt packet index := by
    rw [octetAt, octetAt, List.getElem?_append_left before]
  rw [ipv4At, same (by omega), same (by omega), same (by omega), same (by omega)]
  rfl

theorem Ethernet.parse_build_inv {dst src : Mac} {ethertype : UInt16} {payload : List UInt8}
    {parsed : Ethernet.Frame}
    (isParsed : Ethernet.parse (Ethernet.build dst src ethertype payload) = some parsed)
    : ∃ padding, parsed = { dst, src, ethertype, payload := payload ++ padding } := by
  obtain ⟨padding, built⟩ := Ethernet.parse_build dst src ethertype payload
  rw [built] at isParsed
  exact ⟨padding, (Option.some.inj isParsed).symm⟩

variable {config : Option Config} {result : Interface × Frames} {frame : List UInt8}

theorem Speaks.ownSource (speaks : Speaks config frame) : OwnSource config frame := by
  intro parsed isParsed isIp
  cases speaks with
  | message isMessage =>
    obtain ⟨padding, rfl⟩ := Ethernet.parse_build_inv isParsed
    exact .inl (isMessage padding)
  | arp isHeld own =>
    obtain ⟨padding, rfl⟩ := Ethernet.parse_build_inv isParsed
    cases isIp
  | @packet _ _ held packet isHeld long own =>
    obtain ⟨padding, rfl⟩ := Ethernet.parse_build_inv isParsed
    refine .inr ⟨held, isHeld, ?_⟩
    rw [← own]
    exact ipv4At_append padding (Nat.le_trans (by decide) long)

theorem speaks_ip {dst src : Mac} {held : Config} (isHeld : config = some held) (target : Ipv4)
    (protocol : UInt8) (id : UInt16) (payload : List UInt8)
    : Speaks config (Ethernet.build dst src Ethernet.ipv4
        (Ip.build held.address target protocol id payload)) :=
  .packet isHeld (Nat.le.intro (Ip.length_build _ _ _ _ _).symm) (Ip.source_build _ _ _ _ _)

theorem clientMessage_build (id : UInt16) (message padding : List UInt8)
    : ClientMessage (Ip.build .unspecified .broadcast Ip.udp id
        (Udp.build .unspecified Dhcp.clientPort .broadcast Dhcp.serverPort message) ++ padding) := by
  rw [Udp.build, Udp.summed_eq, Ip.build, Ip.summed_eq]
  generalize UInt16.ofNat (Udp.header + message.length) = length
  generalize (if _ = 0 then _ else _ : UInt16) = sum
  generalize checksum _ = headerSum
  generalize UInt16.ofNat _ = total
  exact ⟨rfl, rfl, rfl, fromBe16_be16 _, fromBe16_be16 _⟩

theorem speaks_dhcpFrame (config : Option Config) (interface : Interface) (message : List UInt8)
    : Speaks config (interface.dhcpFrame message).1 :=
  .message (clientMessage_build (interface.nextId + 1) message)

----------
-- What each call does
----------

/-- A packet that waits is from the address of the configuration, if there is one. -/
structure Waiting.Ok (config : Option Config) (waiting : Waiting) : Prop where
  long : Ip.header ≤ waiting.packet.length
  own : ∀ held, config = some held → ipv4At waiting.packet 12 = held.address

/-- After a call, the configuration is this one; and everything said or to be said is from there. -/
structure Keeps (config : Option Config) (result : Interface × Frames) : Prop where
  same : result.1.config = config
  waiting : ∀ waiting ∈ result.1.waiting, waiting.Ok config
  speaks : ∀ frame ∈ result.2, Speaks config frame

theorem Keeps.self (keeps : Keeps config result) : Keeps result.1.config result := by
  rw [keeps.same]
  exact keeps

namespace Interface

variable {interface : Interface}

/-- Everything that waits is from the address of the configuration. -/
def Ok (interface : Interface) : Prop :=
  ∀ waiting ∈ interface.waiting, waiting.Ok interface.config

variable (ok : interface.Ok)
include ok

theorem Ok.keeps : Keeps interface.config (interface, []) := ⟨rfl, ok, nofun⟩

/-- A call that changes neither the configuration nor what waits. -/
theorem Ok.same {after : Interface} {frames : Frames}
    (config : after.config = interface.config) (waiting : after.waiting = interface.waiting)
    (speaks : ∀ frame ∈ frames, Speaks interface.config frame)
    : Keeps interface.config (after, frames) :=
  ⟨config, by rw [waiting]; exact ok, speaks⟩

omit ok in
theorem speaks_arpRequest {address : Ipv4} (asked : interface.arpRequest address = some frame)
    : Speaks interface.config frame := by
  obtain ⟨held, isHeld, asked⟩ := Option.bind_eq_some_iff.mp asked
  cases asked
  exact .arp isHeld rfl

theorem keeps_learn {held : Config} (isHeld : interface.config = some held)
    (address : Ipv4) (mac : Mac)
    : Keeps interface.config (interface.learn address mac) := by
  rw [learn, List.partition_eq_filter_filter]
  refine ⟨rfl, fun waiting still => ok waiting (List.mem_of_mem_filter still), fun frame member => ?_⟩
  obtain ⟨waiting, ready, rfl⟩ := List.mem_map.mp member
  have waits := ok waiting (List.mem_of_mem_filter ready)
  exact .packet isHeld waits.long (waits.own held isHeld)

theorem keeps_sendIp (dst : Ipv4) (protocol : UInt8) (payload : List UInt8) (now : Nat)
    : Keeps interface.config (interface.sendIp dst protocol payload now) := by
  unfold sendIp
  split
  · exact ok.keeps
  · rename_i held isHeld
    split
    · exact ok.keeps
    · rename_i hop isHop
      dsimp only [takeId]
      split
      · refine ok.same rfl rfl (fun frame member => ?_)
        rw [List.mem_singleton.mp member]
        exact speaks_ip isHeld _ _ _ _
      · refine ⟨rfl, ?_, ?_⟩
        · intro waiting member
          rcases List.mem_append.mp member with earlier | new
          · exact ok waiting (List.mem_of_mem_filter earlier)
          · rw [List.mem_singleton.mp new]
            refine ⟨Nat.le.intro (Ip.length_build _ _ _ _ _).symm, fun other isOther => ?_⟩
            cases isHeld.symm.trans isOther
            exact Ip.source_build _ _ _ _ _
        · intro frame member
          rw [Option.mem_toList] at member
          exact speaks_arpRequest member

theorem keeps_dhcpFrame {other : Interface} {message : List UInt8}
    {result : List UInt8 × Interface} (isResult : other.dhcpFrame message = result)
    (config : other.config = interface.config) (waiting : other.waiting = interface.waiting)
    : Keeps interface.config (result.2, [result.1]) := by
  subst isResult
  refine ok.same config waiting (fun frame member => ?_)
  rw [List.mem_singleton.mp member]
  exact speaks_dhcpFrame _ _ _

theorem keeps_prompted (prompted : Prompted interface result)
    : Keeps interface.config result := by
  cases prompted with
  | quiet => exact ok.keeps
  | asks dhcp random isFramed => exact keeps_dhcpFrame ok isFramed rfl rfl

theorem keeps_poll (now : Nat)
    : Keeps interface.config (interface.poll now) := by
  obtain ⟨config, waiting, speaks⟩ := keeps_prompted ok (interface.prompted now)
  refine ⟨config, ?_, ?_⟩
  · intro packet member
    obtain ⟨other, kept, rfl⟩ := List.mem_map.mp member
    have waits := waiting other (List.mem_of_mem_filter kept)
    split
    · exact ⟨waits.long, waits.own⟩
    · exact waits
  · intro frame member
    rcases List.mem_append.mp member with earlier | asked
    · exact speaks frame earlier
    · obtain ⟨hop, _, asked⟩ := List.mem_filterMap.mp asked
      rw [← config]
      exact speaks_arpRequest asked

theorem keeps_receiveArp (arp : Arp)
    : Keeps interface.config (interface.receiveArp arp) := by
  unfold receiveArp
  split
  · exact ok.keeps
  · rename_i held isHeld
    have learned : Keeps interface.config
        (if arp.senderIp ≠ .unspecified then interface.learn arp.senderIp arp.senderMac
          else (interface, [])) := by
      split
      · exact keeps_learn ok isHeld _ _
      · exact ok.keeps
    generalize (if arp.senderIp ≠ .unspecified then interface.learn arp.senderIp arp.senderMac
      else (interface, [])) = result at learned
    dsimp only
    split
    · refine ⟨learned.same, learned.waiting, fun frame member => ?_⟩
      rcases List.mem_append.mp member with earlier | answer
      · exact learned.speaks frame earlier
      · rw [List.mem_singleton.mp answer]
        exact .arp isHeld rfl
    · exact learned

theorem keeps_receiveEcho {held : Config} (isHeld : interface.config = some held)
    (sender : Mac) (packet : Ip.Packet) (echo : Echo) (now : Nat)
    : Keeps interface.config (interface.receiveEcho held sender packet echo now) := by
  unfold receiveEcho
  split
  · have learned : Keeps interface.config
        (if held.address.sameNetwork packet.src held.netmask then interface.learn packet.src sender
          else (interface, [])) := by
      split
      · exact keeps_learn ok isHeld _ _
      · exact ok.keeps
    generalize (if held.address.sameNetwork packet.src held.netmask then
      interface.learn packet.src sender else (interface, [])) = result at learned
    refine ⟨learned.same, learned.waiting, fun frame member => ?_⟩
    rcases List.mem_append.mp member with earlier | answer
    · exact learned.speaks frame earlier
    · rw [List.mem_singleton.mp answer]
      exact speaks_ip isHeld _ _ _ _
  · split
    · split
      · exact ok.keeps
      · split
        · exact ok.keeps
        · exact ok.same rfl rfl (fun frame => nofun)
    · exact ok.keeps

/-- Whether the interface's request is answered by a frame, in a kind of way. -/
def answered (interface : Interface) (kind : Dhcp.Kind) (bytes : List UInt8) : Bool :=
  match interface.dhcp with
  | .requesting .. => (interface.replyIn bytes).any (fun reply => reply.kind = kind)
  | .discovering .. | .bound .. => false

/-- If a frame acknowledges an address to the interface, what waits is from that address. -/
def Carried (interface : Interface) : Action → Prop
  | .receive bytes _ => interface.answered .ack bytes = true → ∀ reply ∈ interface.replyIn bytes,
    ∀ waiting ∈ interface.waiting, ipv4At waiting.packet 12 = reply.address
  | .poll _ | .ping .. | .sendUdp .. | .takeEvents => True

omit ok in
theorem answered_of_requesting {bytes : List UInt8} {reply : Dhcp.Reply} {xid : UInt32}
    {offered server : Ipv4} {nextTry tries : Nat}
    (before : interface.dhcp = .requesting xid offered server nextTry tries)
    (isReply : interface.replyIn bytes = some reply)
    : interface.answered reply.kind bytes = true := by
  rw [answered, before, isReply]
  exact decide_eq_true rfl

theorem keeps_replied {bytes : List UInt8} {reply : Dhcp.Reply} {now : Nat}
    (isReply : interface.replyIn bytes = some reply) (replied : Replied interface reply now result)
    (carried : Carried interface (.receive bytes now))
    : Keeps result.1.config result := by
  cases replied with
  | ignored => exact ok.keeps
  | offered _ isFramed => exact (keeps_dhcpFrame ok isFramed rfl rfl).self
  | acked before isAck =>
    have acked := answered_of_requesting before isReply
    rw [isAck] at acked
    refine ⟨rfl, fun waiting member => ⟨(ok waiting member).long, ?_⟩, fun frame => nofun⟩
    rintro _ ⟨⟩
    exact carried acked reply isReply waiting member
  | refused =>
    exact ⟨rfl, fun waiting member => ⟨(ok waiting member).long, nofun⟩, fun frame => nofun⟩

theorem keeps_receive {bytes : List UInt8} {now : Nat}
    (carried : Carried interface (.receive bytes now))
    : Keeps (interface.receive bytes now).1.config (interface.receive bytes now) := by
  have received := interface.received bytes now
  generalize interface.receive bytes now = result at *
  cases received with
  | ignored => exact ok.keeps
  | arp _ arp => exact (keeps_receiveArp ok arp).self
  | replied isReply replied => exact keeps_replied ok isReply replied carried
  | datagram => exact ⟨rfl, ok, fun frame => nofun⟩
  | echo _ isHeld sender packet echo =>
    exact (keeps_receiveEcho ok isHeld sender packet echo now).self

theorem keeps_act {action : Action} (carried : Carried interface action)
    : Keeps (interface.act action).1.config (interface.act action) := by
  cases action with
  | receive bytes now => exact keeps_receive ok carried
  | poll now => exact (keeps_poll ok now).self
  | ping target seq now =>
    have ok : Ok { interface with
        pings := interface.pings.filter (fun pending => pending.1 ≠ seq) ++ [(seq, now)] } := ok
    exact (keeps_sendIp ok target Ip.icmp _ now).self
  | sendUdp target port sourcePort data now =>
    change Keeps (interface.sendUdp target port sourcePort data now).1.config
      (interface.sendUdp target port sourcePort data now)
    unfold sendUdp
    split
    · exact ok.keeps.self
    · exact (keeps_sendIp ok target Ip.udp _ now).self
  | takeEvents => exact ⟨rfl, ok, fun frame => nofun⟩

end Interface

----------
-- Every run
----------

/-- An interface after a call, with the frames that the call returned. -/
structure Turn where
  interface : Interface
  returned : Frames

namespace Turn

def start (mac : Mac) (seed : UInt32) : Turn := { interface := .new mac seed, returned := [] }

def step (turn : Turn) (action : Interface.Action) : Option Turn :=
  some {
    interface := (turn.interface.act action).1
    returned := (turn.interface.act action).2 }

/-- If the call is an acknowledgement of an address, nothing from another waits. -/
def Carried (turn : Turn) (action : Interface.Action) : Prop :=
  turn.interface.Carried action

/-- If no address is acknowledged while packets from another wait, then every IPv4 frame is a DHCP
message or comes from the address that the interface has when it returns the frame.
-/
theorem ownSource_of_carried {mac : Mac} {seed : UInt32} {turn : Turn}
    (run : Reach.Reaches step Carried (start mac seed) turn)
    : ∀ frame ∈ turn.returned, OwnSource turn.interface.config frame := by
  have kept : turn.interface.Ok
      ∧ ∀ frame ∈ turn.returned, Speaks turn.interface.config frame := by
    refine run.invariant (I := fun turn => turn.interface.Ok
      ∧ ∀ frame ∈ turn.returned, Speaks turn.interface.config frame) ⟨nofun, nofun⟩ ?_
    rintro before action after ⟨ok, _⟩ carried ⟨⟩
    have keeps := Interface.keeps_act ok carried
    exact ⟨keeps.waiting, keeps.speaks⟩
  exact fun frame member => (kept.2 frame member).ownSource

----------
-- A renewal with another address
----------

instance (turn : Turn) (action : Interface.Action) : Decidable (turn.Carried action) :=
  match action with
  | .receive bytes _ => inferInstanceAs (Decidable (turn.interface.answered .ack bytes = true → _))
  | .poll _ | .ping .. | .sendUdp .. | .takeEvents => .isTrue trivial

def client : Mac := ⟨0xB8, 0x27, 0xEB, 1, 2, 3⟩
def routerMac : Mac := ⟨0x02, 0x11, 0x22, 0x33, 0x44, 0x55⟩
def neighbourMac : Mac := ⟨0x02, 0xAA, 0xBB, 0xCC, 0xDD, 0xEE⟩
def router : Ipv4 := ⟨192, 168, 1, 1⟩
def neighbour : Ipv4 := ⟨192, 168, 1, 20⟩

/-- A server's answer, as a router would send it. -/
def serverReply (kind : Dhcp.Kind) (xid : UInt32) (mac : Mac) (address : Ipv4) : List UInt8 :=
  let bytes := [2, 1, 6, 0] ++ be32 xid ++ List.replicate 8 0 ++ address.octets
  let bytes := resize (bytes ++ router.octets ++ List.replicate 4 0 ++ mac.octets) Dhcp.fixed 0
  bytes ++ Dhcp.magic ++ [Dhcp.messageType, 1, kind.code] ++ [Dhcp.serverId, 4] ++ router.octets
    ++ [Dhcp.leaseTime, 4, 0, 0, 0, 120] ++ [Dhcp.endOption]

def routerFrame (kind : Dhcp.Kind) (xid : UInt32) (mac : Mac) (address : Ipv4) : List UInt8 :=
  let datagram := Udp.build router Dhcp.serverPort .broadcast Dhcp.clientPort
    (serverReply kind xid mac address)
  Ethernet.build .broadcast routerMac Ethernet.ipv4 (Ip.build router .broadcast Ip.udp 1 datagram)

/-- The exchange that gives an interface its first address, for two minutes. -/
def handshake (xid : UInt32) (mac : Mac) (address : Ipv4) : List Interface.Action :=
  [.poll 0,
    .receive (routerFrame .offer xid mac address) 0,
    .receive (routerFrame .ack xid mac address) 0]

/-- The neighbour answers when asked by ARP. -/
def neighbourFrame (address : Ipv4) : List UInt8 :=
  let reply : Arp := {
    op := Arp.reply
    senderMac := neighbourMac
    senderIp := neighbour
    targetMac := client
    targetIp := address }
  Ethernet.build client neighbourMac Ethernet.arp reply.toBytes

/-- A frame that is neither a DHCP message nor from the configured address. -/
def foreign (config : Option Config) (frame : List UInt8) : Bool :=
  (Ethernet.parse frame).any (fun parsed =>
    parsed.ethertype = Ethernet.ipv4 ∧ ipv4At parsed.payload 12 ≠ .unspecified
      ∧ config.map Config.address ≠ some (ipv4At parsed.payload 12))

theorem not_ownSource_of_foreign (isForeign : foreign config frame = true)
    : ¬ OwnSource config frame := by
  intro own
  obtain ⟨parsed, isParsed, holds⟩ := (Option.any_eq_true _ _).mp isForeign
  obtain ⟨isIp, notMessage, notHeld⟩ := of_decide_eq_true holds
  rcases own parsed isParsed isIp with message | ⟨held, rfl, source⟩
  · exact notMessage message.src
  · exact notHeld (congrArg some source.symm)

/-- A ping waits for its neighbour's answer while the server acknowledges another address: the answer
sends the ping from the address that is no longer the interface's.
-/
theorem foreign_of_renewed
    : ∃ turn, Reach.Reaches step Reach.anyEvent (start client 1) turn
        ∧ ∃ frame ∈ turn.returned, ¬ OwnSource turn.interface.config frame := by
  have executed : (Reach.runAll step Reach.anyEvent (start client 1)
      (handshake 1 client ⟨192, 168, 1, 50⟩ ++
      [.ping neighbour 1 59_000_000,
        .poll 60_000_000,
        .receive (routerFrame .ack 270369 client ⟨192, 168, 1, 51⟩) 60_000_000,
        .receive (neighbourFrame ⟨192, 168, 1, 50⟩) 60_000_000])).any
      (fun turn => turn.returned.any (foreign turn.interface.config)) = true := by
    decide +kernel
  obtain ⟨turn, run, found⟩ := Reach.Reaches.of_check executed
  obtain ⟨frame, member, isForeign⟩ := List.any_eq_true.mp found
  exact ⟨turn, run, frame, member, not_ownSource_of_foreign isForeign⟩

/-- Without the renewal, the answer sends the ping from the interface's address. -/
theorem ownSource_of_answered
    : ∃ turn, Reach.Reaches step Carried (start client 1) turn ∧ turn.returned ≠ []
        ∧ ∀ frame ∈ turn.returned, OwnSource turn.interface.config frame := by
  have executed : (Reach.runAll step Carried (start client 1)
      (handshake 1 client ⟨192, 168, 1, 50⟩ ++
      [.ping neighbour 1 59_000_000,
        .receive (neighbourFrame ⟨192, 168, 1, 50⟩) 59_000_000])).any
      (fun turn => decide (turn.returned ≠ [])) = true := by
    decide +kernel
  obtain ⟨turn, run, returned⟩ := Reach.Reaches.of_check executed
  exact ⟨turn, run, of_decide_eq_true returned, ownSource_of_carried run⟩

end Turn

end RustyPi.Net
