import RustyPi.Net.Dhcp

/-! A network interface, `rustypi-core/src/net/interface.rs`: its addresses, and what it does with the
frames that it receives. Frames go in through `receive`, and come out as results.
-/

namespace RustyPi.Net

/-- What DHCP gave. -/
structure Config where
  address : Ipv4
  netmask : Ipv4
  gateway : Option Ipv4
  dns : Option Ipv4
  leaseSecs : UInt32
  deriving DecidableEq, Repr

/-- Something worth telling the kernel about. -/
inductive Event
  | configured (config : Config)
  | unconfigured
  | pingReply (source : Ipv4) (seq : UInt16) (rtt : Nat)
  | udp (source : Ipv4) (sourcePort port : UInt16) (data : List UInt8)
  deriving DecidableEq, Repr

def dhcpRetryUs : Nat := 4_000_000
def dhcpRequestTries : Nat := 3
def minRenewUs : Nat := 60_000_000
def arpRetryUs : Nat := 1_000_000
def arpGiveUpUs : Nat := 3_000_000
def arpCache : Nat := 16
def pingTimeoutUs : Nat := 10_000_000

/-- Where the DHCP client is. -/
inductive DhcpState
  | discovering (xid : UInt32) (nextTry : Nat)
  | requesting (xid : UInt32) (offered server : Ipv4) (nextTry tries : Nat)
  | bound (server : Ipv4) (renewAt : Nat)
  deriving DecidableEq, Repr

/-- A packet that waits for its next hop's Ethernet address. -/
structure Waiting where
  nextHop : Ipv4
  packet : List UInt8
  queuedAt : Nat
  askedAt : Nat
  deriving DecidableEq, Repr

structure Interface where
  mac : Mac
  config : Option Config
  dhcp : DhcpState
  /-- Neighbours, newest last. -/
  arp : List (Ipv4 × Mac)
  waiting : List Waiting
  nextId : UInt16
  pingId : UInt16
  pings : List (UInt16 × Nat)
  events : List Event
  random : UInt32
  deriving DecidableEq, Repr

abbrev Frames : Type := List (List UInt8)

namespace Interface

def new (mac : Mac) (seed : UInt32) : Interface :=
  { mac
    config := none
    dhcp := .discovering seed 0
    arp := []
    waiting := []
    nextId := seed.toUInt16
    pingId := (seed >>> 16).toUInt16
    pings := []
    events := []
    random := seed ||| 1 }

/-- A number for the next DHCP transaction. -/
def nextXid (interface : Interface) : UInt32 × Interface :=
  let random := interface.random
  let random := random ^^^ random <<< 13
  let random := random ^^^ random >>> 17
  let random := random ^^^ random <<< 5
  (random, { interface with random })

def takeId (interface : Interface) : UInt16 × Interface :=
  (interface.nextId + 1, { interface with nextId := interface.nextId + 1 })

/-- A DHCP message from us, broadcast. -/
def dhcpFrame (interface : Interface) (message : List UInt8) : List UInt8 × Interface :=
  let datagram :=
    Udp.build .unspecified Dhcp.clientPort .broadcast Dhcp.serverPort message
  let (id, interface) := interface.takeId
  let packet := Ip.build .unspecified .broadcast Ip.udp id datagram
  (Ethernet.build .broadcast interface.mac Ethernet.ipv4 packet, interface)

def arpRequest (interface : Interface) (address : Ipv4) : Option (List UInt8) := do
  let config ← interface.config
  let request : Arp := {
    op := Arp.request
    senderMac := interface.mac
    senderIp := config.address
    targetMac := .zero
    targetIp := address }
  return Ethernet.build .broadcast interface.mac Ethernet.arp request.toBytes

def lookup (interface : Interface) (address : Ipv4) : Option Mac :=
  (interface.arp.reverse.find? (fun known => known.1 = address)).map Prod.snd

/-- Remembers where an address is, and sends what was waiting for it. -/
def learn (interface : Interface) (address : Ipv4) (mac : Mac) : Interface × Frames :=
  let arp := interface.arp.filter (fun known => known.1 ≠ address)
  let arp := if arp.length = arpCache then arp.drop 1 else arp
  let (ready, still) := interface.waiting.partition (fun waiting => waiting.nextHop = address)
  ({ interface with arp := arp ++ [(address, mac)], waiting := still },
    ready.map (fun waiting => Ethernet.build mac interface.mac Ethernet.ipv4 waiting.packet))

/-- Where to send what is for an address: there, or to the gateway. -/
def nextHop (config : Config) (dst : Ipv4) : Option Ipv4 :=
  if dst.sameNetwork config.address config.netmask then some dst else config.gateway

/-- Sends an IPv4 packet, once ARP says where. -/
def sendIp (interface : Interface) (dst : Ipv4) (protocol : UInt8) (payload : List UInt8) (now : Nat)
    : Interface × Frames :=
  match interface.config with
  | none => (interface, [])
  | some config =>
    match nextHop config dst with
    | none => (interface, [])
    | some hop =>
      let (id, interface) := interface.takeId
      let packet := Ip.build config.address dst protocol id payload
      match interface.lookup hop with
      | some mac => (interface, [Ethernet.build mac interface.mac Ethernet.ipv4 packet])
      | none =>
        -- One packet waits per next hop: a newer one replaces it.
        let others := interface.waiting.filter (fun waiting => waiting.nextHop ≠ hop)
        let waiting := { nextHop := hop, packet, queuedAt := now, askedAt := now }
        let interface := { interface with waiting := others ++ [waiting] }
        (interface, (interface.arpRequest hop).toList)

----------
-- Timers
----------

/-- The DHCP messages that are due. -/
def pollDiscovering (interface : Interface) (xid : UInt32) (nextTry now : Nat)
    : Interface × Frames :=
  if nextTry ≤ now then
    let interface := { interface with dhcp := .discovering xid (now + dhcpRetryUs) }
    let (frame, interface) := interface.dhcpFrame (Dhcp.discover interface.mac xid)
    (interface, [frame])
  else (interface, [])

def pollRequesting (interface : Interface) (xid : UInt32) (offered server : Ipv4)
    (nextTry tries now : Nat)
    : Interface × Frames :=
  if nextTry ≤ now then
    if dhcpRequestTries ≤ tries then
      let (xid, interface) := interface.nextXid
      pollDiscovering { interface with dhcp := .discovering xid now } xid now now
    else
      let dhcp := .requesting xid offered server (now + dhcpRetryUs) (tries + 1)
      let interface := { interface with dhcp }
      let (frame, interface) := interface.dhcpFrame (Dhcp.request interface.mac xid offered server)
      (interface, [frame])
  else (interface, [])

def pollBound (interface : Interface) (server : Ipv4) (renewAt now : Nat) : Interface × Frames :=
  if renewAt ≤ now then
    let offered := (interface.config.map Config.address).getD .unspecified
    let (xid, interface) := interface.nextXid
    pollRequesting { interface with dhcp := .requesting xid offered server now 0 }
      xid offered server now 0 now
  else (interface, [])

def pollDhcp (interface : Interface) (now : Nat) : Interface × Frames :=
  match interface.dhcp with
  | .discovering xid nextTry => interface.pollDiscovering xid nextTry now
  | .requesting xid offered server nextTry tries =>
    interface.pollRequesting xid offered server nextTry tries now
  | .bound server renewAt => interface.pollBound server renewAt now

/-- Gives up on packets, and asks again for the others' next hops. -/
def pollWaiting (interface : Interface) (now : Nat) : Interface × Frames :=
  let kept := interface.waiting.filter (fun waiting => now < waiting.queuedAt + arpGiveUpUs)
  let due (waiting : Waiting) : Bool := waiting.askedAt + arpRetryUs ≤ now
  let ask := (kept.filter due).map Waiting.nextHop
  let waiting := kept.map (fun waiting =>
    if due waiting then { waiting with askedAt := now } else waiting)
  ({ interface with waiting }, ask.filterMap interface.arpRequest)

/-- Runs the timers. -/
def poll (interface : Interface) (now : Nat) : Interface × Frames :=
  let (interface, frames) := interface.pollDhcp now
  let (interface, requests) := interface.pollWaiting now
  let pings := interface.pings.filter (fun ping => now < ping.2 + pingTimeoutUs)
  ({ interface with pings }, frames ++ requests)

def sendUdp (interface : Interface) (target : Ipv4) (port sourcePort : UInt16) (data : List UInt8)
    (now : Nat)
    : Interface × Frames :=
  match interface.config with
  | none => (interface, [])
  | some config =>
    interface.sendIp target Ip.udp (Udp.build config.address sourcePort target port data) now

def ping (interface : Interface) (target : Ipv4) (seq : UInt16) (now : Nat) : Interface × Frames :=
  let data := (List.range 32).map UInt8.ofNat
  let echo : Echo := { kind := Echo.echoRequest, id := interface.pingId, seq, data }
  let pings := interface.pings.filter (fun pending => pending.1 ≠ seq) ++ [(seq, now)]
  { interface with pings }.sendIp target Ip.icmp echo.toBytes now

----------
-- Receiving
----------

def receiveArp (interface : Interface) (arp : Arp) : Interface × Frames :=
  match interface.config with
  | none => (interface, [])
  | some config =>
    let (interface, frames) :=
      if arp.senderIp ≠ .unspecified then interface.learn arp.senderIp arp.senderMac
      else (interface, [])
    if arp.op = Arp.request ∧ arp.targetIp = config.address then
      let reply : Arp := {
        op := Arp.reply
        senderMac := interface.mac
        senderIp := config.address
        targetMac := arp.senderMac
        targetIp := arp.senderIp }
      (interface,
        frames ++ [Ethernet.build arp.senderMac interface.mac Ethernet.arp reply.toBytes])
    else (interface, frames)

/-- How long after an acknowledgement it is time to renew the lease. -/
def renewIn (leaseSecs : UInt32) : Nat := max (leaseSecs.toNat * 1_000_000 / 2) minRenewUs

/-- The configuration that an acknowledgement gives. -/
def configOf (reply : Dhcp.Reply) : Config :=
  { address := reply.address
    netmask := reply.netmask.getD ⟨255, 255, 255, 0⟩
    gateway := reply.router
    dns := reply.dns
    leaseSecs := reply.leaseSecs.getD 3600 }

/-- An answer to our DHCP message, by where the client is. -/
def receiveReply (interface : Interface) (reply : Dhcp.Reply) (now : Nat) : Interface × Frames :=
  match interface.dhcp, reply.kind with
  | .discovering xid _, .offer =>
    match reply.server with
    | none => (interface, [])
    | some server =>
      let dhcp := .requesting xid reply.address server (now + dhcpRetryUs) 1
      let interface := { interface with dhcp }
      let (frame, interface) :=
        interface.dhcpFrame (Dhcp.request interface.mac xid reply.address server)
      (interface, [frame])
  | .requesting _ _ server _ _, .ack =>
    let config := configOf reply
    let dhcp := .bound (reply.server.getD server) (now + renewIn config.leaseSecs)
    let interface := { interface with dhcp }
    if interface.config ≠ some config then
      ({ interface with config, events := interface.events ++ [.configured config] }, [])
    else (interface, [])
  | .requesting _ _ _ _ _, .nak =>
    let events := if interface.config.isSome then [.unconfigured] else []
    let interface := { interface with config := none, events := interface.events ++ events }
    let (xid, interface) := interface.nextXid
    ({ interface with dhcp := .discovering xid now }, [])
  | _, _ => (interface, [])

/-- The transaction under way. -/
def xid (interface : Interface) : Option UInt32 :=
  match interface.dhcp with
  | .discovering xid _ => some xid
  | .requesting xid _ _ _ _ => some xid
  | .bound _ _ => none

def receiveDhcp (interface : Interface) (payload : List UInt8) (now : Nat) : Interface × Frames :=
  match interface.xid with
  | none => (interface, [])
  | some xid =>
    match Dhcp.parseReply payload xid interface.mac with
    | none => (interface, [])
    | some reply => interface.receiveReply reply now

def receiveUdp (interface : Interface) (packet : Ip.Packet) (now : Nat) : Interface × Frames :=
  match Udp.parse packet.payload packet.src packet.dst with
  | none => (interface, [])
  | some datagram =>
    if datagram.dstPort = Dhcp.clientPort ∧ datagram.srcPort = Dhcp.serverPort then
      interface.receiveDhcp datagram.payload now
    else if interface.config.map Config.address = some packet.dst then
      let event := .udp packet.src datagram.srcPort datagram.dstPort datagram.payload
      ({ interface with events := interface.events ++ [event] }, [])
    else (interface, [])

/-- A ping for us, or an answer to one of ours. -/
def receiveEcho (interface : Interface) (config : Config) (sender : Mac) (packet : Ip.Packet)
    (echo : Echo) (now : Nat)
    : Interface × Frames :=
  if echo.kind = Echo.echoRequest then
    let (interface, frames) :=
      if config.address.sameNetwork packet.src config.netmask then interface.learn packet.src sender
      else (interface, [])
    let reply := { echo with kind := Echo.echoReply }.toBytes
    let (id, interface) := interface.takeId
    let answer := Ip.build config.address packet.src Ip.icmp id reply
    (interface, frames ++ [Ethernet.build sender interface.mac Ethernet.ipv4 answer])
  else if echo.kind = Echo.echoReply ∧ echo.id = interface.pingId then
    match interface.pings.findIdx? (fun ping => ping.1 = echo.seq) with
    | none => (interface, [])
    | some index =>
      match interface.pings[index]? with
      | none => (interface, [])
      | some (seq, sent) =>
        let event := .pingReply packet.src seq (now - sent)
        ({ interface with
            pings := interface.pings.eraseIdx index, events := interface.events ++ [event] }, [])
  else (interface, [])

def receiveIpv4 (interface : Interface) (sender : Mac) (packet : Ip.Packet) (now : Nat)
    : Interface × Frames :=
  if packet.protocol = Ip.udp then interface.receiveUdp packet now
  else
    match interface.config with
    | none => (interface, [])
    | some config =>
      if packet.dst ≠ config.address ∨ packet.protocol ≠ Ip.icmp then (interface, [])
      else
        match Echo.parse packet.payload with
        | none => (interface, [])
        | some echo => interface.receiveEcho config sender packet echo now

def receive (interface : Interface) (bytes : List UInt8) (now : Nat) : Interface × Frames :=
  match Ethernet.parse bytes with
  | none => (interface, [])
  | some frame =>
    if frame.dst ≠ interface.mac ∧ frame.dst ≠ .broadcast then (interface, [])
    else if frame.ethertype = Ethernet.arp then
      match Arp.parse frame.payload with
      | none => (interface, [])
      | some arp => interface.receiveArp arp
    else if frame.ethertype = Ethernet.ipv4 then
      match Ip.parse frame.payload with
      | none => (interface, [])
      | some packet => interface.receiveIpv4 frame.src packet now
    else (interface, [])

/-- What happened since the last time. -/
def takeEvents (interface : Interface) : List Event × Interface :=
  (interface.events, { interface with events := [] })

/-- A call of the kernel's. -/
inductive Action
  | receive (bytes : List UInt8) (now : Nat)
  | poll (now : Nat)
  | ping (target : Ipv4) (seq : UInt16) (now : Nat)
  | sendUdp (target : Ipv4) (port sourcePort : UInt16) (data : List UInt8) (now : Nat)
  | takeEvents

def act (interface : Interface) : Action → Interface × Frames
  | .receive bytes now => interface.receive bytes now
  | .poll now => interface.poll now
  | .ping target seq now => interface.ping target seq now
  | .sendUdp target port sourcePort data now => interface.sendUdp target port sourcePort data now
  | .takeEvents => (interface.takeEvents.2, [])

----------
-- What the DHCP timers can do
----------

/-- What the DHCP client does when polled: nothing, or it goes on to another state and says so. -/
inductive Prompted (interface : Interface) : Interface × Frames → Prop
  | quiet : Prompted interface (interface, [])
  | asks (dhcp : DhcpState) (random : UInt32) {message framed}
    (isFramed : dhcpFrame { interface with dhcp, random } message = framed)
    : Prompted interface (framed.2, [framed.1])

theorem prompted_pollDiscovering (interface : Interface) (dhcp : DhcpState) (random xid : UInt32)
    (nextTry now : Nat) (due : nextTry ≤ now)
    : Prompted interface (pollDiscovering { interface with dhcp, random } xid nextTry now) := by
  rw [pollDiscovering, if_pos due]
  dsimp only
  generalize isFramed : dhcpFrame _ _ = framed
  exact .asks _ _ isFramed

theorem prompted_pollRequesting (interface : Interface) (dhcp : DhcpState) (random xid : UInt32)
    (offered server : Ipv4) (nextTry tries now : Nat) (due : nextTry ≤ now)
    : Prompted interface
        (pollRequesting { interface with dhcp, random } xid offered server nextTry tries now) := by
  rw [pollRequesting, if_pos due]
  split
  · exact prompted_pollDiscovering interface _ _ _ _ _ (Nat.le_refl now)
  · dsimp only
    generalize isFramed : dhcpFrame _ _ = framed
    exact .asks _ _ isFramed

theorem prompted (interface : Interface) (now : Nat)
    : Prompted interface (interface.pollDhcp now) := by
  unfold pollDhcp
  split
  · rename_i xid nextTry _
    by_cases due : nextTry ≤ now
    · exact prompted_pollDiscovering interface interface.dhcp interface.random xid nextTry now due
    · rw [pollDiscovering, if_neg due]
      exact .quiet
  · rename_i xid offered server nextTry tries _
    by_cases due : nextTry ≤ now
    · exact prompted_pollRequesting interface interface.dhcp interface.random xid offered server
        nextTry tries now due
    · rw [pollRequesting, if_neg due]
      exact .quiet
  · unfold pollBound
    split
    · exact prompted_pollRequesting interface _ _ _ _ _ _ _ _ (Nat.le_refl now)
    · exact .quiet

----------
-- What receiving can do
----------

/-- The packet that a frame brings the interface. -/
def packetIn (interface : Interface) (bytes : List UInt8) : Option Ip.Packet :=
  (Ethernet.parse bytes).bind (fun frame =>
    if (frame.dst = interface.mac ∨ frame.dst = .broadcast) ∧ frame.ethertype = Ethernet.ipv4 then
      Ip.parse frame.payload
    else none)

/-- A server's answer to the transaction under way, if a packet is one. -/
def replyTo (interface : Interface) (packet : Ip.Packet) : Option Dhcp.Reply :=
  if packet.protocol = Ip.udp then
    (Udp.parse packet.payload packet.src packet.dst).bind (fun datagram =>
      if datagram.dstPort = Dhcp.clientPort ∧ datagram.srcPort = Dhcp.serverPort then
        interface.xid.bind (fun xid => Dhcp.parseReply datagram.payload xid interface.mac)
      else none)
  else none

def replyIn (interface : Interface) (bytes : List UInt8) : Option Dhcp.Reply :=
  (interface.packetIn bytes).bind interface.replyTo

/-- What an answer to our DHCP message can do: an offer is taken up, an acknowledgement gives a
configuration, a refusal takes it back.
-/
inductive Replied (interface : Interface) (reply : Dhcp.Reply) (now : Nat)
    : Interface × Frames → Prop
  | ignored
    (unasked : ∀ {xid offered server nextTry tries},
      interface.dhcp = .requesting xid offered server nextTry tries
        → reply.kind ≠ .ack ∧ reply.kind ≠ .nak)
    : Replied interface reply now (interface, [])
  | offered {xid nextTry server}
    (before : interface.dhcp = .discovering xid nextTry) {framed}
    (isFramed
      : dhcpFrame
          { interface with dhcp := .requesting xid reply.address server (now + dhcpRetryUs) 1 }
          (Dhcp.request interface.mac xid reply.address server) = framed)
    : Replied interface reply now (framed.2, [framed.1])
  | acked {xid offered server other nextTry tries}
    (before : interface.dhcp = .requesting xid offered server nextTry tries)
    (isAck : reply.kind = .ack) {events}
    : Replied interface reply now
        ({ interface with
            config := some (configOf reply)
            dhcp := .bound other (now + renewIn (configOf reply).leaseSecs)
            events := interface.events ++ events }, [])
  | refused {xid offered server nextTry tries}
    (before : interface.dhcp = .requesting xid offered server nextTry tries)
    (isNak : reply.kind = .nak) {events}
    : Replied interface reply now
        ({ interface with
            config := none
            dhcp := .discovering interface.nextXid.1 now
            events := interface.events ++ events
            random := interface.nextXid.2.random }, [])

theorem replied (interface : Interface) (reply : Dhcp.Reply) (now : Nat)
    : Replied interface reply now (interface.receiveReply reply now) := by
  unfold receiveReply
  split
  · rename_i before isOffer
    split
    · exact .ignored (fun _ => by rw [isOffer]; decide)
    · dsimp only
      generalize isFramed : dhcpFrame _ _ = framed
      exact .offered before isFramed
  · rename_i server _ _ before isAck
    dsimp only
    split
    · exact .acked before isAck
    · rename_i same
      have same := Classical.not_not.mp same
      have acked : Replied interface reply now
          ({ interface with
              config := some (configOf reply)
              dhcp := .bound (reply.server.getD server) (now + renewIn (configOf reply).leaseSecs)
              events := interface.events ++ [] }, []) :=
        .acked before isAck
      rw [List.append_nil, ← same] at acked
      exact acked
  · rename_i before isNak
    exact .refused before isNak
  · rename_i notAck notNak
    exact .ignored (fun requesting =>
      ⟨notAck _ _ _ _ _ requesting, notNak _ _ _ _ _ requesting⟩)

/-- What a frame that arrived can do. -/
inductive Received (interface : Interface) (bytes : List UInt8) (now : Nat)
    : Interface × Frames → Prop
  | ignored (noReply : interface.replyIn bytes = none) : Received interface bytes now (interface, [])
  | arp (noReply : interface.replyIn bytes = none) (arp : Arp)
    : Received interface bytes now (interface.receiveArp arp)
  | replied {reply} (isReply : interface.replyIn bytes = some reply)
    {result} (replied : Replied interface reply now result)
    : Received interface bytes now result
  | datagram (noReply : interface.replyIn bytes = none) (event : Event)
    : Received interface bytes now ({ interface with events := interface.events ++ [event] }, [])
  | echo (noReply : interface.replyIn bytes = none) {held}
    (isHeld : interface.config = some held) (sender : Mac) (packet : Ip.Packet) (echo : Echo)
    : Received interface bytes now (interface.receiveEcho held sender packet echo now)

section Packet

variable {interface : Interface} {bytes : List UInt8} {packet : Ip.Packet}
  (isPacket : interface.packetIn bytes = some packet)
include isPacket

theorem received_udp (isUdp : packet.protocol = Ip.udp) (now : Nat)
    : Received interface bytes now (interface.receiveUdp packet now) := by
  have isReply : interface.replyIn bytes = interface.replyTo packet := by
    rw [replyIn, isPacket, Option.bind_some]
  rw [replyTo, if_pos isUdp] at isReply
  rw [receiveUdp]
  cases parsed : Udp.parse packet.payload packet.src packet.dst with
  | none => exact .ignored (by rw [isReply, parsed, Option.bind_none])
  | some datagram =>
    rw [parsed, Option.bind_some] at isReply
    dsimp only
    split at isReply
    · rw [if_pos ‹_›, receiveDhcp]
      cases isXid : interface.xid with
      | none => exact .ignored (by rw [isReply, isXid, Option.bind_none])
      | some xid =>
        rw [isXid, Option.bind_some] at isReply
        dsimp only
        cases answer : Dhcp.parseReply datagram.payload xid interface.mac with
        | none => exact .ignored (isReply.trans answer)
        | some reply => exact .replied (isReply.trans answer) (interface.replied reply now)
    · rw [if_neg ‹_›]
      split
      · exact .datagram isReply _
      · exact .ignored isReply

theorem received_ipv4 (sender : Mac) (now : Nat)
    : Received interface bytes now (interface.receiveIpv4 sender packet now) := by
  unfold receiveIpv4
  split
  · rename_i isUdp
    exact received_udp isPacket isUdp now
  · rename_i other
    have noReply : interface.replyIn bytes = none := by
      rw [replyIn, isPacket, Option.bind_some, replyTo, if_neg other]
    split
    · exact .ignored noReply
    · rename_i held isHeld
      split
      · exact .ignored noReply
      · split
        · exact .ignored noReply
        · exact .echo noReply isHeld sender packet _

end Packet

/-- Whatever arrives, receiving it does one of these. -/
theorem received (interface : Interface) (bytes : List UInt8) (now : Nat)
    : Received interface bytes now (interface.receive bytes now) := by
  have noReply (noPacket : interface.packetIn bytes = none) : interface.replyIn bytes = none := by
    rw [replyIn, noPacket, Option.bind_none]
  rw [receive]
  rw [packetIn] at noReply
  cases parsed : Ethernet.parse bytes with
  | none => exact .ignored (noReply (by rw [parsed, Option.bind_none]))
  | some frame =>
    rw [parsed, Option.bind_some] at noReply
    dsimp only
    by_cases forUs
      : (frame.dst = interface.mac ∨ frame.dst = .broadcast) ∧ frame.ethertype = Ethernet.ipv4
    · have accepted : ¬ (frame.dst ≠ interface.mac ∧ frame.dst ≠ .broadcast) :=
        fun other => forUs.1.elim other.1 other.2
      rw [if_neg accepted, if_neg (by rw [forUs.2]; decide), if_pos forUs.2]
      rw [if_pos forUs] at noReply
      cases isPacket : Ip.parse frame.payload with
      | none => exact .ignored (noReply isPacket)
      | some packet =>
        exact received_ipv4 (by rw [packetIn, parsed, Option.bind_some, if_pos forUs, isPacket]) _ _
    · have noReply := noReply (if_neg forUs)
      split
      · exact .ignored noReply
      · rename_i accepted
        split
        · split
          · exact .ignored noReply
          · exact .arp noReply _
        · split
          · rename_i isIp
            exact absurd ⟨by simpa [Classical.or_iff_not_imp_left] using accepted, isIp⟩ forUs
          · exact .ignored noReply

end Interface

end RustyPi.Net
