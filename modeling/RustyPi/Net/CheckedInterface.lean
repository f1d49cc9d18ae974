import RustyPi.Net.CheckedPackets
import RustyPi.Net.Sources

/-! The interface with everything in it that can panic. Whatever arrives and whatever it is asked for,
it doesn't, as long as times stay below 2^63 microseconds: no state that it gets to holds a time or a
packet with which an addition could overflow.
-/

namespace RustyPi.Net

open RustyPi.Checked

variable {bytes : List UInt8}

theorem Ethernet.length_payload {frame : Frame} (parsed : parse bytes = some frame)
    : frame.payload.length ≤ bytes.length := by
  obtain ⟨-, found⟩ := Option.ite_none_left_eq_some.mp parsed
  cases found
  rw [List.length_drop]
  omega

theorem Udp.length_payload {src dst : Ipv4} {datagram : Datagram}
    (parsed : parse bytes src dst = some datagram)
    : datagram.payload.length ≤ bytes.length := by
  obtain ⟨-, parsed⟩ := Option.ite_none_left_eq_some.mp parsed
  obtain ⟨-, parsed⟩ := Option.ite_none_left_eq_some.mp parsed
  obtain ⟨-, found⟩ := Option.ite_none_left_eq_some.mp parsed
  cases found
  rw [List.length_drop, List.length_take]
  omega

namespace Interface

def dhcpFrameChecked (interface : Interface) (message : List UInt8)
    : Checked (List UInt8 × Interface) := do
  let datagram ← Udp.buildChecked .unspecified Dhcp.clientPort .broadcast Dhcp.serverPort message
  let (id, interface) := interface.takeId
  let packet ← Ip.buildChecked .unspecified .broadcast Ip.udp id datagram
  let frame ← Ethernet.buildChecked .broadcast interface.mac Ethernet.ipv4 packet
  return (frame, interface)

def arpRequestChecked (interface : Interface) (address : Ipv4) : Checked (Option (List UInt8)) :=
  match interface.config with
  | none => .ok none
  | some config => do
      let request : Arp := {
        op := Arp.request
        senderMac := interface.mac
        senderIp := config.address
        targetMac := .zero
        targetIp := address }
      let bytes ← request.toBytesChecked
      some <$> Ethernet.buildChecked .broadcast interface.mac Ethernet.arp bytes

/-- The oldest neighbour is removed from a full cache. -/
def evictChecked (arp : List (Ipv4 × Mac)) : Checked (List (Ipv4 × Mac)) :=
  if arp.length = arpCache then do
    let _ ← index arp 0
    return arp.drop 1
  else .ok arp

def learnChecked (interface : Interface) (address : Ipv4) (mac : Mac) : Checked (Interface × Frames) := do
  let arp ← evictChecked (interface.arp.filter (fun known => known.1 ≠ address))
  let (ready, still) := interface.waiting.partition (fun waiting => waiting.nextHop = address)
  let frames ← each
    (fun waiting => Ethernet.buildChecked mac interface.mac Ethernet.ipv4 waiting.packet) ready
  return ({ interface with arp := arp ++ [(address, mac)], waiting := still }, frames)

def sendIpChecked (interface : Interface) (dst : Ipv4) (protocol : UInt8) (payload : List UInt8)
    (now : Nat)
    : Checked (Interface × Frames) :=
  match interface.config with
  | none => .ok (interface, [])
  | some config =>
    match nextHop config dst with
    | none => .ok (interface, [])
    | some hop => do
        let (id, interface) := interface.takeId
        let packet ← Ip.buildChecked config.address dst protocol id payload
        match interface.lookup hop with
        | some mac =>
          let frame ← Ethernet.buildChecked mac interface.mac Ethernet.ipv4 packet
          return (interface, [frame])
        | none =>
          let others := interface.waiting.filter (fun waiting => waiting.nextHop ≠ hop)
          let waiting := { nextHop := hop, packet, queuedAt := now, askedAt := now }
          let interface := { interface with waiting := others ++ [waiting] }
          let request ← interface.arpRequestChecked hop
          return (interface, request.toList)

def sendUdpChecked (interface : Interface) (target : Ipv4) (port sourcePort : UInt16)
    (data : List UInt8) (now : Nat)
    : Checked (Interface × Frames) :=
  match interface.config with
  | none => .ok (interface, [])
  | some config => do
      let datagram ← Udp.buildChecked config.address sourcePort target port data
      interface.sendIpChecked target Ip.udp datagram now

def pingChecked (interface : Interface) (target : Ipv4) (seq : UInt16) (now : Nat)
    : Checked (Interface × Frames) := do
  let data := (List.range 32).map UInt8.ofNat
  let echo : Echo := { kind := Echo.echoRequest, id := interface.pingId, seq, data }
  let bytes ← echo.toBytesChecked
  let pings := interface.pings.filter (fun pending => pending.1 ≠ seq) ++ [(seq, now)]
  { interface with pings }.sendIpChecked target Ip.icmp bytes now

def pollDiscoveringChecked (interface : Interface) (xid : UInt32) (nextTry now : Nat)
    : Checked (Interface × Frames) :=
  if nextTry ≤ now then do
    let interface := { interface with dhcp := .discovering xid (← fits 64 (now + dhcpRetryUs)) }
    let (frame, interface) ← interface.dhcpFrameChecked (Dhcp.discover interface.mac xid)
    return (interface, [frame])
  else .ok (interface, [])

def pollRequestingChecked (interface : Interface) (xid : UInt32) (offered server : Ipv4)
    (nextTry tries now : Nat)
    : Checked (Interface × Frames) :=
  if nextTry ≤ now then
    if dhcpRequestTries ≤ tries then
      let (xid, interface) := interface.nextXid
      pollDiscoveringChecked { interface with dhcp := .discovering xid now } xid now now
    else do
      let nextTry ← fits 64 (now + dhcpRetryUs)
      let tries ← fits 32 (tries + 1)
      let interface := { interface with dhcp := .requesting xid offered server nextTry tries }
      let (frame, interface) ←
        interface.dhcpFrameChecked (Dhcp.request interface.mac xid offered server)
      return (interface, [frame])
  else .ok (interface, [])

def pollBoundChecked (interface : Interface) (server : Ipv4) (renewAt now : Nat)
    : Checked (Interface × Frames) :=
  if renewAt ≤ now then
    let offered := (interface.config.map Config.address).getD .unspecified
    let (xid, interface) := interface.nextXid
    pollRequestingChecked { interface with dhcp := .requesting xid offered server now 0 }
      xid offered server now 0 now
  else .ok (interface, [])

def pollDhcpChecked (interface : Interface) (now : Nat) : Checked (Interface × Frames) :=
  match interface.dhcp with
  | .discovering xid nextTry => interface.pollDiscoveringChecked xid nextTry now
  | .requesting xid offered server nextTry tries =>
    interface.pollRequestingChecked xid offered server nextTry tries now
  | .bound server renewAt => interface.pollBoundChecked server renewAt now

/-- Each packet's times are added to before they are compared with this one. -/
def pollWaitingChecked (interface : Interface) (now : Nat) : Checked (Interface × Frames) := do
  let _ ← each (fun waiting => fits 64 (waiting.queuedAt + arpGiveUpUs)) interface.waiting
  let kept := interface.waiting.filter (fun waiting => now < waiting.queuedAt + arpGiveUpUs)
  let _ ← each (fun waiting => fits 64 (waiting.askedAt + arpRetryUs)) kept
  let due (waiting : Waiting) : Bool := waiting.askedAt + arpRetryUs ≤ now
  let ask := (kept.filter due).map Waiting.nextHop
  let waiting := kept.map (fun waiting =>
    if due waiting then { waiting with askedAt := now } else waiting)
  let requests ← each interface.arpRequestChecked ask
  return ({ interface with waiting }, requests.filterMap id)

def pollChecked (interface : Interface) (now : Nat) : Checked (Interface × Frames) := do
  let (interface, frames) ← interface.pollDhcpChecked now
  let (interface, requests) ← interface.pollWaitingChecked now
  let _ ← each (fun ping => fits 64 (ping.2 + pingTimeoutUs)) interface.pings
  let pings := interface.pings.filter (fun ping => now < ping.2 + pingTimeoutUs)
  return ({ interface with pings }, frames ++ requests)

/-- What a packet's sender tells about itself, when there is something to learn from it. -/
def learnIfChecked (interface : Interface) (known : Bool) (address : Ipv4) (mac : Mac)
    : Checked (Interface × Frames) :=
  if known then interface.learnChecked address mac else .ok (interface, [])

def receiveArpChecked (interface : Interface) (arp : Arp) : Checked (Interface × Frames) :=
  match interface.config with
  | none => .ok (interface, [])
  | some config => do
      let (interface, frames) ←
        interface.learnIfChecked (arp.senderIp ≠ .unspecified) arp.senderIp arp.senderMac
      if arp.op = Arp.request ∧ arp.targetIp = config.address then
        let reply : Arp := {
          op := Arp.reply
          senderMac := interface.mac
          senderIp := config.address
          targetMac := arp.senderMac
          targetIp := arp.senderIp }
        let bytes ← reply.toBytesChecked
        let frame ← Ethernet.buildChecked arp.senderMac interface.mac Ethernet.arp bytes
        return (interface, frames ++ [frame])
      else return (interface, frames)

def receiveReplyChecked (interface : Interface) (reply : Dhcp.Reply) (now : Nat)
    : Checked (Interface × Frames) :=
  match interface.dhcp, reply.kind with
  | .discovering xid _, .offer =>
    match reply.server with
    | none => .ok (interface, [])
    | some server => do
        let nextTry ← fits 64 (now + dhcpRetryUs)
        let interface := { interface with dhcp := .requesting xid reply.address server nextTry 1 }
        let (frame, interface) ←
          interface.dhcpFrameChecked (Dhcp.request interface.mac xid reply.address server)
        return (interface, [frame])
  | .requesting _ _ server _ _, .ack => do
      let config := configOf reply
      let lease ← fits 64 (config.leaseSecs.toNat * 1_000_000)
      let renewAt ← fits 64 (now + max (lease / 2) minRenewUs)
      let interface := { interface with dhcp := .bound (reply.server.getD server) renewAt }
      if interface.config ≠ some config then
        return ({ interface with config, events := interface.events ++ [.configured config] }, [])
      else return (interface, [])
  | .requesting _ _ _ _ _, .nak => .ok (interface.receiveReply reply now)
  | _, _ => .ok (interface, [])

def receiveDhcpChecked (interface : Interface) (payload : List UInt8) (now : Nat)
    : Checked (Interface × Frames) :=
  match interface.xid with
  | none => .ok (interface, [])
  | some xid => do
      match ← Dhcp.parseReplyChecked payload xid interface.mac with
      | none => return (interface, [])
      | some reply => interface.receiveReplyChecked reply now

def receiveUdpChecked (interface : Interface) (packet : Ip.Packet) (now : Nat)
    : Checked (Interface × Frames) := do
  match ← Udp.parseChecked packet.payload packet.src packet.dst with
  | none => return (interface, [])
  | some datagram =>
    if datagram.dstPort = Dhcp.clientPort ∧ datagram.srcPort = Dhcp.serverPort then
      interface.receiveDhcpChecked datagram.payload now
    else if interface.config.map Config.address = some packet.dst then
      let event := .udp packet.src datagram.srcPort datagram.dstPort datagram.payload
      return ({ interface with events := interface.events ++ [event] }, [])
    else return (interface, [])

def receiveEchoChecked (interface : Interface) (config : Config) (sender : Mac) (packet : Ip.Packet)
    (echo : Echo) (now : Nat)
    : Checked (Interface × Frames) :=
  if echo.kind = Echo.echoRequest then do
    let (interface, frames) ←
      interface.learnIfChecked (config.address.sameNetwork packet.src config.netmask) packet.src sender
    let reply ← { echo with kind := Echo.echoReply }.toBytesChecked
    let (id, interface) := interface.takeId
    let answer ← Ip.buildChecked config.address packet.src Ip.icmp id reply
    let frame ← Ethernet.buildChecked sender interface.mac Ethernet.ipv4 answer
    return (interface, frames ++ [frame])
  else if echo.kind = Echo.echoReply ∧ echo.id = interface.pingId then
    match interface.pings.findIdx? (fun ping => ping.1 = echo.seq) with
    | none => .ok (interface, [])
    | some place => do
        let (seq, sent) ← index interface.pings place
        let event := .pingReply packet.src seq (now - sent)
        return ({ interface with
          pings := interface.pings.eraseIdx place, events := interface.events ++ [event] }, [])
  else .ok (interface, [])

def receiveIpv4Checked (interface : Interface) (sender : Mac) (packet : Ip.Packet) (now : Nat)
    : Checked (Interface × Frames) :=
  if packet.protocol = Ip.udp then interface.receiveUdpChecked packet now
  else
    match interface.config with
    | none => .ok (interface, [])
    | some config =>
      if packet.dst ≠ config.address ∨ packet.protocol ≠ Ip.icmp then .ok (interface, [])
      else do
        match ← Echo.parseChecked packet.payload with
        | none => return (interface, [])
        | some echo => interface.receiveEchoChecked config sender packet echo now

def receiveChecked (interface : Interface) (bytes : List UInt8) (now : Nat)
    : Checked (Interface × Frames) := do
  match ← Ethernet.parseChecked bytes with
  | none => return (interface, [])
  | some frame =>
    if frame.dst ≠ interface.mac ∧ frame.dst ≠ .broadcast then return (interface, [])
    else if frame.ethertype = Ethernet.arp then
      match ← Arp.parseChecked frame.payload with
      | none => return (interface, [])
      | some arp => interface.receiveArpChecked arp
    else if frame.ethertype = Ethernet.ipv4 then
      match ← Ip.parseChecked frame.payload with
      | none => return (interface, [])
      | some packet => interface.receiveIpv4Checked frame.src packet now
    else return (interface, [])

def actChecked (interface : Interface) : Action → Checked (Interface × Frames)
  | .receive bytes now => interface.receiveChecked bytes now
  | .poll now => interface.pollChecked now
  | .ping target seq now => interface.pingChecked target seq now
  | .sendUdp target port sourcePort data now =>
    interface.sendUdpChecked target port sourcePort data now
  | .takeEvents => .ok (interface.takeEvents.2, [])

/-- The times below which everything happens. -/
def maxTime : Nat := 2 ^ 63

structure Small (waiting : Waiting) : Prop where
  queued : waiting.queuedAt < maxTime
  asked : waiting.askedAt < maxTime
  short : waiting.packet.length < maxLength

/-- No time that an interface keeps is past the last one, and no packet longer than there can be. -/
structure Bounded (interface : Interface) : Prop where
  waiting : ∀ waiting ∈ interface.waiting, Small waiting
  sent : ∀ ping ∈ interface.pings, ping.2 < maxTime

variable {interface : Interface} {now : Nat}

theorem Bounded.of_subset {next : Interface} (bounded : interface.Bounded)
    (waiting : next.waiting ⊆ interface.waiting) (pings : next.pings ⊆ interface.pings)
    : next.Bounded :=
  ⟨fun packet member => bounded.waiting packet (waiting member),
    fun ping member => bounded.sent ping (pings member)⟩

theorem bounded_dhcpFrame (bounded : interface.Bounded) {other : Interface} {message : List UInt8}
    {result : List UInt8 × Interface} (isResult : other.dhcpFrame message = result)
    (waiting : other.waiting = interface.waiting) (pings : other.pings = interface.pings)
    : result.2.Bounded := by
  subst isResult
  exact ⟨waiting ▸ bounded.waiting, pings ▸ bounded.sent⟩

theorem bounded_pollDhcp (bounded : interface.Bounded) (now : Nat)
    : (interface.pollDhcp now).1.Bounded := by
  have prompted := interface.prompted now
  generalize interface.pollDhcp now = result at *
  cases prompted with
  | quiet => exact bounded
  | asks dhcp random isFramed => exact bounded_dhcpFrame bounded isFramed rfl rfl

theorem fits_time {more : Nat} (early : now < maxTime) (little : more ≤ 2 ^ 62)
    : fits 64 (now + more) = .ok (now + more) := by
  have early : now < 2 ^ 63 := early
  exact fits_of_lt (by omega)

theorem dhcpFrameChecked_eq (interface : Interface) {message : List UInt8}
    (few : message.length ≤ 1472)
    : interface.dhcpFrameChecked message = .ok (interface.dhcpFrame message) := by
  unfold dhcpFrameChecked
  rw [Udp.buildChecked_eq _ _ _ _ few, ok_bind]
  dsimp only
  have long := Udp.length_build .unspecified Dhcp.clientPort .broadcast Dhcp.serverPort message
  rw [Udp.header] at long
  rw [Ip.buildChecked_eq _ _ _ _ (by rw [long, maxLength]; omega), ok_bind,
    Ethernet.buildChecked_eq _ _ _ (by rw [Ip.length_build, long, Ip.header, maxLength]; omega)]
  rfl

theorem arp_short (arp : Arp) : arp.toBytes.length < maxLength :=
  Nat.lt_of_lt_of_le (Nat.lt_succ_self 28) (by decide)

theorem arpRequestChecked_eq (interface : Interface) (address : Ipv4)
    : interface.arpRequestChecked address = .ok (interface.arpRequest address) := by
  unfold arpRequestChecked arpRequest
  cases interface.config with
  | none => rfl
  | some config =>
    dsimp only
    rw [Arp.toBytesChecked_eq, ok_bind, Ethernet.buildChecked_eq _ _ _ (arp_short _)]
    rfl

theorem evictChecked_eq (arp : List (Ipv4 × Mac))
    : evictChecked arp = .ok (if arp.length = arpCache then arp.drop 1 else arp) := by
  unfold evictChecked
  split
  · rename_i full
    rw [index_of_lt (by rw [full]; decide) (.unspecified, .zero)]
    rfl
  · rfl

theorem learnChecked_eq (bounded : interface.Bounded) (address : Ipv4) (mac : Mac)
    : interface.learnChecked address mac = .ok (interface.learn address mac) := by
  unfold learnChecked
  rw [evictChecked_eq, ok_bind]
  dsimp only
  have ready : ∀ waiting ∈ (interface.waiting.partition (fun waiting => waiting.nextHop = address)).1,
      Ethernet.buildChecked mac interface.mac Ethernet.ipv4 waiting.packet
        = .ok (Ethernet.build mac interface.mac Ethernet.ipv4 waiting.packet) := by
    intro waiting member
    rw [List.partition_eq_filter_filter] at member
    exact Ethernet.buildChecked_eq _ _ _ (bounded.waiting waiting (List.mem_of_mem_filter member)).short
  rw [each_eq ready]
  rfl

theorem sendIpChecked_eq (interface : Interface) (dst : Ipv4) (protocol : UInt8) {payload : List UInt8}
    (few : payload.length ≤ 1480) (now : Nat)
    : interface.sendIpChecked dst protocol payload now
      = .ok (interface.sendIp dst protocol payload now) := by
  unfold sendIpChecked sendIp
  cases interface.config with
  | none => rfl
  | some config =>
    dsimp only
    cases nextHop config dst with
    | none => rfl
    | some hop =>
      dsimp only
      rw [Ip.buildChecked_eq _ _ _ _ (by rw [maxLength]; omega), ok_bind]
      cases interface.takeId.2.lookup hop with
      | some mac =>
        dsimp only
        rw [Ethernet.buildChecked_eq _ _ _ (by rw [Ip.length_build, Ip.header, maxLength]; omega)]
        rfl
      | none =>
        dsimp only
        rw [arpRequestChecked_eq]
        rfl

theorem sendUdpChecked_eq (interface : Interface) (target : Ipv4) (port sourcePort : UInt16)
    {data : List UInt8} (few : data.length ≤ 1472) (now : Nat)
    : interface.sendUdpChecked target port sourcePort data now
      = .ok (interface.sendUdp target port sourcePort data now) := by
  unfold sendUdpChecked sendUdp
  cases interface.config with
  | none => rfl
  | some config =>
    dsimp only
    rw [Udp.buildChecked_eq _ _ _ _ few, ok_bind]
    exact sendIpChecked_eq _ _ _ (by rw [Udp.length_build, Udp.header]; omega) _

theorem pingChecked_eq (interface : Interface) (target : Ipv4) (seq : UInt16) (now : Nat)
    : interface.pingChecked target seq now = .ok (interface.ping target seq now) := by
  unfold pingChecked
  dsimp only
  rw [Echo.toBytesChecked_eq (by simp), ok_bind]
  exact sendIpChecked_eq _ _ _ (by rw [Echo.length_toBytes]; simp) _

section Timers

variable {now : Nat} (early : now < maxTime)

include early

theorem pollDiscoveringChecked_eq (interface : Interface) (xid : UInt32) (nextTry : Nat)
    : interface.pollDiscoveringChecked xid nextTry now
      = .ok (interface.pollDiscovering xid nextTry now) := by
  unfold pollDiscoveringChecked pollDiscovering
  split_ifs
  · rw [fits_time early (by decide), ok_bind]
    dsimp only
    rw [dhcpFrameChecked_eq _ (by rw [Dhcp.length_discover]; decide)]
    rfl
  · rfl

theorem pollRequestingChecked_eq (interface : Interface) (xid : UInt32) (offered server : Ipv4)
    (nextTry tries : Nat)
    : interface.pollRequestingChecked xid offered server nextTry tries now
      = .ok (interface.pollRequesting xid offered server nextTry tries now) := by
  unfold pollRequestingChecked pollRequesting
  split_ifs with due tired
  · exact pollDiscoveringChecked_eq early _ _ _
  · have few : tries < 3 := Nat.lt_of_not_le tired
    rw [fits_time early (by decide), ok_bind, fits_of_lt (by omega), ok_bind]
    dsimp only
    rw [dhcpFrameChecked_eq _ (by rw [Dhcp.length_request]; decide)]
    rfl
  · rfl

theorem pollDhcpChecked_eq (interface : Interface)
    : interface.pollDhcpChecked now = .ok (interface.pollDhcp now) := by
  unfold pollDhcpChecked pollDhcp
  cases interface.dhcp with
  | discovering xid nextTry => exact pollDiscoveringChecked_eq early _ _ _
  | requesting xid offered server nextTry tries => exact pollRequestingChecked_eq early _ _ _ _ _ _
  | bound server renewAt =>
    dsimp only
    unfold pollBoundChecked pollBound
    split_ifs
    · exact pollRequestingChecked_eq early _ _ _ _ _ _
    · rfl

end Timers

section Bounded

variable (bounded : interface.Bounded)
include bounded

theorem pollWaitingChecked_eq (now : Nat)
    : interface.pollWaitingChecked now = .ok (interface.pollWaiting now) := by
  unfold pollWaitingChecked
  rw [each_eq (fun waiting member => fits_time (bounded.waiting waiting member).queued (by decide)), ok_bind]
  dsimp only
  rw [each_eq (fun waiting member =>
      fits_time (bounded.waiting waiting (List.mem_of_mem_filter member)).asked (by decide)), ok_bind,
    each_eq (fun address _ => arpRequestChecked_eq interface address), ok_bind, List.filterMap_map]
  rfl

theorem pollChecked_eq (early : now < maxTime)
    : interface.pollChecked now = .ok (interface.poll now) := by
  have polled := bounded_pollDhcp bounded now
  unfold pollChecked
  rw [pollDhcpChecked_eq early, ok_bind]
  dsimp only
  have sent : ∀ ping ∈ ((interface.pollDhcp now).1.pollWaiting now).1.pings, ping.2 < maxTime :=
    polled.sent
  rw [pollWaitingChecked_eq polled, ok_bind,
    each_eq (fun ping member => fits_time (sent ping member) (by decide)), ok_bind]
  rfl

theorem learnIfChecked_eq (known : Bool) (address : Ipv4) (mac : Mac)
    : interface.learnIfChecked known address mac
      = .ok (if known then interface.learn address mac else (interface, [])) := by
  unfold learnIfChecked
  split_ifs
  · exact learnChecked_eq bounded _ _
  · rfl

theorem receiveArpChecked_eq (arp : Arp)
    : interface.receiveArpChecked arp = .ok (interface.receiveArp arp) := by
  unfold receiveArpChecked receiveArp
  cases interface.config with
  | none => rfl
  | some config =>
    dsimp only
    rw [learnIfChecked_eq bounded, ok_bind]
    simp only [decide_eq_true_eq]
    split_ifs <;> rfl

end Bounded

theorem receiveReplyChecked_eq (interface : Interface) (reply : Dhcp.Reply) (early : now < maxTime)
    : interface.receiveReplyChecked reply now = .ok (interface.receiveReply reply now) := by
  have lease := (configOf reply).leaseSecs.toNat_lt
  have renewal : fits 64 (now + renewIn (configOf reply).leaseSecs)
      = .ok (now + renewIn (configOf reply).leaseSecs) :=
    fits_time early (Nat.max_le.mpr ⟨by omega, by decide⟩)
  unfold receiveReplyChecked receiveReply
  cases interface.dhcp with
  | discovering xid nextTry =>
    cases reply.kind with
    | offer =>
      dsimp only
      cases reply.server with
      | none => rfl
      | some server =>
        dsimp only
        rw [fits_time early (by decide), ok_bind,
          dhcpFrameChecked_eq _ (by rw [Dhcp.length_request]; decide)]
        rfl
    | _ => rfl
  | requesting xid offered server nextTry tries =>
    cases reply.kind with
    | ack =>
      dsimp only
      rw [fits_of_lt (by omega), ok_bind, ← renewIn, renewal, ok_bind]
      split_ifs <;> rfl
    | _ => rfl
  | bound server renewAt => rfl

theorem receiveUdpChecked_eq (interface : Interface) {packet : Ip.Packet}
    (short : packet.payload.length < maxLength) (early : now < maxTime)
    : interface.receiveUdpChecked packet now = .ok (interface.receiveUdp packet now) := by
  unfold receiveUdpChecked receiveUdp
  rw [Udp.parseChecked_eq short, ok_bind]
  cases parsed : Udp.parse packet.payload packet.src packet.dst with
  | none => rfl
  | some datagram =>
    have inside := Udp.length_payload parsed
    dsimp only
    split_ifs
    · unfold receiveDhcpChecked receiveDhcp
      cases interface.xid with
      | none => rfl
      | some xid =>
        dsimp only
        rw [Dhcp.parseReplyChecked_eq (Nat.lt_of_le_of_lt inside short), ok_bind]
        cases Dhcp.parseReply datagram.payload xid interface.mac with
        | none => rfl
        | some reply => exact receiveReplyChecked_eq interface reply early
    · rfl
    · rfl

theorem receiveEchoChecked_eq (bounded : interface.Bounded) (config : Config) (sender : Mac)
    (packet : Ip.Packet) {echo : Echo} (few : echo.data.length ≤ 0xFFF7) (now : Nat)
    : interface.receiveEchoChecked config sender packet echo now
      = .ok (interface.receiveEcho config sender packet echo now) := by
  unfold receiveEchoChecked receiveEcho
  by_cases asked : echo.kind = Echo.echoRequest
  · rw [if_pos asked, if_pos asked, learnIfChecked_eq bounded, ok_bind]
    dsimp only
    have reply : { echo with kind := Echo.echoReply }.toBytesChecked
        = .ok { echo with kind := Echo.echoReply }.toBytes :=
      Echo.toBytesChecked_eq few
    have long := Echo.length_toBytes { echo with kind := Echo.echoReply }
    dsimp only at long
    rw [reply, ok_bind, Ip.buildChecked_eq _ _ _ _ (by rw [maxLength]; omega), ok_bind,
      Ethernet.buildChecked_eq _ _ _ (by rw [Ip.length_build, Ip.header, maxLength]; omega)]
    rfl
  · rw [if_neg asked, if_neg asked]
    split_ifs
    · cases found : interface.pings.findIdx? (fun ping => ping.1 = echo.seq) with
      | none => rfl
      | some place =>
        obtain ⟨inside, -⟩ := List.findIdx?_eq_some_iff_getElem.mp found
        dsimp only
        rw [index, List.getElem?_eq_getElem inside]
        rfl
    · rfl

theorem receiveIpv4Checked_eq (bounded : interface.Bounded) (sender : Mac) {packet : Ip.Packet}
    (few : packet.payload.length ≤ 0xFFFF) (early : now < maxTime)
    : interface.receiveIpv4Checked sender packet now
      = .ok (interface.receiveIpv4 sender packet now) := by
  unfold receiveIpv4Checked receiveIpv4
  split_ifs
  · exact receiveUdpChecked_eq interface (Nat.lt_of_le_of_lt few (by decide)) early
  · cases interface.config with
    | none => rfl
    | some config =>
      dsimp only
      split_ifs
      · rfl
      · rw [Echo.parseChecked_eq few, ok_bind]
        cases parsed : Echo.parse packet.payload with
        | none => rfl
        | some echo =>
          have inside := Echo.length_data parsed
          exact receiveEchoChecked_eq bounded _ _ _ (by omega) _

theorem receiveChecked_eq (bounded : interface.Bounded) {bytes : List UInt8}
    (short : bytes.length < maxLength) (early : now < maxTime)
    : interface.receiveChecked bytes now = .ok (interface.receive bytes now) := by
  unfold receiveChecked receive
  rw [Ethernet.parseChecked_eq short, ok_bind]
  cases parsed : Ethernet.parse bytes with
  | none => rfl
  | some frame =>
    have short := Nat.lt_of_le_of_lt (Ethernet.length_payload parsed) short
    dsimp only
    split_ifs
    · rfl
    · rw [Arp.parseChecked_eq short, ok_bind]
      cases Arp.parse frame.payload with
      | none => rfl
      | some arp => exact receiveArpChecked_eq bounded arp
    · rw [Ip.parseChecked_eq short, ok_bind]
      cases parsed : Ip.parse frame.payload with
      | none => rfl
      | some packet => exact receiveIpv4Checked_eq bounded _ (Nat.le_of_add_left_le (Ip.length_payload parsed)) early
    · rfl

section Keeps

variable {interface : Interface} (bounded : interface.Bounded) {now : Nat} (early : now < maxTime)

include bounded

theorem bounded_learnIf (known : Prop) [Decidable known] (address : Ipv4) (mac : Mac)
    : (if known then interface.learn address mac else (interface, [])).1.Bounded := by
  split
  · rw [learn, List.partition_eq_filter_filter]
    exact bounded.of_subset (List.filter_subset_self _) (List.Subset.refl _)
  · exact bounded

theorem bounded_receiveArp (arp : Arp) : (interface.receiveArp arp).1.Bounded := by
  unfold receiveArp
  split
  · exact bounded
  · have learned := bounded_learnIf bounded (arp.senderIp ≠ .unspecified) arp.senderIp arp.senderMac
    dsimp only
    split <;> exact learned

theorem bounded_receiveEcho (config : Config) (sender : Mac) (packet : Ip.Packet) (echo : Echo)
    (now : Nat)
    : (interface.receiveEcho config sender packet echo now).1.Bounded := by
  unfold receiveEcho
  split
  · have learned := bounded_learnIf bounded (config.address.sameNetwork packet.src config.netmask)
      packet.src sender
    exact ⟨learned.waiting, learned.sent⟩
  · split
    · split
      · exact bounded
      · split
        · exact bounded
        · exact bounded.of_subset (List.Subset.refl _) (List.eraseIdx_subset)
    · exact bounded

theorem bounded_receive (bytes : List UInt8) (now : Nat) : (interface.receive bytes now).1.Bounded := by
  have received := interface.received bytes now
  generalize interface.receive bytes now = result at *
  cases received with
  | ignored => exact bounded
  | arp _ arp => exact bounded_receiveArp bounded arp
  | replied _ replied =>
    cases replied with
    | ignored => exact bounded
    | offered _ isFramed => exact bounded_dhcpFrame bounded isFramed rfl rfl
    | acked => exact ⟨bounded.waiting, bounded.sent⟩
    | refused => exact ⟨bounded.waiting, bounded.sent⟩
  | datagram => exact ⟨bounded.waiting, bounded.sent⟩
  | echo _ isHeld sender packet echo => exact bounded_receiveEcho bounded _ sender packet echo now

include early

theorem bounded_sendIp (dst : Ipv4) (protocol : UInt8) {payload : List UInt8}
    (few : payload.length ≤ 1480)
    : (interface.sendIp dst protocol payload now).1.Bounded := by
  unfold sendIp
  split
  · exact bounded
  · split
    · exact bounded
    · dsimp only [takeId]
      split
      · exact ⟨bounded.waiting, bounded.sent⟩
      · refine ⟨fun waiting member => ?_, bounded.sent⟩
        rcases List.mem_append.mp member with kept | new
        · exact bounded.waiting waiting (List.mem_of_mem_filter kept)
        · rw [List.mem_singleton.mp new]
          refine ⟨early, early, ?_⟩
          rw [Ip.length_build, Ip.header, maxLength]
          omega

theorem bounded_poll : (interface.poll now).1.Bounded := by
  have polled := bounded_pollDhcp bounded now
  refine ⟨fun waiting member => ?_, fun ping member => polled.sent ping (List.mem_of_mem_filter member)⟩
  obtain ⟨other, kept, rfl⟩ := List.mem_map.mp member
  have small := polled.waiting other (List.mem_of_mem_filter kept)
  split
  · exact ⟨small.queued, early, small.short⟩
  · exact small

end Keeps

/-- Calls with a time below 2^63, and with data to send that fits in a frame. A byte string is no
longer than there can be.
-/
def Action.Allowed : Action → Prop
  | .receive bytes now => bytes.length < maxLength ∧ now < maxTime
  | .poll now => now < maxTime
  | .ping _ _ now => now < maxTime
  | .sendUdp _ _ _ data now => data.length ≤ 1472 ∧ now < maxTime
  | .takeEvents => True

/-- No such call panics, and what it leaves is bounded. -/
theorem actChecked_eq (bounded : interface.Bounded) {action : Action} (allowed : action.Allowed)
    : interface.actChecked action = .ok (interface.act action)
      ∧ (interface.act action).1.Bounded := by
  cases action with
  | receive bytes now =>
    exact ⟨receiveChecked_eq bounded allowed.1 allowed.2, bounded_receive bounded bytes now⟩
  | poll now => exact ⟨pollChecked_eq bounded allowed, bounded_poll bounded allowed⟩
  | ping target seq now =>
    have bounded : Bounded { interface with
        pings := interface.pings.filter (fun pending => pending.1 ≠ seq) ++ [(seq, now)] } := by
      refine ⟨bounded.waiting, fun ping member => ?_⟩
      rcases List.mem_append.mp member with kept | new
      · exact bounded.sent ping (List.mem_of_mem_filter kept)
      · rw [List.mem_singleton.mp new]
        exact allowed
    refine ⟨pingChecked_eq interface target seq now, bounded_sendIp bounded allowed _ _ ?_⟩
    rw [Echo.length_toBytes]
    simp
  | sendUdp target port sourcePort data now =>
    refine ⟨sendUdpChecked_eq interface target port sourcePort allowed.1 now, ?_⟩
    dsimp only [act, sendUdp]
    split
    · exact bounded
    · refine bounded_sendIp bounded allowed.2 _ _ ?_
      rw [Udp.length_build]
      exact Nat.add_le_add_left allowed.1 8
  | takeEvents => exact ⟨rfl, bounded.waiting, bounded.sent⟩

/-- The interfaces that calls lead to. -/
inductive Reached : Interface → Prop
  | new (mac : Mac) (seed : UInt32) : Reached (new mac seed)
  | act {interface next : Interface} {frames : Frames} {action : Action}
    (reached : Reached interface) (allowed : action.Allowed)
    (acted : interface.actChecked action = .ok (next, frames))
    : Reached next

theorem bounded_of_reached (reached : Reached interface) : interface.Bounded := by
  induction reached with
  | new mac seed => exact ⟨fun waiting => nofun, fun ping => nofun⟩
  | act reached allowed acted ih =>
    obtain ⟨same, bounded⟩ := actChecked_eq ih allowed
    rw [Except.ok.inj (same.symm.trans acted)] at bounded
    exact bounded

/-- Whatever arrives and whatever it is asked for, an interface doesn't panic, and neither do the
parsers of what it hands over and of what the controller brings.
-/
theorem unpanicked_of_reached
    : (∀ interface, Reached interface → ∀ action : Action, action.Allowed
        → ∃ next, interface.actChecked action = .ok next)
      ∧ ∀ bytes : List UInt8, bytes.length < maxLength
        → (∀ id, ∃ answer, Dns.parseChecked bytes id = .ok answer)
          ∧ (∀ cookie roundTrip, ∃ time, Sntp.parseChecked bytes cookie roundTrip = .ok time)
          ∧ ∃ frames, Lan7800.rxChecked bytes = .ok frames := by
  refine ⟨fun interface reached action allowed => ?_, fun bytes short => ⟨fun id => ?_, ?_, ?_⟩⟩
  · exact ⟨_, (actChecked_eq (bounded_of_reached reached) allowed).1⟩
  · exact ⟨_, Dns.parseChecked_eq short id⟩
  · exact Sntp.parseChecked_ok short
  · exact ⟨_, Lan7800.framesChecked_eq short _ 0 (Nat.zero_le _)⟩

/-- Witness: a server's offer to an interface that asked for an address, which it answers, and a
transfer of two frames.
-/
theorem unpanicked_of_polled
    : (∃ next frames, ((new Turn.client 1).poll 0).1.actChecked
          (.receive (Turn.routerFrame .offer 1 Turn.client ⟨192, 168, 1, 50⟩) 5)
            = .ok (next, frames)
          ∧ frames.length = 1)
      ∧ ∃ frames, Lan7800.rxChecked ([Lan7800.Received.ones 60 0 (by decide) (by decide),
          .ones 61 0 (by decide) (by decide)].flatMap Lan7800.Received.bytes) = .ok frames := by
  have polled : (Action.poll 0).Allowed := show 0 < maxTime by decide
  have allowed : (Action.receive
      (Turn.routerFrame .offer 1 Turn.client ⟨192, 168, 1, 50⟩) 5).Allowed := by
    constructor <;> decide +kernel
  have reached : Reached ((new Turn.client 1).poll 0).1 :=
    .act (.new Turn.client 1) polled (actChecked_eq (bounded_of_reached (.new _ _)) polled).1
  obtain ⟨⟨next, frames⟩, received⟩ := unpanicked_of_reached.1 _ reached _ allowed
  have same := (actChecked_eq (bounded_of_reached reached) allowed).1
  rw [same] at received
  refine ⟨⟨next, frames, same.trans received, ?_⟩,
    (unpanicked_of_reached.2 _ (by decide +kernel)).2.2⟩
  have answer : _ = frames := congrArg Prod.snd (Except.ok.inj received)
  rw [← answer]
  decide +kernel

end Interface

end RustyPi.Net
