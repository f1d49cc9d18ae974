import RustyPi.Lib.Bytes
import RustyPi.Net.Wire

/-! Ethernet frames and what they carry: ARP, IPv4, UDP and ICMP echo, of `rustypi-core/src/net`. What
is built is parsed back, with padding after it.
-/

namespace RustyPi.Net

open RustyPi.Bytes

/-- `Vec::resize`. -/
def resize (bytes : List UInt8) (length : Nat) (fill : UInt8) : List UInt8 :=
  bytes.take length ++ List.replicate (length - bytes.length) fill

theorem length_resize (bytes : List UInt8) (length : Nat) (fill : UInt8)
    : (resize bytes length fill).length = length := by
  simp [resize]
  omega

namespace Ethernet

def arp : UInt16 := 0x0806

def ipv4 : UInt16 := 0x0800

def header : Nat := 14

def minFrame : Nat := 60

structure Frame where
  dst : Mac
  src : Mac
  ethertype : UInt16
  /-- With any padding still on. -/
  payload : List UInt8
  deriving DecidableEq, Repr

def parse (bytes : List UInt8) : Option Frame :=
  if bytes.length < header then none
  else
    some {
      dst := macAt bytes 0
      src := macAt bytes 6
      ethertype := u16At bytes 12
      payload := bytes.drop header }

def build (dst src : Mac) (ethertype : UInt16) (payload : List UInt8) : List UInt8 :=
  let frame := dst.octets ++ src.octets ++ be16 ethertype ++ payload
  resize frame (max frame.length minFrame) 0

theorem build_eq (dst src : Mac) (ethertype : UInt16) (payload : List UInt8)
    : ∃ padding,
        build dst src ethertype payload
          = dst.octets ++ (src.octets ++ (be16 ethertype ++ (payload ++ padding))) := by
  have longer : (dst.octets ++ src.octets ++ be16 ethertype ++ payload).length
      ≤ max (dst.octets ++ src.octets ++ be16 ethertype ++ payload).length minFrame :=
    Nat.le_max_left _ _
  refine ⟨List.replicate (max (dst.octets ++ src.octets ++ be16 ethertype ++ payload).length minFrame
    - (dst.octets ++ src.octets ++ be16 ethertype ++ payload).length) 0, ?_⟩
  rw [build, resize, List.take_of_length_le longer]
  simp only [List.append_assoc]

/-- A frame is parsed back, with the padding of a short one. -/
theorem parse_build (dst src : Mac) (ethertype : UInt16) (payload : List UInt8)
    : ∃ padding,
        parse (build dst src ethertype payload)
          = some { dst, src, ethertype, payload := payload ++ padding } := by
  obtain ⟨padding, same⟩ := build_eq dst src ethertype payload
  refine ⟨padding, ?_⟩
  rw [same, parse, if_neg (by simp [header, Mac.octets, be16])]
  simp [macAt, u16At, octetAt, Mac.octets, be16, header]

end Ethernet

structure Arp where
  op : UInt16
  senderMac : Mac
  senderIp : Ipv4
  targetMac : Mac
  targetIp : Ipv4
  deriving DecidableEq, Repr

namespace Arp

def request : UInt16 := 1

def reply : UInt16 := 2

def length : Nat := 28

/-- Ethernet hardware, IPv4 protocol, and the lengths of their addresses. -/
def parse (bytes : List UInt8) : Option Arp :=
  if bytes.length < length ∨ u16At bytes 0 ≠ 1 ∨ u16At bytes 2 ≠ 0x0800 ∨ octetAt bytes 4 ≠ 6
      ∨ octetAt bytes 5 ≠ 4 then
    none
  else
    some {
      op := u16At bytes 6
      senderMac := macAt bytes 8
      senderIp := ipv4At bytes 14
      targetMac := macAt bytes 18
      targetIp := ipv4At bytes 24 }

def toBytes (arp : Arp) : List UInt8 :=
  [0, 1, 0x08, 0x00, 6, 4] ++ be16 arp.op ++ arp.senderMac.octets ++ arp.senderIp.octets
    ++ arp.targetMac.octets ++ arp.targetIp.octets

end Arp

namespace Ip

def icmp : UInt8 := 1

def udp : UInt8 := 17

def header : Nat := 20

def ttl : UInt8 := 64

def dontFragment : UInt16 := 0x4000

/-- The more-fragments flag and the offset. -/
def fragmented : UInt16 := 0x3FFF

structure Packet where
  src : Ipv4
  dst : Ipv4
  protocol : UInt8
  payload : List UInt8
  deriving DecidableEq, Repr

def parse (bytes : List UInt8) : Option Packet :=
  if bytes.length < header ∨ octetAt bytes 0 >>> 4 ≠ 4 then none
  else
    let length := (octetAt bytes 0 &&& 0x0F).toNat * 4
    let total := (u16At bytes 2).toNat
    if length < header ∨ total < length ∨ bytes.length < total ∨ checksum (bytes.take length) ≠ 0 then
      none
    else if u16At bytes 6 &&& fragmented ≠ 0 then none
    else
      some {
        src := ipv4At bytes 12
        dst := ipv4At bytes 16
        protocol := octetAt bytes 9
        payload := (bytes.take total).drop length }

theorem length_payload {bytes : List UInt8} {packet : Packet} (parsed : parse bytes = some packet)
    : header + packet.payload.length ≤ 0xFFFF := by
  obtain ⟨-, parsed⟩ := Option.ite_none_left_eq_some.mp parsed
  obtain ⟨inside, parsed⟩ := Option.ite_none_left_eq_some.mp parsed
  obtain ⟨-, found⟩ := Option.ite_none_left_eq_some.mp parsed
  have total := (u16At bytes 2).toNat_lt
  cases found
  rw [List.length_drop, List.length_take]
  omega

/-- A packet's header, with zeros for its checksum. -/
def unsummed (src dst : Ipv4) (protocol : UInt8) (id : UInt16) (total : Nat) : List UInt8 :=
  [0x45, 0] ++ be16 (UInt16.ofNat total) ++ be16 id ++ be16 dontFragment ++ [ttl, protocol, 0, 0]
    ++ src.octets ++ dst.octets

def build (src dst : Ipv4) (protocol : UInt8) (id : UInt16) (payload : List UInt8) : List UInt8 :=
  let packet := unsummed src dst protocol id (header + payload.length)
  splice packet 10 (be16 (checksum packet)) ++ payload

theorem summed_eq (src dst : Ipv4) (protocol : UInt8) (id : UInt16) (total : Nat) (sum : UInt16)
    : splice (unsummed src dst protocol id total) 10 (be16 sum)
      = [0x45, 0] ++ be16 (UInt16.ofNat total) ++ be16 id ++ be16 dontFragment ++ [ttl, protocol]
        ++ (be16 sum ++ (src.octets ++ dst.octets)) :=
  rfl

end Ip

namespace Udp

def header : Nat := 8

structure Datagram where
  srcPort : UInt16
  dstPort : UInt16
  payload : List UInt8
  deriving DecidableEq, Repr

/-- The checksum of a datagram, with its own checksum field as it is. -/
def datagramChecksum (src dst : Ipv4) (datagram : List UInt8) : UInt16 :=
  let acc := sum 0 src.octets
  let acc := sum acc dst.octets
  let acc := acc + (Ip.udp.toNat + datagram.length)
  finish (sum acc datagram)

/-- A checksum of 0 means that none was sent. -/
def parse (bytes : List UInt8) (src dst : Ipv4) : Option Datagram :=
  if bytes.length < header then none
  else
    let length := (u16At bytes 4).toNat
    if length < header ∨ bytes.length < length then none
    else
      let datagram := bytes.take length
      if u16At bytes 6 ≠ 0 ∧ datagramChecksum src dst datagram ≠ 0 then none
      else
        some {
          srcPort := u16At bytes 0
          dstPort := u16At bytes 2
          payload := datagram.drop header }

/-- A datagram with zeros for its checksum. -/
def unsummed (srcPort dstPort : UInt16) (payload : List UInt8) : List UInt8 :=
  be16 srcPort ++ be16 dstPort ++ be16 (UInt16.ofNat (header + payload.length)) ++ [0, 0] ++ payload

/-- A computed 0 is sent as all ones. -/
def build (src : Ipv4) (srcPort : UInt16) (dst : Ipv4) (dstPort : UInt16) (payload : List UInt8)
    : List UInt8 :=
  let datagram := unsummed srcPort dstPort payload
  let checksum :=
    if datagramChecksum src dst datagram = 0 then 0xFFFF else datagramChecksum src dst datagram
  splice datagram 6 (be16 checksum)

theorem summed_eq (srcPort dstPort : UInt16) (payload : List UInt8) (sum : UInt16)
    : splice (unsummed srcPort dstPort payload) 6 (be16 sum)
      = be16 srcPort ++ be16 dstPort ++ be16 (UInt16.ofNat (header + payload.length))
        ++ (be16 sum ++ payload) :=
  rfl

theorem length_summed (srcPort dstPort : UInt16) (payload : List UInt8) (sum : UInt16)
    : (splice (unsummed srcPort dstPort payload) 6 (be16 sum)).length = header + payload.length := by
  rw [summed_eq]
  simp [header, be16]
  omega

theorem length_build (src : Ipv4) (srcPort : UInt16) (dst : Ipv4) (dstPort : UInt16)
    (payload : List UInt8)
    : (build src srcPort dst dstPort payload).length = header + payload.length :=
  length_summed srcPort dstPort payload _

end Udp

structure Echo where
  kind : UInt8
  id : UInt16
  seq : UInt16
  data : List UInt8
  deriving DecidableEq, Repr

namespace Echo

def echoReply : UInt8 := 0

def echoRequest : UInt8 := 8

def parse (bytes : List UInt8) : Option Echo :=
  if bytes.length < 8 ∨ ¬(octetAt bytes 0 = echoRequest ∨ octetAt bytes 0 = echoReply)
      ∨ octetAt bytes 1 ≠ 0 ∨ checksum bytes ≠ 0 then
    none
  else
    some {
      kind := octetAt bytes 0
      id := u16At bytes 4
      seq := u16At bytes 6
      data := bytes.drop 8 }

def toBytes (echo : Echo) : List UInt8 :=
  let bytes := [echo.kind, 0, 0, 0] ++ be16 echo.id ++ be16 echo.seq ++ echo.data
  splice bytes 2 (be16 (checksum bytes))

theorem length_data {bytes : List UInt8} {echo : Echo} (parsed : parse bytes = some echo)
    : echo.data.length + 8 ≤ bytes.length := by
  obtain ⟨whole, found⟩ := Option.ite_none_left_eq_some.mp parsed
  cases found
  rw [List.length_drop]
  omega

theorem length_toBytes (echo : Echo) : echo.toBytes.length = 8 + echo.data.length := by
  simp [toBytes, splice, be16]
  omega

end Echo

end RustyPi.Net
