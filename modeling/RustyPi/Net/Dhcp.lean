import RustyPi.Net.Packets

/-! DHCP messages, the client's side: `rustypi-core/src/net/dhcp.rs`. -/

namespace RustyPi.Net.Dhcp

def serverPort : UInt16 := 67

def clientPort : UInt16 := 68

inductive Kind
  | discover
  | offer
  | request
  | ack
  | nak
  deriving DecidableEq, Repr

def Kind.code : Kind → UInt8
  | .discover => 1
  | .offer => 2
  | .request => 3
  | .ack => 5
  | .nak => 6

/-- The length of the fixed fields, after which the magic cookie says that options follow. -/
def fixed : Nat := 236

def magic : List UInt8 := [99, 130, 83, 99]

def minLength : Nat := 300

def pad : UInt8 := 0
def subnetMask : UInt8 := 1
def router : UInt8 := 3
def dns : UInt8 := 6
def requestedIp : UInt8 := 50
def leaseTime : UInt8 := 51
def messageType : UInt8 := 53
def serverId : UInt8 := 54
def parameters : UInt8 := 55
def endOption : UInt8 := 255

/-- A message from the client, with its options. -/
def message (mac : Mac) (xid : UInt32) (kind : Kind) (options : List (UInt8 × List UInt8))
    : List UInt8 :=
  let bytes := [1, 1, 6, 0] ++ be32 xid ++ [0, 0, 0x80, 0] ++ List.replicate 16 0 ++ mac.octets
  let bytes := resize bytes fixed 0
  let bytes := bytes ++ magic ++ [messageType, 1, kind.code]
  let bytes := bytes ++ options.flatMap (fun option =>
    option.1 :: UInt8.ofNat option.2.length :: option.2)
  let bytes := bytes ++ [parameters, 3, subnetMask, router, dns, endOption]
  resize bytes (max bytes.length minLength) pad

/-- Asks any server for an address. -/
def discover (mac : Mac) (xid : UInt32) : List UInt8 := message mac xid .discover []

/-- Takes an address that a server offered, or asks it to renew the lease on it. -/
def request (mac : Mac) (xid : UInt32) (address server : Ipv4) : List UInt8 :=
  message mac xid .request [(requestedIp, address.octets), (serverId, server.octets)]

theorem length_message {mac : Mac} {xid : UInt32} {kind : Kind}
    {options : List (UInt8 × List UInt8)}
    (few : (options.flatMap (fun option =>
      option.1 :: UInt8.ofNat option.2.length :: option.2)).length ≤ 12)
    : (message mac xid kind options).length = 300 := by
  simp only [message, length_resize, List.length_append, fixed, magic, minLength, List.length_cons,
    List.length_nil]
  omega

theorem length_discover (mac : Mac) (xid : UInt32) : (discover mac xid).length = 300 :=
  length_message (by decide)

theorem length_request (mac : Mac) (xid : UInt32) (address server : Ipv4)
    : (request mac xid address server).length = 300 :=
  length_message (Nat.le_refl 12)

structure Reply where
  kind : Kind
  address : Ipv4
  server : Option Ipv4
  netmask : Option Ipv4
  router : Option Ipv4
  dns : Option Ipv4
  leaseSecs : Option UInt32
  deriving DecidableEq, Repr

/-- `<[u8]>::get` of a range. -/
def range? (bytes : List UInt8) (start stop : Nat) : Option (List UInt8) :=
  if start ≤ stop ∧ stop ≤ bytes.length then some ((bytes.take stop).drop start) else none

def range (bytes : List UInt8) (start stop : Nat) : List UInt8 := (bytes.take stop).drop start

/-- The message type that an option gives, of those that servers send. -/
def kindOf (value : List UInt8) : Option Kind :=
  match (octetAt value 0).toNat with
  | 2 => some .offer
  | 5 => some .ack
  | 6 => some .nak
  | _ => none

def leaseOf (value : List UInt8) : UInt32 :=
  (u16At value 0).toUInt32 <<< 16 ||| (u16At value 2).toUInt32

def readOption (code : UInt8) (value : List UInt8) (reply : Reply) (kind : Option Kind)
    : Reply × Option Kind :=
  let address := if 4 ≤ value.length then some (ipv4At value 0) else none
  if code = messageType ∧ value.length = 1 then (reply, kindOf value)
  else if code = subnetMask then ({ reply with netmask := address }, kind)
  else if code = Dhcp.router then ({ reply with router := address }, kind)
  else if code = Dhcp.dns then ({ reply with dns := address }, kind)
  else if code = serverId then ({ reply with server := address }, kind)
  else if code = leaseTime ∧ value.length = 4 then
    ({ reply with leaseSecs := some (leaseOf value) }, kind)
  else (reply, kind)

/-- The options from an index on, of which there are at most as many as bytes. -/
def readOptions (bytes : List UInt8) : Nat → Nat → Reply → Option Kind → Option (Reply × Option Kind)
  | 0, _, reply, kind => some (reply, kind)
  | left + 1, at_, reply, kind =>
    if at_ < bytes.length then
      let code := octetAt bytes at_
      if code = pad then readOptions bytes left (at_ + 1) reply kind
      else if code = endOption then some (reply, kind)
      else do
        let length ← bytes[at_ + 1]?
        let value ← range? bytes (at_ + 2) (at_ + 2 + length.toNat)
        let (reply, kind) := readOption code value reply kind
        readOptions bytes left (at_ + 2 + length.toNat) reply kind
    else some (reply, kind)

/-- A server's answer to a transaction of ours. -/
def parseReply (bytes : List UInt8) (xid : UInt32) (mac : Mac) : Option Reply :=
  if bytes.length < fixed + 4 ∨ octetAt bytes 0 ≠ 2 ∨ range bytes 4 8 ≠ be32 xid
      ∨ range bytes 28 34 ≠ mac.octets then
    none
  else if range bytes fixed (fixed + 4) ≠ magic then none
  else do
    let reply := {
      kind := .offer
      address := ipv4At bytes 16
      server := none
      netmask := none
      router := none
      dns := none
      leaseSecs := none }
    let (reply, kind) ← readOptions bytes (bytes.length - (fixed + 4)) (fixed + 4) reply none
    return { reply with kind := ← kind }

end RustyPi.Net.Dhcp
