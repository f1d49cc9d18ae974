import RustyPi.Lib.Checked
import RustyPi.Net.Dns
import RustyPi.Net.Lan7800

/-! The parsers and builders with everything in them that can panic. They don't: on bytes of any length
that a slice can have, each gives the result that it gives without the checks.
-/

namespace RustyPi.Net

open RustyPi.Checked RustyPi.OnesComplement

/-- No slice or vector is longer than `isize::MAX`. -/
def maxLength : Nat := 2 ^ 63

def u16AtChecked (bytes : List UInt8) (at_ : Nat) : Checked UInt16 := do
  let high ← index bytes at_
  let low ← index bytes (← fits 64 (at_ + 1))
  return fromBe16 high low

def ipv4AtChecked (bytes : List UInt8) (at_ : Nat) : Checked Ipv4 := do
  let a ← index bytes at_
  let b ← index bytes (← fits 64 (at_ + 1))
  let c ← index bytes (← fits 64 (at_ + 2))
  let d ← index bytes (← fits 64 (at_ + 3))
  return ⟨a, b, c, d⟩

def macAtChecked (bytes : List UInt8) (at_ : Nat) : Checked Mac := do
  let _ ← slice bytes at_ (← fits 64 (at_ + 6))
  return macAt bytes at_

/-- Sums are 32 bits wide. -/
def sumChecked (acc : Nat) : List UInt8 → Checked Nat
  | high :: low :: rest => do
      let acc ← fits 32 (acc + (fromBe16 high low).toNat)
      sumChecked acc rest
  | [last] => fits 32 (acc + last.toNat * 0x100)
  | [] => .ok acc

def foldChecked : Nat → Nat → Checked Nat
  | 0, acc => .ok acc
  | times + 1, acc =>
    if acc / 0x10000 = 0 then .ok acc
    else do
      let acc ← fits 32 (acc % 0x10000 + acc / 0x10000)
      foldChecked times acc

def finishChecked (acc : Nat) : Checked UInt16 := do
  let acc ← foldChecked acc acc
  return ~~~(UInt16.ofNat acc)

def checksumChecked (bytes : List UInt8) : Checked UInt16 := do
  let acc ← sumChecked 0 bytes
  finishChecked acc

section Numbers

variable {bytes : List UInt8} {at_ : Nat} (short : bytes.length < maxLength)

theorem index_octetAt (inside : at_ < bytes.length) : index bytes at_ = .ok (octetAt bytes at_) :=
  index_of_lt inside 0

include short

theorem fits_inside (inside : at_ ≤ bytes.length) : fits 64 at_ = .ok at_ :=
  fits_of_lt (Nat.lt_of_le_of_lt inside (Nat.lt_trans short (by decide)))

theorem u16AtChecked_eq (inside : at_ + 2 ≤ bytes.length)
    : u16AtChecked bytes at_ = .ok (u16At bytes at_) := by
  simp (disch := omega) only [u16AtChecked, index_octetAt, fits_inside short, ok_bind]
  rfl

theorem ipv4AtChecked_eq (inside : at_ + 4 ≤ bytes.length)
    : ipv4AtChecked bytes at_ = .ok (ipv4At bytes at_) := by
  simp (disch := omega) only [ipv4AtChecked, index_octetAt, fits_inside short, ok_bind]
  rfl

theorem macAtChecked_eq (inside : at_ + 6 ≤ bytes.length)
    : macAtChecked bytes at_ = .ok (macAt bytes at_) := by
  rw [macAtChecked, fits_inside short inside, ok_bind, slice_of_le (by omega) inside]
  rfl

end Numbers

variable {bytes payload : List UInt8} {acc : Nat}

theorem copy_be16 (start : Nat) (value : UInt16) (inside : start + 2 ≤ bytes.length)
    : copy bytes start (start + 2) (be16 value) = .ok (Bytes.splice bytes start (be16 value)) :=
  copy_of_le rfl inside

theorem sumChecked_eq (small : acc + 0xFFFF * ((bytes.length + 1) / 2) < 2 ^ 32)
    : sumChecked acc bytes = .ok (sum acc bytes) := by
  fun_induction sum acc bytes with
  | case1 acc high low rest ih =>
    have word := (fromBe16 high low).toNat_lt
    rw [List.length_cons, List.length_cons] at small
    rw [sumChecked, fits_of_lt (by omega), ok_bind, ih (by omega)]
  | case2 acc last =>
    have byte := last.toNat_lt
    rw [List.length_singleton] at small
    rw [sumChecked, fits_of_lt (by omega)]
  | case3 acc => rfl

theorem foldChecked_eq (times : Nat) (small : acc < 2 ^ 32)
    : foldChecked times acc = .ok (fold 0x10000 times acc) := by
  induction times generalizing acc with
  | zero => rfl
  | succ times ih =>
    unfold foldChecked fold
    split
    · rfl
    · rename_i carries
      have smaller := carried_lt (by decide) carries
      rw [fits_of_lt (by omega), ok_bind, ih (by omega)]

theorem finishChecked_eq (small : acc < 2 ^ 32) : finishChecked acc = .ok (finish acc) := by
  rw [finishChecked, foldChecked_eq acc small]
  rfl

/-- A checksum of as many bytes as a packet has, and more, doesn't overflow. -/
theorem checksumChecked_eq (few : bytes.length ≤ 0x10000)
    : checksumChecked bytes = .ok (checksum bytes) := by
  have bound := sum_le 0 bytes
  rw [checksumChecked, sumChecked_eq (by omega), ok_bind, finishChecked_eq (by omega)]
  rfl

namespace Ethernet

def parseChecked (bytes : List UInt8) : Checked (Option Frame) :=
  if bytes.length < header then .ok none
  else do
    let dst ← macAtChecked bytes 0
    let src ← macAtChecked bytes 6
    let ethertype ← u16AtChecked bytes 12
    let payload ← slice bytes header bytes.length
    return some { dst, src, ethertype, payload }

def buildChecked (dst src : Mac) (ethertype : UInt16) (payload : List UInt8)
    : Checked (List UInt8) := do
  let _ ← fits 64 (header + payload.length)
  return build dst src ethertype payload

theorem parseChecked_eq {bytes : List UInt8} (short : bytes.length < maxLength)
    : parseChecked bytes = .ok (parse bytes) := by
  unfold parseChecked parse
  split
  · rfl
  · rename_i long
    have long : 14 ≤ bytes.length := Nat.not_lt.mp long
    simp (disch := omega) only [macAtChecked_eq short, u16AtChecked_eq short, ok_bind]
    rw [slice_of_le (show header ≤ _ from long) (Nat.le_refl _), List.take_length]
    rfl

theorem buildChecked_eq (dst src : Mac) (ethertype : UInt16) (short : payload.length < maxLength)
    : buildChecked dst src ethertype payload = .ok (build dst src ethertype payload) := by
  have short : payload.length < 2 ^ 63 := short
  have small : header + payload.length < 2 ^ 64 := by
    change 14 + payload.length < 2 ^ 64
    omega
  rw [buildChecked, fits_of_lt small]
  rfl

end Ethernet

namespace Arp

def parseChecked (bytes : List UInt8) : Checked (Option Arp) := do
  if bytes.length < length then return none
  if (← u16AtChecked bytes 0) ≠ 1 then return none
  if (← u16AtChecked bytes 2) ≠ 0x0800 then return none
  if (← index bytes 4) ≠ 6 then return none
  if (← index bytes 5) ≠ 4 then return none
  let op ← u16AtChecked bytes 6
  let senderMac ← macAtChecked bytes 8
  let senderIp ← ipv4AtChecked bytes 14
  let targetMac ← macAtChecked bytes 18
  let targetIp ← ipv4AtChecked bytes 24
  return some { op, senderMac, senderIp, targetMac, targetIp }

def toBytesChecked (arp : Arp) : Checked (List UInt8) := do
  let bytes ← copy (List.replicate length 0) 0 6 [0, 1, 0x08, 0x00, 6, 4]
  let bytes ← copy bytes 6 8 (be16 arp.op)
  let bytes ← copy bytes 8 14 arp.senderMac.octets
  let bytes ← copy bytes 14 18 arp.senderIp.octets
  let bytes ← copy bytes 18 24 arp.targetMac.octets
  copy bytes 24 28 arp.targetIp.octets

theorem parseChecked_eq {bytes : List UInt8} (short : bytes.length < maxLength)
    : parseChecked bytes = .ok (parse bytes) := by
  unfold parseChecked parse
  by_cases long : bytes.length < length
  · rw [if_pos long, if_pos (.inl long)]
    rfl
  · have inside : 28 ≤ bytes.length := Nat.not_lt.mp long
    simp (disch := omega) only [u16AtChecked_eq short, macAtChecked_eq short, ipv4AtChecked_eq short,
      index_octetAt, ok_bind]
    split_ifs <;> first | rfl | grind

theorem toBytesChecked_eq (arp : Arp) : arp.toBytesChecked = .ok arp.toBytes := rfl

end Arp

namespace Ip

def parseChecked (bytes : List UInt8) : Checked (Option Packet) := do
  if bytes.length < header then return none
  if (← index bytes 0) >>> 4 ≠ 4 then return none
  let length ← fits 64 (((← index bytes 0) &&& 0x0F).toNat * 4)
  let total := (← u16AtChecked bytes 2).toNat
  if length < header ∨ total < length ∨ bytes.length < total then return none
  if (← checksumChecked (← slice bytes 0 length)) ≠ 0 then return none
  if (← u16AtChecked bytes 6) &&& fragmented ≠ 0 then return none
  let src ← ipv4AtChecked bytes 12
  let dst ← ipv4AtChecked bytes 16
  let protocol ← index bytes 9
  let payload ← slice bytes length total
  return some { src, dst, protocol, payload }

def buildChecked (src dst : Ipv4) (protocol : UInt8) (id : UInt16) (payload : List UInt8)
    : Checked (List UInt8) := do
  let total ← fits 64 (header + payload.length)
  let packet := unsummed src dst protocol id total
  let packet ← copy packet 10 12 (be16 (← checksumChecked packet))
  return packet ++ payload

theorem parseChecked_eq {bytes : List UInt8} (short : bytes.length < maxLength)
    : parseChecked bytes = .ok (parse bytes) := by
  unfold parseChecked parse
  by_cases long : bytes.length < header
  · rw [if_pos long, if_pos (.inl long)]
    rfl
  · have inside : 20 ≤ bytes.length := Nat.not_lt.mp long
    have nibble : (octetAt bytes 0 &&& 0x0F).toNat < 16 := by
      rw [UInt8.toNat_and]
      exact Nat.and_lt_two_pow _ (show (0x0F : UInt8).toNat < 2 ^ 4 by decide)
    simp (disch := omega) only [u16AtChecked_eq short, ipv4AtChecked_eq short, index_octetAt, ok_bind,
      fits_of_lt]
    have few : (octetAt bytes 0 &&& 0x0F).toNat * 4 ≤ 60 := by omega
    generalize (octetAt bytes 0 &&& 0x0F).toNat * 4 = length at *
    generalize (u16At bytes 2).toNat = total at *
    by_cases framed : length < header ∨ total < length ∨ bytes.length < total
    · split_ifs <;> first | rfl | grind
    · obtain ⟨_, ordered, whole⟩ : header ≤ length ∧ length ≤ total ∧ total ≤ bytes.length := by
        omega
      have header := List.length_take_le length bytes
      simp (disch := omega) only [slice_of_le, checksumChecked_eq, ok_bind, List.drop_zero]
      split_ifs <;> first | rfl | grind

theorem buildChecked_eq (src dst : Ipv4) (protocol : UInt8) (id : UInt16)
    (short : payload.length < maxLength)
    : buildChecked src dst protocol id payload = .ok (build src dst protocol id payload) := by
  have short : payload.length < 2 ^ 63 := short
  have small : header + payload.length < 2 ^ 64 := by
    change 20 + payload.length < 2 ^ 64
    omega
  have length : (unsummed src dst protocol id (header + payload.length)).length = 20 := rfl
  rw [buildChecked, fits_of_lt small, ok_bind]
  dsimp only
  rw [checksumChecked_eq (by rw [length]; decide), ok_bind, copy_be16 10 _ (by rw [length]; decide)]
  rfl

end Ip

namespace Udp

def datagramChecksumChecked (src dst : Ipv4) (datagram : List UInt8) : Checked UInt16 := do
  let acc ← sumChecked 0 src.octets
  let acc ← sumChecked acc dst.octets
  let more ← fits 32 (Ip.udp.toNat + datagram.length % 2 ^ 32)
  let acc ← fits 32 (acc + more)
  finishChecked (← sumChecked acc datagram)

def parseChecked (bytes : List UInt8) (src dst : Ipv4) : Checked (Option Datagram) := do
  if bytes.length < header then return none
  let length := (← u16AtChecked bytes 4).toNat
  if length < header ∨ bytes.length < length then return none
  let datagram ← slice bytes 0 length
  if (← u16AtChecked bytes 6) ≠ 0 then
    if (← datagramChecksumChecked src dst datagram) ≠ 0 then return none
  let srcPort ← u16AtChecked bytes 0
  let dstPort ← u16AtChecked bytes 2
  let payload ← slice datagram header datagram.length
  return some { srcPort, dstPort, payload }

def buildChecked (src : Ipv4) (srcPort : UInt16) (dst : Ipv4) (dstPort : UInt16)
    (payload : List UInt8)
    : Checked (List UInt8) := do
  let _ ← fits 64 (header + payload.length)
  let datagram := unsummed srcPort dstPort payload
  let checksum ← datagramChecksumChecked src dst datagram
  copy datagram 6 8 (be16 (if checksum = 0 then 0xFFFF else checksum))

theorem datagramChecksumChecked_eq (src dst : Ipv4) {datagram : List UInt8}
    (few : datagram.length ≤ 0x10000)
    : datagramChecksumChecked src dst datagram = .ok (datagramChecksum src dst datagram) := by
  have first := sum_le 0 src.octets
  have second := sum_le (sum 0 src.octets) dst.octets
  have small : src.octets.length = 4 := rfl
  have other : dst.octets.length = 4 := rfl
  have protocol : Ip.udp.toNat = 17 := rfl
  rw [small] at first
  rw [other] at second
  have third := sum_le (sum (sum 0 src.octets) dst.octets + (Ip.udp.toNat + datagram.length)) datagram
  rw [datagramChecksumChecked, sumChecked_eq (by omega), ok_bind, sumChecked_eq (by omega), ok_bind,
    Nat.mod_eq_of_lt (by omega), fits_of_lt (by omega), ok_bind, fits_of_lt (by omega), ok_bind,
    sumChecked_eq (by omega), ok_bind, finishChecked_eq (by omega)]
  rfl

theorem parseChecked_eq {bytes : List UInt8} (short : bytes.length < maxLength) (src dst : Ipv4)
    : parseChecked bytes src dst = .ok (parse bytes src dst) := by
  unfold parseChecked parse
  by_cases long : bytes.length < header
  · rw [if_pos long, if_pos long]
    rfl
  · have inside : 8 ≤ bytes.length := Nat.not_lt.mp long
    have few := (u16At bytes 4).toNat_lt
    simp (disch := omega) only [u16AtChecked_eq short, ok_bind]
    generalize (u16At bytes 4).toNat = length at *
    by_cases framed : length < header ∨ bytes.length < length
    · rw [if_neg long, if_pos framed, if_neg long, if_pos framed]
      rfl
    · obtain ⟨ordered, whole⟩ : header ≤ length ∧ length ≤ bytes.length := by omega
      have taken : (bytes.take length).length = length := by
        rw [List.length_take]
        omega
      simp (disch := omega) only [slice_of_le, datagramChecksumChecked_eq, ok_bind, pure_ok,
        List.drop_zero, taken, List.take_take, Nat.min_self]
      split_ifs <;> first | rfl | grind

theorem buildChecked_eq (src : Ipv4) (srcPort : UInt16) (dst : Ipv4) (dstPort : UInt16)
    (few : payload.length ≤ 1472)
    : buildChecked src srcPort dst dstPort payload = .ok (build src srcPort dst dstPort payload) := by
  have length : (unsummed srcPort dstPort payload).length = 8 + payload.length := by
    simp [unsummed]
    omega
  have small : header + payload.length < 2 ^ 64 := by
    change 8 + payload.length < 2 ^ 64
    omega
  rw [buildChecked, fits_of_lt small, ok_bind]
  dsimp only
  rw [datagramChecksumChecked_eq src dst (by omega), ok_bind, copy_be16 6 _ (by omega)]
  rfl

end Udp

namespace Echo

def parseChecked (bytes : List UInt8) : Checked (Option Echo) := do
  if bytes.length < 8 then return none
  let kind ← index bytes 0
  if ¬(kind = echoRequest ∨ kind = echoReply) then return none
  if (← index bytes 1) ≠ 0 then return none
  if (← checksumChecked bytes) ≠ 0 then return none
  let kind ← index bytes 0
  let id ← u16AtChecked bytes 4
  let seq ← u16AtChecked bytes 6
  let data ← slice bytes 8 bytes.length
  return some { kind, id, seq, data }

def toBytesChecked (echo : Echo) : Checked (List UInt8) := do
  let _ ← fits 64 (8 + echo.data.length)
  let bytes := [echo.kind, 0, 0, 0] ++ be16 echo.id ++ be16 echo.seq ++ echo.data
  copy bytes 2 4 (be16 (← checksumChecked bytes))

theorem parseChecked_eq {bytes : List UInt8} (few : bytes.length ≤ 0xFFFF)
    : parseChecked bytes = .ok (parse bytes) := by
  have short : bytes.length < maxLength := Nat.lt_of_le_of_lt few (by decide)
  unfold parseChecked parse
  by_cases long : bytes.length < 8
  · rw [if_pos long, if_pos (.inl long)]
    rfl
  · simp (disch := omega) only [u16AtChecked_eq short, checksumChecked_eq, index_octetAt, slice_of_le,
      ok_bind, pure_ok, List.take_length]
    split_ifs <;> first | rfl | grind

theorem toBytesChecked_eq {echo : Echo} (few : echo.data.length ≤ 0xFFF7)
    : echo.toBytesChecked = .ok echo.toBytes := by
  have length : ([echo.kind, 0, 0, 0] ++ be16 echo.id ++ be16 echo.seq ++ echo.data).length
      = 8 + echo.data.length := by
    simp
    omega
  rw [toBytesChecked, fits_of_lt (by omega), ok_bind]
  dsimp only
  rw [checksumChecked_eq (by omega), ok_bind, copy_be16 2 _ (by omega)]
  rfl

end Echo

namespace Dhcp

/-- The address an option's value holds, when it is long enough for one. -/
def addressChecked (value : List UInt8) : Checked (Option Ipv4) :=
  if 4 ≤ value.length then some <$> ipv4AtChecked value 0 else .ok none

def readOptionChecked (code : UInt8) (value : List UInt8) (reply : Reply) (kind : Option Kind)
    : Checked (Reply × Option Kind) := do
  let address ← addressChecked value
  if code = messageType ∧ value.length = 1 then
    let _ ← index value 0
    return (reply, kindOf value)
  else if code = subnetMask then return ({ reply with netmask := address }, kind)
  else if code = Dhcp.router then return ({ reply with router := address }, kind)
  else if code = Dhcp.dns then return ({ reply with dns := address }, kind)
  else if code = serverId then return ({ reply with server := address }, kind)
  else if code = leaseTime ∧ value.length = 4 then
    let high ← u16AtChecked value 0
    let low ← u16AtChecked value 2
    return ({ reply with leaseSecs := some (high.toUInt32 <<< 16 ||| low.toUInt32) }, kind)
  else return (reply, kind)

def readOptionsChecked (bytes : List UInt8)
    : Nat → Nat → Reply → Option Kind → Checked (Option (Reply × Option Kind))
  | 0, _, reply, kind => .ok (some (reply, kind))
  | left + 1, at_, reply, kind =>
    if at_ < bytes.length then do
      let code ← index bytes at_
      if code = pad then
        let next ← fits 64 (at_ + 1)
        readOptionsChecked bytes left next reply kind
      else if code = endOption then return some (reply, kind)
      else
        match bytes[← fits 64 (at_ + 1)]? with
        | none => return none
        | some length =>
          let start ← fits 64 (at_ + 2)
          let stop ← fits 64 (at_ + 2 + length.toNat)
          match range? bytes start stop with
          | none => return none
          | some value =>
            let (reply, kind) ← readOptionChecked code value reply kind
            let next ← fits 64 (at_ + 2 + length.toNat)
            readOptionsChecked bytes left next reply kind
    else return some (reply, kind)

def parseReplyChecked (bytes : List UInt8) (xid : UInt32) (mac : Mac) : Checked (Option Reply) := do
  if bytes.length < fixed + 4 then return none
  if (← index bytes 0) ≠ 2 then return none
  if (← slice bytes 4 8) ≠ be32 xid then return none
  if (← slice bytes 28 34) ≠ mac.octets then return none
  if (← slice bytes fixed (fixed + 4)) ≠ magic then return none
  let reply := {
    kind := .offer
    address := ← ipv4AtChecked bytes 16
    server := none
    netmask := none
    router := none
    dns := none
    leaseSecs := none }
  match ← readOptionsChecked bytes (bytes.length - (fixed + 4)) (fixed + 4) reply none with
  | none => return none
  | some (reply, kind) => return kind.map (fun kind => { reply with kind })

variable {bytes value : List UInt8}

theorem length_range {start stop : Nat} (found : range? bytes start stop = some value)
    : start + value.length = stop ∧ stop ≤ bytes.length := by
  obtain ⟨⟨ordered, inside⟩, found⟩ := Option.ite_none_right_eq_some.mp found
  cases found
  rw [List.length_drop, List.length_take]
  omega

theorem readOptionChecked_eq (code : UInt8) (short : value.length < maxLength) (reply : Reply)
    (kind : Option Kind)
    : readOptionChecked code value reply kind = .ok (readOption code value reply kind) := by
  have address : addressChecked value
      = .ok (if 4 ≤ value.length then some (ipv4At value 0) else none) := by
    unfold addressChecked
    split
    · rw [ipv4AtChecked_eq short (by omega)]
      rfl
    · rfl
  rw [readOptionChecked, address, ok_bind, readOption]
  generalize (if 4 ≤ value.length then some (ipv4At value 0) else none) = found
  split_ifs with first _ _ _ _ last
  · rw [index_octetAt (by omega)]
    rfl
  · rfl
  · rfl
  · rfl
  · rfl
  · rw [u16AtChecked_eq short (by omega), ok_bind, u16AtChecked_eq short (by omega)]
    rfl
  · rfl

theorem readOptionsChecked_eq (short : bytes.length < maxLength) (left at_ : Nat) (reply : Reply)
    (kind : Option Kind)
    : readOptionsChecked bytes left at_ reply kind = .ok (readOptions bytes left at_ reply kind) := by
  induction left generalizing at_ reply kind with
  | zero => rfl
  | succ left ih =>
    unfold readOptionsChecked readOptions
    split
    · rename_i inside
      have small (more : Nat) (few : more ≤ 257) : fits 64 (at_ + more) = .ok (at_ + more) := by
        have short : bytes.length < 2 ^ 63 := short
        exact fits_of_lt (by omega)
      rw [index_octetAt inside, ok_bind, small 1 (by decide)]
      dsimp only
      split
      · exact ih _ _ _
      · split
        · rfl
        · rw [ok_bind]
          cases bytes[at_ + 1]? with
          | none => rfl
          | some length =>
            have byte := length.toNat_lt
            dsimp only
            rw [small 2 (by decide), ok_bind, Nat.add_assoc, small _ (by omega), ok_bind,
              Option.bind_eq_bind, Option.bind_some, Nat.add_assoc]
            cases found : range? bytes (at_ + 2) (at_ + (2 + length.toNat)) with
            | none => rfl
            | some value =>
              have long := length_range found
              dsimp only
              rw [readOptionChecked_eq _ (by omega), ok_bind, ok_bind]
              exact ih _ _ _
    · rfl

theorem parseReplyChecked_eq (short : bytes.length < maxLength) (xid : UInt32) (mac : Mac)
    : parseReplyChecked bytes xid mac = .ok (parseReply bytes xid mac) := by
  unfold parseReplyChecked parseReply
  by_cases few : bytes.length < fixed + 4
  · rw [if_pos few, if_pos (.inl few)]
    rfl
  · have long : 240 ≤ bytes.length := Nat.le_of_not_lt few
    have part {start stop : Nat} (ordered : start ≤ stop) (inside : stop ≤ 240)
        : slice bytes start stop = .ok (range bytes start stop) :=
      slice_of_le ordered (inside.trans long)
    rw [if_neg few, index_octetAt (by omega), part (by decide) (by decide),
      part (by decide) (by decide), part (by decide) (by decide), ipv4AtChecked_eq short (by omega)]
    simp only [ok_bind, readOptionsChecked_eq short]
    generalize readOptions bytes _ _ _ _ = options
    rcases options with _ | ⟨reply, _ | kind⟩
    all_goals
      dsimp only
      split_ifs <;> first | rfl | grind

end Dhcp

namespace Dns

open RustyPi.Net.Dhcp (range? length_range)

def skipNameChecked (bytes : List UInt8) : Nat → Nat → Checked (Option Nat)
  | 0, _ => .ok none
  | left + 1, at_ =>
    match bytes[at_]? with
    | none => .ok none
    | some length =>
      if length = 0 then some <$> fits 64 (at_ + 1)
      else if length &&& 0xC0 = 0xC0 then do
        let next ← fits 64 (at_ + 2)
        return if next ≤ bytes.length then some next else none
      else if length &&& 0xC0 ≠ 0 then .ok none
      else do
        let next ← fits 64 (at_ + (1 + length.toNat))
        skipNameChecked bytes left next

def skipQuestionsChecked (bytes : List UInt8) : Nat → Nat → Checked (Option Nat)
  | 0, at_ => .ok (some at_)
  | left + 1, at_ => do
      match ← skipNameChecked bytes maxName at_ with
      | none => return none
      | some next =>
        let next ← fits 64 (next + 4)
        skipQuestionsChecked bytes left next

def readAnswersChecked (bytes : List UInt8) : Nat → Nat → List Ipv4 → Checked (Option (List Ipv4))
  | 0, _, addresses => .ok (some addresses)
  | left + 1, at_, addresses => do
      match ← skipNameChecked bytes maxName at_ with
      | none => return none
      | some at_ =>
        match range? bytes at_ (← fits 64 (at_ + 10)) with
        | none => return none
        | some record =>
          let kind ← u16AtChecked record 0
          let kindClass ← u16AtChecked record 2
          let length := (← u16AtChecked record 8).toNat
          match range? bytes (at_ + 10) (← fits 64 (at_ + 10 + length)) with
          | none => return none
          | some data =>
            let next ← fits 64 (at_ + (10 + length))
            if kind = typeA ∧ kindClass = classIn ∧ length = 4 then
              let address ← ipv4AtChecked data 0
              readAnswersChecked bytes left next (addresses ++ [address])
            else readAnswersChecked bytes left next addresses

def parseChecked (bytes : List UInt8) (id : UInt16) : Checked (Option Answer) := do
  if bytes.length < header then return none
  if (← u16AtChecked bytes 0) ≠ id then return none
  if (← u16AtChecked bytes 2) &&& response = 0 then return none
  let code := ((← u16AtChecked bytes 2) &&& 0xF).toUInt8
  if code = 3 then return some .noSuchName
  if code ≠ 0 then return some (.failed code)
  let questions ← u16AtChecked bytes 4
  let answers ← u16AtChecked bytes 6
  match ← skipQuestionsChecked bytes questions.toNat header with
  | none => return none
  | some at_ =>
    match ← readAnswersChecked bytes answers.toNat at_ [] with
    | none => return none
    | some addresses => return some (.addresses addresses)

variable {bytes : List UInt8}

theorem le_of_skipName {left at_ next : Nat} (skipped : skipName bytes left at_ = some next)
    : next ≤ bytes.length := by
  induction left generalizing at_ with
  | zero => cases skipped
  | succ left ih =>
    obtain ⟨length, found, skipped⟩ := Option.bind_eq_some_iff.mp skipped
    obtain ⟨inside, -⟩ := List.getElem?_eq_some_iff.mp found
    split_ifs at skipped with _ _ whole
    · cases skipped
      exact inside
    · cases skipped
      exact whole
    · exact ih skipped

variable (short : bytes.length < maxLength)
include short

theorem skipNameChecked_eq (left at_ : Nat)
    : skipNameChecked bytes left at_ = .ok (skipName bytes left at_) := by
  induction left generalizing at_ with
  | zero => rfl
  | succ left ih =>
    unfold skipNameChecked skipName
    cases found : bytes[at_]? with
    | none => rfl
    | some length =>
      obtain ⟨inside, -⟩ := List.getElem?_eq_some_iff.mp found
      have short : bytes.length < 2 ^ 63 := short
      have byte := length.toNat_lt
      simp only [fits_of_lt (show at_ + 1 < 2 ^ 64 by omega),
        fits_of_lt (show at_ + 2 < 2 ^ 64 by omega),
        fits_of_lt (show at_ + (1 + length.toNat) < 2 ^ 64 by omega), ih, ok_bind]
      rw [Option.bind_eq_bind, Option.bind_some]
      split_ifs <;> rfl

theorem fits_of_skipName {at_ next : Nat}
    (skipped : skipName bytes maxName at_ = some next) {more : Nat} (few : more ≤ 0x10010)
    : fits 64 (next + more) = .ok (next + more) := by
  have inside := le_of_skipName skipped
  have short : bytes.length < 2 ^ 63 := short
  exact fits_of_lt (by omega)

theorem skipQuestionsChecked_eq (left at_ : Nat)
    : skipQuestionsChecked bytes left at_ = .ok (skipQuestions bytes left at_) := by
  induction left generalizing at_ with
  | zero => rfl
  | succ left ih =>
    rw [skipQuestionsChecked, skipNameChecked_eq short, ok_bind, skipQuestions]
    cases skipped : skipName bytes maxName at_ with
    | none => rfl
    | some next =>
      dsimp only
      rw [fits_of_skipName short skipped (by decide), ok_bind]
      exact ih _

theorem readAnswersChecked_eq (left at_ : Nat) (addresses : List Ipv4)
    : readAnswersChecked bytes left at_ addresses = .ok (readAnswers bytes left at_ addresses) := by
  induction left generalizing at_ addresses with
  | zero => rfl
  | succ left ih =>
    rw [readAnswersChecked, skipNameChecked_eq short, ok_bind, readAnswers]
    cases skipped : skipName bytes maxName at_ with
    | none => rfl
    | some next =>
      dsimp only
      rw [fits_of_skipName short skipped (by decide), ok_bind, Option.bind_eq_bind,
        Option.bind_some]
      cases found : range? bytes next (next + 10) with
      | none => rfl
      | some record =>
        have long := length_range found
        have word := (u16At record 8).toNat_lt
        dsimp only
        rw [u16AtChecked_eq (by omega) (by omega), u16AtChecked_eq (by omega) (by omega),
          u16AtChecked_eq (by omega) (by omega), ok_bind, ok_bind, ok_bind, Nat.add_assoc,
          fits_of_skipName short skipped (by omega), ok_bind, Option.bind_eq_bind,
          Option.bind_some, Nat.add_assoc]
        cases rest : range? bytes (next + 10) (next + (10 + (u16At record 8).toNat)) with
        | none => rfl
        | some data =>
          have inside := length_range rest
          dsimp only
          rw [ok_bind, Option.bind_some]
          split
          · rw [ipv4AtChecked_eq (by omega) (by omega), ok_bind]
            exact ih _ _
          · exact ih _ _

theorem parseChecked_eq (id : UInt16)
    : parseChecked bytes id = .ok (parse bytes id) := by
  unfold parseChecked parse
  by_cases few : bytes.length < header
  · rw [if_pos few, if_pos (.inl few)]
    rfl
  · have long : 12 ≤ bytes.length := Nat.le_of_not_lt few
    simp (disch := omega) only [if_neg few, u16AtChecked_eq short, skipQuestionsChecked_eq short,
      readAnswersChecked_eq short, ok_bind]
    cases skipQuestions bytes (u16At bytes 4).toNat header with
    | none => split_ifs <;> first | rfl | grind
    | some at_ =>
      dsimp only
      rw [Option.bind_eq_bind, Option.bind_some]
      cases readAnswers bytes (u16At bytes 6).toNat at_ [] with
      | none => split_ifs <;> first | rfl | grind
      | some addresses => split_ifs <;> first | rfl | grind

end Dns

namespace Sntp

def length : Nat := 48

/-- Seconds from NTP's epoch to Unix's. -/
def unixOffset : Nat := 2_208_988_800

def modeServer : UInt8 := 4

def be64 (value : UInt64) : List UInt8 := be32 (value >>> 32).toUInt32 ++ be32 value.toUInt32

/-- Microseconds since 1970, from NTP's seconds and the fraction of one. -/
def timeChecked (seconds fraction roundTrip : Nat) : Checked (Option Nat) := do
  if seconds < unixOffset then return none
  let whole ← fits 64 ((seconds - unixOffset) * 1_000_000)
  let part ← fits 64 (fraction * 1_000_000)
  let time ← fits 64 (whole + part / 2 ^ 32)
  let time ← fits 64 (time + roundTrip / 2)
  return some time

/-- The time that an answer gives. -/
def parseChecked (bytes : List UInt8) (cookie roundTrip : UInt64) : Checked (Option Nat) := do
  if bytes.length < length then return none
  if (← index bytes 0) &&& 7 ≠ modeServer then return none
  if (← index bytes 1) = 0 then return none
  if (← slice bytes 24 32) ≠ be64 cookie then return none
  let seconds := (← u16AtChecked bytes 40).toNat * 0x10000 + (← u16AtChecked bytes 42).toNat
  let fraction := (← u16AtChecked bytes 44).toNat * 0x10000 + (← u16AtChecked bytes 46).toNat
  timeChecked seconds fraction roundTrip.toNat

theorem words_lt (high low : UInt16) : high.toNat * 0x10000 + low.toNat < 2 ^ 32 := by
  have := high.toNat_lt
  have := low.toNat_lt
  omega

theorem timeChecked_ok {seconds fraction roundTrip : Nat} (whole : seconds < 2 ^ 32)
    (part : fraction < 2 ^ 32) (trip : roundTrip < 2 ^ 64)
    : ∃ result, timeChecked seconds fraction roundTrip = .ok result := by
  unfold timeChecked
  split
  · exact ⟨none, rfl⟩
  · rw [fits_of_lt (by omega), ok_bind, fits_of_lt (by omega), ok_bind, fits_of_lt (by omega), ok_bind,
      fits_of_lt (by omega), ok_bind]
    exact ⟨some _, rfl⟩

theorem parseChecked_ok {bytes : List UInt8} (short : bytes.length < maxLength)
    (cookie roundTrip : UInt64)
    : ∃ result, parseChecked bytes cookie roundTrip = .ok result := by
  unfold parseChecked
  by_cases few : bytes.length < length
  · rw [if_pos few]
    exact ⟨none, rfl⟩
  · have long : 48 ≤ bytes.length := Nat.le_of_not_lt few
    obtain ⟨time, given⟩ := timeChecked_ok (words_lt (u16At bytes 40) (u16At bytes 42))
      (words_lt (u16At bytes 44) (u16At bytes 46)) roundTrip.toNat_lt
    simp (disch := omega) only [if_neg few, index_octetAt, slice_of_le, u16AtChecked_eq short,
      given, ok_bind, pure_ok]
    split_ifs <;> exact ⟨_, rfl⟩

end Sntp

namespace Lan7800

open RustyPi.Bytes (u32At)

def framesChecked (transfer : List UInt8) : Nat → Nat → Checked (List (List UInt8))
  | 0, _ => .ok []
  | left + 1, at_ => do
      let start ← fits 64 (at_ + rxHeader)
      if start ≤ transfer.length then
        let word ← slice transfer at_ (← fits 64 (at_ + 4))
        let cmdA := u32At word 0
        let size := cmdA &&& rxCmdALen
        let stop ← fits 64 (start + size)
        if transfer.length < stop then return []
        let next ← fits 64 (stop + padding size)
        if cmdA &&& rxCmdAError = 0 ∧ fcs < size then
          let frame ← slice transfer start (stop - fcs)
          let rest ← framesChecked transfer left next
          return frame :: rest
        else framesChecked transfer left next
      else return []

def rxChecked (transfer : List UInt8) : Checked (List (List UInt8)) :=
  framesChecked transfer transfer.length 0

theorem u32At_slice (transfer : List UInt8) (at_ : Nat)
    : u32At ((transfer.take (at_ + 4)).drop at_) 0 = u32At transfer at_ := by
  simp [u32At, Bytes.u16At, Bytes.byteAt, List.getElem?_drop]

/-- The index is below the transfer's end, or the padding has taken it at most 3 bytes past it. -/
theorem framesChecked_eq {transfer : List UInt8} (short : transfer.length < maxLength)
    (left at_ : Nat) (inside : at_ ≤ transfer.length + 3)
    : framesChecked transfer left at_ = .ok (frames transfer left at_) := by
  induction left generalizing at_ with
  | zero => rfl
  | succ left ih =>
    have small : transfer.length < 2 ^ 63 := short
    rw [framesChecked, fits_of_lt (by rw [rxHeader]; omega), ok_bind, frames]
    split
    · rename_i header
      have whole : at_ + 4 ≤ transfer.length := by
        rw [rxHeader] at header
        omega
      rw [fits_of_lt (by omega), ok_bind, slice_of_le (by omega) whole, ok_bind, u32At_slice]
      dsimp only
      generalize u32At transfer at_ = cmdA
      have sized : cmdA &&& rxCmdALen ≤ 0x3FFF := Nat.and_le_right
      generalize cmdA &&& rxCmdALen = size at sized ⊢
      generalize at_ + rxHeader = start at header ⊢
      have padded : padding size < 4 := Nat.mod_lt _ (by decide)
      rw [fits_of_lt (by omega), ok_bind]
      split
      · rfl
      · rename_i complete
        rw [fits_of_lt (by omega), ok_bind, ih _ (by omega), frameAt]
        split
        · rename_i good
          rw [slice_of_le (by rw [fcs] at good ⊢; omega) (by omega)]
          rfl
        · rfl
    · rfl

end Lan7800

end RustyPi.Net
