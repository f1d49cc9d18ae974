import RustyPi.Lib.OnesComplement

/-! Addresses, numbers and checksums as they are on the wire: `rustypi-core/src/net/mod.rs`. -/

namespace RustyPi.Net

open RustyPi.OnesComplement

/-- An Ethernet address, byte by byte. -/
structure Mac where
  a : UInt8
  b : UInt8
  c : UInt8
  d : UInt8
  e : UInt8
  f : UInt8
  deriving DecidableEq, Repr

namespace Mac

def octets (mac : Mac) : List UInt8 := [mac.a, mac.b, mac.c, mac.d, mac.e, mac.f]

def broadcast : Mac := ⟨0xFF, 0xFF, 0xFF, 0xFF, 0xFF, 0xFF⟩

def zero : Mac := ⟨0, 0, 0, 0, 0, 0⟩

end Mac

/-- An IPv4 address, byte by byte. -/
structure Ipv4 where
  a : UInt8
  b : UInt8
  c : UInt8
  d : UInt8
  deriving DecidableEq, Repr

namespace Ipv4

def octets (address : Ipv4) : List UInt8 := [address.a, address.b, address.c, address.d]

def unspecified : Ipv4 := ⟨0, 0, 0, 0⟩

def broadcast : Ipv4 := ⟨255, 255, 255, 255⟩

def bits (address : Ipv4) : UInt32 :=
  address.a.toUInt32 <<< 24 ||| address.b.toUInt32 <<< 16 ||| address.c.toUInt32 <<< 8
    ||| address.d.toUInt32

/-- Whether two addresses are on the same network. -/
def sameNetwork (address other netmask : Ipv4) : Bool :=
  address.bits &&& netmask.bits == other.bits &&& netmask.bits

end Ipv4

/-- `u16::from_be_bytes`. -/
def fromBe16 (high low : UInt8) : UInt16 := UInt16.ofNat (high.toNat * 0x100 + low.toNat)

/-- `u16::to_be_bytes`. -/
def be16 (value : UInt16) : List UInt8 := [UInt8.ofNat (value.toNat / 0x100), value.toUInt8]

/-- `u32::to_be_bytes`. -/
def be32 (value : UInt32) : List UInt8 :=
  [UInt8.ofNat (value.toNat / 0x1000000), UInt8.ofNat (value.toNat / 0x10000),
    UInt8.ofNat (value.toNat / 0x100), value.toUInt8]

def octetAt (bytes : List UInt8) (at_ : Nat) : UInt8 := bytes[at_]?.getD 0

def u16At (bytes : List UInt8) (at_ : Nat) : UInt16 :=
  fromBe16 (octetAt bytes at_) (octetAt bytes (at_ + 1))

def ipv4At (bytes : List UInt8) (at_ : Nat) : Ipv4 :=
  ⟨octetAt bytes at_, octetAt bytes (at_ + 1), octetAt bytes (at_ + 2), octetAt bytes (at_ + 3)⟩

def macAt (bytes : List UInt8) (at_ : Nat) : Mac :=
  ⟨octetAt bytes at_, octetAt bytes (at_ + 1), octetAt bytes (at_ + 2), octetAt bytes (at_ + 3),
    octetAt bytes (at_ + 4), octetAt bytes (at_ + 5)⟩

theorem toNat_fromBe16 (high low : UInt8)
    : (fromBe16 high low).toNat = high.toNat * 0x100 + low.toNat := by
  have := high.toNat_lt
  have := low.toNat_lt
  rw [fromBe16, UInt16.toNat_ofNat_of_lt' (by rw [UInt16.size]; omega)]

theorem toNat_high (value : UInt16)
    : (UInt8.ofNat (value.toNat / 0x100)).toNat = value.toNat / 0x100 := by
  have := value.toNat_lt
  rw [UInt8.toNat_ofNat_of_lt' (by rw [UInt8.size]; omega)]

@[simp]
theorem fromBe16_be16 (value : UInt16)
    : fromBe16 (UInt8.ofNat (value.toNat / 0x100)) value.toUInt8 = value := by
  have := value.toNat_lt
  rw [← UInt16.toNat_inj, toNat_fromBe16, toNat_high, UInt16.toNat_toUInt8]
  omega

@[simp]
theorem length_be16 (value : UInt16) : (be16 value).length = 2 := rfl

/-- Adds bytes to a running one's complement sum, as 16-bit big endian words. -/
def sum (acc : Nat) : List UInt8 → Nat
  | high :: low :: rest => sum (acc + (fromBe16 high low).toNat) rest
  | [last] => acc + last.toNat * 0x100
  | [] => acc

/-- Folds a running sum into the Internet checksum. -/
def finish (acc : Nat) : UInt16 := ~~~(UInt16.ofNat (endAround 0x10000 acc))

def checksum (bytes : List UInt8) : UInt16 := finish (sum 0 bytes)

theorem sum_le (acc : Nat) (bytes : List UInt8)
    : sum acc bytes ≤ acc + 0xFFFF * ((bytes.length + 1) / 2) := by
  fun_induction sum acc bytes with
  | case1 acc high low rest ih =>
    have := (fromBe16 high low).toNat_lt
    rw [List.length_cons, List.length_cons]
    omega
  | case2 acc last =>
    have := last.toNat_lt
    rw [List.length_singleton]
    omega
  | case3 acc => exact Nat.le_add_right _ _

end RustyPi.Net
