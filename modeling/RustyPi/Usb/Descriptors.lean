import RustyPi.Lib.Bytes

/-! Control requests, the descriptors devices describe themselves with, and hub port status,
`rustypi-core/src/usb/mod.rs`.
-/

namespace RustyPi.Usb

open RustyPi.Bytes

inductive Speed
  | low
  | full
  | high
  deriving DecidableEq, Repr

inductive Direction
  /-- Host to device. -/
  | out
  /-- Device to host. -/
  | into
  deriving DecidableEq, Repr

inductive EndpointType
  | control
  | isochronous
  | bulk
  | interrupt
  deriving DecidableEq, Repr

def EndpointType.fromAttributes (attributes : Nat) : EndpointType :=
  match attributes % 4 with
  | 0 => .control
  | 1 => .isochronous
  | 2 => .bulk
  | _ => .interrupt

namespace DescriptorType

def device : Nat := 1
def configuration : Nat := 2
def interface : Nat := 4
def endpoint : Nat := 5
def hub : Nat := 0x29

end DescriptorType

def hubClass : Nat := 9

-- The class, subclass and protocol of a keyboard that speaks the boot protocol.
def hidClass : Nat := 3
def hidSubclassBoot : Nat := 1
def hidProtocolKeyboard : Nat := 1

/-- The 8 bytes that start every control transfer. -/
structure SetupPacket where
  requestType : Nat
  request : Nat
  value : Nat
  index : Nat
  /-- Bytes in the data stage. -/
  length : Nat
  deriving DecidableEq, Repr

namespace PortFeature

/-- Only cleared, to disable a port. -/
def enable : Nat := 1
def reset : Nat := 4
def power : Nat := 8
def connectionChange : Nat := 16
def resetChange : Nat := 20

end PortFeature

namespace SetupPacket

-- `request_type` fields: direction, kind of request, and whom it is for.
def typeIn : Nat := 0x80
def typeClass : Nat := 1 <<< 5
def toInterface : Nat := 1
def toOther : Nat := 3

def getStatus : Nat := 0
def clearFeature : Nat := 1
def setFeature : Nat := 3
def setAddressRequest : Nat := 5
def getDescriptorRequest : Nat := 6
def setConfigurationRequest : Nat := 9
-- HID class requests.
def setIdleRequest : Nat := 0x0A
def setProtocolRequest : Nat := 0x0B

def getDescriptor (kind index length : Nat) : SetupPacket :=
  { requestType := typeIn, request := getDescriptorRequest, value := kind <<< 8 ||| index, index := 0
    length }

/-- Gives the device, still at address 0, its own address. -/
def setAddress (address : Nat) : SetupPacket :=
  { requestType := 0, request := setAddressRequest, value := address, index := 0, length := 0 }

def setConfiguration (value : Nat) : SetupPacket :=
  { requestType := 0, request := setConfigurationRequest, value, index := 0, length := 0 }

def getHubDescriptor (length : Nat) : SetupPacket :=
  { requestType := typeIn ||| typeClass, request := getDescriptorRequest
    value := DescriptorType.hub <<< 8, index := 0, length }

/-- A hub port's status and change bits. Ports count from 1. -/
def getPortStatus (port : Nat) : SetupPacket :=
  { requestType := typeIn ||| typeClass ||| toOther, request := getStatus, value := 0, index := port
    length := 4 }

def setPortFeature (port feature : Nat) : SetupPacket :=
  { requestType := typeClass ||| toOther, request := setFeature, value := feature, index := port
    length := 0 }

def clearPortFeature (port feature : Nat) : SetupPacket :=
  { requestType := typeClass ||| toOther, request := clearFeature, value := feature, index := port
    length := 0 }

/-- Switches a HID interface to the boot protocol, or back to its report protocol. -/
def setProtocol (interface : Nat) (boot : Bool) : SetupPacket :=
  { requestType := typeClass ||| toInterface, request := setProtocolRequest
    value := if boot then 0 else 1, index := interface, length := 0 }

/-- Asks a HID interface to report only when something changes. -/
def setIdle (interface : Nat) : SetupPacket :=
  { requestType := typeClass ||| toInterface, request := setIdleRequest, value := 0
    index := interface, length := 0 }

/-- Whether a request is for a port of a hub. -/
def forPort (setup : SetupPacket) : Bool :=
  setup.requestType == typeClass ||| toOther || setup.requestType == typeIn ||| typeClass ||| toOther

end SetupPacket

inductive DescriptorError
  /-- Shorter than its type needs, or than it says it is. -/
  | truncated
  /-- Not the type asked for. -/
  | wrongType (kind : Nat)
  deriving DecidableEq, Repr

/-- Checks that the bytes start with a descriptor of a type that is at least so long. -/
def check (bytes : List UInt8) (kind least : Nat) : Except DescriptorError Unit :=
  if bytes.length < 2 ∨ bytes.length < least ∨ byteAt bytes 0 < least then .error .truncated
  else if byteAt bytes 1 ≠ kind then .error (.wrongType (byteAt bytes 1))
  else .ok ()

structure DeviceDescriptor where
  deviceClass : Nat
  subclass : Nat
  protocol : Nat
  /-- Of endpoint 0. -/
  maxPacketSize : Nat
  vendor : Nat
  product : Nat
  configurations : Nat
  deriving DecidableEq, Repr

namespace DeviceDescriptor

def length : Nat := 18

/-- From the first 8 bytes. -/
def maxPacketSizeOf (bytes : List UInt8) : Except DescriptorError Nat := do
  check bytes DescriptorType.device 8
  return byteAt bytes 7

def parse (bytes : List UInt8) : Except DescriptorError DeviceDescriptor := do
  check bytes DescriptorType.device length
  return {
    deviceClass := byteAt bytes 4
    subclass := byteAt bytes 5
    protocol := byteAt bytes 6
    maxPacketSize := byteAt bytes 7
    vendor := u16At bytes 8
    product := u16At bytes 10
    configurations := byteAt bytes 17 }

end DeviceDescriptor

structure Endpoint where
  number : Nat
  direction : Direction
  kind : EndpointType
  maxPacketSize : Nat
  interval : Nat
  deriving DecidableEq, Repr

structure Interface where
  number : Nat
  alternate : Nat
  interfaceClass : Nat
  subclass : Nat
  protocol : Nat
  endpoints : List Endpoint
  deriving DecidableEq, Repr

namespace Interface

def isBootKeyboard (interface : Interface) : Bool :=
  interface.interfaceClass == hidClass && interface.subclass == hidSubclassBoot
  && interface.protocol == hidProtocolKeyboard

def endpoint (interface : Interface) (kind : EndpointType) (direction : Direction)
    : Option Endpoint :=
  interface.endpoints.find? (fun endpoint => endpoint.kind == kind && endpoint.direction == direction)

end Interface

/-- A configuration, with its interfaces and their endpoints. -/
structure Configuration where
  /-- What chooses it. -/
  value : Nat
  interfaces : List Interface
  deriving DecidableEq, Repr

namespace Configuration

/-- From the first 9 bytes: how many bytes the whole configuration takes. -/
def totalLength (bytes : List UInt8) : Except DescriptorError Nat := do
  check bytes DescriptorType.configuration 9
  return u16At bytes 2

/-- An endpoint belongs to the interface before it. -/
def addEndpoint (endpoint : Endpoint) (interfaces : List Interface) : List Interface :=
  match interfaces.getLast? with
  | none => interfaces
  | some last =>
    interfaces.dropLast ++ [{ last with endpoints := last.endpoints ++ [endpoint] }]

/-- What a descriptor adds to the interfaces before it. Those of other kinds are passed over. -/
def addDescriptor (descriptor : List UInt8) (interfaces : List Interface)
    : Except DescriptorError (List Interface) :=
  if byteAt descriptor 1 = DescriptorType.interface then do
    check descriptor DescriptorType.interface 9
    return interfaces ++ [{
      number := byteAt descriptor 2
      alternate := byteAt descriptor 3
      interfaceClass := byteAt descriptor 5
      subclass := byteAt descriptor 6
      protocol := byteAt descriptor 7
      endpoints := [] }]
  else if byteAt descriptor 1 = DescriptorType.endpoint then do
    check descriptor DescriptorType.endpoint 7
    return addEndpoint
      { number := byteAt descriptor 2 % 16
        direction := if byteAt descriptor 2 < 0x80 then .out else .into
        kind := .fromAttributes (byteAt descriptor 3)
        maxPacketSize := u16At descriptor 4 % 0x800
        interval := byteAt descriptor 6 }
      interfaces
  else .ok interfaces

/-- The descriptors from an offset on; each takes at least two bytes, so there are at most half as
many as bytes.
-/
def parseFrom (bytes : List UInt8) (total : Nat)
    : Nat → Nat → List Interface → Except DescriptorError (List Interface)
  | 0, _, interfaces => .ok interfaces
  | fuel + 1, at_, interfaces =>
    if at_ + 2 ≤ total then
      if byteAt bytes at_ < 2 ∨ total < at_ + byteAt bytes at_ then .error .truncated
      else do
        let interfaces ← addDescriptor ((bytes.drop at_).take (byteAt bytes at_)) interfaces
        parseFrom bytes total fuel (at_ + byteAt bytes at_) interfaces
    else .ok interfaces

def parse (bytes : List UInt8) : Except DescriptorError Configuration := do
  let total ← totalLength bytes
  if bytes.length < total then throw .truncated
  let interfaces ← parseFrom bytes total (total + 1) (byteAt bytes 0) []
  return { value := byteAt bytes 5, interfaces }

end Configuration

structure HubDescriptor where
  ports : Nat
  /-- How long after powering a port it can be used. -/
  powerOnToGoodMs : Nat
  deriving DecidableEq, Repr

def HubDescriptor.parse (bytes : List UInt8) : Except DescriptorError HubDescriptor := do
  check bytes DescriptorType.hub 7
  return { ports := byteAt bytes 2, powerOnToGoodMs := byteAt bytes 5 * 2 }

/-- A hub port's status and what changed. -/
structure PortStatus where
  bits : Nat
  deriving DecidableEq, Repr

namespace PortStatus

/-- What is missing of the four bytes is zero. -/
def fromBytes (bytes : List UInt8) : PortStatus := { bits := u32At bytes 0 }

def connected (status : PortStatus) : Bool := status.bits.testBit 0
def enabled (status : PortStatus) : Bool := status.bits.testBit 1
def resetting (status : PortStatus) : Bool := status.bits.testBit 4
def connectionChanged (status : PortStatus) : Bool := status.bits.testBit 16
def resetChanged (status : PortStatus) : Bool := status.bits.testBit 20

/-- The speed of the device on it, once it is enabled. -/
def speed (status : PortStatus) : Speed :=
  if status.bits.testBit 9 then .low else if status.bits.testBit 10 then .high else .full

end PortStatus

end RustyPi.Usb
