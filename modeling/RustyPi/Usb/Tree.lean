import RustyPi.Lib.Calls
import RustyPi.Usb.Descriptors

/-! Enumeration of the devices on the bus and polling for changes, `rustypi-core/src/usb/tree.rs`, over
whatever the bus answers. The addresses in use are the state between the calls to the bus.
-/

namespace RustyPi.Usb

open RustyPi.Bytes RustyPi.Calls

/-- A high speed hub's transaction translator, and the port of that hub the device is behind. -/
structure Translator where
  hub : Nat
  port : Nat
  deriving DecidableEq, Repr

/-- Endpoint 0 of a device, as a control transfer needs it. -/
structure Target where
  address : Nat
  maxPacket : Nat
  speed : Speed
  /-- For a low or full speed device on a high speed bus. -/
  translator : Option Translator
  deriving DecidableEq, Repr

/-- What enumeration asks of the bus. -/
inductive Request
  | control (target : Target) (setup : SetupPacket)
  | delay (ms : Nat)
  deriving DecidableEq, Repr

/-- Hubs chained deeper than the USB 2.0 limit (five, besides the root). -/
def maxDepth : Nat := 6

/-- Addresses go from 1 to this. -/
def maxAddress : Nat := 127

def setAddressRecoveryMs : Nat := 2
def resetRecoveryMs : Nat := 10
def minPowerUpMs : Nat := 510
def resetTimeoutMs : Nat := 500
def resetPollMs : Nat := 10

inductive Error (E : Type)
  | bus (error : E)
  | descriptor (error : DescriptorError)
  | outOfAddresses
  /-- The hub didn't finish resetting the port. -/
  | resetTimedOut
  /-- The port wasn't enabled after its reset. -/
  | notEnabled
  | tooDeep
  deriving DecidableEq, Repr

/-- What is on a hub's port. -/
inductive Port (Device E : Type)
  | empty
  | device (device : Device)
  /-- Something is there, but enumerating it failed. Its port is disabled. -/
  | failed (error : Error E)

structure Hub (Device E : Type) where
  descriptor : HubDescriptor
  /-- Port 1 first. -/
  ports : List (Port Device E)

/-- A device, addressed and configured. -/
structure Device (E : Type) where
  address : Nat
  speed : Speed
  translator : Option Translator
  descriptor : DeviceDescriptor
  configuration : Configuration
  hub : Option (Hub (Device E) E)

variable {E : Type}

/-- Endpoint 0, for control transfers to it. -/
def Device.target (device : Device E) : Target :=
  { address := device.address, maxPacket := device.descriptor.maxPacketSize, speed := device.speed
    translator := device.translator }

mutual

/-- A device and everything behind it, depth first, each with how many hubs deep it is. -/
def walkInto (depth : Nat) : Device E → List (Nat × Device E)
  | device@{ hub := none, .. } => [(depth, device)]
  | device@{ hub := some ⟨_, ports⟩, .. } => (depth, device) :: walkPorts (depth + 1) ports

def walkPorts (depth : Nat) : List (Port (Device E) E) → List (Nat × Device E)
  | [] => []
  | .device device :: rest => walkInto depth device ++ walkPorts depth rest
  | .empty :: rest => walkPorts depth rest
  | .failed _ :: rest => walkPorts depth rest

end

def Device.walk (device : Device E) : List (Nat × Device E) := walkInto 0 device

/-- Device addresses in use. -/
structure Addresses where
  used : Nat → Bool

namespace Addresses

def new : Addresses := { used := fun _ => false }

def mark (addresses : Addresses) (address : Nat) (used : Bool) : Addresses :=
  { used := fun other => if other = address then used else addresses.used other }

def lowest (addresses : Addresses) : Option Nat :=
  ((List.range maxAddress).map (· + 1)).find? (fun address => !addresses.used address)

/-- Gives back a device's address and those of everything behind it. -/
def free (addresses : Addresses) (device : Device E) : Addresses :=
  device.walk.foldl (fun addresses found => addresses.mark found.2.address false) addresses

end Addresses

/-- A part of enumeration. -/
abbrev Enumerator (E : Type) := Walk Addresses Request (Except E (List UInt8))

/-- One that may fail. -/
abbrev Fallible (E : Type) := Attempt Addresses Request (Except E (List UInt8)) (Error E)

/-- What is taken from an answer of the bus. -/
def received (setup : SetupPacket) : Except E (List UInt8) → Except (Error E) (List UInt8)
  | .ok bytes => .ok (bytes.take setup.length)
  | .error error => .error (.bus error)

/-- A control transfer to endpoint 0 of a device. Returns the bytes received. -/
def control (target : Target) (setup : SetupPacket) : Fallible E (List UInt8) :=
  ExceptT.mk do
    let response : Except E (List UInt8) ← ask (Request.control target setup)
    return received setup response

def delayMs (ms : Nat) : Fallible E Unit :=
  ExceptT.mk do
    let _ : Except E (List UInt8) ← ask (Request.delay ms)
    return .ok ()

section Rules

variable {World : Type} {setting : Setting World Request (Except E (List UInt8))}
  {addresses : Addresses} {world : World} {fails : Error E → Addresses → World → Prop}

theorem tries_control {ok : List UInt8 → Addresses → World → Prop} {target : Target}
    {setup : SetupPacket} (allowed : setting.allowed world (.control target setup))
    (holds
      : ∀ response after, setting.answers world (.control target setup) response after
          → outcome ok fails (received setup response) addresses after)
    : Tries setting ok fails (control target setup) addresses world :=
  ensures_bind (ensures_ask allowed holds)

theorem tries_delay {ok : Unit → Addresses → World → Prop} {ms : Nat}
    (allowed : setting.allowed world (.delay ms))
    (holds
      : ∀ response after, setting.answers world (.delay ms) response after
          → ok () addresses after)
    : Tries setting ok fails (delayMs ms) addresses world :=
  ensures_bind (ensures_ask allowed holds)

end Rules

/-- What a descriptor gave. -/
def parsed {α : Type} (result : Except DescriptorError α) : Fallible E α :=
  match result with
  | .ok value => pure value
  | .error error => throw (.descriptor error)

variable {World : Type} {setting : Setting World Request (Except E (List UInt8))}
variable {addresses : Addresses} {world : World} {fails : Error E → Addresses → World → Prop}

def takeAddress : Fallible E Nat :=
  ExceptT.mk do
    let addresses ← get
    match addresses.lowest with
    | none => return .error .outOfAddresses
    | some address =>
      set (addresses.mark address true)
      return .ok address

theorem tries_takeAddress {ok : Nat → Addresses → World → Prop}
    (took
      : ∀ address, addresses.lowest = some address
          → ok address (addresses.mark address true) world)
    (failed : fails .outOfAddresses addresses world)
    : Tries setting ok fails takeAddress addresses world := by
  refine ensures_bind (ensures_get ?_)
  cases found : addresses.lowest with
  | none => exact ensures_pure failed
  | some address => exact ensures_bind (ensures_set (ensures_pure (took address found)))

def portStatus (hub : Target) (port : Nat) : Fallible E PortStatus := do
  let bytes ← control hub (.getPortStatus port)
  return .fromBytes bytes

/-- Waits for the reset of a port; that many looks are left. -/
def awaitReset (hub : Target) (port : Nat) : Nat → Fallible E PortStatus
  | 0 => throw .resetTimedOut
  | looks + 1 => do
      delayMs resetPollMs
      let status ← portStatus hub port
      if status.resetChanged || (!status.resetting && status.enabled) then return status
      else awaitReset hub port looks

/-- Resets a port with a device on it and returns the device's speed. -/
def resetPort (hub : Target) (port : Nat) : Fallible E Speed := do
  let _ ← control hub (.setPortFeature port PortFeature.reset)
  let status ← awaitReset hub port (resetTimeoutMs / resetPollMs)
  let _ ← control hub (.clearPortFeature port PortFeature.resetChange)
  let _ ← control hub (.clearPortFeature port PortFeature.connectionChange)
  delayMs resetRecoveryMs
  if status.enabled then return status.speed else throw .notEnabled

/-- Below a high speed hub, a slower device gets that hub's translator. Further down, behind a full
speed hub, it shares the translator that hub uses.
-/
def translatorFor (hub : Target) (port : Nat) (speed : Speed) : Option Translator :=
  match hub.speed, speed with
  | .high, .low | .high, .full => some { hub := hub.address, port }
  | .high, .high => none
  | _, _ => hub.translator

/-- Enumerates a device that answers at address 0; none for one that is too deep. -/
abbrev Deeper (E : Type) := Option (Speed → Option Translator → Fallible E (Device E))

def resetAndEnumerate (deeper : Deeper E) (hub : Target) (port : Nat)
    : Fallible E (Device E) := do
  let speed ← resetPort hub port
  match deeper with
  | none => throw .tooDeep
  | some device => device speed (translatorFor hub port speed)

/-- Resets the port and enumerates the device on it, if there is one. -/
def portWith (deeper : Deeper E) (hub : Target) (port : Nat)
    : Enumerator E (Port (Device E) E) := do
  match ← (portStatus hub port).run with
  | .error error => return .failed error
  | .ok status =>
    if status.connected then
      match ← (resetAndEnumerate deeper hub port).run with
      | .ok device => return .device device
      | .error error =>
        -- Out of the way of the next port's device at address 0.
        let _ ← (control hub (.clearPortFeature port PortFeature.enable)).run
        return .failed error
    else return .empty

/-- Enumerates what is on each of a hub's ports, from a number on. -/
def portsWith (deeper : Deeper E) (hub : Target)
    : Nat → Nat → Enumerator E (List (Port (Device E) E))
  | _, 0 => return []
  | number, count + 1 => do
      let port ← portWith deeper hub number
      let rest ← portsWith deeper hub (number + 1) count
      return port :: rest

def powerPorts (hub : Target) : Nat → Nat → Fallible E Unit
  | _, 0 => return
  | number, count + 1 => do
      let _ ← control hub (.setPortFeature number PortFeature.power)
      powerPorts hub (number + 1) count

/-- Powers a hub's ports and enumerates what is on each. -/
def hubWith (deeper : Deeper E) (hub : Target) : Fallible E (Hub (Device E) E) := do
  let bytes ← control hub (.getHubDescriptor 9)
  let descriptor ← parsed (HubDescriptor.parse bytes)
  powerPorts hub 1 descriptor.ports
  delayMs (max descriptor.powerOnToGoodMs minPowerUpMs)
  let ports ← portsWith deeper hub 1 descriptor.ports
  return { descriptor, ports }

section Keeps

variable {World α : Type} {setting : Setting World Request (Except E (List UInt8))}
  {holds : Addresses → World → Prop} {hub : Target}

/-- Port commands to a hub, and delays, keep something. -/
structure PortsKeep (setting : Setting World Request (Except E (List UInt8)))
    (holds : Addresses → World → Prop) (hub : Target)
    : Prop where
  asks
    : ∀ setup : SetupPacket, setup.forPort = true
        → Keeps setting holds (control hub setup : Fallible E (List UInt8))
  delays : ∀ ms, Keeps setting holds (delayMs ms : Fallible E Unit)

theorem PortsKeep.portStatus (keep : PortsKeep setting holds hub) (port : Nat)
    : Keeps setting holds (portStatus hub port : Fallible E PortStatus) :=
  (keep.asks _ rfl).bind (fun _ => keeps_pure _)

theorem PortsKeep.awaitReset (keep : PortsKeep setting holds hub) (port looks : Nat)
    : Keeps setting holds (awaitReset hub port looks : Fallible E PortStatus) := by
  induction looks with
  | zero => exact keeps_throw _
  | succ looks ih =>
    refine (keep.delays _).bind (fun _ => (keep.portStatus port).bind (fun status => ?_))
    split
    · exact keeps_pure _
    · exact ih

theorem PortsKeep.resetPort (keep : PortsKeep setting holds hub) (port : Nat)
    : Keeps setting holds (resetPort hub port : Fallible E Speed) := by
  refine (keep.asks _ rfl).bind (fun _ => (keep.awaitReset port _).bind (fun status => ?_))
  refine (keep.asks _ rfl).bind (fun _ => (keep.asks _ rfl).bind (fun _ => ?_))
  refine (keep.delays _).bind (fun _ => ?_)
  split
  · exact keeps_pure _
  · exact keeps_throw _

theorem keeps_powerPorts
    (powers
      : ∀ port, Keeps setting holds
          (control hub (.setPortFeature port PortFeature.power) : Fallible E (List UInt8)))
    (number count : Nat)
    : Keeps setting holds (powerPorts hub number count : Fallible E Unit) := by
  induction count generalizing number with
  | zero => exact keeps_pure _
  | succ count ih => exact (powers number).bind (fun _ => ih _)

end Keeps

/-- Whether the descriptors say that a device is a hub. -/
def isHub (descriptor : DeviceDescriptor) (configuration : Configuration) : Bool :=
  descriptor.deviceClass == hubClass
  || configuration.interfaces.any (fun interface => interface.interfaceClass == hubClass)

/-- The hub that a device is, if its descriptors say so. -/
def hubOf (deeper : Deeper E) (target : Target) (descriptor : DeviceDescriptor)
    (configuration : Configuration)
    : Fallible E (Option (Hub (Device E) E)) :=
  if isHub descriptor configuration then do
    let hub ← hubWith deeper target
    return some hub
  else return none

/-- The rest of enumerating a device, from giving it an address. -/
def addressedWith (deeper : Deeper E) (default : Target) (address : Nat)
    : Fallible E (Device E) := do
  let _ ← control default (.setAddress address)
  delayMs setAddressRecoveryMs
  let target := { default with address }
  let bytes ← control target
    (.getDescriptor DescriptorType.device 0 DeviceDescriptor.length)
  let descriptor ← parsed (DeviceDescriptor.parse bytes)
  let head ← control target (.getDescriptor DescriptorType.configuration 0 9)
  let total ← parsed (Configuration.totalLength head)
  let whole ← control target (.getDescriptor DescriptorType.configuration 0 total)
  let configuration ← parsed (Configuration.parse whole)
  let _ ← control target (.setConfiguration configuration.value)
  let hub ← hubOf deeper target descriptor configuration
  return { address, speed := default.speed, translator := default.translator, descriptor
           configuration, hub }

/-- Gives the address back if the device couldn't be enumerated: its port is disabled, so nothing
answers there any more.
-/
def orFree (address : Nat) (attempt : Fallible E (Device E)) : Fallible E (Device E) :=
  ExceptT.mk do
    let result ← attempt.run
    match result with
    | .ok device => return .ok device
    | .error error =>
      modify (fun addresses => addresses.mark address false)
      return .error error

theorem tries_orFree {ok : Device E → Addresses → World → Prop} {address : Nat}
    {attempt : Fallible E (Device E)}
    (tries
      : Tries setting ok (fun error after world => fails error (after.mark address false) world)
          attempt addresses world)
    : Tries setting ok fails (orFree address attempt) addresses world := by
  refine ensures_tried (tries.mono ?_ ?_)
  · exact fun device after world holds => ensures_pure holds
  · exact fun error after world holds => ensures_bind (ensures_modify (ensures_pure holds))

/-- Enumerates the device answering at address 0. -/
def deviceWith (deeper : Deeper E) (speed : Speed) (translator : Option Translator)
    : Fallible E (Device E) := do
  -- Packets of 8 always work for the first 8 bytes, which say how big they may be.
  let default : Target := { address := 0, maxPacket := 8, speed, translator }
  let bytes ← control default (.getDescriptor DescriptorType.device 0 8)
  let maxPacket ← parsed (DeviceDescriptor.maxPacketSizeOf bytes)
  let address ← takeAddress
  orFree address (addressedWith deeper { default with maxPacket } address)

/-- How devices are enumerated with so many levels of hubs to go. -/
def descend : Nat → Deeper E
  | 0 => none
  | levels + 1 => some (deviceWith (descend levels))

/-- What is on a port of a hub that is `depth` hubs below the root. -/
def port (hub : Target) (number depth : Nat) : Enumerator E (Port (Device E) E) :=
  portWith (descend (maxDepth - 1 - depth)) hub number

/-- The device answering at address 0, `depth` hubs below the root. -/
def device (speed : Speed) (translator : Option Translator) (depth : Nat)
    : Fallible E (Device E) :=
  deviceWith (descend (maxDepth - 1 - depth)) speed translator

/-- Everything on the bus, and the addresses it uses. -/
structure Tree (E : Type) where
  /-- The device on the root port. -/
  root : Device E
  addresses : Addresses

/-- A device that came or went. -/
inductive Change
  /-- Enumerated, with anything behind it. -/
  | added (address : Nat)
  /-- Gone, with anything that was behind it. -/
  | removed (address : Nat)
  deriving DecidableEq, Repr

abbrev BusProgram (E : Type) := Program Request (Except E (List UInt8))

/-- Enumerates the device on the root port, just reset, and everything behind it. -/
def enumerate (speed : Speed) : BusProgram E (Except (Error E) (Tree E)) := do
  let (result, addresses) ← (device speed none 0).run.run .new
  return result.map (fun root => { root, addresses })

def forget : Port (Device E) E → Enumerator E (List Change)
  | .device gone => do
      modify (fun addresses => addresses.free gone)
      return [.removed gone.address]
  | .empty | .failed _ => return []

/-- Enumerates what is on a port now. -/
def attach (hub : Target) (number depth : Nat) (removed : List Change)
    : Enumerator E (Port (Device E) E × List Change) := do
  match ← port hub number depth with
  | .device added => return (.device added, removed ++ [.added added.address])
  | .empty => return (.empty, removed)
  | .failed error => return (.failed error, removed)

/-- A port whose connection has changed. -/
def replug (hub : Target) (number depth : Nat) (before : Port (Device E) E) (status : PortStatus)
    : Enumerator E (Port (Device E) E × List Change) := do
  let _ ← (control hub (.clearPortFeature number PortFeature.connectionChange)).run
  let removed ← forget before
  if status.connected then attach hub number depth removed else return (.empty, removed)

/-- Looks at a port; `unchanged` is what to do if its connection hasn't changed. -/
def pollPort (hub : Target) (number depth : Nat) (before : Port (Device E) E)
    (unchanged : Enumerator E (Port (Device E) E × List Change))
    : Enumerator E (Port (Device E) E × List Change) := do
  match ← (portStatus hub number).run with
  -- A hub that doesn't answer is going away itself: its own port will say so.
  | .error _ => return (before, [])
  | .ok status =>
    if status.connectionChanged then replug hub number depth before status else unchanged

mutual

/-- Looks at a device's ports, if it is a hub, and on down through the hubs on them, for devices that
came or went.
-/
def pollHub (depth : Nat) : Device E → Enumerator E (Device E × List Change)
  | device@{ hub := none, .. } => return (device, [])
  | device@{ hub := some ⟨descriptor, ports⟩, .. } => do
      let (ports, changes) ← pollPorts device.target depth 1 ports
      return ({ device with hub := some ⟨descriptor, ports⟩ }, changes)

def pollPorts (hub : Target) (depth : Nat)
    : Nat → List (Port (Device E) E) → Enumerator E (List (Port (Device E) E) × List Change)
  | _, [] => return ([], [])
  | number, .device child :: rest => do
      let (port, changes) ← pollPort hub number depth (.device child) do
        let (child, changes) ← pollHub (depth + 1) child
        return (.device child, changes)
      let (rest, more) ← pollPorts hub depth (number + 1) rest
      return (port :: rest, changes ++ more)
  | number, .empty :: rest => do
      let (port, changes) ← pollPort hub number depth .empty (return (.empty, []))
      let (rest, more) ← pollPorts hub depth (number + 1) rest
      return (port :: rest, changes ++ more)
  | number, .failed error :: rest => do
      let (port, changes) ← pollPort hub number depth (.failed error) (return (.failed error, []))
      let (rest, more) ← pollPorts hub depth (number + 1) rest
      return (port :: rest, changes ++ more)

end

/-- Looks at every hub's ports for devices that came or went since the last look. -/
def Tree.pollChanges (tree : Tree E) : BusProgram E (Tree E × List Change) := do
  let ((root, changes), addresses) ← (pollHub 0 tree.root).run tree.addresses
  return ({ root, addresses }, changes)

section Session

variable {World : Type}

/-- The trees that enumeration gives and polls leave, each with the bus as it is then. Things may
happen to the bus between polls.
-/
inductive Session (setting : Setting World Request (Except E (List UInt8)))
    (start : World → Prop) (happens : World → World → Prop) (speed : Speed)
    : Tree E → World → Prop
  | enumerated {world after : World} {tree : Tree E} (fresh : start world)
    (gets : (enumerate speed).Gets setting world (.done (.ok tree)) after)
    : Session setting start happens speed tree after
  | polled {world after : World} {tree next : Tree E} {changes : List Change}
    (earlier : Session setting start happens speed tree world)
    (gets : tree.pollChanges.Gets setting world (.done (next, changes)) after)
    : Session setting start happens speed next after
  | passed {world after : World} {tree : Tree E}
    (earlier : Session setting start happens speed tree world) (happened : happens world after)
    : Session setting start happens speed tree after

/-- What enumeration ensures, polls keep and nothing in between breaks holds all the time. Witness:
induction on the session.
-/
theorem Session.invariant {setting : Setting World Request (Except E (List UInt8))}
    {start : World → Prop} {happens : World → World → Prop} {speed : Speed} {tree : Tree E}
    {world : World} {I : Tree E → World → Prop}
    (session : Session setting start happens speed tree world)
    (enumerates
      : ∀ world, start world
          → (enumerate speed).Ensures setting
              (fun result after => ∀ tree, result = .ok tree → I tree after) world)
    (polls
      : ∀ tree world, I tree world
          → tree.pollChanges.Ensures setting (fun result after => I result.1 after) world)
    (kept : ∀ tree world after, I tree world → happens world after → I tree after)
    : I tree world := by
  induction session with
  | enumerated fresh gets => exact (enumerates _ fresh).gets gets _ rfl
  | polled _ gets ih => exact (polls _ _ ih).gets gets
  | passed _ happened ih => exact kept _ _ _ ih happened

end Session

end RustyPi.Usb
