import RustyPi.Usb.Addresses

/-! A bus of hubs and devices, as the answers to control transfers need it. Every port has a path from
the root port. Hubs carry out port commands; apart from that, any device may answer anything, or fail.
-/

namespace RustyPi.Usb

open RustyPi.Calls

inductive Kind
  | hub
  | other
  deriving DecidableEq, Repr

/-- A port of the bus with what is plugged into it. -/
structure Socket where
  device : Option Kind
  enabled : Bool
  /-- The address that the device answers at. -/
  address : Nat
  /-- While its reset is going on, how often it was looked at since that began. -/
  resetting : Option Nat
  resetChanged : Bool
  connectionChanged : Bool
  deriving DecidableEq, Repr

/-- A port that is neither enabled nor being reset, and wasn't. -/
structure Socket.Off (socket : Socket) : Prop where
  disabled : socket.enabled = false
  idle : socket.resetting = none
  unchanged : socket.resetChanged = false

/-- Clearing ENABLE takes the device off the bus; the other features are changes to be noted. -/
def Socket.clear (socket : Socket) (feature : Nat) : Socket :=
  if feature = PortFeature.enable then { socket with enabled := false }
  else if feature = PortFeature.resetChange then { socket with resetChanged := false }
  else if feature = PortFeature.connectionChange then { socket with connectionChanged := false }
  else socket

namespace Socket

variable {socket : Socket} (feature : Nat)

theorem clear_address : (socket.clear feature).address = socket.address := by
  unfold clear
  split_ifs <;> rfl

theorem clear_resetting : (socket.clear feature).resetting = socket.resetting := by
  unfold clear
  split_ifs <;> rfl

variable {feature}

theorem enabled_of_clear (enabled : (socket.clear feature).enabled = true)
    : socket.enabled = true := by
  unfold clear at enabled
  split_ifs at enabled <;> exact enabled

theorem clear_resetChanged (noted : socket.resetChanged = false)
    : (socket.clear feature).resetChanged = false := by
  unfold clear
  split_ifs
  · exact noted
  · rfl
  · exact noted
  · exact noted

end Socket

structure Wires where
  socket : Path → Socket

namespace Wires

variable {E : Type}

/-- A device is on the bus if its port is enabled, and so are those of all hubs above it. -/
def OnBus (wires : Wires) (path : Path) : Prop :=
  ∀ above, above <+: path → (wires.socket above).enabled = true

def IsHub (wires : Wires) (path : Path) : Prop := (wires.socket path).device = some .hub

def set (wires : Wires) (path : Path) (socket : Socket) : Wires :=
  { socket := fun other => if other = path then socket else wires.socket other }

/-- At most one enabled device has address 0. -/
def OneDefault (wires : Wires) : Prop :=
  ∀ one other,
    (wires.socket one).enabled = true → (wires.socket other).enabled = true
    → (wires.socket one).address = 0 → (wires.socket other).address = 0 → one = other

/-- A reset is over: the device answers at address 0, if the port could be enabled. -/
def Finished (before after : Socket) : Prop :=
  before.resetting.isSome = true
  ∧ ∃ enabled, after = { before with
      enabled := enabled && before.device.isSome
      address := 0
      resetting := none
      resetChanged := true }

/-- Meanwhile, resets may finish. -/
def Elapses (before after : Wires) : Prop :=
  ∀ path, after.socket path = before.socket path
    ∨ Finished (before.socket path) (after.socket path)

/-- A port begins its reset: the device and everything behind it are off the bus. -/
structure Begins (before : Wires) (path : Path) (after : Wires) : Prop where
  here
    : after.socket path = { before.socket path with
        enabled := false, address := 0, resetting := some 0 }
  behind : ∀ port, path <+: port → port ≠ path → (after.socket port).Off
  elsewhere : ∀ port, ¬path <+: port → after.socket port = before.socket port

/-- The status bits say how a port is. -/
structure Truthful (socket : Socket) (status : PortStatus) : Prop where
  connected : status.connected = socket.device.isSome
  enabled : status.enabled = socket.enabled
  resetting : status.resetting = socket.resetting.isSome
  resetChanged : status.resetChanged = socket.resetChanged
  connectionChanged : status.connectionChanged = socket.connectionChanged

/-- How often a reset is looked at before that times out. -/
def looksInTime : Nat := resetTimeoutMs / resetPollMs

/-- How the device at a path takes a request. -/
inductive Handles (wires : Wires) (path : Path)
    : SetupPacket → Except E (List UInt8) → Wires → Prop
  /-- Anything may be the answer to what isn't for a port of a hub. -/
  | answered {setup : SetupPacket} {response : Except E (List UInt8)}
    (plain : ¬(wires.IsHub path ∧ setup.forPort = true))
    : Handles wires path setup response wires
  /-- The device takes the address, whether or not it says so. -/
  | addressed {address : Nat} {response : Except E (List UInt8)}
    : Handles wires path (.setAddress address) response
        (wires.set path { wires.socket path with address })
  | status {port : Nat} {bytes : List UInt8} (hub : wires.IsHub path)
    (idle : (wires.socket (path ++ [port])).resetting = none)
    (truthful : Truthful (wires.socket (path ++ [port])) (.fromBytes (bytes.take 4)))
    : Handles wires path (.getPortStatus port) (.ok bytes) wires
  /-- A reset finishes before its port is polled out of time. -/
  | looked {port looks : Nat} {bytes : List UInt8} (hub : wires.IsHub path)
    (going : (wires.socket (path ++ [port])).resetting = some looks)
    (inTime : looks + 1 < looksInTime)
    (truthful : Truthful (wires.socket (path ++ [port])) (.fromBytes (bytes.take 4)))
    : Handles wires path (.getPortStatus port) (.ok bytes)
        (wires.set (path ++ [port])
          { wires.socket (path ++ [port]) with resetting := some (looks + 1) })
  | reset {port : Nat} {bytes : List UInt8} {after : Wires} (hub : wires.IsHub path)
    (occupied : (wires.socket (path ++ [port])).device.isSome = true)
    (begins : Begins wires (path ++ [port]) after)
    : Handles wires path (.setPortFeature port PortFeature.reset) (.ok bytes) after
  | unreset {port : Nat} {bytes : List UInt8} (hub : wires.IsHub path)
    (vacant : (wires.socket (path ++ [port])).device = none)
    : Handles wires path (.setPortFeature port PortFeature.reset) (.ok bytes) wires
  | powered {port : Nat} {bytes : List UInt8} (hub : wires.IsHub path)
    : Handles wires path (.setPortFeature port PortFeature.power) (.ok bytes) wires
  | cleared {port feature : Nat} {bytes : List UInt8} (hub : wires.IsHub path)
    : Handles wires path (.clearPortFeature port feature) (.ok bytes)
        (wires.set (path ++ [port]) ((wires.socket (path ++ [port])).clear feature))

/-- How the bus answers: a device at the address takes the request, or there is none. -/
inductive Answers (wires : Wires) : Request → Except E (List UInt8) → Wires → Prop
  | delayed {ms : Nat} {response : Except E (List UInt8)} {after : Wires}
    (elapses : Elapses wires after)
    : Answers wires (.delay ms) response after
  | taken {target : Target} {setup : SetupPacket} {response : Except E (List UInt8)}
    {between after : Wires} {path : Path} (elapses : Elapses wires between)
    (onBus : between.OnBus path) (same : (between.socket path).address = target.address)
    (handles : Handles between path setup response after)
    : Answers wires (.control target setup) response after
  | nobody {target : Target} {setup : SetupPacket} {error : E} {after : Wires}
    (elapses : Elapses wires after)
    (absent : ∀ path, after.OnBus path → (after.socket path).address ≠ target.address)
    : Answers wires (.control target setup) (.error error) after

/-- At most one enabled device has address 0, also as resets finish. -/
def Safe (wires : Wires) : Prop := ∀ after, Elapses wires after → after.OneDefault

/-- The bus, which is to be safe whenever it is asked something. -/
def bus : Setting Wires Request (Except E (List UInt8)) where
  allowed wires _ := wires.Safe
  answers := Answers

/-- What is on a port is taken out, and perhaps something else is plugged in. -/
structure Replugged (before : Wires) (path : Path) (after : Wires) : Prop where
  disabled : (after.socket path).enabled = false
  idle : (after.socket path).resetting = none
  unchanged : (after.socket path).resetChanged = (before.socket path).resetChanged
  changed : (after.socket path).connectionChanged = true
  behind : ∀ port, path <+: port → port ≠ path → (after.socket port).Off
  elsewhere : ∀ port, ¬path <+: port → after.socket port = before.socket port

/-- Only the root port has been reset. -/
structure JustReset (wires : Wires) : Prop where
  root
    : (wires.socket []).enabled = true ∧ (wires.socket []).address = 0
      ∧ (wires.socket []).resetting = none ∧ (wires.socket []).resetChanged = false
      ∧ (wires.socket []).connectionChanged = false
  others : ∀ path, path ≠ [] → (wires.socket path).Off

variable {wires : Wires} {path : Path}

theorem OnBus.here (onBus : wires.OnBus path) : (wires.socket path).enabled = true :=
  onBus path List.prefix_rfl

@[simp] theorem socket_set_self (wires : Wires) (path : Path) (socket : Socket)
    : (wires.set path socket).socket path = socket :=
  if_pos rfl

theorem socket_set_of_ne {other : Path} (different : other ≠ path) (socket : Socket)
    : (wires.set path socket).socket other = wires.socket other :=
  if_neg different

theorem Elapses.refl (wires : Wires) : Elapses wires wires := fun _ => .inl rfl

variable {after : Wires} {response : Except E (List UInt8)} {port : Nat}

theorem Elapses.socket_eq (elapses : Elapses wires after)
    (idle : (wires.socket path).resetting = none)
    : after.socket path = wires.socket path := by
  rcases elapses path with same | ⟨going, _⟩
  · exact same
  · rw [idle] at going
    cases going

theorem Elapses.eq (elapses : Elapses wires after)
    (idle : ∀ path, (wires.socket path).resetting = none)
    : after = wires := by
  obtain ⟨sockets⟩ := after
  exact congrArg Wires.mk (funext fun path => elapses.socket_eq (idle path))

theorem Handles.eq_of_plain {setup : SetupPacket}
    (handles : Handles wires path setup response after)
    (plain : (setup.forPort || setup.request == SetupPacket.setAddressRequest) = false)
    : after = wires := by
  cases handles with
  | answered => rfl
  | addressed | status | looked | reset | unreset | powered | cleared => cases plain

theorem Handles.eq_of_other {setup : SetupPacket}
    (handles : Handles wires path setup response after) (other : ¬wires.IsHub path)
    (command : setup.forPort = true)
    : after = wires := by
  cases handles with
  | answered => rfl
  | addressed => cases command
  | status hub | looked hub | reset hub | unreset hub | powered hub | cleared hub =>
    exact absurd hub other

theorem Handles.setAddress_inv {address : Nat}
    (handles : Handles wires path (.setAddress address) response after)
    : after = wires ∨ after = wires.set path { wires.socket path with address } := by
  generalize asked : SetupPacket.setAddress address = setup at handles
  cases handles <;> cases asked
  · exact .inl rfl
  · exact .inr rfl

/-- What a hub says of a port, which may be still being reset. -/
theorem Handles.getPortStatus_inv
    (handles : Handles wires path (.getPortStatus port) response after) (hub : wires.IsHub path)
    : ∃ bytes, response = .ok bytes
        ∧ Truthful (wires.socket (path ++ [port])) (.fromBytes (bytes.take 4))
        ∧ ((wires.socket (path ++ [port])).resetting = none ∧ after = wires
          ∨ ∃ looks, (wires.socket (path ++ [port])).resetting = some looks
              ∧ looks + 1 < looksInTime
              ∧ after = wires.set (path ++ [port])
                  { wires.socket (path ++ [port]) with resetting := some (looks + 1) }) := by
  generalize asked : SetupPacket.getPortStatus port = setup at handles
  cases handles with
  | answered plain => exact absurd ⟨hub, asked ▸ rfl⟩ plain
  | status _ idle truthful =>
    cases asked
    exact ⟨_, rfl, truthful, .inl ⟨idle, rfl⟩⟩
  | looked _ going inTime truthful =>
    cases asked
    exact ⟨_, rfl, truthful, .inr ⟨_, going, inTime, rfl⟩⟩
  | addressed | reset | unreset | powered | cleared => cases asked

theorem Handles.setPortReset_inv
    (handles : Handles wires path (.setPortFeature port PortFeature.reset) response after)
    (hub : wires.IsHub path) (occupied : (wires.socket (path ++ [port])).device.isSome = true)
    : ∃ bytes, response = .ok bytes ∧ Begins wires (path ++ [port]) after := by
  generalize asked : SetupPacket.setPortFeature port PortFeature.reset = setup at handles
  cases handles with
  | answered plain => exact absurd ⟨hub, asked ▸ rfl⟩ plain
  | reset _ _ begins =>
    cases asked
    exact ⟨_, rfl, begins⟩
  | unreset _ vacant =>
    cases asked
    rw [vacant] at occupied
    cases occupied
  | addressed | status | looked | powered | cleared => cases asked

theorem Handles.setPortPower_eq
    (handles : Handles wires path (.setPortFeature port PortFeature.power) response after)
    : after = wires := by
  generalize asked : SetupPacket.setPortFeature port PortFeature.power = setup at handles
  cases handles with
  | answered | powered => rfl
  | addressed | status | looked | reset | unreset | cleared => cases asked

theorem Handles.clearPortFeature_inv {feature : Nat}
    (handles : Handles wires path (.clearPortFeature port feature) response after)
    (hub : wires.IsHub path)
    : ∃ bytes, response = .ok bytes
        ∧ after
          = wires.set (path ++ [port]) ((wires.socket (path ++ [port])).clear feature) := by
  generalize asked : SetupPacket.clearPortFeature port feature = setup at handles
  cases handles with
  | answered plain => exact absurd ⟨hub, asked ▸ rfl⟩ plain
  | cleared =>
    cases asked
    exact ⟨_, rfl, rfl⟩
  | addressed | status | looked | reset | unreset | powered => cases asked

end Wires

end RustyPi.Usb
