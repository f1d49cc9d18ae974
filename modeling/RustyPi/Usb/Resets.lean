import RustyPi.Usb.Enabled
import RustyPi.Usb.Rounds

/-! What looking at a port, resetting it and disabling it do to the bus. A hub that serves carries the
commands out; what isn't a hub, or isn't there, changes nothing.
-/

namespace RustyPi.Usb

open RustyPi.Calls

variable {E : Type}

namespace Wires

variable {wires after : Wires} {known : List (Path × Nat)} {port : Path}

section Leaves

variable {α β : Type} {addresses : Addresses}

variable {target : Target} {setup : SetupPacket} {attempt : Fallible E α}

theorem tries_still {ok : List UInt8 → Addresses → Wires → Prop}
    {fails : Error E → Addresses → Wires → Prop} (still : wires.Still)
    (taken
      : ∀ path response after, wires.OnBus path
          → (wires.socket path).address = target.address
          → Handles wires path setup response after
          → outcome ok fails (received setup response) addresses after)
    (nobody
      : ∀ error, (∀ path, wires.OnBus path → (wires.socket path).address ≠ target.address)
          → fails (.bus error) addresses wires)
    : Tries bus ok fails (control target setup) addresses wires := by
  refine tries_control still.safe (fun response after answers => ?_)
  cases answers with
  | taken elapses onBus same handles =>
    cases still.eq elapses
    exact taken _ response after onBus same handles
  | nobody elapses absent =>
    cases still.eq elapses
    exact nobody _ absent

theorem leaves_delay (still : wires.Still) (ms : Nat)
    : Leaves bus wires (fun _ => True) (delayMs ms : Fallible E Unit) := by
  refine fun addresses => tries_delay still.safe (fun response after answers => ?_)
  cases answers with
  | delayed elapses => exact ⟨⟨rfl, still.eq elapses⟩, trivial⟩

theorem leaves_control (still : wires.Still)
    (kept
      : ∀ path (response : Except E (List UInt8)) after, wires.OnBus path
          → (wires.socket path).address = target.address
          → Handles wires path setup response after → after = wires)
    : Leaves bus wires (fun _ => True) (control target setup : Fallible E (List UInt8)) := by
  refine fun addresses => tries_still still (fun path response after onBus same handles => ?_)
    (fun _ _ => ⟨rfl, rfl⟩)
  have unchanged := kept path response after onBus same handles
  cases response with
  | ok bytes => exact ⟨⟨rfl, unchanged⟩, trivial⟩
  | error error => exact ⟨rfl, unchanged⟩

theorem leaves_plain (still : wires.Still) (target : Target)
    (plain : (setup.forPort || setup.request == SetupPacket.setAddressRequest) = false)
    : Leaves bus wires (fun _ => True) (control target setup : Fallible E (List UInt8)) :=
  leaves_control still (fun _ _ _ _ _ handles => handles.eq_of_plain plain)

/-- A port command to what isn't a hub, or isn't there. -/
theorem leaves_unserved {hub : Path} (accounts : wires.Accounts none known)
    (numbered : Numbered known) (listed : (hub, target.address) ∈ known)
    (unserved : ¬wires.Serves hub target.address) (command : setup.forPort = true)
    : Leaves bus wires (fun _ => True) (control target setup : Fallible E (List UInt8)) := by
  refine leaves_control (accounts.still numbered) ?_
  intro path response after onBus same handles
  have here : path = hub :=
    numbered.path_eq (same ▸ accounts.listed path nofun onBus.here) listed
  subst here
  exact handles.eq_of_other (fun isHub => unserved ⟨onBus.here, isHub, same⟩) command

theorem portsKeep_unserved {hub : Path} (accounts : wires.Accounts none known)
    (numbered : Numbered known) (listed : (hub, target.address) ∈ known)
    (unserved : ¬wires.Serves hub target.address) (addresses : Addresses)
    : PortsKeep (E := E) bus (fun later world => later = addresses ∧ world = wires) target where
  asks _ command := (leaves_unserved accounts numbered listed unserved command).keeps addresses
  delays ms := (leaves_delay (accounts.still numbered) ms).keeps addresses

end Leaves

/-- A hub that serves, with a port aside whose device is to answer at address 0. -/
structure Held (wires : Wires) (known : List (Path × Nat)) (hub : Path) (address number : Nat)
    : Prop where
  accounts : wires.Accounts (some (hub ++ [number])) known
  serves : wires.Serves hub address
  default
    : (wires.socket (hub ++ [number])).enabled = true
        → (wires.socket (hub ++ [number])).address = 0

/-- Its reset, looked at so often, is going on or is over. -/
def Awaited (wires : Wires) (port : Path) (looks : Nat) : Prop :=
  (wires.socket port).resetting = some looks ∧ (wires.socket port).resetChanged = false
  ∨ (wires.socket port).resetting = none ∧ (wires.socket port).resetChanged = true

section Reset

variable {addresses : Addresses} {hub : Path} {target : Target} {number : Nat}

variable {address feature : Nat} {ok : List UInt8 → Addresses → Wires → Prop}
variable {fails : Error E → Addresses → Wires → Prop}

theorem Serves.of_eq (serves : wires.Serves hub address)
    (same : after.socket hub = wires.socket hub)
    : after.Serves hub address := by
  obtain ⟨enabled, isHub, address⟩ := serves
  unfold IsHub at isHub
  rw [← same] at enabled isHub address
  exact ⟨enabled, isHub, address⟩

theorem hub_ne (hub : Path) (number : Nat) : hub ≠ hub ++ [number] := by
  simp

theorem Held.set (held : wires.Held known hub address number)
    (clear : Clear known (hub ++ [number])) {socket : Socket}
    (less : socket.enabled = true → (wires.socket (hub ++ [number])).enabled = true)
    (same : socket.address = (wires.socket (hub ++ [number])).address)
    : (wires.set (hub ++ [number]) socket).Held known hub address number where
  accounts := held.accounts.set clear less
  serves := held.serves.of_eq (socket_set_of_ne (hub_ne hub number) socket)
  default := by
    rw [socket_set_self, same]
    exact fun enabled => held.default (less enabled)

/-- A reset may finish meanwhile. -/
theorem Held.elapses {looks : Nat} (held : wires.Held known hub address number)
    (clear : Clear known (hub ++ [number])) (awaited : wires.Awaited (hub ++ [number]) looks)
    (elapses : Elapses wires after)
    : after.Held known hub address number ∧ after.Awaited (hub ++ [number]) looks := by
  have only (path : Path) (different : path ≠ hub ++ [number])
      : after.socket path = wires.socket path :=
    elapses.socket_eq
      (held.accounts.calm path (fun same => different (Option.some.inj same).symm)).idle
  have accounts : after.Accounts (some (hub ++ [number])) known := by
    refine held.accounts.only clear only (fun path other same _ => ?_)
    obtain ⟨rfl, _⟩ := List.append_inj' same rfl
    exact ⟨held.serves.enabled, held.serves.isHub⟩
  have serves := held.serves.of_eq (only hub (hub_ne hub number))
  rcases elapses (hub ++ [number]) with same | ⟨_, _, finished⟩
  · refine ⟨⟨accounts, serves, ?_⟩, ?_⟩
    · rw [same]
      exact held.default
    · unfold Awaited
      rw [same]
      exact awaited
  · refine ⟨⟨accounts, serves, fun _ => ?_⟩, .inr ⟨?_, ?_⟩⟩ <;> rw [finished]

theorem Held.eq (held : wires.Held known hub address number)
    (idle : (wires.socket (hub ++ [number])).resetting = none) (elapses : Elapses wires after)
    : after = wires := by
  refine elapses.eq (fun path => ?_)
  by_cases same : some (hub ++ [number]) = some path
  · cases same
    exact idle
  · exact (held.accounts.calm path same).idle

theorem Held.clear (held : wires.Held known hub address number)
    (clear : Clear known (hub ++ [number])) (feature : Nat)
    : (wires.set (hub ++ [number]) ((wires.socket (hub ++ [number])).clear feature)).Held known hub
        address number :=
  held.set clear Socket.enabled_of_clear (Socket.clear_address feature)

theorem clear_idle (idle : (wires.socket port).resetting = none) (feature : Nat)
    : ((wires.set port ((wires.socket port).clear feature)).socket port).resetting = none := by
  rw [socket_set_self, Socket.clear_resetting]
  exact idle

theorem Begins.held (begins : Begins wires (hub ++ [number]) after)
    (accounts : wires.Accounts none known) (serves : wires.Serves hub address)
    : after.Held known hub address number ∧ after.Awaited (hub ++ [number]) 0 := by
  have cut : after.Accounts (some (hub ++ [number])) known := by
    refine accounts.cut (fun path inside => ?_) (fun path inside other => ?_) begins.elsewhere
    · by_cases here : path = hub ++ [number]
      · rw [here, begins.here]
      · exact (begins.behind path inside here).disabled
    · exact .of_off (begins.behind path inside (fun same => other (congrArg some same.symm)))
  have outside : ¬hub ++ [number] <+: hub := fun inside =>
    hub_ne hub number ((List.prefix_append hub [number]).eq_of_length_le inside.length_le)
  refine ⟨⟨cut, serves.of_eq (begins.elsewhere hub outside), fun _ => ?_⟩, .inl ⟨?_, ?_⟩⟩
  · rw [begins.here]
  · rw [begins.here]
  · rw [begins.here]
    exact (accounts.calm _ nofun).resetNoted

/-- The port of a loose device that answers at address 0, if it is enabled. -/
structure Fresh (wires : Wires) (known : List (Path × Nat)) (port : Path) : Prop where
  loose : wires.Loose known port
  default : (wires.socket port).enabled = true → (wires.socket port).address = 0

theorem Held.fresh (held : wires.Held known hub address number) (numbered : Numbered known)
    (clear : Clear known (hub ++ [number])) (calm : wires.Calm (hub ++ [number]))
    : wires.Fresh known (hub ++ [number]) := by
  refine ⟨⟨held.accounts, clear, calm, fun enabled path listed => ?_⟩, held.default⟩
  rw [held.default enabled] at listed
  exact numbered.nonzero _ listed rfl

/-- A port of a hub that doesn't serve has nothing on it. -/
theorem Accounts.fresh (accounts : wires.Accounts none known) (clear : Clear known port)
    : wires.Fresh known port := by
  refine ⟨accounts.loose clear, fun enabled => ?_⟩
  exact absurd List.prefix_rfl (clear _ (accounts.listed port nofun enabled))

theorem clear_disabled {socket : Socket}
    (off : feature = PortFeature.enable ∨ socket.enabled = false)
    : (socket.clear feature).enabled = false := by
  rcases off with rfl | off
  · rfl
  · rw [← Bool.not_eq_true] at off ⊢
    exact fun enabled => off (Socket.enabled_of_clear enabled)

section Commands

variable (numbered : Numbered known) (listed : (hub, target.address) ∈ known)
include numbered listed

/-- A command to a hub is carried out by it. -/
theorem tries_held {setup : SetupPacket} {P : Wires → Prop}
    (elapsed
      : ∀ between, Elapses wires between
          → between.Held known hub target.address number ∧ P between)
    (holds
      : ∀ between response after, between.Held known hub target.address number → P between
          → Handles between hub setup response after
          → outcome ok fails (received setup response) addresses after)
    : Tries bus ok fails (control target setup) addresses wires := by
  have safe : wires.Safe := fun between elapses =>
    (elapsed between elapses).1.accounts.oneDefault numbered
  refine tries_control safe (fun response after answers => ?_)
  cases answers with
  | @taken _ _ _ between _ path elapses onBus same handles =>
    obtain ⟨held, phase⟩ := elapsed between elapses
    have different : some (hub ++ [number]) ≠ some path := by
      rintro aside
      cases aside
      exact numbered.nonzero _ listed (same.symm.trans (held.default onBus.here))
    have here : path = hub :=
      numbered.path_eq (same ▸ held.accounts.listed path different onBus.here) listed
    subst here
    exact holds between response after held phase handles
  | nobody elapses absent =>
    obtain ⟨held, _⟩ := elapsed after elapses
    exact absurd held.serves.same (absent hub (held.accounts.onBus held.serves.enabled))

/-- The reset is over before it was looked at too often, by induction on the looks left. -/
theorem tries_awaitReset (clear : Clear known (hub ++ [number])) {looks left : Nat}
    (sum : looks + left = looksInTime) (inTime : looks < looksInTime)
    (held : wires.Held known hub target.address number)
    (awaited : wires.Awaited (hub ++ [number]) looks)
    : Tries bus
        (fun _ later world =>
          later = addresses ∧ world.Held known hub target.address number
          ∧ (world.socket (hub ++ [number])).resetting = none)
        (fun _ _ _ => False)
        (awaitReset target number left : Fallible E PortStatus) addresses wires := by
  induction left generalizing looks wires with
  | zero => omega
  | succ left ih =>
    have safe : wires.Safe := fun between elapses =>
      (held.elapses clear awaited elapses).1.accounts.oneDefault numbered
    refine tries_bind (tries_delay safe (fun _ later answers => ?_))
    cases answers with
    | delayed elapses =>
      obtain ⟨held, awaited⟩ := held.elapses clear awaited elapses
      refine tries_bind (tries_bind (tries_held numbered listed
        (fun between elapses => held.elapses clear awaited elapses) ?_))
      intro between response after held awaited handles
      obtain ⟨bytes, rfl, truthful, found⟩ := handles.getPortStatus_inv held.serves.isHub
      apply tries_pure
      rw [show (SetupPacket.getPortStatus number).length = 4 from rfl]
      rcases found with ⟨idle, rfl⟩ | ⟨seen, going, inTime, rfl⟩
      · -- Over, so its change is there to be seen.
        rcases awaited with ⟨going, _⟩ | ⟨_, changed⟩
        · rw [idle] at going
          cases going
        · rw [truthful.resetChanged, changed, Bool.true_or, if_pos rfl]
          exact tries_pure ⟨rfl, held, idle⟩
      · rcases awaited with ⟨looked, unchanged⟩ | ⟨idle, _⟩
        · rw [truthful.resetChanged, unchanged, truthful.resetting, going, Option.isSome_some,
            Bool.not_true, Bool.false_and, Bool.or_false, if_neg Bool.false_ne_true]
          rw [going] at looked
          cases looked
          refine ih (by omega) inTime (held.set clear (fun enabled => enabled) rfl)
            (.inl ?_)
          rw [socket_set_self]
          exact ⟨rfl, unchanged⟩
        · rw [going] at idle
          cases idle

theorem tries_idle {setup : SetupPacket} (held : wires.Held known hub target.address number)
    (idle : (wires.socket (hub ++ [number])).resetting = none)
    (holds
      : ∀ response after, Handles wires hub setup response after
          → outcome ok fails (received setup response) addresses after)
    : Tries bus ok fails (control target setup) addresses wires := by
  have elapsed (between : Wires) (elapses : Elapses wires between)
      : between.Held known hub target.address number ∧ between = wires := by
    cases held.eq idle elapses
    exact ⟨held, rfl⟩
  refine tries_held numbered listed elapsed ?_
  rintro between response after _ rfl handles
  exact holds response after handles

theorem tries_clear (held : wires.Held known hub target.address number)
    (idle : (wires.socket (hub ++ [number])).resetting = none)
    (holds
      : ∀ bytes, ok bytes addresses
          (wires.set (hub ++ [number]) ((wires.socket (hub ++ [number])).clear feature)))
    : Tries bus ok fails (control target (.clearPortFeature number feature)) addresses wires := by
  refine tries_idle numbered listed held idle (fun response after handles => ?_)
  obtain ⟨bytes, rfl, rfl⟩ := handles.clearPortFeature_inv held.serves.isHub
  exact holds _

theorem turns_resetPort (clear : Clear known (hub ++ [number]))
    (accounts : wires.Accounts none known)
    (occupied
      : wires.Serves hub target.address
          → (wires.socket (hub ++ [number])).device.isSome = true)
    : Turns bus wires (fun world => world.Fresh known (hub ++ [number]))
        (resetPort target number : Fallible E Speed) := by
  intro addresses
  by_cases serves : wires.Serves hub target.address
  · have idle := (accounts.calm (hub ++ [number]) nofun).idle
    have held : wires.Held known hub target.address number :=
      ⟨accounts.putAside _, serves, (accounts.fresh clear).default⟩
    refine tries_bind (tries_idle numbered listed held idle (fun response between handles => ?_))
    obtain ⟨bytes, rfl, begins⟩ := handles.setPortReset_inv serves.isHub (occupied serves)
    obtain ⟨held, awaited⟩ := begins.held accounts serves
    refine tries_bind ((tries_awaitReset numbered listed clear (Nat.zero_add _) (by decide) held
      awaited).mono ?_ (fun _ _ _ impossible => impossible.elim))
    rintro status _ between ⟨rfl, held, idle⟩
    refine tries_bind (tries_clear numbered listed held idle (fun _ => ?_))
    have noted := held.clear clear PortFeature.resetChange
    have idle := clear_idle idle PortFeature.resetChange
    refine tries_bind (tries_clear numbered listed noted idle (fun _ => ?_))
    have fresh := (noted.clear clear PortFeature.connectionChange).fresh numbered clear
      (.set ((Socket.clear_resetting ..).trans idle)
        (Socket.clear_resetChanged (by rw [socket_set_self]; rfl)) (fun _ => rfl))
    refine (leaves_delay (fresh.loose.still numbered) _).then (fun _ => ⟨rfl, fresh⟩)
      (fun _ _ => ?_)
    split
    · exact tries_pure ⟨rfl, fresh⟩
    · exact tries_throw ⟨rfl, fresh⟩
  · have leaves : Leaves bus wires (fun _ => True) (resetPort target number : Fallible E Speed) :=
      leaves_of_keeps (fun addresses =>
        (portsKeep_unserved accounts numbered listed serves addresses).resetPort number)
    exact leaves.turns (accounts.fresh clear) addresses

/-- A look at a port changes nothing, and shows what is there if the hub serves. -/
theorem leaves_portStatus
    (accounts : wires.Accounts none known)
    : Leaves bus wires
        (fun status =>
          wires.Serves hub target.address → Truthful (wires.socket (hub ++ [number])) status)
        (portStatus target number : Fallible E PortStatus) := by
  intro addresses
  by_cases serves : wires.Serves hub target.address
  · have idle := (accounts.calm (hub ++ [number]) nofun).idle
    refine tries_bind (tries_still (accounts.still numbered)
      (fun path response after onBus same handles => ?_) (fun _ _ => ⟨rfl, rfl⟩))
    have here : path = hub :=
      numbered.path_eq (same ▸ accounts.listed path nofun onBus.here) listed
    subst here
    obtain ⟨bytes, rfl, truthful, found⟩ := handles.getPortStatus_inv serves.isHub
    rcases found with ⟨_, rfl⟩ | ⟨looks, going, _⟩
    · exact tries_pure ⟨⟨rfl, rfl⟩, fun _ => truthful⟩
    · rw [idle] at going
      cases going
  · have leaves : Leaves bus wires (fun _ => True)
        (portStatus target number : Fallible E PortStatus) :=
      leaves_of_keeps (fun addresses =>
        (portsKeep_unserved accounts numbered listed serves addresses).portStatus number)
    exact (leaves addresses).mono (fun _ _ _ same => ⟨same.1, fun served => absurd served serves⟩)
      (fun _ _ _ same => same)

/-- Disabling a port leaves nothing on it; or noting a change of one that is disabled. -/
theorem turns_clearOff (loose : wires.Loose known (hub ++ [number]))
    (off
      : feature = PortFeature.enable ∨ (wires.socket (hub ++ [number])).enabled = false)
    : Turns bus wires (fun world => world.Accounts none known)
        (control target (.clearPortFeature number feature) : Fallible E (List UInt8)) := by
  intro addresses
  by_cases serves : wires.Serves hub target.address
  · refine tries_still (loose.still numbered) ?_ ?_
    · intro path response after onBus same handles
      have here := loose.path_eq numbered listed onBus.here same
      subst here
      obtain ⟨bytes, rfl, rfl⟩ := handles.clearPortFeature_inv serves.isHub
      have disabled := clear_disabled off
      refine ⟨rfl, (loose.accounts.set loose.clear Socket.enabled_of_clear).settle ?_ ?_⟩
      · refine .set ?_ (Socket.clear_resetChanged loose.calm.resetNoted) ?_
        · rw [Socket.clear_resetting]
          exact loose.calm.idle
        · rw [disabled]
          exact nofun
      · rw [socket_set_self]
        exact disabled
    · intro error absent
      exact absurd serves.same (absent hub (loose.accounts.onBus serves.enabled))
  · have disabled : (wires.socket (hub ++ [number])).enabled = false := by
      rw [← Bool.not_eq_true]
      exact fun enabled => serves (loose.accounts.serves listed enabled)
    have accounts := loose.accounts.settle loose.calm disabled
    exact (leaves_unserved accounts numbered listed serves rfl).turns accounts addresses

end Commands

end Reset

end Wires

end RustyPi.Usb
