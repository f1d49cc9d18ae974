import RustyPi.Usb.Resets

/-! Whatever devices answer, at most one of them is at address 0. A port's device is there from its
reset until it has answered at an address of its own, or its port is disabled; all others have theirs.
-/

namespace RustyPi.Usb

open RustyPi.Calls

variable {E : Type}

namespace Wires

variable {wires after : Wires} {known : List (Path × Nat)} {port : Path} {tree : Tree E}

----------
-- Enumeration and polls
----------

/-- A device takes the address that it is given, or doesn't. -/
theorem turns_setAddress {default : Target} {address : Nat} (zero : default.address = 0)
    (numbered : Numbered known) (unknown : ∀ path, (path, address) ∉ known)
    (fresh : wires.Fresh known port)
    : Turns bus wires (fun world => world.Loose known port)
        (control default (.setAddress address) : Fallible E (List UInt8)) := by
  intro addresses
  have loose := fresh.loose
  refine tries_still (loose.still numbered) (fun path response after onBus same handles => ?_)
    (fun _ _ => ⟨rfl, loose⟩)
  have here : path = port :=
    loose.path_eq_of_unknown (fun _ member => numbered.nonzero _ member rfl) onBus.here
      (same.trans zero)
  subst here
  have still : after.Loose known path := by
    rcases handles.setAddress_inv with rfl | rfl
    · exact loose
    · refine ⟨loose.accounts.set loose.clear (fun enabled => enabled), loose.clear, ?_, ?_⟩
      · exact .set loose.calm.idle loose.calm.resetNoted loose.calm.sameDevice
      · rw [socket_set_self]
        exact fun _ => unknown
  cases response with
  | ok bytes => exact ⟨rfl, still⟩
  | error error => exact ⟨rfl, still⟩

/-- What is known of the bus. -/
def stages : Stages Wires where
  settled known wires := wires.Accounts none (sites known)
  opened known port wires := wires.Fresh (sites known) port
  greeted known port _ wires := wires.Fresh (sites known) port
  named known place wires := wires.Loose (sites known) place.1
  loose known port wires := wires.Loose (sites known) port
  still := Still
  seen hub address number status wires :=
    wires.Serves hub address → Truthful (wires.socket (hub ++ [number])) status
  fit _ := True
  heard _ _ := True

theorem settled_append (known other : List Place)
    : stages.settled (known ++ other) wires ↔ wires.Accounts none (sites known ++ sites other) :=
  iff_of_eq (congrArg (wires.Accounts none) (sites_append known other))

/-- A port whose connection changed isn't enabled. -/
theorem Accounts.disabled {hub : Path} {address number : Nat} {status : PortStatus}
    (accounts : wires.Accounts none known) (listed : (hub, address) ∈ known)
    (truthful : wires.Serves hub address → Truthful (wires.socket (hub ++ [number])) status)
    (changed : status.connectionChanged = true)
    : (wires.socket (hub ++ [number])).enabled = false := by
  rw [← Bool.not_eq_true]
  intro enabled
  have same := (accounts.calm (hub ++ [number]) nofun).sameDevice enabled
  rw [(truthful (accounts.serves listed enabled)).connectionChanged, same] at changed
  cases changed

/-- What answers at the address given to a loose device is the device. -/
theorem leaves_answers {target : Target} {setup : SetupPacket}
    (numbered : Numbered (known ++ [(port, target.address)])) (loose : wires.Loose known port)
    (plain : (setup.forPort || setup.request == SetupPacket.setAddressRequest) = false)
    : Leaves bus wires (fun _ => wires.Accounts none (known ++ [(port, target.address)]))
        (control target setup : Fallible E (List UInt8)) := by
  intro addresses
  refine tries_still (loose.still numbered.left) (fun path response after onBus same handles => ?_)
    (fun _ _ => ⟨rfl, rfl⟩)
  obtain rfl := loose.path_eq_of_unknown numbered.unknown onBus.here same
  obtain rfl := handles.eq_of_plain plain
  cases response with
  | error error => exact ⟨rfl, rfl⟩
  | ok bytes =>
    have entered := loose.accounts.enter loose.calm
    rw [same] at entered
    exact ⟨⟨rfl, rfl⟩, entered⟩

theorem survey : Survey (E := E) bus stages where
  perm perm accounts := accounts.perm (perm.map _)
  still_of_settled numbered accounts := accounts.still numbered
  still_of_loose numbered loose := loose.still numbered
  loose_of_opened := Fresh.loose
  loose_of_greeted := Fresh.loose
  loose_of_named loose := loose
  fits := ⟨trivial, fun _ _ => trivial, fun _ _ => trivial⟩
  delays ms still := leaves_delay still ms
  asks numbered accounts _ _ plain := leaves_plain (accounts.still numbered) _ plain
  powers _ numbered accounts _ _ :=
    leaves_control (accounts.still numbered) (fun _ _ _ _ _ handles => handles.setPortPower_eq)
  looks _ numbered accounts listed _ := leaves_portStatus numbered (mem_sites listed) accounts
  resets numbered accounts listed _ clear truthful connected :=
    turns_resetPort numbered (mem_sites listed) clear.sites accounts (fun serves =>
      (truthful serves).connected.symm.trans connected)
  disables numbered loose listed _ := turns_clearOff numbered (mem_sites listed) loose (.inl rfl)
  unplugs numbered accounts behind listed _ clear truthful changed := by
    have accounts := (settled_append _ _).mp accounts
    have listed := mem_sites listed
    have disabled := accounts.disabled (List.mem_append_right _ listed) truthful changed
    have behind : ∀ entry ∈ sites _, _ <+: entry.1 := List.forall_mem_map.mpr behind
    exact turns_clearOff numbered.right listed ((accounts.drop behind disabled).loose clear.sites)
      (.inr disabled)
  greets addresses numbered fresh _ _ :=
    (leaves_plain (fresh.loose.still numbered) _ rfl addresses).mono
      (fun _ _ _ same => ⟨⟨same.1.1, same.1.2 ▸ fresh⟩, trivial⟩)
      (fun _ _ _ same => ⟨same.1, same.2 ▸ fresh.loose⟩)
  names numbered fresh zero _ := turns_setAddress zero numbered.left numbered.unknown fresh
  answers numbered loose _ addresses :=
    (leaves_answers numbered loose rfl addresses).mono
      (fun _ _ _ holds => ⟨holds.1, trivial, (settled_append _ _).mpr holds.2⟩) (fun _ _ _ same => same)

----------
-- The bus at all times
----------

def Plugged (before after : Wires) : Prop := ∃ path, Replugged before path after

/-- The bus as it can be at some point while it is enumerated or polled. -/
inductive During (E : Type) (speed : Speed) : Wires → Prop
  | enumerating {wires after : Wires} {later : BusProgram E (Except (Error E) (Tree E))}
    (fresh : wires.JustReset) (gets : (enumerate speed).Gets bus wires later after)
    : During E speed after
  | polling {wires after : Wires} {tree : Tree E} {later : BusProgram E (Tree E × List Change)}
    (session : Session bus JustReset Plugged speed tree wires)
    (gets : tree.pollChanges.Gets bus wires later after)
    : During E speed after

theorem JustReset.fresh (start : wires.JustReset) : wires.Fresh [] [] := by
  obtain ⟨⟨_, default, idle, noted, same⟩, others⟩ := start
  have off (path : Path) (aside : some [] ≠ some path) : (wires.socket path).Off :=
    others path (fun root => aside (congrArg some root.symm))
  refine ⟨⟨?_, nofun, ⟨idle, noted, fun _ => same⟩, fun _ _ => nofun⟩, fun _ => default⟩
  constructor
  case listed =>
    intro path aside enabled
    rw [(off path aside).disabled] at enabled
    cases enabled
  case exact => nofun
  case calm => exact fun path aside => .of_off (off path aside)
  case above =>
    intro path number enabled
    rw [(others (path ++ [number]) (by simp)).disabled] at enabled
    cases enabled

/-- What is replugged isn't enabled until it is reset. -/
theorem Accounts.replugged (accounts : wires.Accounts none known) (plugged : Plugged wires after)
    : after.Accounts none known := by
  obtain ⟨path, replugged⟩ := plugged
  refine accounts.cut (fun port inside => ?_) (fun port inside _ => ?_) replugged.elsewhere
  · by_cases here : port = path
    · rw [here]
      exact replugged.disabled
    · exact (replugged.behind port inside here).disabled
  · by_cases here : port = path
    · rw [here]
      refine ⟨replugged.idle, ?_, ?_⟩
      · rw [replugged.unchanged]
        exact (accounts.calm path nofun).resetNoted
      · rw [replugged.disabled]
        exact nofun
    · exact .of_off (replugged.behind port inside here)

theorem shown_of_session {speed : Speed} (session : Session bus JustReset Plugged speed tree wires)
    : Shown stages tree wires := by
  refine session.invariant (I := Shown stages)
    (fun _ start => (survey.enumerate_shown speed start.fresh).mono ?_)
    (fun _ _ shown => (survey.pollChanges_shown shown).mono (fun _ _ holds => holds.1))
    (fun _ _ _ shown plugged => ?_)
  · rintro _ _ holds tree rfl
    exact holds
  · exact ⟨⟨shown.holds.kept, shown.holds.settled.replugged plugged⟩, shown.fine, shown.direct⟩

theorem safe_of_shown (shown : Shown stages tree wires) : wires.Safe :=
  (shown.holds.settled.still shown.holds.kept.numbered).safe

/-- A bus is safe wherever a program gets that keeps it so. -/
theorem safe_of_gets {Result : Type} {program later : BusProgram E Result}
    {ends : Result → Wires → Prop} (ensures : program.Ensures bus ends wires)
    (safe : ∀ result after, ends result after → after.Safe)
    (gets : program.Gets bus wires later after)
    : after.Safe := by
  have there := ensures.gets gets
  cases later with
  | done result => exact safe result after there
  | call request next => exact there.1

/-- While the bus is enumerated or polled, whatever devices answer and whatever is plugged in or out
between polls, no two enabled devices have address 0; also not as resets finish.
-/
theorem oneDefault_of_during {speed : Speed} (during : During E speed wires)
    : ∀ after, Elapses wires after → after.OneDefault := by
  cases during with
  | enumerating fresh gets =>
    refine safe_of_gets (survey.enumerate_shown speed fresh.fresh) ?_ gets
    rintro (_ | _) after holds
    · exact (holds.still ⟨List.nodup_nil, nofun⟩).safe
    · exact safe_of_shown holds
  | polling session gets =>
    exact safe_of_gets (survey.pollChanges_shown (shown_of_session session))
      (fun _ _ holds => safe_of_shown holds.1) gets

/-- Between polls, whatever was plugged in or out, every enabled device on the bus is in the tree with
its place and its address, and no two of them have the same address.
-/
theorem enabled_of_session {speed : Speed} (session : Session bus JustReset Plugged speed tree wires)
    : (∀ path,
        (wires.socket path).enabled = true
        → (path, (wires.socket path).address) ∈ sites (tree.root.places []))
      ∧ ∀ one other,
          (wires.socket one).enabled = true
          → (wires.socket other).enabled = true
          → (wires.socket one).address = (wires.socket other).address
          → one = other := by
  obtain ⟨kept, settled⟩ := (shown_of_session session).holds
  have listed (path : Path) (enabled : (wires.socket path).enabled = true) :=
    settled.listed path nofun enabled
  refine ⟨listed, fun one other first second same => ?_⟩
  have entry :=
    List.inj_on_of_nodup_map kept.numbered.nodup (listed one first) (listed other second) same
  exact congrArg Prod.fst entry

----------
-- A pretend hub
----------

/-- A hub on the root port, with one port. -/
structure PretendHub where
  address : Nat
  port : Socket
  deriving DecidableEq, Repr

namespace PretendHub

def nothing : Socket :=
  { device := none, enabled := false, address := 0, resetting := none, resetChanged := false
    connectionChanged := false }

def shown (pretend : PretendHub) : Wires :=
  { socket := fun path =>
      if path = [] then
        { nothing with device := some .hub, enabled := true, address := pretend.address }
      else if path = [1] then pretend.port
      else nothing }

/-- The descriptors of a device of a class, as far as they are asked for. -/
def describe (deviceClass : UInt8) (setup : SetupPacket) : List UInt8 :=
  match setup.value >>> 8 with
  | 1 => [18, 1, 0, 2, deviceClass, 0, 0, 64, 0x24, 4, 0x14, 0x25, 0, 1, 0, 0, 0, 1]
  | 2 => [9, 2, 18, 0, 1, 1, 0, 0xE0, 0, 9, 4, 0, 0, 0, deviceClass, 0, 0, 0]
  | _ => [9, 0x29, 1, 0, 0, 50, 0, 0, 0xFF]

/-- The status of a port that isn't being reset. -/
def status (connected enabled resetChanged connectionChanged : Bool) : List UInt8 :=
  [bif connected then (bif enabled then 3 else 1) else (bif enabled then 2 else 0), 0,
    bif connectionChanged then (bif resetChanged then 17 else 1)
    else (bif resetChanged then 16 else 0), 0]

def finish (socket : Socket) : Socket :=
  if socket.resetting.isSome then
    { socket with
      enabled := socket.device.isSome, address := 0, resetting := none, resetChanged := true }
  else socket

/-- What is on the port gives its descriptors, and takes an address. -/
def replyBehind (pretend : PretendHub) (setup : SetupPacket)
    : Except Unit (List UInt8) × PretendHub :=
  if setup = .setAddress setup.value then
    (.ok [], { pretend with port := { pretend.port with address := setup.value } })
  else (.ok (describe 0 setup), pretend)

/-- So does the hub, and it carries out port commands. -/
def reply (pretend : PretendHub) : Request → Option (Except Unit (List UInt8) × PretendHub)
  | .delay _ => some (.ok [], { pretend with port := finish pretend.port })
  | .control target setup =>
    if target.address ≠ pretend.address then
      if pretend.port.enabled = true ∧ pretend.port.device = some .other
          ∧ pretend.port.address = target.address then
        some (pretend.replyBehind setup)
      else none
    else if setup = .setAddress setup.value then
      some (.ok [], { pretend with address := setup.value })
    else if setup.forPort = false then some (.ok (describe 9 setup), pretend)
    else if setup = .getPortStatus 1 ∧ pretend.port.resetting = none then
      let { device, enabled, resetChanged, connectionChanged, .. } := pretend.port
      some (.ok (status device.isSome enabled resetChanged connectionChanged), pretend)
    else if setup = .setPortFeature 1 PortFeature.reset
        ∧ pretend.port.device.isSome = true then
      some (.ok [], { pretend with
        port := { pretend.port with enabled := false, address := 0, resetting := some 0 } })
    else if setup = .setPortFeature 1 PortFeature.power then some (.ok [], pretend)
    else if setup = .clearPortFeature 1 setup.value then
      some (.ok [], { pretend with port := pretend.port.clear setup.value })
    else none

theorem set_port (pretend : PretendHub) (socket : Socket)
    : ({ pretend with port := socket } : PretendHub).shown = pretend.shown.set [1] socket := by
  refine congrArg Wires.mk (funext fun path => ?_)
  by_cases here : path = [1]
  · rw [here]
    rfl
  · dsimp only [shown]
    rw [if_neg here, if_neg here, if_neg here]

theorem set_address (pretend : PretendHub) (address : Nat)
    : ({ pretend with address } : PretendHub).shown
      = pretend.shown.set [] { pretend.shown.socket [] with address } := by
  refine congrArg Wires.mk (funext fun path => ?_)
  by_cases here : path = []
  · rw [here]
    rfl
  · dsimp only [shown]
    rw [if_neg here, if_neg here, if_neg here]

theorem elapses_finish (pretend : PretendHub)
    : Elapses pretend.shown ({ pretend with port := finish pretend.port } : PretendHub).shown := by
  intro path
  rw [set_port]
  by_cases here : path = [1]
  · subst here
    rw [socket_set_self, finish]
    split
    · exact .inr ⟨‹_›, true, by rw [Bool.true_and]; rfl⟩
    · exact .inl rfl
  · exact .inl (socket_set_of_ne here _)

theorem off_behind {port : Path} (pretend : PretendHub) (inside : [1] <+: port) (different : port ≠ [1])
    : (pretend.shown.socket port).Off := by
  have beyond : port ≠ [] := by
    rintro rfl
    cases List.prefix_nil.mp inside
  dsimp only [shown]
  rw [if_neg beyond, if_neg different]
  exact ⟨rfl, rfl, rfl⟩

theorem socket_elsewhere {port : Path} (pretend : PretendHub) (socket : Socket)
    (outside : ¬ [1] <+: port)
    : ({ pretend with port := socket } : PretendHub).shown.socket port = pretend.shown.socket port := by
  have different : port ≠ [1] := fun here => outside (here ▸ List.prefix_rfl)
  rw [set_port, socket_set_of_ne different]

theorem begins_reset (pretend : PretendHub)
    : Begins pretend.shown [1]
        ({ pretend with
          port := { pretend.port with
            enabled := false, address := 0, resetting := some 0 } } : PretendHub).shown :=
  ⟨rfl, fun _ => off_behind _, fun _ => socket_elsewhere pretend _⟩

/-- The device is taken out, and another one is put in. -/
def replug (pretend : PretendHub) : PretendHub :=
  { pretend with
    port := { pretend.port with
      enabled := false, address := 0, resetting := none, connectionChanged := true } }

theorem replugged_replug (pretend : PretendHub)
    : Replugged pretend.shown [1] pretend.replug.shown :=
  ⟨rfl, rfl, rfl, rfl, fun _ => off_behind _, fun _ => socket_elsewhere pretend _⟩

theorem status_bits
    : ∀ connected enabled resetChanged connectionChanged : Bool,
        let found := PortStatus.fromBytes
          ((status connected enabled resetChanged connectionChanged).take 4)
        found.connected = connected ∧ found.enabled = enabled ∧ found.resetting = false
        ∧ found.resetChanged = resetChanged ∧ found.connectionChanged = connectionChanged := by
  decide

theorem onBus_root (pretend : PretendHub) : pretend.shown.OnBus [] := by
  intro above higher
  rw [List.prefix_nil.mp higher]
  rfl

theorem handles_replyBehind {pretend after : PretendHub} {setup : SetupPacket}
    {response : Except Unit (List UInt8)} (other : pretend.port.device = some .other)
    (replied : pretend.replyBehind setup = (response, after))
    : Handles pretend.shown [1] setup response after.shown := by
  unfold replyBehind at replied
  split at replied
  · rename_i addressed
    cases replied
    obtain ⟨value, rfl⟩ : ∃ value, setup = .setAddress value := ⟨_, addressed⟩
    have taken : Handles (E := Unit) pretend.shown [1] (.setAddress value) (.ok [])
        ({ pretend with port := { pretend.port with address := value } } : PretendHub).shown := by
      rw [set_port pretend { pretend.port with address := value }]
      exact .addressed
    exact taken
  · cases replied
    refine .answered (fun hub => ?_)
    cases other.symm.trans hub.1

theorem answers_reply {pretend after : PretendHub} {request : Request}
    {response : Except Unit (List UInt8)} (replied : pretend.reply request = some (response, after))
    : Answers pretend.shown request response after.shown := by
  cases request with
  | delay ms =>
    cases replied
    exact .delayed (elapses_finish pretend)
  | control target setup =>
    unfold reply at replied
    dsimp only at replied
    by_cases other : target.address ≠ pretend.address
    · rw [if_pos other] at replied
      obtain ⟨⟨enabled, device, same⟩, replied⟩ := Option.ite_none_right_eq_some.mp replied
      have handles := handles_replyBehind device (Option.some.inj replied)
      have here : (pretend.shown.socket [1]).address = target.address := same
      refine .taken (.refl _) (fun above higher => ?_) here handles
      rcases List.prefix_cons_iff.mp higher with rfl | ⟨rest, rfl, root⟩
      · rfl
      · rw [List.prefix_nil.mp root]
        exact enabled
    rw [if_neg other] at replied
    split_ifs at replied with addressed plain looked reset power cleared <;> cases replied
    all_goals refine .taken (.refl _) (onBus_root pretend) (not_not.mp other).symm ?_
    · obtain ⟨value, rfl⟩ : ∃ value, setup = .setAddress value := ⟨_, addressed⟩
      have taken : Handles (E := Unit) pretend.shown [] (.setAddress value) (.ok [])
          ({ pretend with address := value } : PretendHub).shown := by
        rw [set_address pretend value]
        exact .addressed
      exact taken
    · exact .answered (fun port => Bool.false_ne_true (plain ▸ port.2))
    · rw [looked.1]
      obtain ⟨connected, enabled, resetting, reset, connection⟩ := status_bits
        pretend.port.device.isSome pretend.port.enabled pretend.port.resetChanged
        pretend.port.connectionChanged
      have idle : pretend.port.resetting.isSome = false := looked.2 ▸ rfl
      exact .status rfl looked.2
        ⟨connected, enabled, resetting.trans idle.symm, reset, connection⟩
    · rw [reset.1]
      exact .reset rfl reset.2 (begins_reset pretend)
    · rw [power]
      exact .powered rfl
    · obtain ⟨feature, rfl⟩ : ∃ feature, setup = .clearPortFeature 1 feature := ⟨_, cleared⟩
      have noted : Handles (E := Unit) pretend.shown [] (.clearPortFeature 1 feature) (.ok [])
          ({ pretend with port := pretend.port.clear feature } : PretendHub).shown := by
        rw [set_port pretend (pretend.port.clear feature)]
        exact .cleared rfl
      exact noted

/-- Before it has been enumerated, with a device on its port. -/
def start : PretendHub :=
  { address := 0, port := { nothing with device := some .other, connectionChanged := true } }

/-- The device was just reset, and the hub has its address. -/
def resetDone : PretendHub :=
  { address := 1, port := { nothing with device := some .other, enabled := true } }

theorem justReset_start : start.shown.JustReset where
  root := ⟨rfl, rfl, rfl, rfl, rfl⟩
  others path beyond := by
    dsimp only [shown]
    rw [if_neg beyond]
    split
    · exact ⟨rfl, rfl, rfl⟩
    · exact ⟨rfl, rfl, rfl⟩

theorem gets_of_served {Result : Type} {program : BusProgram Unit Result} {count : Nat}
    {pretend : PretendHub} {check : BusProgram Unit Result × PretendHub → Bool}
    (executed : (program.serve reply count pretend).any check = true)
    : ∃ later after, program.Gets bus pretend.shown later after.shown ∧ check (later, after) = true :=
  Program.Gets.of_served shown (fun _ _ _ _ => answers_reply) executed

theorem oneDefault_of_resetDone
    : During Unit .high resetDone.shown ∧ (resetDone.shown.socket []).enabled = true
      ∧ (resetDone.shown.socket [1]).enabled = true ∧ (resetDone.shown.socket [1]).address = 0
      ∧ resetDone.shown.OneDefault := by
  have executed : ((enumerate .high).serve reply 17 start).any (fun reached =>
      decide (reached.2 = resetDone)) = true := by
    decide +kernel
  obtain ⟨later, after, gets, reached⟩ := gets_of_served executed
  obtain rfl : after = resetDone := of_decide_eq_true reached
  have during : During Unit .high resetDone.shown := .enumerating justReset_start gets
  exact ⟨during, rfl, rfl, rfl, oneDefault_of_during during _ (.refl _)⟩

/-- The tree that enumeration is done with. -/
def enumerated (later : BusProgram Unit (Except (Error Unit) (Tree Unit))) : Option (Tree Unit) :=
  match later with
  | .done (.ok tree) => some tree
  | _ => none

def polled (later : BusProgram Unit (Tree Unit × List Change)) : Option (Tree Unit) :=
  match later with
  | .done (tree, _) => some tree
  | .call .. => none

/-- Witness: a hub with a device on its port, which is replugged and found by the next poll. -/
theorem enabled_of_hub
    : ∃ (tree : Tree Unit) (wires : Wires),
        Session bus JustReset Plugged .high tree wires
        ∧ (wires.socket [1]).enabled = true
        ∧ ([1], (wires.socket [1]).address) ∈ sites (tree.root.places []) := by
  have executed : ((enumerate .high).serve reply 24 start).any (fun found =>
      (enumerated found.1).any (fun tree => (tree.pollChanges.serve reply 16 found.2.replug).any
        (fun found => decide ((polled found.1).isSome = true ∧ found.2.port.enabled = true)))) = true := by
    decide +kernel
  obtain ⟨later, pretend, gets, executed⟩ := gets_of_served executed
  rcases later with (_ | tree) | _
  · cases executed
  · obtain ⟨later, after, polls, found⟩ := gets_of_served executed
    obtain ⟨done, enabled⟩ := of_decide_eq_true found
    rcases later with ⟨next, changes⟩ | _
    · have session : Session bus JustReset Plugged .high next after.shown :=
        .polled (.passed (.enumerated justReset_start gets) ⟨[1], replugged_replug pretend⟩) polls
      exact ⟨next, after.shown, session, enabled, (enabled_of_session session).1 [1] enabled⟩
    · cases done
  · cases executed

end PretendHub

end Wires

end RustyPi.Usb
