import RustyPi.Usb.Addresses

/-! Enumeration and polls, from one request to the next: given what each kind of request does to the
bus, what is known of the bus, of the addresses in use and of the devices once they are done. What came
and went is what a poll says.
-/

namespace RustyPi.Usb

open RustyPi.Calls

variable {E World : Type}

----------
-- Changes
----------

/-- Nothing was enumerated on a port. -/
def Port.Vacant : Port (Device E) E → Prop
  | .device _ => False
  | .empty | .failed _ => True

mutual

/-- Two looks at a device and what is behind it, with what came and went in between. -/
inductive Differs : Device E → List Change → Device E → Prop
  | leaf {device : Device E} (noHub : device.hub = none) : Differs device [] device
  | hub {device : Device E} {descriptor : HubDescriptor} {before after : List (Port (Device E) E)}
    {changes : List Change} (isHub : device.hub = some ⟨descriptor, before⟩)
    (ports : PortsDiffer before changes after)
    : Differs device changes { device with hub := some ⟨descriptor, after⟩ }

/-- Port by port, in order. -/
inductive PortsDiffer : List (Port (Device E) E) → List Change → List (Port (Device E) E) → Prop
  | nil : PortsDiffer [] [] []
  | cons {before after changes more rest later} (first : PortDiffers before changes after)
    (others : PortsDiffer rest more later)
    : PortsDiffer (before :: rest) (changes ++ more) (after :: later)

/-- A port has the same device, whose own ports may differ; or one came, went, or both. -/
inductive PortDiffers : Port (Device E) E → List Change → Port (Device E) E → Prop
  | same {before after changes}
    (differs : Differs before changes after)
    : PortDiffers (.device before) changes (.device after)
  | still {before after} (vacant : before.Vacant) (later : after.Vacant)
    : PortDiffers before [] after
  | came {before device} (vacant : before.Vacant)
    : PortDiffers before [.added device.address] (.device device)
  | went {device after} (vacant : after.Vacant)
    : PortDiffers (.device device) [.removed device.address] after
  | swapped {before after}
    : PortDiffers (.device before) [.removed before.address, .added after.address] (.device after)

end

mutual

theorem differs_refl : ∀ device : Device E, Differs device [] device
  | { hub := none, .. } => .leaf rfl
  | { hub := some ⟨_, ports⟩, .. } => .hub rfl (portsDiffer_refl ports)

theorem portsDiffer_refl : ∀ ports : List (Port (Device E) E), PortsDiffer ports [] ports
  | [] => .nil
  | .device device :: rest => .cons (.same (differs_refl device)) (portsDiffer_refl rest)
  | .empty :: rest => .cons (@PortDiffers.still E .empty .empty trivial trivial) (portsDiffer_refl rest)
  | .failed error :: rest =>
    .cons (@PortDiffers.still E (.failed error) (.failed error) trivial trivial)
      (portsDiffer_refl rest)

end

theorem portDiffers_refl (port : Port (Device E) E) : PortDiffers port [] port := by
  cases port with
  | empty | failed => exact .still trivial trivial
  | device device => exact .same (differs_refl device)

/-- What is forgotten, as a beginning of the changes. -/
inductive Forgotten : Port (Device E) E → List Change → Prop
  | vacant {port : Port (Device E) E} (vacant : port.Vacant) : Forgotten port []
  | device (device : Device E) : Forgotten (.device device) [.removed device.address]

variable {before : Port (Device E) E} {removed : List Change}

theorem Forgotten.went {after : Port (Device E) E} (forgotten : Forgotten before removed)
    (vacant : after.Vacant)
    : PortDiffers before removed after := by
  cases forgotten with
  | vacant earlier => exact .still earlier vacant
  | device => exact .went vacant

theorem Forgotten.came (forgotten : Forgotten before removed) (device : Device E)
    : PortDiffers before (removed ++ [.added device.address]) (.device device) := by
  cases forgotten with
  | vacant earlier => exact .came earlier
  | device => exact .swapped

theorem Differs.own {before after : Device E} {changes : List Change}
    (differs : Differs before changes after)
    : after.speed = before.speed ∧ after.translator = before.translator := by
  cases differs with
  | leaf => exact ⟨rfl, rfl⟩
  | hub => exact ⟨rfl, rfl⟩

----------
-- What is known of the devices
----------

mutual

/-- The packet sizes fit, and each device behind a hub has the translator that its port gives it. -/
def Device.Fine (fit : Nat → Prop) : Device E → Prop
  | { descriptor, hub := none, .. } => fit descriptor.maxPacketSize
  | device@{ descriptor, hub := some ⟨_, ports⟩, .. } =>
    fit descriptor.maxPacketSize ∧ portsFine fit (translatorFor device.target) 1 ports

def portsFine (fit : Nat → Prop) (given : Nat → Speed → Option Translator)
    : Nat → List (Port (Device E) E) → Prop
  | _, [] => True
  | number, .device device :: rest =>
    (device.translator = given number device.speed ∧ device.Fine fit)
    ∧ portsFine fit given (number + 1) rest
  | number, .empty :: rest => portsFine fit given (number + 1) rest
  | number, .failed _ :: rest => portsFine fit given (number + 1) rest

end

def Port.Fine (fit : Nat → Prop) (given : Speed → Option Translator) : Port (Device E) E → Prop
  | .device found => found.translator = given found.speed ∧ found.Fine fit
  | .empty | .failed _ => True

theorem portsFine_cons {fit : Nat → Prop} {given : Nat → Speed → Option Translator} {number : Nat}
    {port : Port (Device E) E} {rest : List (Port (Device E) E)}
    : portsFine fit given number (port :: rest)
      ↔ port.Fine fit (given number) ∧ portsFine fit given (number + 1) rest := by
  cases port with
  | empty | failed => exact (iff_of_eq (true_and _)).symm
  | device device => exact Iff.rfl

/-- The addresses in use are those of the devices known, and none is behind too many hubs. -/
structure Kept (addresses : Addresses) (known : List Place) : Prop where
  exactly : Exactly addresses (known.map (fun place => place.2.1))
  shallow : ∀ entry ∈ known, entry.1.length < maxDepth

namespace Kept

variable {addresses : Addresses} {known other : List Place} {path : Path} {address : Nat}
  {translator : Option Translator}

theorem numbered (kept : Kept addresses known) : Numbered (sites known) := by
  have exactly : Exactly addresses ((sites known).map Prod.snd) := by
    rw [sites, List.map_map]
    exact kept.exactly
  exact .of_exactly exactly

theorem perm (kept : Kept addresses known) (perm : known.Perm other) : Kept addresses other :=
  ⟨kept.exactly.perm (perm.map _), fun entry member => kept.shallow entry (perm.mem_iff.mpr member)⟩

theorem take (kept : Kept addresses known) (found : addresses.lowest = some address)
    (shallow : path.length < maxDepth)
    : Kept (addresses.mark address true) (known ++ [(path, address, translator)]) := by
  constructor
  · rw [List.map_append]
    exact kept.exactly.take found
  · intro entry member
    rcases List.mem_append.mp member with earlier | last
    · exact kept.shallow entry earlier
    · rw [List.mem_singleton.mp last]
      exact shallow

theorem giveBack (kept : Kept addresses (known ++ [(path, address, translator)]))
    : Kept (addresses.mark address false) known := by
  refine ⟨Exactly.giveBack (kept.exactly.perm ?_), fun entry member =>
    kept.shallow entry (List.mem_append_left _ member)⟩
  rw [List.map_append]
  exact List.perm_append_comm

end Kept

theorem ensures_forget {setting : Setting World Request (Except E (List UInt8))}
    {addresses : Addresses} {world : World} {known : List Place} {port : Path}
    (kept : Kept addresses (before.places port ++ known))
    : Ensures setting
        (fun removed later after =>
          (Kept later known ∧ Forgotten before removed) ∧ after = world)
        (forget before) addresses world := by
  have shallow (entry : Place) (member : entry ∈ known) :=
    kept.shallow entry (List.mem_append_right _ member)
  have exactly := kept.exactly
  rw [List.map_append, addresses_portPlaces] at exactly
  cases before with
  | empty | failed => exact ensures_pure ⟨⟨⟨exactly, shallow⟩, .vacant trivial⟩, rfl⟩
  | device gone =>
    rw [addresses_single] at exactly
    refine ensures_bind (ensures_modify (ensures_pure ?_))
    exact ⟨⟨⟨exactly.free, shallow⟩, .device gone⟩, rfl⟩

----------
-- What requests do
----------

/-- Leaves the addresses and the bus as they are, and gives something good if it succeeds. -/
def Leaves {α : Type} (setting : Setting World Request (Except E (List UInt8))) (world : World)
    (good : α → Prop) (attempt : Fallible E α)
    : Prop :=
  ∀ addresses,
    Tries setting (fun value later after => (later = addresses ∧ after = world) ∧ good value)
      (fun _ later after => later = addresses ∧ after = world) attempt addresses world

/-- Leaves the addresses, and the bus so that something holds, whether or not it succeeds. -/
def Turns {α : Type} (setting : Setting World Request (Except E (List UInt8))) (world : World)
    (holds : World → Prop) (attempt : Fallible E α)
    : Prop :=
  ∀ addresses,
    Tries setting (fun _ later after => later = addresses ∧ holds after)
      (fun _ later after => later = addresses ∧ holds after) attempt addresses world

section Rules

variable {α β : Type} {setting : Setting World Request (Except E (List UInt8))} {world : World}
  {good : α → Prop} {holds : World → Prop} {attempt : Fallible E α} {next : α → Fallible E β}
  {ok : β → Addresses → World → Prop} {fails : Error E → Addresses → World → Prop}
  {addresses : Addresses}

/-- What follows starts with the same bus. -/
theorem Leaves.then (leaves : Leaves setting world good attempt)
    (failed : ∀ error, fails error addresses world)
    (then_ : ∀ value, good value → Tries setting ok fails (next value) addresses world)
    : Tries setting ok fails (attempt >>= next) addresses world := by
  refine tries_bind ((leaves addresses).mono ?_ ?_)
  · rintro value _ _ ⟨⟨rfl, rfl⟩, holds⟩
    exact then_ value holds
  · rintro error _ _ ⟨rfl, rfl⟩
    exact failed error

theorem Turns.then (turns : Turns setting world holds attempt)
    (failed : ∀ error after, holds after → fails error addresses after)
    (then_ : ∀ value after, holds after → Tries setting ok fails (next value) addresses after)
    : Tries setting ok fails (attempt >>= next) addresses world := by
  refine tries_bind ((turns addresses).mono ?_ ?_)
  · rintro value _ after ⟨rfl, holds⟩
    exact then_ value after holds
  · rintro error _ after ⟨rfl, holds⟩
    exact failed error after holds

theorem Turns.tried (turns : Turns setting world holds attempt)
    {next : Except (Error E) α → Enumerator E β} {ends : β → Addresses → World → Prop}
    (then_ : ∀ result after, holds after → Ensures setting ends (next result) addresses after)
    : Ensures setting ends (attempt.run >>= next) addresses world := by
  refine ensures_tried ((turns addresses).mono ?_ ?_)
  · rintro value _ after ⟨rfl, holds⟩
    exact then_ _ after holds
  · rintro error _ after ⟨rfl, holds⟩
    exact then_ _ after holds

theorem Leaves.turns (leaves : Leaves setting world good attempt) (always : holds world)
    : Turns setting world holds attempt := by
  intro addresses
  refine (leaves addresses).mono ?_ ?_
  · rintro _ _ _ ⟨⟨rfl, rfl⟩, _⟩
    exact ⟨rfl, always⟩
  · rintro _ _ _ ⟨rfl, rfl⟩
    exact ⟨rfl, always⟩

theorem leaves_parsed (result : Except DescriptorError α)
    : Leaves setting world (fun value => result = .ok value) (parsed result : Fallible E α) := by
  intro addresses
  cases result with
  | ok value => exact ⟨⟨rfl, rfl⟩, rfl⟩
  | error error => exact ⟨rfl, rfl⟩

theorem leaves_of_keeps
    (keeps : ∀ addresses, Keeps setting (fun later after => later = addresses ∧ after = world) attempt)
    : Leaves setting world (fun _ => True) attempt :=
  fun addresses => (keeps addresses addresses world ⟨rfl, rfl⟩).mono
    (fun _ _ _ same => ⟨same, trivial⟩) (fun _ _ _ same => same)

theorem Leaves.keeps (leaves : Leaves setting world good attempt) (addresses : Addresses)
    : Keeps setting (fun later after => later = addresses ∧ after = world) attempt := by
  rintro _ _ ⟨rfl, rfl⟩
  exact (leaves _).mono (fun _ _ _ holds => holds.1) (fun _ _ _ same => same)

end Rules

/-- The packet sizes that enumeration uses fit. -/
structure Fits (fit : Nat → Prop) (heard : SetupPacket → List UInt8 → Prop) : Prop where
  eight : fit 8
  sized {bytes : List UInt8} {size : Nat}
    : heard (.getDescriptor DescriptorType.device 0 8) bytes
      → DeviceDescriptor.maxPacketSizeOf bytes = .ok size
      → fit size
  described {bytes : List UInt8} {descriptor : DeviceDescriptor}
    : heard (.getDescriptor DescriptorType.device 0 DeviceDescriptor.length) bytes
      → DeviceDescriptor.parse bytes = .ok descriptor
      → fit descriptor.maxPacketSize

/-- What is known of the bus when so many devices have been enumerated. -/
structure Stages (World : Type) where
  /-- Nothing else is enabled. -/
  settled : List Place → World → Prop
  /-- The device on a port answers at address 0. -/
  opened : List Place → Path → World → Prop
  /-- It has been asked something through a translator. -/
  greeted : List Place → Path → Option Translator → World → Prop
  /-- It has been given an address. -/
  named : List Place → Place → World → Prop
  /-- The device on a port has no address that is known. -/
  loose : List Place → Path → World → Prop
  /-- Nothing changes by itself. -/
  still : World → Prop
  /-- A port of a hub at an address has shown a status. -/
  seen : (hub : Path) → (address number : Nat) → PortStatus → World → Prop
  /-- Transfers with a packet size work. -/
  fit : Nat → Prop
  /-- What is received for a request. -/
  heard : SetupPacket → List UInt8 → Prop

/-- The requests take the bus from stage to stage. -/
structure Survey (setting : Setting World Request (Except E (List UInt8))) (stages : Stages World)
    : Prop where
  perm {known other : List Place} {world : World}
    : known.Perm other → stages.settled known world → stages.settled other world
  still_of_settled {known : List Place} {world : World}
    : Numbered (sites known) → stages.settled known world → stages.still world
  still_of_loose {known : List Place} {port : Path} {world : World}
    : Numbered (sites known) → stages.loose known port world → stages.still world
  loose_of_opened {known : List Place} {port : Path} {world : World}
    : stages.opened known port world → stages.loose known port world
  loose_of_greeted {known : List Place} {port : Path} {translator : Option Translator} {world : World}
    : stages.greeted known port translator world → stages.loose known port world
  loose_of_named {known : List Place} {port : Path} {address : Nat} {translator : Option Translator}
    {world : World}
    : stages.named known (port, address, translator) world → stages.loose known port world
  fits : Fits stages.fit stages.heard
  delays {world : World} (ms : Nat)
    : stages.still world → Leaves setting world (fun _ => True) (delayMs ms)
  /-- What is neither for a port nor gives an address. -/
  asks {target : Target} {setup : SetupPacket} {hub : Path} {known : List Place} {world : World}
    : Numbered (sites known)
      → stages.settled known world
      → target.place hub ∈ known
      → stages.fit target.maxPacket
      → (setup.forPort || setup.request == SetupPacket.setAddressRequest) = false
      → Leaves setting world (stages.heard setup) (control target setup)
  powers {target : Target} {hub : Path} {known : List Place} {world : World} (number : Nat)
    : Numbered (sites known)
      → stages.settled known world
      → target.place hub ∈ known
      → stages.fit target.maxPacket
      → Leaves setting world (fun _ => True)
          (control target (.setPortFeature number PortFeature.power))
  looks {target : Target} {hub : Path} {known : List Place} {world : World} (number : Nat)
    : Numbered (sites known)
      → stages.settled known world
      → target.place hub ∈ known
      → stages.fit target.maxPacket
      → Leaves setting world (fun status => stages.seen hub target.address number status world)
          (portStatus target number)
  resets {target : Target} {hub : Path} {known : List Place} {world : World} {number : Nat}
    {status : PortStatus}
    : Numbered (sites known)
      → stages.settled known world
      → target.place hub ∈ known
      → stages.fit target.maxPacket
      → Clear known (hub ++ [number])
      → stages.seen hub target.address number status world
      → status.connected = true
      → Turns setting world (stages.opened known (hub ++ [number])) (resetPort target number)
  disables {target : Target} {hub : Path} {known : List Place} {world : World} {number : Nat}
    : Numbered (sites known)
      → stages.loose known (hub ++ [number]) world
      → target.place hub ∈ known
      → stages.fit target.maxPacket
      → Turns setting world (stages.settled known)
          (control target (.clearPortFeature number PortFeature.enable))
  unplugs {target : Target} {hub : Path} {gone known : List Place} {world : World}
    {number : Nat} {status : PortStatus}
    : Numbered (sites gone ++ sites known)
      → stages.settled (gone ++ known) world
      → (∀ entry ∈ gone, hub ++ [number] <+: entry.1)
      → target.place hub ∈ known
      → stages.fit target.maxPacket
      → Clear known (hub ++ [number])
      → stages.seen hub target.address number status world
      → status.connectionChanged = true
      → Turns setting world (stages.settled known)
          (control target (.clearPortFeature number PortFeature.connectionChange))
  greets {target : Target} {known : List Place} {port : Path} {world : World} {length : Nat}
    (addresses : Addresses)
    : Numbered (sites known)
      → stages.opened known port world
      → target.address = 0
      → stages.fit target.maxPacket
      → Tries setting
          (fun bytes later after =>
            (later = addresses ∧ stages.greeted known port target.translator after)
            ∧ stages.heard (.getDescriptor DescriptorType.device 0 length) bytes)
          (fun _ later after => later = addresses ∧ stages.loose known port after)
          (control target (.getDescriptor DescriptorType.device 0 length)) addresses world
  names {target : Target} {known : List Place} {port : Path} {address : Nat} {world : World}
    : Numbered (sites known ++ [(port, address)])
      → stages.greeted known port target.translator world
      → target.address = 0
      → stages.fit target.maxPacket
      → Turns setting world (stages.named known (port, address, target.translator))
          (control target (.setAddress address))
  answers {target : Target} {known : List Place} {port : Path} {length : Nat} {world : World}
    : Numbered (sites known ++ [(port, target.address)])
      → stages.named known (target.place port) world
      → stages.fit target.maxPacket
      → Leaves setting world
          (fun bytes =>
            stages.heard (.getDescriptor DescriptorType.device 0 length) bytes
            ∧ stages.settled (known ++ [target.place port]) world)
          (control target (.getDescriptor DescriptorType.device 0 length))

----------
-- Enumeration
----------

/-- The devices known are those in use, and there is nothing else on the bus. -/
structure Holds (stages : Stages World) (known : List Place) (addresses : Addresses)
    (world : World)
    : Prop where
  kept : Kept addresses known
  settled : stages.settled known world

/-- Enumerates the device on a port with everything behind it; or fails and leaves it loose. -/
def Brings (setting : Setting World Request (Except E (List UInt8))) (stages : Stages World)
    (path : Path) (speed : Speed) (translator : Option Translator) (attempt : Fallible E (Device E))
    : Prop :=
  ∀ addresses world known,
    Kept addresses known
    → stages.opened known path world
    → Clear known path
    → Tries setting
        (fun device later after =>
          Holds stages (known ++ device.places path) later after
          ∧ device.Fine stages.fit ∧ device.speed = speed ∧ device.translator = translator)
        (fun _ later after => Kept later known ∧ stages.loose known path after)
        attempt addresses world

/-- How the devices on the ports of a hub so deep are enumerated, if they aren't too deep. -/
def BringsDeeper (setting : Setting World Request (Except E (List UInt8))) (stages : Stages World)
    (depth : Nat) (deeper : Deeper E)
    : Prop :=
  ∀ device ∈ deeper, ∀ speed translator path,
    path.length = depth + 1 → Brings setting stages path speed translator (device speed translator)

namespace Survey

variable {setting : Setting World Request (Except E (List UInt8))} {stages : Stages World}
  (survey : Survey setting stages) {addresses : Addresses} {world : World}
  {known : List Place} {deeper : Deeper E} {hub path : Path} {target : Target}
  {number depth : Nat}
include survey

theorem holds_perm {other : List Place} (holds : Holds stages known addresses world)
    (perm : known.Perm other)
    : Holds stages other addresses world :=
  ⟨holds.kept.perm perm, survey.perm perm holds.settled⟩

theorem ensures_portWith (brings : BringsDeeper setting stages hub.length deeper)
    (holds : Holds stages known addresses world) (listed : target.place hub ∈ known)
    (fit : stages.fit target.maxPacket) (clear : Clear known (hub ++ [number]))
    : Ensures setting
        (fun port later after =>
          Holds stages (known ++ port.places (hub ++ [number])) later after
          ∧ port.Fine stages.fit (translatorFor target number))
        (portWith deeper target number) addresses world := by
  have nothing {later : Addresses} {after : World} (holds : Holds stages known later after)
      : Holds stages (known ++ []) later after ∧ True := by
    rw [List.append_nil]
    exact ⟨holds, trivial⟩
  have numbered := holds.kept.numbered
  refine ensures_tried ((survey.looks number numbered holds.settled listed fit addresses).mono ?_ ?_)
  · rintro status addresses world ⟨⟨rfl, rfl⟩, seen⟩
    dsimp only
    split
    · rename_i connected
      have resets := survey.resets numbered holds.settled listed fit clear seen connected
      have enumerates : Tries setting
          (fun device later after =>
            Holds stages (known ++ device.places (hub ++ [number])) later after
            ∧ device.translator = translatorFor target number device.speed ∧ device.Fine stages.fit)
          (fun _ later after => Kept later known ∧ stages.loose known (hub ++ [number]) after)
          (resetAndEnumerate deeper target number) addresses world := by
        refine resets.then (fun _ _ opened => ⟨holds.kept, survey.loose_of_opened opened⟩)
          (fun speed after opened => ?_)
        cases deeper with
        | none => exact tries_throw ⟨holds.kept, survey.loose_of_opened opened⟩
        | some device =>
          refine (brings device rfl _ _ _ List.length_append _ _ _ holds.kept opened clear).mono
            ?_ (fun _ _ _ failed => failed)
          rintro device later after ⟨holds, fine, rfl, translator⟩
          exact ⟨holds, translator, fine⟩
      refine ensures_tried (enumerates.mono ?_ ?_)
      · exact fun device later after holds => ensures_pure holds
      · rintro error later after ⟨kept, loose⟩
        exact (survey.disables numbered loose listed fit).tried
          (fun _ _ settled => ensures_pure (nothing ⟨kept, settled⟩))
    · exact ensures_pure (nothing holds)
  · rintro error _ _ ⟨rfl, rfl⟩
    exact ensures_pure (nothing holds)

/-- All ports add their devices, by induction on how many are left. -/
theorem ensures_portsWith (brings : BringsDeeper setting stages hub.length deeper) {count : Nat}
    (holds : Holds stages known addresses world) (listed : target.place hub ∈ known)
    (fit : stages.fit target.maxPacket)
    (clear : ∀ other, number ≤ other → Clear known (hub ++ [other]))
    : Ensures setting
        (fun ports later after =>
          Holds stages (known ++ portsPlaces hub number ports) later after
          ∧ portsFine stages.fit (translatorFor target) number ports)
        (portsWith deeper target number count) addresses world := by
  induction count generalizing number addresses world known with
  | zero =>
    refine ensures_pure ⟨?_, trivial⟩
    rw [portsPlaces, List.append_nil]
    exact holds
  | succ count ih =>
    refine ensures_bind ((survey.ensures_portWith brings holds listed fit
      (clear number (Nat.le_refl _))).mono ?_)
    rintro port later after ⟨holds, fine⟩
    refine ensures_bind ((ih holds (List.mem_append_left _ listed) ?_).mono ?_)
    · intro other above
      exact (clear other (by omega)).append (clear_places port (by omega))
    · rintro rest later after ⟨holds, others⟩
      refine ensures_pure ⟨?_, portsFine_cons.mpr ⟨fine, others⟩⟩
      rw [portsPlaces_cons, ← List.append_assoc]
      exact holds

theorem tries_hubWith (brings : BringsDeeper setting stages hub.length deeper)
    (holds : Holds stages (known ++ [target.place hub]) addresses world)
    (fit : stages.fit target.maxPacket) (clear : Clear known hub)
    : Tries setting
        (fun found later after =>
          Holds stages (known ++ target.place hub :: portsPlaces hub 1 found.ports) later after
          ∧ portsFine stages.fit (translatorFor target) 1 found.ports)
        (fun _ later after => later = addresses ∧ after = world)
        (hubWith deeper target) addresses world := by
  have numbered := holds.kept.numbered
  have still := survey.still_of_settled numbered holds.settled
  have listed : target.place hub ∈ known ++ [target.place hub] :=
    List.mem_append_right _ (List.mem_singleton.mpr rfl)
  have leave : addresses = addresses ∧ world = world := ⟨rfl, rfl⟩
  refine (survey.asks numbered holds.settled listed fit rfl).then (fun _ => leave)
    (fun bytes _ => ?_)
  refine (leaves_parsed _).then (fun _ => leave) (fun descriptor _ => ?_)
  refine (leaves_of_keeps (fun addresses => keeps_powerPorts (fun port =>
    (survey.powers port numbered holds.settled listed fit).keeps addresses) _ _)).then
      (fun _ => leave) (fun _ _ => ?_)
  refine (survey.delays _ still).then (fun _ => leave) (fun _ _ => ?_)
  refine tries_bind (tries_lift ((survey.ensures_portsWith brings holds listed fit
    (fun other _ => (clear.below other).append (clear_self hub _ other))).mono ?_))
  rintro ports later after ⟨holds, fine⟩
  rw [List.append_assoc] at holds
  exact tries_pure ⟨holds, fine⟩

/-- A device that is given an address, with everything behind it. What answers there afterwards is the
device.
-/
theorem tries_addressedWith (brings : BringsDeeper setting stages path.length deeper)
    {default : Target} {address : Nat} (zero : default.address = 0)
    (fit : stages.fit default.maxPacket) (greeted : stages.greeted known path default.translator world)
    (kept : Kept addresses (known ++ [(path, address, default.translator)])) (clear : Clear known path)
    : Tries setting
        (fun device later after =>
          Holds stages (known ++ device.places path) later after
          ∧ device.Fine stages.fit ∧ device.speed = default.speed
          ∧ device.translator = default.translator)
        (fun _ later after => later = addresses ∧ stages.loose known path after)
        (addressedWith deeper default address) addresses world := by
  have numbered := kept.numbered
  rw [sites_append] at numbered
  refine (survey.names numbered greeted zero fit).then
    (fun _ _ named => ⟨rfl, survey.loose_of_named named⟩) (fun _ world named => ?_)
  have loose := survey.loose_of_named named
  have still := survey.still_of_loose numbered.left loose
  have leave : addresses = addresses ∧ stages.loose known path world := ⟨rfl, loose⟩
  refine (survey.delays _ still).then (fun _ => leave) (fun _ _ => ?_)
  dsimp only
  have fit : stages.fit ({ default with address } : Target).maxPacket := fit
  refine (survey.answers numbered named fit).then (fun _ => leave) (fun bytes answered => ?_)
  refine (leaves_parsed _).then (fun _ => leave) (fun descriptor found => ?_)
  have asks {setup : SetupPacket} (plain : (setup.forPort || _) = false) :=
    survey.asks kept.numbered answered.2 (List.mem_append_right _ (List.mem_singleton.mpr rfl)) fit
      plain
  refine (asks rfl).then (fun _ => leave) (fun head _ => ?_)
  refine (leaves_parsed _).then (fun _ => leave) (fun total _ => ?_)
  refine (asks rfl).then (fun _ => leave) (fun whole _ => ?_)
  refine (leaves_parsed _).then (fun _ => leave) (fun configuration _ => ?_)
  refine (asks rfl).then (fun _ => leave) (fun _ _ => ?_)
  have own := survey.fits.described answered.1 found
  have holds : Holds stages (known ++ [(path, address, default.translator)]) addresses world :=
    ⟨kept, answered.2⟩
  refine tries_bind ?_
  unfold hubOf
  split
  · refine tries_bind ((survey.tries_hubWith brings holds fit clear).mono ?_ ?_)
    · rintro ⟨descriptor, ports⟩ later after ⟨holds, fine⟩
      exact tries_pure (tries_pure ⟨holds, ⟨own, fine⟩, rfl, rfl⟩)
    · rintro _ _ _ ⟨rfl, rfl⟩
      exact leave
  · exact tries_pure (tries_pure ⟨holds, own, rfl, rfl⟩)

/-- A device answering at address 0 is enumerated; its address is given back if that fails. -/
theorem brings_deviceWith (brings : BringsDeeper setting stages path.length deeper)
    (shallow : path.length < maxDepth) (speed : Speed) (translator : Option Translator)
    : Brings setting stages path speed translator (deviceWith deeper speed translator) := by
  intro addresses world known kept opened clear
  refine tries_bind ((survey.greets addresses kept.numbered opened rfl survey.fits.eight).mono ?_ ?_)
  case refine_2 =>
    rintro _ _ world ⟨rfl, loose⟩
    exact ⟨kept, loose⟩
  rintro bytes _ world ⟨⟨rfl, greeted⟩, heard⟩
  have leave : Kept _ known ∧ stages.loose known path world :=
    ⟨kept, survey.loose_of_greeted greeted⟩
  refine (leaves_parsed _).then (fun _ => leave) (fun maxPacket found => ?_)
  refine tries_bind (tries_takeAddress (fun address lowest => ?_) leave)
  have zero : ({ address := 0, maxPacket, speed, translator } : Target).address = 0 := rfl
  have taken : Kept _ (known ++ [(path, address, translator)]) := kept.take lowest shallow
  refine tries_orFree ((survey.tries_addressedWith brings zero (survey.fits.sized heard found) greeted
    taken clear).mono (fun _ _ _ holds => holds) ?_)
  rintro error _ after ⟨rfl, loose⟩
  exact ⟨taken.giveBack, loose⟩

theorem bringsDeeper_descend (levels : Nat) {depth : Nat} (shallow : depth + levels < maxDepth)
    : BringsDeeper setting stages depth (descend levels : Deeper E) := by
  induction levels generalizing depth with
  | zero => rintro device ⟨⟩
  | succ levels ih =>
    rintro device found speed translator path length
    cases found
    exact survey.brings_deviceWith (ih (by omega)) (by omega) speed translator

----------
-- Polls
----------

/-- What polling a port leaves beside the other devices. -/
def Polled (stages : Stages World) (known : List Place) (port : Path)
    (given : Speed → Option Translator) (before : Port (Device E) E)
    (result : Port (Device E) E × List Change) (addresses : Addresses) (world : World)
    : Prop :=
  Holds stages (result.1.places port ++ known) addresses world
  ∧ result.1.Fine stages.fit given ∧ PortDiffers before result.2 result.1

variable {before : Port (Device E) E}

theorem ensures_replug {status : PortStatus} (shallow : hub.length < maxDepth)
    (holds : Holds stages (before.places (hub ++ [number]) ++ known) addresses world)
    (listed : target.place hub ∈ known) (fit : stages.fit target.maxPacket)
    (clear : Clear known (hub ++ [number]))
    (seen : stages.seen hub target.address number status world)
    (changed : status.connectionChanged = true)
    : Ensures setting (Polled stages known (hub ++ [number]) (translatorFor target number) before)
        (replug target number hub.length before status) addresses world := by
  refine (survey.unplugs (sites_append _ known ▸ holds.kept.numbered) holds.settled
    (fun _ => Port.prefix_of_mem_places) listed fit clear seen changed).tried
      (fun _ after settled => ?_)
  refine ensures_bind ((ensures_forget holds.kept).mono ?_)
  rintro removed later _ ⟨⟨kept, forgotten⟩, rfl⟩
  split
  · have brings := survey.bringsDeeper_descend (maxDepth - 1 - hub.length)
      (show hub.length + (maxDepth - 1 - hub.length) < maxDepth by omega)
    refine ensures_bind ((survey.ensures_portWith brings ⟨kept, settled⟩ listed fit clear).mono ?_)
    rintro found later after ⟨holds, fine⟩
    have holds := survey.holds_perm holds List.perm_append_comm
    cases found with
    | empty | failed => exact ensures_pure ⟨holds, fine, forgotten.went trivial⟩
    | device device => exact ensures_pure ⟨holds, fine, forgotten.came device⟩
  · exact ensures_pure ⟨⟨kept, settled⟩, trivial, forgotten.went trivial⟩

/-- What polling the ports of a hub from one on leaves beside the other devices. -/
def PollsPorts (setting : Setting World Request (Except E (List UInt8))) (stages : Stages World)
    (hub : Path) (target : Target) (number : Nat) (ports : List (Port (Device E) E))
    : Prop :=
  ∀ addresses world known,
    Holds stages (portsPlaces hub number ports ++ known) addresses world
    → target.place hub ∈ known
    → (∀ other, number ≤ other → Clear known (hub ++ [other]))
    → Ensures setting
        (fun result later after =>
          Holds stages (portsPlaces hub number result.1 ++ known) later after
          ∧ portsFine stages.fit (translatorFor target) number result.1
          ∧ PortsDiffer ports result.2 result.1)
        (pollPorts target hub.length number ports) addresses world

/-- The ports from one on: it is polled, then the rest. -/
theorem pollsPorts_cons {rest : List (Port (Device E) E)}
    {unchanged : Enumerator E (Port (Device E) E × List Change)} (shallow : hub.length < maxDepth)
    (fit : stages.fit target.maxPacket)
    (fine : portsFine stages.fit (translatorFor target) number (before :: rest))
    (polls
      : pollPorts target hub.length number (before :: rest)
        = do
          let (port, changes) ← pollPort target number hub.length before unchanged
          let (rest, more) ← pollPorts target hub.length (number + 1) rest
          return (port :: rest, changes ++ more))
    (kept
      : ∀ addresses world known, Clear known (hub ++ [number])
          → Holds stages (before.places (hub ++ [number]) ++ known) addresses world
          → Ensures setting
              (Polled stages known (hub ++ [number]) (translatorFor target number) before) unchanged
              addresses world)
    (others : PollsPorts setting stages hub target (number + 1) rest)
    : PollsPorts setting stages hub target number (before :: rest) := by
  intro addresses world known holds listed clear
  rw [polls]
  rw [portsPlaces_cons, List.append_assoc] at holds
  have beside : Clear (portsPlaces hub (number + 1) rest ++ known) (hub ++ [number]) := by
    refine Clear.append (fun entry member inside => ?_) (clear number (Nat.le_refl _))
    obtain ⟨other, above, behind⟩ := prefix_of_mem_portsPlaces rest hub _ entry member
    have := same_number inside behind
    omega
  have here := List.mem_append_right (portsPlaces hub (number + 1) rest) listed
  have polls : Ensures setting
      (Polled stages (portsPlaces hub (number + 1) rest ++ known) (hub ++ [number])
        (translatorFor target number) before)
      (pollPort target number hub.length before unchanged) addresses world := by
    refine ensures_tried ((survey.looks number holds.kept.numbered holds.settled
      (List.mem_append_right _ here) fit addresses).mono ?_ ?_)
    · rintro status _ _ ⟨⟨rfl, rfl⟩, seen⟩
      dsimp only
      split
      · exact survey.ensures_replug shallow holds here fit beside seen ‹_›
      · exact kept _ _ _ beside holds
    · rintro _ _ _ ⟨rfl, rfl⟩
      exact ensures_pure ⟨holds, (portsFine_cons.mp fine).1, portDiffers_refl before⟩
  refine ensures_bind (polls.mono ?_)
  rintro ⟨port, changes⟩ between world ⟨holds, fine, differs⟩
  have holds : Holds stages
      (portsPlaces hub (number + 1) rest ++ (port.places (hub ++ [number]) ++ known)) between world :=
    survey.holds_perm holds (List.perm_append_comm_assoc _ _ _)
  refine ensures_bind ((others between world _ holds (List.mem_append_right _ listed)
    (fun other above => ?_)).mono ?_)
  · exact (clear_places port (by omega)).append (clear other (by omega))
  · rintro ⟨later, more⟩ final world ⟨holds, others, differ⟩
    refine ensures_pure ⟨?_, portsFine_cons.mpr ⟨fine, others⟩, .cons differs differ⟩
    rw [portsPlaces_cons, List.append_assoc]
    exact survey.holds_perm holds (List.perm_append_comm_assoc _ _ _)

mutual

/-- Polling a device keeps what is known, by induction on the tree. -/
theorem ensures_pollHub
    : ∀ (device : Device E) (path : Path) (addresses : Addresses) (world : World)
        (known : List Place),
        path.length < maxDepth
        → Holds stages (device.places path ++ known) addresses world
        → device.Fine stages.fit
        → Clear known path
        → Ensures setting
            (fun result later after =>
              Holds stages (result.1.places path ++ known) later after
              ∧ result.1.Fine stages.fit ∧ Differs device result.2 result.1)
            (pollHub path.length device) addresses world
  | { hub := none, .. }, path, addresses, world, known, shallow, holds, fine, clear =>
    ensures_pure ⟨holds, fine, .leaf rfl⟩
  | { address, speed, translator, descriptor, configuration, hub := some ⟨ports, before⟩ },
      path, addresses, world, known, shallow, holds, fine, clear => by
      rw [Device.places] at holds
      have holds := survey.holds_perm holds List.perm_middle.symm
      refine ensures_bind ((pollsPorts_of_fine before path _ 1 shallow fine.1 fine.2 addresses world
        ((path, address, translator) :: known) holds (.head _)
        (fun other _ => (clear_self path _ other).append (clear.below other))).mono ?_)
      rintro ⟨later, changes⟩ final after ⟨holds, ports, differ⟩
      exact ensures_pure
        ⟨survey.holds_perm holds List.perm_middle, ⟨fine.1, ports⟩, .hub rfl differ⟩

theorem pollsPorts_of_fine
    : ∀ (ports : List (Port (Device E) E)) (hub : Path) (target : Target) (number : Nat),
        hub.length < maxDepth
        → stages.fit target.maxPacket
        → portsFine stages.fit (translatorFor target) number ports
        → PollsPorts setting stages hub target number ports
  | [], hub, target, number, shallow, fit, fine =>
    fun _ _ _ holds _ _ => ensures_pure ⟨holds, trivial, .nil⟩
  | .device child :: rest, hub, target, number, shallow, fit, fine => by
      refine survey.pollsPorts_cons shallow fit fine rfl ?_
        (pollsPorts_of_fine rest hub target _ shallow fit fine.2)
      intro addresses world others beside holds
      have deeper : (hub ++ [number]).length < maxDepth :=
        holds.kept.shallow (child.target.place (hub ++ [number]))
          (List.mem_append_left _ (mem_places child _))
      have polls := ensures_pollHub child _ addresses world others deeper holds fine.1.2 beside
      rw [List.length_append, List.length_singleton] at polls
      refine ensures_bind (polls.mono ?_)
      rintro ⟨child', changes⟩ later after ⟨holds, sound, differs⟩
      refine ensures_pure ⟨holds, ⟨?_, sound⟩, .same differs⟩
      rw [differs.own.1, differs.own.2]
      exact fine.1.1
  | .empty :: rest, hub, target, number, shallow, fit, fine
  | .failed _ :: rest, hub, target, number, shallow, fit, fine =>
    survey.pollsPorts_cons shallow fit fine rfl
      (fun _ _ _ _ holds => ensures_pure ⟨holds, trivial, portDiffers_refl _⟩)
      (pollsPorts_of_fine rest hub target _ shallow fit fine)

end

end Survey

/-- The tree is what is on the bus. -/
structure Shown (stages : Stages World) (tree : Tree E) (world : World) : Prop where
  holds : Holds stages (tree.root.places []) tree.addresses world
  fine : tree.root.Fine stages.fit
  direct : tree.root.translator = none

namespace Survey

variable {setting : Setting World Request (Except E (List UInt8))} {stages : Stages World}
  (survey : Survey setting stages) {world : World}
include survey

theorem enumerate_shown (speed : Speed) (opened : stages.opened [] [] world)
    : (enumerate speed : BusProgram E _).Ensures setting
        (fun result after =>
          match result with
          | .ok tree => Shown stages tree after
          | .error _ => stages.loose [] [] after)
        world := by
  have root : Brings setting stages [] speed none _ :=
    survey.brings_deviceWith (survey.bringsDeeper_descend (maxDepth - 1) (by decide)) (by decide) _ _
  have root := root .new world [] ⟨exactly_new, nofun⟩ opened nofun
  refine Program.Ensures.bind (Program.Ensures.mono root ?_)
  rintro ⟨error | root, addresses⟩ after holds
  · exact holds.2
  · exact ⟨holds.1, holds.2.1, holds.2.2.2⟩

/-- A poll keeps that, and says what came and went. -/
theorem pollChanges_shown {tree : Tree E} (shown : Shown stages tree world)
    : tree.pollChanges.Ensures setting
        (fun result after =>
          Shown stages result.1 after ∧ Differs tree.root result.2 result.1.root) world := by
  have holds : Holds stages (tree.root.places [] ++ []) tree.addresses world := by
    rw [List.append_nil]
    exact shown.holds
  have root := survey.ensures_pollHub tree.root [] tree.addresses world [] (by decide) holds
    shown.fine nofun
  refine Program.Ensures.bind (Program.Ensures.mono root ?_)
  rintro ⟨⟨root, changes⟩, addresses⟩ after ⟨holds, fine, differs⟩
  rw [List.append_nil] at holds
  exact ⟨⟨holds, fine, differs.own.2.trans shown.direct⟩, differs⟩

end Survey

end RustyPi.Usb
