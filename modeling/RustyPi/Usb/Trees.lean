import RustyPi.Usb.Rounds

/-! The tree whatever the bus answers: the addresses in use are those of its devices, polls report what
came and went, and slow devices are reached through the nearest high speed hub above them.
-/

namespace RustyPi.Usb

open Function RustyPi.Calls

variable {E : Type} {fit : Nat → Prop}

----------
-- Buses that stay as they are
----------

section Quiet

variable {World : Type} {setting : Setting World Request (Except E (List UInt8))}
  {heard : SetupPacket → List UInt8 → Prop}

/-- What is known of a bus that only changes as addresses are given. -/
def Stages.quiet (settled : List Place → World → Prop) (reached : Option Translator → World → Prop)
    (fit : Nat → Prop) (heard : SetupPacket → List UInt8 → Prop)
    : Stages World where
  settled
  opened known _ := settled known
  greeted known _ translator world := settled known world ∧ reached translator world
  named known place := settled (known ++ [place])
  loose known _ := settled known
  still _ := True
  seen _ _ _ _ _ := True
  fit
  heard

theorem Survey.quiet {settled : List Place → World → Prop}
    {reached : Option Translator → World → Prop}
    (fewer
      : ∀ known other world, (∀ place ∈ other, place ∈ known)
          → settled known world → settled other world)
    (fits : Fits fit heard)
    (delays : ∀ ms world, Leaves setting world (fun _ => True) (delayMs ms : Fallible E Unit))
    (asks
      : ∀ target setup path known world, Numbered (sites known) → settled known world
          → target.place path ∈ known → fit target.maxPacket
          → Leaves setting world (heard setup) (control target setup))
    (greets
      : ∀ target length known world addresses, Numbered (sites known) → settled known world
          → target.address = 0 → fit target.maxPacket
          → Tries setting
              (fun bytes later after =>
                (later = addresses ∧ settled known after ∧ reached target.translator after)
                ∧ heard (.getDescriptor DescriptorType.device 0 length) bytes)
              (fun _ later after => later = addresses ∧ settled known after)
              (control target (.getDescriptor DescriptorType.device 0 length)) addresses world)
    (names
      : ∀ target address port known world, Numbered (sites known ++ [(port, address)])
          → settled known world → reached target.translator world → target.address = 0
          → fit target.maxPacket
          → Turns setting world (settled (known ++ [(port, address, target.translator)]))
              (control target (.setAddress address)))
    : Survey setting (.quiet settled reached fit heard) := by
  have keeps {target : Target} {path : Path} {known : List Place} {world : World}
      (numbered : Numbered (sites known)) (holds : settled known world)
      (listed : target.place path ∈ known) (fits : fit target.maxPacket) (addresses : Addresses)
      : PortsKeep setting (fun later after => later = addresses ∧ after = world) target :=
    ⟨fun setup _ => (asks _ setup _ _ _ numbered holds listed fits).keeps addresses,
      fun ms => (delays ms world).keeps addresses⟩
  refine {
    perm := fun perm holds => fewer _ _ _ (fun _ => perm.mem_iff.mpr) holds
    still_of_settled := fun _ _ => trivial
    still_of_loose := fun _ _ => trivial
    loose_of_opened := fun opened => opened
    loose_of_greeted := fun greeted => greeted.1
    loose_of_named := fewer _ _ _ (fun _ => List.mem_append_left _)
    fits
    delays := fun ms _ => delays ms _
    asks := fun numbered holds listed fits _ => asks _ _ _ _ _ numbered holds listed fits
    powers := fun _ numbered holds listed fits =>
      leaves_of_keeps (fun addresses => (keeps numbered holds listed fits addresses).asks _ rfl)
    looks := fun number numbered holds listed fits =>
      leaves_of_keeps (fun addresses => (keeps numbered holds listed fits addresses).portStatus number)
    resets := fun numbered holds listed fits _ _ _ => ?_
    disables := fun numbered holds listed fits =>
      (asks _ _ _ _ _ numbered holds listed fits).turns holds
    unplugs := fun numbered holds _ listed fits _ _ _ => ?_
    greets := fun addresses numbered holds zero fits =>
      greets _ _ _ _ addresses numbered holds zero fits
    names := fun numbered holds zero fits => names _ _ _ _ _ numbered holds.1 holds.2 zero fits
    answers := fun numbered holds fits addresses => ?_ }
  · exact (leaves_of_keeps (fun addresses =>
      (keeps numbered holds listed fits addresses).resetPort _)).turns holds
  · have holds := fewer _ _ _ (fun _ => List.mem_append_right _) holds
    exact (asks _ _ _ _ _ numbered.right holds listed fits).turns holds
  · refine (asks _ _ _ _ _ ?_ holds (List.mem_append_right _ (List.mem_singleton.mpr rfl)) fits
      addresses).mono (fun _ _ _ heard => ⟨heard.1, heard.2, holds⟩) (fun _ _ _ same => same)
    rw [sites_append]
    exact numbered

/-- Nothing is known of a bus without a state. -/
abbrev Stages.plain (fit : Nat → Prop) (heard : SetupPacket → List UInt8 → Prop) : Stages Unit :=
  .quiet (fun _ _ => True) (fun _ _ => True) fit heard

theorem Survey.plain {setting : Setting Unit Request (Except E (List UInt8))}
    (fits : Fits fit heard)
    (asks
      : ∀ target setup, fit target.maxPacket → Leaves setting () (heard setup) (control target setup))
    (delays : ∀ ms, Leaves setting () (fun _ => True) (delayMs ms : Fallible E Unit))
    : Survey setting (.plain fit heard) := by
  refine .quiet (fun _ _ _ _ _ => trivial) fits (fun ms _ => delays ms)
    (fun _ _ _ _ _ _ _ _ => asks _ _)
    (fun _ _ _ _ addresses _ _ _ fits => (asks _ _ fits addresses).mono ?_ ?_)
    (fun _ _ _ _ _ _ _ _ _ fits => (asks _ _ fits).turns trivial)
  · exact fun _ _ _ holds => ⟨⟨holds.1.1, trivial, trivial⟩, holds.2⟩
  · exact fun _ _ _ same => ⟨same.1, trivial⟩

end Quiet

/-- The bus may answer anything. -/
theorem survey_free : Survey (E := E) .free (.plain (fun _ => True) (fun _ _ => True)) := by
  refine .plain ⟨trivial, fun _ _ => trivial, fun _ _ => trivial⟩ (fun target setup _ => ?_)
    (fun ms addresses => tries_delay trivial (fun _ _ _ => ⟨⟨rfl, rfl⟩, trivial⟩))
  refine fun addresses => tries_control trivial (fun response _ _ => ?_)
  cases response with
  | ok bytes => exact ⟨⟨rfl, rfl⟩, trivial⟩
  | error error => exact ⟨rfl, rfl⟩

----------
-- The tree
----------

/-- The trees that there are when the bus may answer anything. -/
def Known (speed : Speed) (tree : Tree E) : Prop :=
  Session .free (fun _ => True) (fun _ _ => True) speed tree ()

/-- The addresses in use are those of the tree, which isn't too deep. -/
def Tree.Valid (tree : Tree E) : Prop :=
  Shown (.plain (fun _ => True) (fun _ _ => True)) tree ()

theorem enumerate_valid (speed : Speed)
    : (enumerate speed : BusProgram E _).Ensures .free
        (fun result _ => ∀ tree, result = .ok tree → tree.Valid) () := by
  refine Program.Ensures.mono (survey_free.enumerate_shown speed trivial) ?_
  rintro _ _ holds tree rfl
  exact holds

/-- A poll keeps that, and says what came and went. -/
theorem pollChanges_valid {tree : Tree E} (valid : tree.Valid)
    : tree.pollChanges.Ensures .free
        (fun result _ => result.1.Valid ∧ Differs tree.root result.2 result.1.root) () :=
  survey_free.pollChanges_shown valid

theorem Known.valid {speed : Speed} {tree : Tree E} (known : Known speed tree) : tree.Valid := by
  refine Session.invariant (I := fun tree _ => tree.Valid) known (fun _ _ => enumerate_valid speed)
    ?_ (fun _ _ _ valid _ => valid)
  intro tree _ valid
  exact (pollChanges_valid valid).mono (fun _ _ holds => holds.1)

/-- Whatever the bus answers, after enumeration and any polls: an address is marked as used exactly
if a device of the tree has it, these addresses are different and between 1 and 127, no device is
behind more than five hubs, and a poll reports exactly what came and went.
-/
theorem addresses_of_known {speed : Speed} {tree : Tree E} (known : Known speed tree)
    : (∀ address, tree.addresses.used address = true
        ↔ ∃ found ∈ tree.root.walk, found.2.address = address)
      ∧ (tree.root.walk.map (fun found => found.2.address)).Nodup
      ∧ (∀ found ∈ tree.root.walk,
          1 ≤ found.2.address ∧ found.2.address ≤ 127 ∧ found.1 ≤ 5)
      ∧ ∀ after changes,
          tree.pollChanges.Gets .free () (.done (after, changes)) ()
          → Differs tree.root changes after.root := by
  have valid := known.valid
  have exactly := valid.holds.kept.exactly
  rw [addresses_places] at exactly
  have addresses := addresses_walk tree.root
  refine ⟨fun address => ?_, ?_, ?_, fun after changes gets =>
    ((pollChanges_valid valid).gets gets).2⟩
  · rw [exactly.used, ← addresses, List.mem_map]
  · rw [addresses]
    exact exactly.nodup
  · intro found member
    obtain ⟨place, there, depth, _⟩ := places_of_mem_walk member
    have shallow := valid.holds.kept.shallow place there
    have range := exactly.range found.2.address
      (addresses ▸ List.mem_map.mpr ⟨found, member, rfl⟩)
    exact ⟨range.1, range.2, by rw [← depth]; exact Nat.le_of_lt_succ shallow⟩

/-- The descriptors of a device with a class, as answers to what enumeration asks. -/
def descriptors (deviceClass : UInt8) : List (Except Unit (List UInt8)) :=
  let device := [18, 1, 0, 2, deviceClass, 0, 0, 64, 0x24, 4, 0x14, 0x25, 0, 1, 0, 0, 0, 1]
  let configuration := [9, 2, 18, 0, 1, 1, 0, 0xE0, 0, 9, 4, 0, 0, 0, deviceClass, 0, 0, 0]
  [.ok device, .ok [], .ok [], .ok device, .ok configuration, .ok configuration, .ok []]

/-- A hub with one port, and a device on it. -/
def hubAndDevice : List (Except Unit (List UInt8)) :=
  descriptors 9 ++ [.ok [9, 0x29, 1, 0, 0, 50, 0, 0, 0xFF], .ok [], .ok [], .ok [1, 1, 0, 0],
    .ok [], .ok [], .ok [3, 5, 0x10, 0], .ok [], .ok [], .ok []] ++ descriptors 3

/-- The addresses of the devices in a tree that was enumerated, each with its depth. -/
def enumerated (later : BusProgram Unit (Except (Error Unit) (Tree Unit))) : List (Nat × Nat) :=
  match later with
  | .done (.ok tree) => tree.root.walk.map (fun found => (found.1, found.2.address))
  | _ => []

theorem addresses_of_hubAndDevice
    : ∃ tree : Tree Unit, Known .high tree
        ∧ tree.root.walk.map (fun found => (found.1, found.2.address)) = [(0, 1), (1, 2)]
        ∧ (tree.root.walk.map (fun found => found.2.address)).Nodup := by
  have executed : ((enumerate .high).follow (fun _ _ => true) hubAndDevice).any (fun later =>
      enumerated later = [(0, 1), (1, 2)]) = true := by
    decide +kernel
  obtain ⟨later, gets, found⟩ := Program.Gets.of_check .free (fun _ _ _ => trivial) executed
  have found := of_decide_eq_true found
  rcases later with (_ | tree) | _
  · cases found
  · have known : Known .high tree := .enumerated trivial gets
    exact ⟨tree, known, found, (addresses_of_known known).2.1⟩
  · cases found

----------
-- Translators
----------

mutual

/-- A device and everything behind it, each with the hubs above it and their ports on the way down, the
nearest first.
-/
def Device.routes (above : List (Device E × Nat)) : Device E → List (List (Device E × Nat) × Device E)
  | device@{ hub := none, .. } => [(above, device)]
  | device@{ hub := some ⟨_, ports⟩, .. } => (above, device) :: portsRoutes device above 1 ports

def portsRoutes (hub : Device E) (above : List (Device E × Nat))
    : Nat → List (Port (Device E) E) → List (List (Device E × Nat) × Device E)
  | _, [] => []
  | number, .device device :: rest =>
    device.routes ((hub, number) :: above) ++ portsRoutes hub above (number + 1) rest
  | number, .empty :: rest => portsRoutes hub above (number + 1) rest
  | number, .failed _ :: rest => portsRoutes hub above (number + 1) rest

end

mutual

theorem walk_routes (above : List (Device E × Nat))
    : ∀ device : Device E,
        (device.routes above).map (fun route => (route.1.length, route.2))
        = walkInto above.length device
  | { hub := none, .. } => rfl
  | { hub := some ⟨_, ports⟩, .. } => by
      rw [Device.routes, List.map_cons, walkPorts_routes _ above 1 ports, walkInto]

theorem walkPorts_routes (hub : Device E) (above : List (Device E × Nat)) (number : Nat)
    : ∀ ports : List (Port (Device E) E),
        (portsRoutes hub above number ports).map (fun route => (route.1.length, route.2))
        = walkPorts (above.length + 1) ports
  | [] => rfl
  | .device device :: rest => by
      rw [portsRoutes, List.map_append, walk_routes _ device, walkPorts_routes hub above _ rest,
        walkPorts, List.length_cons]
  | .empty :: rest | .failed _ :: rest => by
      rw [portsRoutes, walkPorts, walkPorts_routes hub above _ rest]

end

/-- The nearest high speed hub, and its port on the way down. -/
def nearest (above : List (Device E × Nat)) : Option Translator :=
  (above.find? (fun hop => hop.1.speed == .high)).map (fun hop =>
    { hub := hop.1.address, port := hop.2 })

theorem translatorFor_nearest {hub : Device E} {above : List (Device E × Nat)} {number : Nat}
    {speed : Speed} (own : hub.speed ≠ .high → hub.translator = nearest above) (slow : speed ≠ .high)
    : translatorFor hub.target number speed = nearest ((hub, number) :: above) := by
  obtain ⟨address, fast, translator, descriptor, configuration, ports⟩ := hub
  cases fast with
  | high =>
    cases speed with
    | high => exact absurd rfl slow
    | low | full => rfl
  | low | full => exact own nofun

mutual

/-- If a slow device has the nearest translator, so has everything behind it, by induction on the
tree.
-/
theorem nearest_of_fine
    : ∀ (device : Device E) (above : List (Device E × Nat)),
        device.Fine fit
        → (device.speed ≠ .high → device.translator = nearest above)
        → ∀ route ∈ device.routes above, route.2.speed ≠ .high → route.2.translator = nearest route.1
  | { hub := none, .. }, above, _, own, route, member => by
      rw [List.mem_singleton.mp member]
      exact own
  | { hub := some ⟨_, ports⟩, .. }, above, fine, own, route, member => by
      rcases List.mem_cons.mp member with rfl | behind
      · exact own
      · exact nearest_of_portsFine ports _ above 1 fine.2 own route behind

theorem nearest_of_portsFine
    : ∀ (ports : List (Port (Device E) E)) (hub : Device E) (above : List (Device E × Nat))
        (number : Nat),
        portsFine fit (translatorFor hub.target) number ports
        → (hub.speed ≠ .high → hub.translator = nearest above)
        → ∀ route ∈ portsRoutes hub above number ports,
            route.2.speed ≠ .high → route.2.translator = nearest route.1
  | .device device :: rest, hub, above, number, fine, own, route, member => by
      rcases List.mem_append.mp member with here | later
      · exact nearest_of_fine device _ fine.1.2
          (fun slow => fine.1.1.trans (translatorFor_nearest own slow)) route here
      · exact nearest_of_portsFine rest hub above _ fine.2 own route later
  | .empty :: rest, hub, above, number, fine, own, route, member
  | .failed _ :: rest, hub, above, number, fine, own, route, member =>
    nearest_of_portsFine rest hub above _ fine own route member

end

/-- The translators that devices have been reached through so far: for each address the one with which
the address was given, and at 0 the one with which the device there was first asked.
-/
abbrev Book := Nat → Option Translator

namespace Book

/-- The first that is asked of a device at address 0 may be through any translator, all else only
through that one.
-/
def Allows (book : Book) : Request → Prop
  | .control target setup =>
    (target.address = 0 ∧ setup.request = SetupPacket.getDescriptorRequest)
    ∨ book target.address = target.translator
  | .delay _ => True

def after (book : Book) : Request → Book
  | .control target setup =>
    if target.address ≠ 0 then book
    else if setup.request = SetupPacket.setAddressRequest then
      update book setup.value target.translator
    else update book 0 target.translator
  | .delay _ => book

/-- Whatever the bus answers, with the translators used so far. -/
def bus : Setting Book Request (Except E (List UInt8)) where
  allowed := Allows
  answers book request _ later := later = book.after request

/-- Each device is reached through the translator that it has. -/
def Settled (known : List Place) (book : Book) : Prop := ∀ place ∈ known, book place.2.1 = place.2.2

abbrev stages : Stages Book :=
  .quiet Settled (fun translator book => book 0 = translator) (fun _ => True) (fun _ _ => True)

variable {book : Book} {known : List Place}

theorem Settled.update {address : Nat} (settled : Settled known book)
    (unknown : ∀ path, (path, address) ∉ sites known) (translator : Option Translator)
    : Settled known (update book address translator) := by
  intro place member
  have other : place.2.1 ≠ address := by
    rintro rfl
    exact unknown place.1 (List.mem_map.mpr ⟨place, member, rfl⟩)
  rw [update_of_ne other]
  exact settled place member

theorem survey : Survey (E := E) bus stages := by
  refine .quiet (fun _ _ _ subset settled place member => settled place (subset place member))
    ⟨trivial, fun _ _ => trivial, fun _ _ => trivial⟩
    (fun ms book addresses => tries_delay trivial (fun _ _ later => ⟨⟨rfl, later⟩, trivial⟩)) ?_ ?_ ?_
  · intro target setup path known book numbered settled listed _ addresses
    have nonzero : target.address ≠ 0 :=
      numbered.nonzero _ (List.mem_map.mpr ⟨_, listed, rfl⟩)
    refine tries_control (.inr (settled _ listed)) (fun response _ later => ?_)
    obtain rfl := later.trans (if_pos nonzero)
    cases response with
    | ok bytes => exact ⟨⟨rfl, rfl⟩, trivial⟩
    | error error => exact ⟨rfl, rfl⟩
  · intro target length known book addresses numbered settled zero _
    refine tries_control (.inl ⟨zero, rfl⟩) (fun response _ later => ?_)
    have asked : SetupPacket.getDescriptorRequest ≠ SetupPacket.setAddressRequest := by decide
    obtain rfl := later.trans ((if_neg (not_not.mpr zero)).trans (if_neg asked))
    have settled := settled.update (fun path member => numbered.nonzero _ member rfl)
      target.translator
    cases response with
    | ok bytes => exact ⟨⟨rfl, settled, update_self _ _ _⟩, trivial⟩
    | error error => exact ⟨rfl, settled⟩
  · intro target address port known book numbered settled reached zero _ addresses
    refine tries_control (.inr (zero ▸ reached)) (fun response _ later => ?_)
    obtain rfl := later.trans ((if_neg (not_not.mpr zero)).trans (if_pos rfl))
    have settled : Settled (known ++ [(port, address, target.translator)])
        (update book address target.translator) := by
      intro place member
      rcases List.mem_append.mp member with earlier | last
      · exact settled.update numbered.unknown target.translator place earlier
      · rw [List.mem_singleton.mp last]
        exact update_self _ _ _
    cases response with
    | ok bytes => exact ⟨rfl, settled⟩
    | error error => exact ⟨rfl, settled⟩

/-- The trees that enumeration and any polls leave. -/
abbrev Session (speed : Speed) (tree : Tree E) (book : Book) : Prop :=
  Usb.Session bus (fun _ => True) (fun before after => after = before) speed tree book

theorem shown_of_session {speed : Speed} {tree : Tree E} (session : Session speed tree book)
    : Shown stages tree book := by
  refine session.invariant (I := Shown stages)
    (fun _ _ => (survey.enumerate_shown speed nofun).mono ?_)
    (fun _ _ shown => (survey.pollChanges_shown shown).mono (fun _ _ holds => holds.1)) ?_
  · rintro _ _ holds tree rfl
    exact holds
  · rintro _ _ _ shown rfl
    exact shown

end Book

/-- Whatever the bus answers, after enumeration and any polls: a slow device has the nearest high speed
hub above it as its translator, with the port of that hub on the way down, or none if there is no such
hub. Each device is reached through the translator that it has: its own target says so, and so do all
transfers of an enumeration or poll.
-/
theorem translators_of_session {speed : Speed} {tree : Tree E} {book : Book}
    (session : Book.Session speed tree book)
    : (∀ route ∈ tree.root.routes [],
        route.2.speed ≠ .high → route.2.translator = nearest route.1)
      ∧ (tree.root.routes []).map (fun route => (route.1.length, route.2)) = tree.root.walk
      ∧ (∀ found ∈ tree.root.walk, found.2.target.translator = book found.2.address)
      ∧ (∀ request next later,
          tree.pollChanges.Gets Book.bus book (.call request next) later
          → later.Allows request)
      ∧ ∀ speed before request next later,
          (enumerate speed : BusProgram E _).Gets Book.bus before (.call request next) later
          → later.Allows request := by
  have shown := Book.shown_of_session session
  refine ⟨?_, walk_routes [] tree.root, ?_, ?_, ?_⟩
  · exact nearest_of_fine tree.root [] shown.fine (fun _ => shown.direct)
  · intro found member
    obtain ⟨place, there, _, same⟩ := places_of_mem_walk member
    have settled := shown.holds.settled place there
    rw [same] at settled
    exact settled.symm
  · intro request next later gets
    exact ((Book.survey.pollChanges_shown shown).gets gets).1
  · intro speed before request next later gets
    exact ((Book.survey.enumerate_shown speed nofun).gets gets).1

/-- Answers with the next of a list, whatever is asked. -/
def Book.reply : List (Except Unit (List UInt8)) × Book → Request
    → Option (Except Unit (List UInt8) × List (Except Unit (List UInt8)) × Book)
  | (answer :: rest, book), request => some (answer, rest, book.after request)
  | ([], _), _ => none

theorem Book.answers_reply {server after : List (Except Unit (List UInt8)) × Book}
    {request : Request} {response : Except Unit (List UInt8)}
    (replied : reply server request = some (response, after))
    : bus.answers server.2 request response after.2 := by
  obtain ⟨_ | ⟨answer, rest⟩, book⟩ := server
  · cases replied
  · cases replied
    rfl

/-- The speeds and translators of the devices in a tree that was enumerated. -/
def translators (later : BusProgram Unit (Except (Error Unit) (Tree Unit)))
    : List (Speed × Option Translator) :=
  match later with
  | .done (.ok tree) => tree.root.walk.map (fun found => (found.2.speed, found.2.translator))
  | _ => []

/-- A high speed hub with a low speed device on its port. -/
theorem translators_of_slowDevice
    : ∃ (tree : Tree Unit) (book : Book), Book.Session .high tree book
        ∧ translators (.done (.ok tree)) = [(.high, none), (.low, some ⟨1, 1⟩)]
        ∧ ∀ route ∈ tree.root.routes [],
            route.2.speed ≠ .high → route.2.translator = nearest route.1 := by
  have executed : ((enumerate .high).serve Book.reply hubAndDevice.length
      (hubAndDevice.set 13 (.ok [3, 3, 0x10, 0]), fun _ => none)).any (fun reached =>
        translators reached.1 = [(.high, none), (.low, some ⟨1, 1⟩)]) = true := by
    decide +kernel
  obtain ⟨later, after, gets, found⟩ :=
    Program.Gets.of_served Prod.snd (fun _ _ _ _ => Book.answers_reply) executed
  have found := of_decide_eq_true found
  rcases later with (_ | tree) | _
  · cases found
  · have session : Book.Session .high tree after.2 := .enumerated trivial gets
    exact ⟨tree, after.2, session, found, (translators_of_session session).1⟩
  · cases found

end RustyPi.Usb
