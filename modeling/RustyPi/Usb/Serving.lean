import RustyPi.Usb.Trees

/-! The keyboard in use, `serve` of `src/sys/usb.rs`: every hot-plug poll looks for devices that came or
went, forgets the keyboard if that went, and sets up one if there is none. Beside its state goes since
when each address has been the same device's.
-/

namespace RustyPi.Usb

open RustyPi.Calls

variable {E : Type} {address : Nat} {all : List Change}

/-- An interrupt endpoint to poll. -/
structure InterruptIn where
  target : Target
  endpoint : Nat
  maxPacket : Nat
  deriving DecidableEq, Repr

/-- A boot protocol keyboard found on the bus. -/
structure Keyboard where
  target : Target
  interface : Nat
  input : InterruptIn
  pollMs : Nat
  deriving DecidableEq, Repr

def minPollMs : Nat := 10

def Device.keyboard (device : Device E) : Option Keyboard := do
  let interface ← device.configuration.interfaces.find? Interface.isBootKeyboard
  let endpoint ← interface.endpoint .interrupt .into
  return {
    target := device.target
    interface := interface.number
    input := {
      target := device.target, endpoint := endpoint.number, maxPacket := endpoint.maxPacketSize }
    pollMs := max endpoint.interval minPollMs }

/-- The first boot protocol keyboard on the bus, other than at an address. -/
def findKeyboard (root : Device E) (skip : Option Nat) : Option Keyboard :=
  (root.walk.filter (fun found => some found.2.address ≠ skip)).findSome?
    (fun found => found.2.keyboard)

/-- Switches a keyboard to boot protocol reports. Not reporting while nothing changes is optional. -/
def setUp (keyboard : Keyboard) : BusProgram E (Except E Unit) :=
  .call (.control keyboard.target (.setProtocol keyboard.interface true)) (fun response =>
    match response with
    | .error error => .done (.error error)
    | .ok _ => .call (.control keyboard.target (.setIdle keyboard.interface)) (fun _ => .done (.ok ())))

----------
-- What stays
----------

mutual

/-- The addresses of the devices that are still there: neither they nor a hub above them was removed.
-/
def Device.remaining (changes : List Change) : Device E → List Nat
  | { address, hub := none, .. } => [address]
  | { address, hub := some ⟨_, ports⟩, .. } => address :: portsRemaining changes ports

def portsRemaining (changes : List Change) : List (Port (Device E) E) → List Nat
  | [] => []
  | .device device :: rest =>
    (if .removed device.address ∈ changes then [] else device.remaining changes)
    ++ portsRemaining changes rest
  | .empty :: rest => portsRemaining changes rest
  | .failed _ :: rest => portsRemaining changes rest

end

mutual

/-- The addresses of what is behind the hub at an address. -/
def Device.behind (hub : Nat) : Device E → List Nat
  | { hub := none, .. } => []
  | { address, hub := some ⟨_, ports⟩, .. } =>
    if address = hub then portsAddresses ports else portsBehind hub ports

def portsBehind (hub : Nat) : List (Port (Device E) E) → List Nat
  | [] => []
  | .device device :: rest => device.behind hub ++ portsBehind hub rest
  | .empty :: rest => portsBehind hub rest
  | .failed _ :: rest => portsBehind hub rest

end

mutual

theorem remaining_subset
    : ∀ {before after : Device E} {changes : List Change}, Differs before changes after
        → changes ⊆ all → before.remaining all ⊆ after.addresses
  | { address, hub := none, .. }, after, changes, differs, within => by
      cases differs with
      | leaf => exact fun _ member => member
      | hub isHub => cases isHub
  | { address, hub := some ⟨descriptor, ports⟩, .. }, after, changes, differs, within => by
      cases differs with
      | leaf noHub => cases noHub
      | hub isHub differ =>
        cases isHub
        exact List.cons_subset_cons _ (portsRemaining_subset differ within)

theorem portsRemaining_subset
    : ∀ {before after : List (Port (Device E) E)} {changes : List Change},
        PortsDiffer before changes after
        → changes ⊆ all → portsRemaining all before ⊆ portsAddresses after
  | [], after, changes, differ, within => List.nil_subset _
  | .device device :: rest, after, changes, differ, within => by
      cases differ with
      | @cons _ port changes more _ later first others =>
        obtain ⟨here, further⟩ := List.append_subset.mp within
        have rest := portsRemaining_subset others further
        rw [portsRemaining, ← List.singleton_append, portsAddresses_append]
        refine List.append_subset.mpr ⟨?_, List.subset_append_of_subset_right _ rest⟩
        refine List.subset_append_of_subset_left _ ?_
        split
        · exact List.nil_subset _
        · rename_i stays
          cases first with
          | same differs =>
            rw [addresses_single]
            exact remaining_subset differs here
          | still vacant => cases vacant
          | came vacant => cases vacant
          | went => exact absurd (here (.head _)) stays
          | swapped => exact absurd (here (.head _)) stays
  | .empty :: rest, after, changes, differ, within
  | .failed _ :: rest, after, changes, differ, within => by
      cases differ with
      | @cons _ port changes more _ later first others =>
        have rest := portsRemaining_subset others (List.append_subset.mp within).2
        rw [portsRemaining, ← List.singleton_append, portsAddresses_append]
        exact List.subset_append_of_subset_right _ rest

end

theorem eq_or_mem_behind {device : Device E} (member : address ∈ device.addresses)
    : address = device.address ∨ address ∈ device.behind device.address := by
  obtain ⟨own, _, _, _, _, _ | ⟨_, ports⟩⟩ := device
  · exact .inl (List.mem_singleton.mp member)
  · rw [Device.behind, if_pos rfl]
    exact List.mem_cons.mp member

mutual

/-- What isn't behind a device that was removed stays, or was removed itself. -/
theorem mem_remaining {changes : List Change} (stays : .removed address ∉ changes)
    : ∀ device : Device E, address ∈ device.addresses
        → (∀ hub, .removed hub ∈ changes → address ∉ device.behind hub)
        → address ∈ device.remaining changes
  | { hub := none, .. }, member, _ => member
  | { address := own, hub := some ⟨_, ports⟩, .. }, member, apart => by
      rcases List.mem_cons.mp member with rfl | behind
      · exact .head _
      · refine .tail _ (mem_portsRemaining stays ports behind (fun hub removed => ?_))
        have apart := apart hub removed
        rw [Device.behind] at apart
        split at apart
        · exact absurd behind apart
        · exact apart

theorem mem_portsRemaining {changes : List Change} (stays : .removed address ∉ changes)
    : ∀ ports : List (Port (Device E) E), address ∈ portsAddresses ports
        → (∀ hub, .removed hub ∈ changes → address ∉ portsBehind hub ports)
        → address ∈ portsRemaining changes ports
  | .device device :: rest, member, apart => by
      have here (hub : Nat) (removed : .removed hub ∈ changes) : address ∉ device.behind hub :=
        fun inside => apart hub removed (List.mem_append_left _ inside)
      rw [portsRemaining]
      rcases List.mem_append.mp member with inside | later
      · refine List.mem_append_left _ ?_
        split
        · rename_i removed
          rcases eq_or_mem_behind inside with rfl | behind
          · exact absurd removed stays
          · exact absurd behind (here _ removed)
        · exact mem_remaining stays device inside here
      · exact List.mem_append_right _ (mem_portsRemaining stays rest later (fun hub removed inside =>
          apart hub removed (List.mem_append_right _ inside)))
  | .empty :: rest, member, apart | .failed _ :: rest, member, apart =>
    mem_portsRemaining stays rest member apart

end

----------
-- The serving loop
----------

/-- What the loop keeps between hot-plug polls. The number of polls, and when things happened by it,
only say what happened.
-/
structure Serving (E : Type) where
  tree : Tree E
  /-- The keyboard in use, and the poll that it was set up in. -/
  keyboard : Option (Keyboard × Nat)
  /-- The address of a keyboard that wouldn't set up, left alone until it is unplugged; and the poll
  that it was refused in.
  -/
  refused : Option (Nat × Nat)
  polls : Nat
  /-- The poll since which the device at an address is the same. -/
  since : Nat → Nat

namespace Serving

def start (tree : Tree E) : Serving E :=
  { tree, keyboard := none, refused := none, polls := 0, since := fun _ => 0 }

/-- A device came or went: forgets the keyboard in use, or the one refused, if it went. -/
def note (serving : Serving E) : Change → Serving E
  | .added _ => serving
  | .removed address =>
    { serving with
      keyboard := serving.keyboard.filter (fun used => used.1.target.address ≠ address)
      refused := serving.refused.filter (fun refused => refused.1 ≠ address) }

/-- The tree after a poll, with what came and went. -/
def changed (serving : Serving E) (tree : Tree E) (changes : List Change) : Serving E :=
  changes.foldl note { serving with
    tree
    polls := serving.polls + 1
    since := fun address =>
      if address ∈ serving.tree.root.remaining changes then serving.since address
      else serving.polls + 1 }

/-- Sets up a keyboard, if there is none in use. -/
def findAndSetUp (serving : Serving E) : BusProgram E (Serving E) :=
  match serving.keyboard with
  | some _ => .done serving
  | none =>
    match findKeyboard serving.tree.root (serving.refused.map Prod.fst) with
    | none => .done serving
    | some found => do
        match ← setUp found with
        | .ok () => .done { serving with keyboard := some (found, serving.polls) }
        | .error _ => .done { serving with refused := some (found.target.address, serving.polls) }

/-- A hot-plug poll, with what it reports. -/
def hotplug (serving : Serving E) : BusProgram E (Serving E × List Change) := do
  let (tree, changes) ← serving.tree.pollChanges
  let serving ← (serving.changed tree changes).findAndSetUp
  return (serving, changes)

/-- The states after the hot-plug polls that meet a guard, whatever the bus answers. -/
inductive After (speed : Speed) (guard : Serving E → List Change → Prop) : Serving E → Prop
  | enumerated {tree : Tree E} (gets : (enumerate speed).Gets .free () (.done (.ok tree)) ())
    : After speed guard (start tree)
  | polled {serving next : Serving E} {changes : List Change}
    (earlier : After speed guard serving)
    (gets : serving.hotplug.Gets .free () (.done (next, changes)) ())
    (allowed : guard serving changes)
    : After speed guard next

def anyPoll (_ : Serving E) (_ : List Change) : Prop := True

/-- The keyboard in use and the one refused aren't behind a device that was removed. -/
def Apart (serving : Serving E) (changes : List Change) : Prop :=
  ∀ hub, .removed hub ∈ changes
    → (∀ used ∈ serving.keyboard, used.1.target.address ∉ serving.tree.root.behind hub)
      ∧ ∀ refused ∈ serving.refused, refused.1 ∉ serving.tree.root.behind hub

/-- A device is in the tree, and has been since a poll. -/
def Present (serving : Serving E) (address poll : Nat) : Prop :=
  (∃ found ∈ serving.tree.root.walk, found.2.address = address) ∧ serving.since address ≤ poll

theorem mem_walk {root : Device E}
    : (∃ found ∈ root.walk, found.2.address = address) ↔ address ∈ root.addresses := by
  rw [← addresses_walk root, List.mem_map]

/-- Noting changes one by one forgets what is among those removed. By induction on the changes. -/
theorem foldl_note (changes : List Change) (serving : Serving E)
    : changes.foldl note serving
      = { serving with
          keyboard := serving.keyboard.filter (fun used =>
            .removed used.1.target.address ∉ changes)
          refused := serving.refused.filter (fun refused => .removed refused.1 ∉ changes) } := by
  induction changes generalizing serving with
  | nil =>
    obtain ⟨tree, keyboard, refused, polls, since⟩ := serving
    cases keyboard <;> cases refused <;> rfl
  | cons change rest ih =>
    rw [List.foldl_cons, ih]
    cases change with
    | added address => simp [note]
    | removed address => simp [note, Option.filter_filter]

/-- The keyboards of a state are in its tree, and have been since they were set up or refused. -/
structure Held (serving : Serving E) : Prop where
  valid : serving.tree.Valid
  past : ∀ address, serving.since address ≤ serving.polls
  keyboard : ∀ used ∈ serving.keyboard, serving.Present used.1.target.address used.2
  refused : ∀ refused ∈ serving.refused, serving.Present refused.1 refused.2

variable {serving : Serving E} {changes : List Change}

/-- What is kept of a keyboard through the changes is still there. -/
theorem present_changed {tree : Tree E} {poll : Nat} (present : serving.Present address poll)
    (differs : Differs serving.tree.root changes tree.root) (stays : .removed address ∉ changes)
    (apart : ∀ hub, .removed hub ∈ changes → address ∉ serving.tree.root.behind hub)
    : (serving.changed tree changes).Present address poll := by
  have remains := mem_remaining stays _ (mem_walk.mp present.1) apart
  rw [changed, foldl_note]
  refine ⟨mem_walk.mpr (remaining_subset differs (List.Subset.refl _) remains), ?_⟩
  dsimp only
  rw [if_pos remains]
  exact present.2

theorem Held.changed {tree : Tree E} (held : serving.Held) (valid : tree.Valid)
    (differs : Differs serving.tree.root changes tree.root) (apart : serving.Apart changes)
    : (serving.changed tree changes).Held := by
  have noted := foldl_note changes { serving with
    tree
    polls := serving.polls + 1
    since := fun address =>
      if address ∈ serving.tree.root.remaining changes then serving.since address
      else serving.polls + 1 }
  constructor
  case valid =>
    rw [Serving.changed, noted]
    exact valid
  case past =>
    intro address
    rw [Serving.changed, noted]
    dsimp only
    split
    · exact Nat.le_succ_of_le (held.past address)
    · exact Nat.le_refl _
  case keyboard =>
    intro used kept
    rw [Serving.changed, noted, Option.mem_def, Option.filter_eq_some_iff] at kept
    exact present_changed (held.keyboard used kept.1) differs (of_decide_eq_true kept.2)
      (fun hub removed => (apart hub removed).1 used kept.1)
  case refused =>
    intro refused kept
    rw [Serving.changed, noted, Option.mem_def, Option.filter_eq_some_iff] at kept
    exact present_changed (held.refused refused kept.1) differs (of_decide_eq_true kept.2)
      (fun hub removed => (apart hub removed).2 refused kept.1)

theorem findKeyboard_inv {root : Device E} {skip : Option Nat} {keyboard : Keyboard}
    (found : findKeyboard root skip = some keyboard)
    : ∃ found ∈ root.walk, found.2.address = keyboard.target.address := by
  obtain ⟨place, member, is⟩ := List.exists_of_findSome?_eq_some found
  refine ⟨place, (List.mem_filter.mp member).1, ?_⟩
  obtain ⟨interface, _, is⟩ := Option.bind_eq_some_iff.mp is
  obtain ⟨endpoint, _, is⟩ := Option.bind_eq_some_iff.mp is
  cases is
  rfl

theorem Held.findAndSetUp (held : serving.Held)
    : serving.findAndSetUp.Ensures .free (fun next _ => next.Held) () := by
  unfold Serving.findAndSetUp
  split
  · exact held
  · split
    · exact held
    · rename_i keyboard found
      have present : serving.Present keyboard.target.address serving.polls :=
        ⟨findKeyboard_inv found, held.past _⟩
      have used : ({ serving with keyboard := some (keyboard, serving.polls) } : Serving E).Held := by
        refine ⟨held.valid, held.past, ?_, held.refused⟩
        rintro _ ⟨⟩
        exact present
      have refused : ({ serving with
          refused := some (keyboard.target.address, serving.polls) } : Serving E).Held := by
        refine ⟨held.valid, held.past, held.keyboard, ?_⟩
        rintro _ ⟨⟩
        exact present
      refine Program.Ensures.bind ⟨trivial, fun response _ _ => ?_⟩
      cases response with
      | error error => exact refused
      | ok bytes => exact ⟨trivial, fun _ _ _ => used⟩

/-- A hot-plug poll keeps that, if the keyboards are apart from what was removed. -/
theorem Held.hotplug {next : Serving E} (held : serving.Held)
    (gets : serving.hotplug.Gets .free () (.done (next, changes)) ())
    (apart : serving.Apart changes)
    : next.Held := by
  obtain ⟨⟨tree, reported⟩, _, polled, rest⟩ := gets.of_bind
  obtain ⟨settled, _, setUp, finished⟩ := rest.of_bind
  cases finished
  obtain ⟨valid, differs⟩ := (pollChanges_valid held.valid).gets polled
  exact (held.changed valid differs apart).findAndSetUp.gets setUp

theorem After.held {speed : Speed} (after : After speed Apart serving)
    : serving.Held := by
  induction after with
  | enumerated gets =>
    have valid := (enumerate_valid speed).gets gets _ rfl
    exact ⟨valid, fun _ => Nat.le_refl _, nofun, nofun⟩
  | polled _ gets allowed ih => exact ih.hotplug gets allowed

/-- If nothing is removed that has the keyboard in use or the one refused behind it, then after every
hot-plug poll these are in the tree, and have been since they were set up or refused.
-/
theorem present_of_after {speed : Speed} {serving : Serving E} (after : After speed Apart serving)
    : (∀ used ∈ serving.keyboard, serving.Present used.1.target.address used.2)
      ∧ ∀ refused ∈ serving.refused, serving.Present refused.1 refused.2 :=
  ⟨after.held.keyboard, after.held.refused⟩

----------
-- A keyboard behind a hub
----------

/-- The descriptors of a boot protocol keyboard, as answers to what enumeration asks. -/
def keyboardDescriptors : List (Except Unit (List UInt8)) :=
  let device := [18, 1, 0, 2, 0, 0, 0, 8, 0x24, 4, 0x14, 0x25, 0, 1, 0, 0, 0, 1]
  let configuration := [9, 2, 25, 0, 1, 1, 0, 0xA0, 50, 9, 4, 0, 0, 1, 3, 1, 1, 0, 7, 5, 0x81, 3, 8,
    0, 10]
  [.ok device, .ok [], .ok [], .ok device, .ok configuration, .ok configuration, .ok []]

/-- A hub with one port, which has a device on it that is then reset. -/
def hubWithDevice : List (Except Unit (List UInt8)) :=
  descriptors 9 ++ [.ok [9, 0x29, 1, 0, 0, 50, 0, 0, 0xFF], .ok [], .ok [], .ok [1, 1, 0, 0],
    .ok [], .ok [], .ok [3, 5, 0x10, 0], .ok [], .ok [], .ok []]

/-- Enumeration and so many hot-plug polls, with everything that they report. -/
def served (speed : Speed) : Nat → BusProgram E (Except (Error E) (Serving E × List Change))
  | 0 => do
      let result ← enumerate speed
      return result.map (fun tree => (start tree, []))
  | polls + 1 => do
      match ← served speed polls with
      | .error error => return .error error
      | .ok (serving, earlier) =>
        let (serving, changes) ← serving.hotplug
        return .ok (serving, earlier ++ changes)

theorem after_of_served {speed : Speed} {guard : Serving E → List Change → Prop} {polls : Nat}
    (gets : (served speed polls).Gets .free () (.done (.ok (serving, all))) ())
    (allowed : ∀ serving changes, changes ⊆ all → guard serving changes)
    : After speed guard serving := by
  induction polls generalizing serving all with
  | zero =>
    obtain ⟨result, _, enumerated, finished⟩ := gets.of_bind
    cases result with
    | error error => cases finished
    | ok tree =>
      cases finished
      exact .enumerated enumerated
  | succ polls ih =>
    obtain ⟨result, _, earlier, later⟩ := gets.of_bind
    cases result with
    | error error => cases later
    | ok before =>
      obtain ⟨⟨next, changes⟩, _, polled, finished⟩ := later.of_bind
      cases finished
      refine .polled (ih earlier (fun serving changes within => ?_)) polled ?_
      · exact allowed serving changes (List.subset_append_of_subset_left _ within)
      · exact allowed _ changes (List.subset_append_right _ _)

/-- What a program came to: the address of the keyboard in use, those in the tree, and what changed.
-/
def outcome (later : BusProgram Unit (Except (Error Unit) (Serving Unit × List Change)))
    : Option (Option Nat × List Nat × List Change) :=
  match later with
  | .done (.ok (serving, changes)) =>
    some (serving.keyboard.map (fun used => used.1.target.address), serving.tree.root.addresses,
      changes)
  | _ => none

/-- A run of so many polls on given answers, by what it comes to. -/
theorem served_of_follow (polls : Nat) (answers : List (Except Unit (List UInt8)))
    (address : Nat) (addresses : List Nat) (changes : List Change)
    (executed : ((served .high polls).follow (fun _ _ => true) answers).any (fun later =>
      decide (outcome later = some (some address, addresses, changes))) = true)
    : ∃ serving : Serving Unit,
        (served .high polls).Gets .free () (.done (.ok (serving, changes))) ()
        ∧ serving.tree.root.addresses = addresses
        ∧ ∃ used ∈ serving.keyboard, used.1.target.address = address := by
  obtain ⟨later, gets, found⟩ := Program.Gets.of_check .free (fun _ _ _ => trivial) executed
  have found := of_decide_eq_true found
  rcases later with (_ | ⟨serving, reported⟩) | _
  · cases found
  · obtain ⟨keyboard, rest⟩ := Prod.mk.inj (Option.some.inj found)
    obtain ⟨same, rfl⟩ := Prod.mk.inj rest
    obtain ⟨used, isUsed, there⟩ := Option.map_eq_some_iff.mp keyboard
    exact ⟨serving, gets, same, used, isUsed, there⟩
  · cases found

/-- What the bus answers up to the end of the first poll, which sees no change and sets up the
keyboard, at address 3.
-/
def untilSetUp : List (Except Unit (List UInt8)) :=
  hubWithDevice ++ hubWithDevice ++ keyboardDescriptors
    ++ [.ok [3, 5, 0, 0], .ok [3, 5, 0, 0], .ok [], .ok []]

/-- A keyboard is in use behind a hub on the root hub's port; then the hub is pulled out. The keyboard
stays in use, with nothing left in the tree but the root hub.
-/
theorem absent_of_hubRemoved
    : ∃ serving : Serving Unit, After .high anyPoll serving
        ∧ ∃ used ∈ serving.keyboard, ¬serving.Present used.1.target.address used.2 := by
  obtain ⟨serving, gets, left, used, isUsed, there⟩ :=
    served_of_follow 2 (untilSetUp ++ [.ok [0, 1, 1, 0], .ok []]) 3 [1] [.removed 2]
      (by decide +kernel)
  refine ⟨serving, after_of_served gets (fun _ _ _ => trivial), used, isUsed, ?_⟩
  rintro ⟨found, _⟩
  have listed := mem_walk.mp found
  rw [left, there] at listed
  cases List.mem_singleton.mp listed

/-- Witness: the keyboard is set up behind the hub, and there. -/
theorem present_of_setUp
    : ∃ serving : Serving Unit, After .high Apart serving
        ∧ ∃ used ∈ serving.keyboard, used.1.target.address = 3
          ∧ serving.Present used.1.target.address used.2 := by
  obtain ⟨serving, gets, _, used, isUsed, there⟩ :=
    served_of_follow 1 untilSetUp 3 [1, 2, 3] [] (by decide +kernel)
  have after : After .high Apart serving := by
    refine after_of_served gets (fun _ changes within hub removed => ?_)
    cases within removed
  exact ⟨serving, after, used, isUsed, there, (present_of_after after).1 used isUsed⟩

end Serving

end RustyPi.Usb
