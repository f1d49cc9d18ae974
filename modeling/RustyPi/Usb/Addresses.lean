import Mathlib.Data.List.Infix
import Mathlib.Data.List.Nodup
import RustyPi.Usb.Tree

/-! The addresses of a tree's devices and where they are. The addresses in use are carried as a list:
those in use are exactly the ones on it, each once.
-/

namespace RustyPi.Usb

open RustyPi.Calls

variable {E : Type}

/-- The numbers of the ports on the way from the root port, which is the empty path. -/
abbrev Path := List Nat

/-- Where a device is, its address, and the translator it is reached through. -/
abbrev Place := Path × Nat × Option Translator

/-- The place of a device that is reached as a target. -/
abbrev Target.place (target : Target) (path : Path) : Place :=
  (path, target.address, target.translator)

/-- The places without the translators. -/
def sites (known : List Place) : List (Path × Nat) :=
  known.map (fun place => (place.1, place.2.1))

@[simp]
theorem sites_append (known other : List Place) : sites (known ++ other) = sites known ++ sites other :=
  List.map_append

theorem mem_sites {known : List Place} {target : Target} {path : Path}
    (listed : target.place path ∈ known)
    : (path, target.address) ∈ sites known :=
  List.mem_map.mpr ⟨_, listed, rfl⟩

mutual

/-- The addresses of a device and of everything behind it. -/
def Device.addresses : Device E → List Nat
  | { address, hub := none, .. } => [address]
  | { address, hub := some ⟨_, ports⟩, .. } => address :: portsAddresses ports

def portsAddresses : List (Port (Device E) E) → List Nat
  | [] => []
  | .device device :: rest => device.addresses ++ portsAddresses rest
  | .empty :: rest => portsAddresses rest
  | .failed _ :: rest => portsAddresses rest

end

theorem portsAddresses_append (first second : List (Port (Device E) E))
    : portsAddresses (first ++ second) = portsAddresses first ++ portsAddresses second := by
  induction first with
  | nil => rfl
  | cons port rest ih =>
    cases port with
    | empty | failed => simp [portsAddresses, ih]
    | device device => simp [portsAddresses, ih]

theorem addresses_single (device : Device E)
    : portsAddresses [.device device] = device.addresses := by
  rw [portsAddresses, portsAddresses, List.append_nil]

mutual

/-- Where a device is and everything behind it. -/
def Device.places (path : Path) : Device E → List Place
  | { address, translator, hub := none, .. } => [(path, address, translator)]
  | { address, translator, hub := some ⟨_, ports⟩, .. } =>
    (path, address, translator) :: portsPlaces path 1 ports

/-- What is on the ports of a hub, from a number on. -/
def portsPlaces (hub : Path) : Nat → List (Port (Device E) E) → List Place
  | _, [] => []
  | number, .device device :: rest =>
    device.places (hub ++ [number]) ++ portsPlaces hub (number + 1) rest
  | number, .empty :: rest => portsPlaces hub (number + 1) rest
  | number, .failed _ :: rest => portsPlaces hub (number + 1) rest

end

def Port.places (path : Path) : Port (Device E) E → List Place
  | .device found => found.places path
  | .empty | .failed _ => []

theorem portsPlaces_cons (hub : Path) (number : Nat) (port : Port (Device E) E)
    (rest : List (Port (Device E) E))
    : portsPlaces hub number (port :: rest)
      = port.places (hub ++ [number]) ++ portsPlaces hub (number + 1) rest := by
  cases port with
  | device device => rfl
  | empty | failed => rfl

mutual

theorem addresses_places
    : ∀ (device : Device E) (path : Path), (device.places path).map (fun place => place.2.1) = device.addresses
  | { hub := none, .. }, path => rfl
  | { hub := some ⟨_, ports⟩, .. }, path => by
      rw [Device.places, List.map_cons, addresses_portsPlaces ports path 1, Device.addresses]

theorem addresses_portsPlaces
    : ∀ (ports : List (Port (Device E) E)) (hub : Path) (number : Nat),
        (portsPlaces hub number ports).map (fun place => place.2.1) = portsAddresses ports
  | [], hub, number => rfl
  | .device device :: rest, hub, number => by
      rw [portsPlaces, List.map_append, addresses_places device, addresses_portsPlaces rest,
        portsAddresses]
  | .empty :: rest, hub, number | .failed _ :: rest, hub, number => by
      rw [portsPlaces, portsAddresses, addresses_portsPlaces rest]

end

theorem mem_places (device : Device E) (path : Path)
    : device.target.place path ∈ device.places path := by
  obtain ⟨_, _, _, _, _, _ | _⟩ := device
  · exact List.mem_singleton.mpr rfl
  · exact List.mem_cons_self

theorem addresses_portPlaces (port : Port (Device E) E) (path : Path)
    : (port.places path).map (fun place => place.2.1) = portsAddresses [port] := by
  cases port with
  | device device =>
    rw [addresses_single]
    exact addresses_places device path
  | empty | failed => rfl

mutual

theorem walkInto_places (path : Path)
    : ∀ device : Device E,
        (walkInto path.length device).map
          (fun found => (found.1, found.2.address, found.2.translator))
        = (device.places path).map (fun place => (place.1.length, place.2))
  | { hub := none, .. } => rfl
  | { hub := some ⟨_, ports⟩, .. } => by
      rw [walkInto, List.map_cons, walkPorts_places path 1 ports, Device.places, List.map_cons]

theorem walkPorts_places (hub : Path) (number : Nat)
    : ∀ ports : List (Port (Device E) E),
        (walkPorts (hub.length + 1) ports).map
          (fun found => (found.1, found.2.address, found.2.translator))
        = (portsPlaces hub number ports).map (fun place => (place.1.length, place.2))
  | [] => rfl
  | .device device :: rest => by
      have here := walkInto_places (hub ++ [number]) device
      rw [List.length_append, List.length_singleton] at here
      rw [walkPorts, List.map_append, here, walkPorts_places hub (number + 1) rest, portsPlaces,
        List.map_append]
  | .empty :: rest | .failed _ :: rest => by
      rw [walkPorts, portsPlaces, walkPorts_places hub (number + 1) rest]

end

theorem places_of_mem_walk {device : Device E} {found : Nat × Device E} (member : found ∈ device.walk)
    : ∃ place ∈ device.places [], place.1.length = found.1
        ∧ place.2 = (found.2.address, found.2.translator) := by
  have listed : (found.1, found.2.address, found.2.translator)
      ∈ (device.places []).map (fun place => (place.1.length, place.2)) := by
    rw [← walkInto_places [] device]
    exact List.mem_map.mpr ⟨found, member, rfl⟩
  obtain ⟨place, there, same⟩ := List.mem_map.mp listed
  exact ⟨place, there, congrArg Prod.fst same, congrArg Prod.snd same⟩

theorem addresses_walk (device : Device E)
    : device.walk.map (fun found => found.2.address) = device.addresses := by
  have places := congrArg (List.map (fun place => place.2.1)) (walkInto_places [] device)
  rw [List.map_map, List.map_map] at places
  exact places.trans (addresses_places device [])

mutual

theorem prefix_of_mem_places
    : ∀ (device : Device E) (path : Path), ∀ entry ∈ device.places path, path <+: entry.1
  | { hub := none, .. }, path, entry, member => by
      rw [List.mem_singleton.mp member]
  | { hub := some ⟨_, ports⟩, .. }, path, entry, member => by
      rcases List.mem_cons.mp member with rfl | behind
      · exact List.prefix_rfl
      · obtain ⟨number, _, behind⟩ := prefix_of_mem_portsPlaces ports path 1 entry behind
        exact (List.prefix_append _ _).trans behind

theorem prefix_of_mem_portsPlaces
    : ∀ (ports : List (Port (Device E) E)) (hub : Path) (first : Nat),
        ∀ entry ∈ portsPlaces hub first ports,
          ∃ number, first ≤ number ∧ hub ++ [number] <+: entry.1
  | .device device :: rest, hub, first, entry, member => by
      rcases List.mem_append.mp member with here | later
      · exact ⟨first, Nat.le_refl _, prefix_of_mem_places device _ entry here⟩
      · obtain ⟨number, above, behind⟩ := prefix_of_mem_portsPlaces rest hub _ entry later
        exact ⟨number, by omega, behind⟩
  | .empty :: rest, hub, first, entry, member | .failed _ :: rest, hub, first, entry, member => by
      obtain ⟨number, above, behind⟩ := prefix_of_mem_portsPlaces rest hub _ entry member
      exact ⟨number, by omega, behind⟩

end

theorem Port.prefix_of_mem_places {port : Port (Device E) E} {path : Path} {entry : Place}
    (member : entry ∈ port.places path)
    : path <+: entry.1 := by
  cases port with
  | device device => exact Usb.prefix_of_mem_places device path entry member
  | empty | failed => cases member

variable {hub : Path}

/-- Nothing is behind two ports of a hub. -/
theorem same_number {path : Path} {one other : Nat} (behind : hub ++ [one] <+: path)
    (also : hub ++ [other] <+: path)
    : one = other := by
  have same : hub ++ [one] = hub ++ [other] :=
    (List.prefix_of_prefix_length_le behind also (by simp)).eq_of_length (by simp)
  exact List.singleton_inj.mp (List.append_cancel_left same)

section Clear

variable {Entry : Type} {known other : List (Path × Entry)} {port : Path}

/-- None of the entries is at a port, or behind it. -/
def Clear (known : List (Path × Entry)) (port : Path) : Prop :=
  ∀ entry ∈ known, ¬port <+: entry.1

theorem Clear.append (first : Clear known port) (second : Clear other port)
    : Clear (known ++ other) port :=
  fun entry member => (List.mem_append.mp member).elim (first entry) (second entry)

theorem Clear.below (clear : Clear known hub) (number : Nat) : Clear known (hub ++ [number]) :=
  fun entry member inside => clear entry member ((List.prefix_append _ _).trans inside)

theorem clear_self (hub : Path) (entry : Entry) (number : Nat)
    : Clear [(hub, entry)] (hub ++ [number]) := by
  intro entry member inside
  rw [List.mem_singleton.mp member] at inside
  have shorter := inside.length_le
  rw [List.length_append, List.length_singleton] at shorter
  exact absurd shorter (Nat.not_succ_le_self _)

theorem Clear.sites {known : List Place} (clear : Clear known port) : Clear (sites known) port :=
  List.forall_mem_map.mpr clear

end Clear

/-- No entries of one port are at another. -/
theorem clear_places {number other : Nat} (port : Port (Device E) E) (different : other ≠ number)
    : Clear (port.places (hub ++ [number])) (hub ++ [other]) :=
  fun _ member inside =>
    different (same_number inside (Port.prefix_of_mem_places member))

/-- The addresses in use are those on the list, each once. -/
structure Exactly (addresses : Addresses) (list : List Nat) : Prop where
  nodup : list.Nodup
  range : ∀ address ∈ list, 1 ≤ address ∧ address ≤ maxAddress
  used : ∀ address, addresses.used address = true ↔ address ∈ list

theorem exactly_new : Exactly .new [] where
  nodup := List.nodup_nil
  range := by simp
  used := by simp [Addresses.new]

variable {addresses : Addresses} {list : List Nat} {address : Nat}

theorem Exactly.perm {other : List Nat} (exactly : Exactly addresses list) (perm : list.Perm other)
    : Exactly addresses other where
  nodup := perm.nodup_iff.mp exactly.nodup
  range := fun address member => exactly.range address (perm.mem_iff.mpr member)
  used := fun address => (exactly.used address).trans perm.mem_iff

theorem lowest_inv (found : addresses.lowest = some address)
    : 1 ≤ address ∧ address ≤ maxAddress ∧ addresses.used address = false := by
  have free := List.find?_some found
  obtain ⟨index, inside, rfl⟩ := List.mem_map.mp (List.mem_of_find?_eq_some found)
  have inside := List.mem_range.mp inside
  exact ⟨by omega, by omega, by simpa using free⟩

theorem Exactly.take (exactly : Exactly addresses list) (found : addresses.lowest = some address)
    : Exactly (addresses.mark address true) (list ++ [address]) := by
  obtain ⟨low, high, free⟩ := lowest_inv found
  have absent : address ∉ list := by
    rw [← exactly.used, free]
    exact Bool.false_ne_true
  constructor
  case nodup =>
    refine List.nodup_append.mpr ⟨exactly.nodup, List.nodup_singleton _, ?_⟩
    rintro other member _ last rfl
    exact absent (List.mem_singleton.mp last ▸ member)
  case range =>
    intro other member
    rcases List.mem_append.mp member with earlier | last
    · exact exactly.range other earlier
    · rw [List.mem_singleton.mp last]
      exact ⟨low, high⟩
  case used =>
    intro other
    rw [Addresses.mark, List.mem_append, List.mem_singleton, ← exactly.used]
    dsimp only
    split <;> simp [*]

theorem Exactly.giveBack (exactly : Exactly addresses (address :: list))
    : Exactly (addresses.mark address false) list := by
  obtain ⟨absent, nodup⟩ := List.nodup_cons.mp exactly.nodup
  refine ⟨nodup, fun other member => exactly.range other (.tail _ member), fun other => ?_⟩
  rw [Addresses.mark]
  dsimp only
  split
  · rename_i same
    rw [same]
    simp [absent]
  · rename_i different
    rw [exactly.used, List.mem_cons]
    simp [different]

/-- Giving back the addresses of a whole subtree, by induction on them. -/
theorem Exactly.free {device : Device E} (exactly : Exactly addresses (device.addresses ++ list))
    : Exactly (addresses.free device) list := by
  rw [← addresses_walk device] at exactly
  rw [Addresses.free]
  generalize device.walk = found at exactly
  induction found generalizing addresses with
  | nil => exact exactly
  | cons first rest ih => exact ih exactly.giveBack

variable {known other : List (Path × Nat)} {port : Path}

/-- The known addresses are different, and none is 0. -/
structure Numbered (known : List (Path × Nat)) : Prop where
  nodup : (known.map Prod.snd).Nodup
  nonzero : ∀ entry ∈ known, entry.2 ≠ 0

theorem Numbered.of_exactly
    (exactly : Exactly addresses (known.map Prod.snd))
    : Numbered known where
  nodup := exactly.nodup
  nonzero _ member :=
    Nat.one_le_iff_ne_zero.mp (exactly.range _ (List.mem_map_of_mem member)).1

theorem Numbered.path_eq (numbered : Numbered known) {one other : Path}
    (first : (one, address) ∈ known) (second : (other, address) ∈ known)
    : one = other :=
  congrArg Prod.fst (List.inj_on_of_nodup_map numbered.nodup first second rfl)

theorem Numbered.sublist (numbered : Numbered other) (fewer : known.Sublist other)
    : Numbered known :=
  ⟨numbered.nodup.sublist (fewer.map _), fun entry member =>
    numbered.nonzero entry (fewer.subset member)⟩

theorem Numbered.left (numbered : Numbered (known ++ other)) : Numbered known :=
  numbered.sublist (List.sublist_append_left ..)

theorem Numbered.right (numbered : Numbered (other ++ known)) : Numbered known :=
  numbered.sublist (List.sublist_append_right ..)

/-- An address beside known ones is none of them. -/
theorem Numbered.unknown (numbered : Numbered (known ++ [(port, address)])) (path : Path)
    : (path, address) ∉ known := by
  intro member
  have nodup := numbered.nodup
  rw [List.map_append] at nodup
  exact List.disjoint_of_nodup_append nodup (List.mem_map_of_mem member)
    (List.mem_singleton.mpr rfl)

end RustyPi.Usb
