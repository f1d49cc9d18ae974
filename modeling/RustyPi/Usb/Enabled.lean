import RustyPi.Usb.Bus

/-! The enabled devices, as the enumerator accounts for them: those that it knows, where it knows them,
and at most one more, that on the port it is working on.
-/

namespace RustyPi.Usb

open RustyPi.Calls

variable {E : Type}

namespace Wires

/-- Nothing is going on at a port; what is enabled there is still the same device. -/
structure Calm (wires : Wires) (path : Path) : Prop where
  idle : (wires.socket path).resetting = none
  resetNoted : (wires.socket path).resetChanged = false
  sameDevice
    : (wires.socket path).enabled = true → (wires.socket path).connectionChanged = false

/-- The enabled devices are known, all but one that may be aside. -/
structure Accounts (wires : Wires) (aside : Option Path) (known : List (Path × Nat)) : Prop where
  listed
    : ∀ path, aside ≠ some path → (wires.socket path).enabled = true
        → (path, (wires.socket path).address) ∈ known
  exact
    : ∀ entry ∈ known, (wires.socket entry.1).enabled = true
        → (wires.socket entry.1).address = entry.2
  calm : ∀ path, aside ≠ some path → wires.Calm path
  above
    : ∀ path number, (wires.socket (path ++ [number])).enabled = true
        → (wires.socket path).enabled = true ∧ wires.IsHub path

variable {wires after : Wires} {known : List (Path × Nat)} {port : Path}

variable {path : Path} {aside : Option Path} {other : List (Path × Nat)} {address : Nat}

theorem Calm.of_eq (calm : wires.Calm path) (same : after.socket path = wires.socket path)
    : after.Calm path := by
  obtain ⟨idle, resetNoted, sameDevice⟩ := calm
  rw [← same] at idle resetNoted sameDevice
  exact ⟨idle, resetNoted, sameDevice⟩

theorem Calm.set {socket : Socket} (idle : socket.resetting = none)
    (noted : socket.resetChanged = false)
    (sameDevice : socket.enabled = true → socket.connectionChanged = false)
    : (wires.set path socket).Calm path := by
  constructor <;> rw [socket_set_self] <;> assumption

theorem Calm.of_off (off : (wires.socket path).Off) : wires.Calm path :=
  ⟨off.idle, off.unchanged, fun enabled => by
    rw [off.disabled] at enabled
    cases enabled⟩

/-- An enabled device is on the bus, by induction on its path from the end. -/
theorem Accounts.onBus (accounts : wires.Accounts aside known)
    (enabled : (wires.socket path).enabled = true)
    : wires.OnBus path := by
  induction path using List.reverseRecOn with
  | nil =>
    intro above higher
    rw [List.prefix_nil.mp higher]
    exact enabled
  | append_singleton hub number ih =>
    intro above higher
    rcases List.prefix_concat_iff.mp higher with rfl | higher
    · exact enabled
    · exact ih (accounts.above hub number enabled).1 above higher

theorem Accounts.perm (accounts : wires.Accounts aside known) (perm : known.Perm other)
    : wires.Accounts aside other where
  listed path present enabled := perm.mem_iff.mp (accounts.listed path present enabled)
  exact entry member := accounts.exact entry (perm.mem_iff.mpr member)
  calm := accounts.calm
  above := accounts.above

theorem Accounts.putAside (accounts : wires.Accounts none known) (port : Path)
    : wires.Accounts (some port) known where
  listed path _ := accounts.listed path nofun
  exact := accounts.exact
  calm path _ := accounts.calm path nofun
  above := accounts.above

section Accounts

variable (accounts : wires.Accounts (some port) known)
include accounts

/-- Nothing behind a port is enabled if no entry is there. -/
theorem Accounts.disabled_of_clear
    (clear : Clear known port) (behind : port <+: path) (different : path ≠ port)
    : (wires.socket path).enabled = false := by
  rw [← Bool.not_eq_true]
  intro enabled
  have listed := accounts.listed path (fun same => different (Option.some.inj same).symm) enabled
  exact clear _ listed behind

/-- Only the port aside changes; it may be enabled if the hub is. -/
theorem Accounts.only (clear : Clear known port)
    (only : ∀ path, path ≠ port → after.socket path = wires.socket path)
    (above
      : ∀ path number, port = path ++ [number] → (after.socket port).enabled = true
          → (wires.socket path).enabled = true ∧ wires.IsHub path)
    : after.Accounts (some port) known := by
  constructor
  case listed =>
    intro path present
    rw [only path (fun same => present (congrArg some same.symm))]
    exact accounts.listed path present
  case exact =>
    intro entry member
    rw [only entry.1 (fun same => clear entry member (same ▸ List.prefix_rfl))]
    exact accounts.exact entry member
  case calm =>
    intro path present
    exact (accounts.calm path present).of_eq
      (only path (fun same => present (congrArg some same.symm)))
  case above =>
    intro path number enabled
    have shorter : path ≠ path ++ [number] := by simp
    by_cases here : path ++ [number] = port
    · have hub := above path number here.symm (here ▸ enabled)
      have same := only path (here ▸ shorter)
      rw [IsHub, same]
      exact hub
    · rw [only _ here] at enabled
      by_cases behind : path = port
      · subst behind
        have disabled := accounts.disabled_of_clear clear (List.prefix_append path [number]) here
        rw [disabled] at enabled
        cases enabled
      · rw [IsHub, only path behind]
        exact accounts.above path number enabled

theorem Accounts.set (clear : Clear known port)
    {socket : Socket} (less : socket.enabled = true → (wires.socket port).enabled = true)
    : (wires.set port socket).Accounts (some port) known := by
  refine accounts.only clear (fun path different => socket_set_of_ne different socket) ?_
  rintro path number rfl enabled
  rw [socket_set_self] at enabled
  exact accounts.above path number (less enabled)

omit accounts in
/-- A port and everything behind it are taken off the bus. -/
theorem Accounts.cut (accounts : wires.Accounts none known)
    (off : ∀ path, port <+: path → (after.socket path).enabled = false)
    (calm : ∀ path, port <+: path → aside ≠ some path → after.Calm path)
    (elsewhere : ∀ path, ¬port <+: path → after.socket path = wires.socket path)
    : after.Accounts aside known := by
  have outside {path : Path} (enabled : (after.socket path).enabled = true) : ¬port <+: path := by
    intro inside
    rw [off path inside] at enabled
    cases enabled
  constructor
  case listed =>
    intro path _ enabled
    have same := elsewhere path (outside enabled)
    rw [same] at enabled ⊢
    exact accounts.listed path nofun enabled
  case exact =>
    intro entry member enabled
    have same := elsewhere entry.1 (outside enabled)
    rw [same] at enabled ⊢
    exact accounts.exact entry member enabled
  case calm =>
    intro path present
    by_cases inside : port <+: path
    · exact calm path inside present
    · exact (accounts.calm path nofun).of_eq (elsewhere path inside)
  case above =>
    intro path number enabled
    have beyond := outside enabled
    have hub := elsewhere path (fun inside => beyond (inside.trans (List.prefix_append _ _)))
    rw [elsewhere _ beyond] at enabled
    rw [IsHub, hub]
    exact accounts.above path number enabled

theorem Accounts.calm_all (calm : wires.Calm port) (path : Path) : wires.Calm path := by
  by_cases same : some port = some path
  · cases same
    exact calm
  · exact accounts.calm path same

/-- What was aside isn't enabled. -/
theorem Accounts.settle (calm : wires.Calm port) (disabled : (wires.socket port).enabled = false)
    : wires.Accounts none known where
  listed path _ enabled :=
    accounts.listed path
      (fun same => by
        cases same
        rw [disabled] at enabled
        cases enabled)
      enabled
  exact := accounts.exact
  calm path _ := accounts.calm_all calm path
  above := accounts.above

theorem Accounts.enter (calm : wires.Calm port)
    : wires.Accounts none (known ++ [(port, (wires.socket port).address)]) where
  listed path _ enabled := by
    by_cases same : some port = some path
    · cases same
      exact List.mem_append_right _ (List.mem_singleton.mpr rfl)
    · exact List.mem_append_left _ (accounts.listed path same enabled)
  exact entry member enabled := by
    rcases List.mem_append.mp member with earlier | last
    · exact accounts.exact entry earlier enabled
    · rw [List.mem_singleton.mp last]
  calm path _ := accounts.calm_all calm path
  above := accounts.above

omit accounts in
/-- Entries of a port that isn't enabled are dropped, with those behind it. -/
theorem Accounts.drop {gone : List (Path × Nat)} (accounts : wires.Accounts none (gone ++ known))
    (behind : ∀ entry ∈ gone, port <+: entry.1) (disabled : (wires.socket port).enabled = false)
    : wires.Accounts none known where
  listed path _ enabled := by
    rcases List.mem_append.mp (accounts.listed path nofun enabled) with dropped | kept
    · have higher := accounts.onBus enabled port (behind _ dropped)
      rw [disabled] at higher
      cases higher
    · exact kept
  exact entry member := accounts.exact entry (List.mem_append_right _ member)
  calm := accounts.calm
  above := accounts.above

/-- Only the device aside can be at address 0. -/
theorem Accounts.oneDefault (numbered : Numbered known)
    : wires.OneDefault := by
  have aside {path : Path} (enabled : (wires.socket path).enabled = true)
      (default : (wires.socket path).address = 0)
      : port = path := by
    by_contra different
    have listed := accounts.listed path (fun same => different (Option.some.inj same)) enabled
    exact numbered.nonzero _ listed default
  intro one other enabled enabled' default default'
  rw [← aside enabled default, ← aside enabled' default']

end Accounts

/-- Nothing changes by itself, and at most one device is at address 0. -/
structure Still (wires : Wires) : Prop where
  idle : ∀ path, (wires.socket path).resetting = none
  oneDefault : wires.OneDefault

theorem Still.eq (still : wires.Still) (elapses : Elapses wires after) : after = wires :=
  elapses.eq still.idle

theorem Still.safe (still : wires.Still) : wires.Safe := by
  intro after elapses
  rw [still.eq elapses]
  exact still.oneDefault

theorem Accounts.still (accounts : wires.Accounts none known) (numbered : Numbered known)
    : wires.Still :=
  ⟨fun path => (accounts.calm path nofun).idle, (accounts.putAside []).oneDefault numbered⟩

/-- The device on a port isn't entered, and has none of the known addresses. -/
structure Loose (wires : Wires) (known : List (Path × Nat)) (port : Path) : Prop where
  accounts : wires.Accounts (some port) known
  clear : Clear known port
  calm : wires.Calm port
  unlisted
    : (wires.socket port).enabled = true → ∀ path, (path, (wires.socket port).address) ∉ known

theorem Loose.still (loose : wires.Loose known port) (numbered : Numbered known) : wires.Still :=
  ⟨fun path => (loose.accounts.calm_all loose.calm path).idle, loose.accounts.oneDefault numbered⟩

theorem Accounts.loose (accounts : wires.Accounts none known) (clear : Clear known port)
    : wires.Loose known port := by
  refine ⟨accounts.putAside port, clear, accounts.calm port nofun, fun enabled => ?_⟩
  exact absurd List.prefix_rfl (clear _ (accounts.listed port nofun enabled))

theorem Loose.path_eq (loose : wires.Loose known port) (numbered : Numbered known) {hub : Path}
    (listed : (hub, address) ∈ known) (enabled : (wires.socket path).enabled = true)
    (same : (wires.socket path).address = address)
    : path = hub := by
  subst same
  by_cases aside : some port = some path
  · cases aside
    exact absurd listed (loose.unlisted enabled hub)
  · exact numbered.path_eq (loose.accounts.listed path aside enabled) listed

/-- At an address that no entry has, only the loose device can answer. -/
theorem Loose.path_eq_of_unknown (loose : wires.Loose known port)
    (unknown : ∀ other, (other, address) ∉ known) (enabled : (wires.socket path).enabled = true)
    (same : (wires.socket path).address = address)
    : path = port := by
  by_contra different
  have listed := loose.accounts.listed path
    (fun same => different (Option.some.inj same).symm) enabled
  exact unknown path (same ▸ listed)

/-- A hub that answers at an address. -/
structure Serves (wires : Wires) (hub : Path) (address : Nat) : Prop where
  enabled : (wires.socket hub).enabled = true
  isHub : wires.IsHub hub
  same : (wires.socket hub).address = address

theorem Accounts.serves {hub : Path} {number : Nat} (accounts : wires.Accounts aside known)
    (listed : (hub, address) ∈ known) (enabled : (wires.socket (hub ++ [number])).enabled = true)
    : wires.Serves hub address :=
  have above := accounts.above hub number enabled
  ⟨above.1, above.2, accounts.exact _ listed above.1⟩

end Wires

end RustyPi.Usb
