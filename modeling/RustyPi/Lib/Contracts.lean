import RustyPi.Lib.Leases

/-! Contracts for programs that take resources from a shared pool. Other parties run meanwhile: they
change what they like, except what belongs to the resources this program has. In return it changes
only what belongs to those.
-/

namespace RustyPi.Leases

variable {Resource Memory Result Other : Type}

/-- What a program can rely on. -/
structure Ground (Resource Memory : Type) where
  /-- What the pool gives out. -/
  usable : Resource → Prop
  /-- Whether the pool can run out. -/
  scarce : Prop
  /-- The part of memory that belongs to a resource is the same in both. -/
  same : Resource → Memory → Memory → Prop
  refl : ∀ resource memory, same resource memory memory
  trans
    : ∀ resource first second third,
        same resource first second → same resource second third → same resource first third

namespace Ground

variable (ground : Ground Resource Memory)

/-- What belongs to these resources is the same. -/
def Keeps (held : List Resource) (before after : Memory) : Prop :=
  ∀ resource ∈ held, ground.same resource before after

/-- Nothing but what belongs to these resources has changed. -/
def Within (held : List Resource) (before after : Memory) : Prop :=
  ∀ resource, ground.usable resource → resource ∉ held → ground.same resource before after

variable {ground} {held more : List Resource} {before between after : Memory}

@[simp] theorem Keeps.refl (held : List Resource) (memory : Memory)
    : ground.Keeps held memory memory :=
  fun _ _ => ground.refl ..

theorem Keeps.trans (first : ground.Keeps held before between)
    (second : ground.Keeps held between after)
    : ground.Keeps held before after :=
  fun resource listed => ground.trans _ _ _ _ (first resource listed) (second resource listed)

theorem Keeps.mono (keeps : ground.Keeps held before after) (fewer : more ⊆ held)
    : ground.Keeps more before after :=
  fun resource listed => keeps resource (fewer listed)

theorem Keeps.split {whole : List Resource} (keeps : ground.Keeps whole before after)
    (together : whole.Perm (held ++ more))
    : ground.Keeps held before after ∧ ground.Keeps more before after :=
  ⟨keeps.mono fun _ listed => together.mem_iff.mpr (List.mem_append_left _ listed),
    keeps.mono fun _ listed => together.mem_iff.mpr (List.mem_append_right _ listed)⟩

end Ground

namespace Program

variable [DecidableEq Resource]

/-- With `held` at the start, whatever the pool and the other parties do: the program gives back only
what it has, changes only what belongs to what it has, and ends as `ends` allows.
-/
def Ensures (ground : Ground Resource Memory) (ends : Result → List Resource → Memory → Prop)
    : Program Resource Memory Result → List Resource → Memory → Prop
  | .done result, held, memory => ends result held memory
  | .take next, held, memory =>
    ∀ between,
      ground.Keeps held memory between
      → (ground.scarce → Ensures ground ends (next none) held between)
        ∧ ∀ resource,
            ground.usable resource
            → resource ∉ held
            → Ensures ground ends (next (some resource)) (resource :: held) between
  | .give resource next, held, memory =>
    resource ∈ held
    ∧ ∀ between,
        ground.Keeps held memory between
        → Ensures ground ends next (held.erase resource) between
  | .modify edit next, held, memory =>
    ∀ between,
      ground.Keeps held memory between
      → ground.Within held between (edit between)
        ∧ Ensures ground ends next held (edit between)
  | .look next, held, memory =>
    ∀ between,
      ground.Keeps held memory between → Ensures ground ends (next between) held between

section Rules

variable {ground : Ground Resource Memory} {ends : Result → List Resource → Memory → Prop}
variable {held : List Resource} {memory : Memory} {program : Program Resource Memory Result}

@[simp] theorem ensures_pure (result : Result)
    : Ensures ground ends (pure result : Program Resource Memory Result) held memory
      ↔ ends result held memory :=
  Iff.rfl

@[simp] theorem ensures_bind (program : Program Resource Memory Other)
    (next : Other → Program Resource Memory Result)
    : Ensures ground ends (program >>= next) held memory
      ↔ Ensures ground (fun result => Ensures ground ends (next result)) program held memory := by
  show Ensures ground ends (program.bind next) held memory ↔ _
  induction program generalizing held memory with
  | done result => rfl
  | take continue_ ih => simp only [bind, Ensures, ih]
  | give resource continue_ ih => simp only [bind, Ensures, ih]
  | modify edit continue_ ih => simp only [bind, Ensures, ih]
  | look continue_ ih => simp only [bind, Ensures, ih]

theorem ensures_taken {ends : Option Resource → List Resource → Memory → Prop}
    : Ensures ground ends (taken : Program Resource Memory (Option Resource)) held memory
      ↔ ∀ between,
          ground.Keeps held memory between
          → (ground.scarce → ends none held between)
            ∧ ∀ resource,
                ground.usable resource
                → resource ∉ held
                → ends (some resource) (resource :: held) between :=
  Iff.rfl

theorem ensures_given {ends : Unit → List Resource → Memory → Prop} (resource : Resource)
    : Ensures ground ends (given resource : Program Resource Memory Unit) held memory
      ↔ resource ∈ held
        ∧ ∀ between, ground.Keeps held memory between → ends () (held.erase resource) between :=
  Iff.rfl

theorem ensures_modified {ends : Unit → List Resource → Memory → Prop} (edit : Memory → Memory)
    : Ensures ground ends (modified edit : Program Resource Memory Unit) held memory
      ↔ ∀ between,
          ground.Keeps held memory between
          → ground.Within held between (edit between) ∧ ends () held (edit between) :=
  Iff.rfl

theorem ensures_looked {ends : Memory → List Resource → Memory → Prop}
    : Ensures ground ends (looked : Program Resource Memory Memory) held memory
      ↔ ∀ between, ground.Keeps held memory between → ends between held between :=
  Iff.rfl

theorem Ensures.mono {weaker : Result → List Resource → Memory → Prop}
    (ensures : Ensures ground ends program held memory)
    (weaken : ∀ result held memory, ends result held memory → weaker result held memory)
    : Ensures ground weaker program held memory := by
  induction program generalizing held memory with
  | done result => exact weaken _ _ _ ensures
  | take next ih =>
    intro between keeps
    obtain ⟨without, given⟩ := ensures between keeps
    exact ⟨fun scarce => ih none (without scarce),
      fun resource usable new => ih _ (given resource usable new)⟩
  | give resource next ih =>
    exact ⟨ensures.1, fun between keeps => ih (ensures.2 between keeps)⟩
  | modify edit next ih =>
    exact fun between keeps =>
      ⟨(ensures between keeps).1, ih (ensures between keeps).2⟩
  | look next ih => exact fun between keeps => ih _ (ensures between keeps)

/-- The first part of a program may end in any way that the rest can start from. -/
theorem Ensures.bind {program : Program Resource Memory Other}
    {next : Other → Program Resource Memory Result}
    {middle : Other → List Resource → Memory → Prop}
    (first : Ensures ground middle program held memory)
    (rest
      : ∀ result held memory, middle result held memory → Ensures ground ends (next result) held memory)
    : Ensures ground ends (program >>= next) held memory :=
  (ensures_bind program next).mpr (first.mono rest)

/-- A contract holds beside any other resources, and what belongs to those stays as it is. By
induction on the program.
-/
theorem Ensures.frame {others whole : List Resource} {start : Memory}
    (ensures : Ensures ground ends program held memory) (together : whole.Perm (held ++ others))
    (distinct : whole.Nodup) (usable : ∀ resource ∈ others, ground.usable resource)
    (kept : ground.Keeps others start memory)
    : Ensures ground
        (fun result after later =>
          ∃ mine,
            after.Perm (mine ++ others)
            ∧ after.Nodup
            ∧ ends result mine later
            ∧ ground.Keeps others start later)
        program whole memory := by
  induction program generalizing held whole memory with
  | done result => exact ⟨held, together, distinct, ensures, kept⟩
  | take next ih =>
    intro between keeps
    obtain ⟨mine, theirs⟩ := keeps.split together
    obtain ⟨without, given⟩ := ensures between mine
    refine ⟨fun scarce => ih none (without scarce) together distinct (kept.trans theirs),
      fun resource fine new => ?_⟩
    have absent : resource ∉ held := fun listed =>
      new (together.mem_iff.mpr (List.mem_append_left _ listed))
    exact ih _ (given resource fine absent) (together.cons resource)
      (List.nodup_cons.mpr ⟨new, distinct⟩) (kept.trans theirs)
  | give resource next ih =>
    refine ⟨together.mem_iff.mpr (List.mem_append_left _ ensures.1), fun between keeps => ?_⟩
    obtain ⟨mine, theirs⟩ := keeps.split together
    have less := together.erase resource
    rw [List.erase_append_left _ ensures.1] at less
    exact ih (ensures.2 between mine) less (distinct.erase resource) (kept.trans theirs)
  | modify edit next ih =>
    intro between keeps
    obtain ⟨mine, theirs⟩ := keeps.split together
    obtain ⟨within, rest⟩ := ensures between mine
    have apart := (List.nodup_append.mp (together.nodup_iff.mp distinct)).2.2
    refine ⟨fun resource fine absent => within resource fine (fun listed => ?_),
      ih rest together distinct ((kept.trans theirs).trans fun resource listed => ?_)⟩
    · exact absent (together.mem_iff.mpr (List.mem_append_left _ listed))
    · exact within resource (usable resource listed)
        (fun here => apart resource here resource listed rfl)
  | look next ih =>
    intro between keeps
    obtain ⟨mine, theirs⟩ := keeps.split together
    exact ih between (ensures between mine) together distinct (kept.trans theirs)

end Rules

end Program

end RustyPi.Leases
