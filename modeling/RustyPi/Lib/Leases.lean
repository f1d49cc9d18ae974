import Mathlib.Data.List.Perm.Basic
import Mathlib.Data.List.Nodup

/-! Programs that take resources from a shared pool and give them back, one call at a time, and
parties that run such programs interleaved. What a program owns is said once, with rules for its
constructs; from it follows that no two parties ever have the same resource.
-/

namespace RustyPi.Leases

variable {Resource Memory Result Other Pool : Type}

/-- A program that ends with a result. Between its calls on the pool it reads and changes memory. -/
inductive Program (Resource Memory Result : Type)
  | done (result : Result)
  | take (next : Option Resource → Program Resource Memory Result)
  | give (resource : Resource) (next : Program Resource Memory Result)
  | modify (edit : Memory → Memory) (next : Program Resource Memory Result)
  | look (next : Memory → Program Resource Memory Result)

namespace Program

def bind (program : Program Resource Memory Other) (next : Other → Program Resource Memory Result)
    : Program Resource Memory Result :=
  match program with
  | .done result => next result
  | .take continue_ => .take (fun resource => (continue_ resource).bind next)
  | .give resource continue_ => .give resource (continue_.bind next)
  | .modify edit continue_ => .modify edit (continue_.bind next)
  | .look continue_ => .look (fun memory => (continue_ memory).bind next)

instance : Monad (Program Resource Memory) where
  pure := .done
  bind := bind

/-- A resource from the pool, if there is one. -/
def taken : Program Resource Memory (Option Resource) := .take .done

def given (resource : Resource) : Program Resource Memory Unit := .give resource (.done ())

def modified (edit : Memory → Memory) : Program Resource Memory Unit := .modify edit (.done ())

/-- The memory as it is now. -/
def looked : Program Resource Memory Memory := .look .done

/-- Runs a program with nobody else around, when these resources are free. -/
def alone : Program Resource Memory Result → List Resource → Memory → Result × Memory
  | .done result, _, memory => (result, memory)
  | .take next, [], memory => (next none).alone [] memory
  | .take next, resource :: free, memory => (next (some resource)).alone free memory
  | .give resource next, free, memory => next.alone (resource :: free) memory
  | .modify edit next, free, memory => next.alone free (edit memory)
  | .look next, free, memory => (next memory).alone free memory

variable [DecidableEq Resource]

/-- With `held` at the start, the program gives back only what it has at that time, and has what
`ends` allows when it ends.
-/
def Owns (ends : Result → List Resource → Prop)
    : Program Resource Memory Result → List Resource → Prop
  | .done result, held => ends result held
  | .take next, held =>
    Owns ends (next none) held
    ∧ ∀ resource, resource ∉ held → Owns ends (next (some resource)) (resource :: held)
  | .give resource next, held => resource ∈ held ∧ Owns ends next (held.erase resource)
  | .modify _ next, held => Owns ends next held
  | .look next, held => ∀ memory, Owns ends (next memory) held

section Rules

variable {ends : Result → List Resource → Prop} {held : List Resource}

@[simp] theorem owns_pure (result : Result)
    : Owns ends (pure result : Program Resource Memory Result) held ↔ ends result held :=
  Iff.rfl

@[simp] theorem owns_bind (program : Program Resource Memory Other)
    (next : Other → Program Resource Memory Result)
    : Owns ends (program >>= next) held
      ↔ Owns (fun result held => Owns ends (next result) held) program held := by
  show Owns ends (program.bind next) held ↔ _
  induction program generalizing held with
  | done result => rfl
  | take continue_ ih => simp only [bind, Owns, ih]
  | give resource continue_ ih => simp only [bind, Owns, ih]
  | modify edit continue_ ih => simp only [bind, Owns, ih]
  | look continue_ ih => simp only [bind, Owns, ih]

@[simp] theorem owns_given {ends : Unit → List Resource → Prop} (resource : Resource)
    : Owns ends (given resource : Program Resource Memory Unit) held
      ↔ resource ∈ held ∧ ends () (held.erase resource) :=
  Iff.rfl

@[simp] theorem owns_modified {ends : Unit → List Resource → Prop} (edit : Memory → Memory)
    : Owns ends (modified edit : Program Resource Memory Unit) held ↔ ends () held :=
  Iff.rfl

/-- A program that owns enough for what it ends with does for anything weaker. -/
theorem Owns.mono {weaker : Result → List Resource → Prop}
    {program : Program Resource Memory Result} (owns : Owns ends program held)
    (weaken : ∀ result held, ends result held → weaker result held)
    : Owns weaker program held := by
  induction program generalizing held with
  | done result => exact weaken _ _ owns
  | take next ih => exact ⟨ih none owns.1, fun resource new => ih _ (owns.2 resource new)⟩
  | give resource next ih => exact ⟨owns.1, ih owns.2⟩
  | modify edit next ih => exact ih owns
  | look next ih => exact fun memory => ih memory (owns memory)

end Rules

end Program

/-- How a pool gives out resources and gets them back; `none` if it has none, or refuses. -/
structure Calls (Pool Resource : Type) where
  take : Pool → Option (Pool × Resource)
  give : Pool → Resource → Option Pool

/-- A program in progress, with the resources it was given and hasn't given back. -/
structure Party (Resource Memory Result : Type) where
  program : Program Resource Memory Result
  held : List Resource

structure Shared (Pool Resource Memory Result : Type) where
  pool : Pool
  memory : Memory
  parties : List (Party Resource Memory Result)

namespace Shared

/-- Everything the parties have. -/
def held (state : Shared Pool Resource Memory Result) : List Resource :=
  state.parties.flatMap Party.held

/-- A new party begins with nothing. -/
def join (state : Shared Pool Resource Memory Result) (program : Program Resource Memory Result)
    : Shared Pool Resource Memory Result :=
  { state with parties := ⟨program, []⟩ :: state.parties }

/-- A party whose program has ended goes on with another; `none` if there is no such party. -/
def resume (state : Shared Pool Resource Memory Result) (index : Nat)
    (next : Result → Program Resource Memory Result)
    : Option (Shared Pool Resource Memory Result) :=
  match state.parties[index]? with
  | some ⟨.done result, held⟩ =>
    some { state with parties := state.parties.set index ⟨next result, held⟩ }
  | _ => none

variable [DecidableEq Resource]

/-- A party's next call; `none` if it has none, or the pool refuses what it gives back. -/
def advance (calls : Calls Pool Resource) (state : Shared Pool Resource Memory Result) (index : Nat)
    : Option (Shared Pool Resource Memory Result) :=
  match state.parties[index]? with
  | none => none
  | some ⟨.done _, _⟩ => none
  | some ⟨.take next, held⟩ =>
    match calls.take state.pool with
    | none => some { state with parties := state.parties.set index ⟨next none, held⟩ }
    | some (pool, resource) =>
      some { state with
        pool, parties := state.parties.set index ⟨next (some resource), resource :: held⟩ }
  | some ⟨.give resource next, held⟩ =>
    (calls.give state.pool resource).map (fun pool =>
      { state with pool, parties := state.parties.set index ⟨next, held.erase resource⟩ })
  | some ⟨.modify edit next, held⟩ =>
    some { state with
      memory := edit state.memory, parties := state.parties.set index ⟨next, held⟩ }
  | some ⟨.look next, held⟩ =>
    some { state with parties := state.parties.set index ⟨next state.memory, held⟩ }

/-- The party is in the middle of its program. -/
def busy (state : Shared Pool Resource Memory Result) (index : Nat) : Bool :=
  match state.parties[index]? with
  | none => false
  | some ⟨.done _, _⟩ => false
  | some _ => true

theorem busy_of_advance {calls : Calls Pool Resource}
    {state after : Shared Pool Resource Memory Result} {index : Nat}
    (advanced : state.advance calls index = some after)
    : state.busy index = true := by
  unfold advance at advanced
  unfold busy
  split at advanced <;> simp_all

end Shared

/-- A pool that keeps its promises: in a state where `out` are given out, it gives out only others,
and takes back each of them.
-/
structure Calls.Keeps [DecidableEq Resource] (calls : Calls Pool Resource)
    (Out : Pool → List Resource → Prop)
    : Prop where
  takes
    : ∀ pool out after resource,
        Out pool out
        → calls.take pool = some (after, resource)
        → resource ∉ out ∧ Out after (resource :: out)
  gives
    : ∀ pool out resource,
        Out pool out
        → resource ∈ out
        → ∃ after, calls.give pool resource = some after ∧ Out after (out.erase resource)
  perm : ∀ pool out same, Out pool out → out.Perm same → Out pool same

/-- No two parties have the same resource, each can go on with what it has, and the pool has given
out just what they have.
-/
structure Shared.Balanced [DecidableEq Resource] (Out : Pool → List Resource → Prop)
    (ends : Result → List Resource → Prop) (state : Shared Pool Resource Memory Result)
    : Prop where
  owns : ∀ party ∈ state.parties, party.program.Owns ends party.held
  distinct : state.held.Nodup
  out : Out state.pool state.held

theorem held_set {parties : List (Party Resource Memory Result)} {index : Nat}
    {party : Party Resource Memory Result} (found : parties[index]? = some party)
    : ∃ others,
        (parties.flatMap Party.held).Perm (party.held ++ others)
        ∧ ∀ new : Party Resource Memory Result,
            ((parties.set index new).flatMap Party.held).Perm (new.held ++ others) := by
  obtain ⟨inside, here⟩ := List.getElem?_eq_some_iff.mp found
  refine ⟨(parties.take index).flatMap Party.held ++ (parties.drop (index + 1)).flatMap Party.held,
    ?_, fun new => ?_⟩
  · have split : parties = parties.take index ++ party :: parties.drop (index + 1) := by
      rw [← here, List.getElem_cons_drop, List.take_append_drop]
    conv_lhs => rw [split]
    simp only [List.flatMap_append, List.flatMap_cons]
    exact List.perm_append_comm_assoc ..
  · rw [List.set_eq_take_append_cons_drop, if_pos inside]
    simp only [List.flatMap_append, List.flatMap_cons]
    exact List.perm_append_comm_assoc ..

namespace Shared.Balanced

variable [DecidableEq Resource] {calls : Calls Pool Resource} {Out : Pool → List Resource → Prop}
variable {ends : Result → List Resource → Prop} {state : Shared Pool Resource Memory Result}

theorem join (balanced : Balanced Out ends state) {program : Program Resource Memory Result}
    (owns : program.Owns ends [])
    : Balanced Out ends (state.join program) where
  owns := by
    rintro party (_ | ⟨_, old⟩)
    · exact owns
    · exact balanced.owns party old
  distinct := balanced.distinct
  out := balanced.out

section Step

variable (keeps : calls.Keeps Out) (balanced : Balanced Out ends state) {index : Nat}
include keeps balanced

/-- One party changes: it stays balanced if what that party then has is apart from what the others
have, and out of the pool with it.
-/
theorem update {party : Party Resource Memory Result}
    (found : state.parties[index]? = some party)
    : ∃ others,
        (party.held ++ others).Nodup
        ∧ Out state.pool (party.held ++ others)
        ∧ ∀ pool memory (new : Party Resource Memory Result),
            new.program.Owns ends new.held
            → (new.held ++ others).Nodup
            → Out pool (new.held ++ others)
            → Balanced Out ends { pool, memory, parties := state.parties.set index new } := by
  obtain ⟨others, before, after⟩ := held_set found
  refine ⟨others, before.nodup_iff.mp balanced.distinct, keeps.perm _ _ _ balanced.out before, ?_⟩
  intro pool memory new owns distinct out
  refine ⟨fun party listed => ?_, (after new).nodup_iff.mpr distinct,
    keeps.perm _ _ _ out (after new).symm⟩
  rcases List.mem_or_eq_of_mem_set listed with old | rfl
  · exact balanced.owns party old
  · exact owns

theorem resume {next : Result → Program Resource Memory Result}
    {after : Shared Pool Resource Memory Result} (resumed : state.resume index next = some after)
    (owns : ∀ result held, ends result held → (next result).Owns ends held)
    : Balanced Out ends after := by
  unfold Shared.resume at resumed
  split at resumed
  · rename_i result held found
    cases resumed
    obtain ⟨others, distinct, out, update⟩ := update keeps balanced found
    exact update state.pool state.memory _
      (owns result held (balanced.owns _ (List.mem_of_getElem? found))) distinct out
  · cases resumed

/-- A busy party can always go on. In particular the pool takes back what the party gives back. -/
theorem advance (busy : state.busy index = true)
    : ∃ after, state.advance calls index = some after ∧ Balanced Out ends after := by
  unfold Shared.busy at busy
  cases found : state.parties[index]? with
  | none => simp [found] at busy
  | some party =>
    obtain ⟨others, distinct, out, update⟩ := update keeps balanced found
    have owns := balanced.owns party (List.mem_of_getElem? found)
    obtain ⟨program, held⟩ := party
    cases program with
    | done result => simp [found] at busy
    | take next =>
      cases took : calls.take state.pool with
      | none =>
        refine ⟨_, by simp only [Shared.advance, found, took]; rfl, ?_⟩
        exact update state.pool state.memory ⟨next none, held⟩ owns.1 distinct out
      | some result =>
        obtain ⟨pool, resource⟩ := result
        obtain ⟨new, out⟩ := keeps.takes _ _ _ _ out took
        refine ⟨_, by simp only [Shared.advance, found, took]; rfl, ?_⟩
        refine update pool state.memory ⟨next (some resource), resource :: held⟩
          (owns.2 resource ?_) (List.nodup_cons.mpr ⟨new, distinct⟩) out
        exact fun mine => new (List.mem_append_left _ mine)
    | give resource next =>
      obtain ⟨mine, owns⟩ := owns
      obtain ⟨pool, gave, out⟩ := keeps.gives _ _ resource out (List.mem_append_left _ mine)
      rw [List.erase_append_left _ mine] at out
      refine ⟨_, by simp only [Shared.advance, found, gave]; rfl, ?_⟩
      refine update pool state.memory ⟨next, held.erase resource⟩ owns ?_ out
      rw [← List.erase_append_left _ mine]
      exact distinct.erase resource
    | modify edit next =>
      refine ⟨_, by simp only [Shared.advance, found]; rfl, ?_⟩
      exact update state.pool (edit state.memory) ⟨next, held⟩ owns distinct out
    | look next =>
      refine ⟨_, by simp only [Shared.advance, found]; rfl, ?_⟩
      exact update state.pool state.memory ⟨next state.memory, held⟩ (owns state.memory) distinct
        out

end Step

end Shared.Balanced

end RustyPi.Leases
