import RustyPi.Sched.Notifications

/-! How long a ready task can be passed over. A core that keeps preempting goes round all the task
slots, so the way from its current task to a ready one gets shorter with every such pick.
-/

namespace RustyPi.Sched

open RustyPi.Reach

namespace Call

def picks (queue : RunQueue) (core : Nat) (task : TaskId) : Call → Bool
  | .pickNext picker preempt busy =>
    picker == core && (queue.pickNext picker preempt busy.contains).map Prod.snd == some task
  | _ => false

def preempts (core : Nat) : Call → Bool
  | .pickNext picker preempt _ => picker == core && preempt
  | _ => false

/-- The call finds `task` ready and leaves it to `core`: it adds no task, and a `pick_next` of
another core picks another task.
-/
def leaves (queue : RunQueue) (core : Nat) (task : TaskId) (call : Call) : Bool :=
  queue.state task == some .ready && !queue.isIdle task
    && match call with
      | .op step => step.adds.isNone
      | .pickNext picker _ busy =>
        if picker = core then !busy.contains task else !call.picks queue picker task
      | .remove _ => true

end Call

/-- The run queue, how many preempting picks a core has made, and whether it has picked the task
that is watched.
-/
structure Turns where
  queue : RunQueue
  turns : Nat := 0
  picked : Bool := false
  deriving DecidableEq, Repr

variable {core current distance slots : Nat} {task : TaskId} {queue : RunQueue} {preempt : Bool}
variable {busy : TaskId → Bool}

/-- A core stays with its task, if it doesn't preempt it, or goes on towards a pickable one: its
search stops there at the latest.
-/
theorem RunQueue.chooseNext_advances (core : Nat) (preempt : Bool)
    (pickable : queue.pickable busy task = true) (positive : 0 < distance)
    (inside : distance ≤ queue.tasks.length)
    (there : (current + distance) % queue.tasks.length = task)
    : (preempt = false ∧ queue.chooseNext core preempt busy current = current)
      ∨ ∃ offset,
          0 < offset
          ∧ offset ≤ distance
          ∧ queue.chooseNext core preempt busy current
            = (current + offset) % queue.tasks.length := by
  unfold RunQueue.chooseNext
  split
  · rename_i stays
    simp only [Bool.and_eq_true, Bool.not_eq_true'] at stays
    exact .inl ⟨stays.2, rfl⟩
  · right
    have last : distance - 1 + 1 = distance := Nat.sub_add_cancel positive
    have found : (queue.roundRobin busy current).isSome = true := by
      refine List.find?_isSome.mpr ⟨task, List.mem_map.mpr ⟨distance - 1, ?_, ?_⟩, pickable⟩
      · exact List.mem_range.mpr (by omega)
      · rw [last, there]
    obtain ⟨next, found⟩ := Option.isSome_iff_exists.mp found
    obtain ⟨_, index, _, at_, earlier⟩ := List.find?_eq_some_iff_getElem.mp found
    simp only [List.getElem_map, List.getElem_range] at at_ earlier
    refine ⟨index + 1, Nat.succ_pos index, ?_, by simp [found, at_]⟩
    by_contra beyond
    have skipped := earlier (distance - 1) (by omega)
    simp [last, there, pickable] at skipped

namespace Turns

def step (core : Nat) (task : TaskId) (state : Turns) (call : Call) : Option Turns :=
  (call.apply state.queue).map (fun queue =>
    {
      queue
      turns := state.turns + (call.preempts core).toNat
      picked := state.picked || call.picks state.queue core task
    })

/-- Until `core` picks the task, the task is ready and left to it. -/
def Left (core : Nat) (task : TaskId) (state : Turns) (call : Call) : Prop :=
  state.picked = true ∨ call.leaves state.queue core task = true

instance (state : Turns) (call : Call) : Decidable (state.Left core task call) :=
  inferInstanceAs (Decidable (_ ∨ _))

/-- The way from the current task of `core` to the task, and the picks made so far, are no more
than once round.
-/
structure Near (core : Nat) (task : TaskId) (slots : Nat) (state : Turns) : Prop where
  sized : state.queue.tasks.length = slots
  turns : state.turns < slots
  distance
    : ∀ current,
        state.queue.currentTask core = some current
        → ∃ distance,
            0 < distance
            ∧ state.turns + distance ≤ slots
            ∧ (current + distance) % slots = task

variable {state after : Turns}

/-- A call of others moves neither the core nor the slots. -/
theorem Near.stays (near : Near core task slots state)
    (sized : after.queue.tasks.length = state.queue.tasks.length)
    (current : after.queue.currentTask core = state.queue.currentTask core)
    (turns : after.turns = state.turns)
    : Near core task slots after where
  sized := sized.trans near.sized
  turns := turns ▸ near.turns
  distance := by
    rw [current, turns]
    exact near.distance

theorem pickNext_currentTask {picker : Nat} {picked : RunQueue} {next : TaskId}
    (chosen : queue.pickNext picker preempt busy = some (picked, next)) (core : Nat)
    : picked.currentTask core = if core = picker then some next else queue.currentTask core := by
  obtain ⟨_, running, _, current, _⟩ := Cores.pickNext_fields chosen
  have started : picker < queue.current.length :=
    (List.getElem?_eq_some_iff.mp (Cores.currentTask_eq_some.mp running)).1
  rw [RunQueue.currentTask, current, List.getElem?_set]
  by_cases same : core = picker
  · simp [same, started]
  · simp [same, Ne.symm same, RunQueue.currentTask]

/-- The core's own pick takes the task, or is one of its remaining turns. -/
theorem Near.pick {busy : List TaskId} (near : Near core task slots state)
    (ready : state.queue.state task = some .ready) (busyless : task ∉ busy)
    (useful : state.queue.isIdle task = false)
    (taken : state.step core task (.pickNext core preempt busy) = some after)
    : after.picked = true ∨ Near core task slots after := by
  simp only [step, Call.apply, Option.map_map, Option.map_eq_some_iff, Function.comp_apply]
    at taken
  obtain ⟨⟨picked, next⟩, chosen, rfl⟩ := taken
  obtain ⟨current, running, chooses, _, _, sized⟩ := Cores.pickNext_fields chosen
  obtain ⟨distance, positive, inside, there⟩ := near.distance current running
  have now := pickNext_currentTask chosen core
  rw [if_pos rfl] at now
  have pickable : state.queue.pickable busy.contains task = true := by
    simp [RunQueue.pickable, ready, useful, busyless]
  obtain rfl := near.sized
  rcases RunQueue.chooseNext_advances core preempt pickable positive (by omega) there with
    ⟨rfl, same⟩ | ⟨offset, moved, close, same⟩ <;>
    rw [← chooses] at same
  · right
    refine ⟨sized, by simpa [Call.preempts] using near.turns, fun found runs => ?_⟩
    cases now.symm.trans runs
    exact ⟨distance, positive, by simpa [Call.preempts] using inside, same ▸ there⟩
  · by_cases reached : offset = distance
    · left
      simp [Call.picks, chosen, same, reached, there]
    · right
      have counted : ((Call.pickNext core preempt busy).preempts core).toNat ≤ 1 := Bool.toNat_le _
      refine ⟨sized, Nat.lt_of_lt_of_le (show _ < state.turns + distance by dsimp only; omega)
        inside, fun found runs => ?_⟩
      cases now.symm.trans runs
      refine ⟨distance - offset, by omega, by dsimp only; omega, ?_⟩
      rw [same, Nat.mod_add_mod, ← there]
      congr 1
      omega

/-- Every call that leaves the task to the core keeps it near, by cases on the call. -/
theorem Near.step {call : Call} (near : Near core task slots state)
    (leaves : call.leaves state.queue core task = true)
    (taken : state.step core task call = some after)
    : after.picked = true ∨ Near core task slots after := by
  simp only [Call.leaves, Bool.and_eq_true, beq_iff_eq, Bool.not_eq_true'] at leaves
  obtain ⟨⟨ready, useful⟩, leaves⟩ := leaves
  cases call with
  | op op =>
    right
    obtain ⟨queue, moved, rfl⟩ := Option.map_eq_some_iff.mp taken
    cases (Cores.queueStep_stepped moved).placement with
    | unmoved unmoved => exact near.stays unmoved.length (unmoved.currentTask core) rfl
    | added | idleAdded | started => cases leaves
  | remove other =>
    right
    cases taken
    exact near.stays (by simp) rfl rfl
  | pickNext picker preempt busy =>
    by_cases own : picker = core
    · subst own
      refine near.pick ready ?_ useful taken
      simpa using leaves
    · right
      simp only [Turns.step, Call.apply, Option.map_map, Option.map_eq_some_iff,
        Function.comp_apply] at taken
      obtain ⟨⟨picked, next⟩, chosen, rfl⟩ := taken
      obtain ⟨_, _, _, _, _, sized⟩ := Cores.pickNext_fields chosen
      refine near.stays sized ?_ (by simp [Call.preempts, own])
      exact (pickNext_currentTask chosen core).trans (if_neg (Ne.symm own))

theorem exists_distance (current : Nat) {goal : Nat} (inside : goal < slots)
    : ∃ distance, 0 < distance ∧ distance ≤ slots ∧ (current + distance) % slots = goal := by
  have below : current % slots < slots := Nat.mod_lt _ (Nat.zero_lt_of_lt inside)
  simp only [← Nat.mod_add_mod current]
  generalize current % slots = here at below
  by_cases ahead : here < goal
  · refine ⟨goal - here, by omega, by omega, ?_⟩
    rw [Nat.add_sub_cancel' (by omega), Nat.mod_eq_of_lt inside]
  · refine ⟨goal + slots - here, by omega, by omega, ?_⟩
    rw [Nat.add_sub_cancel' (by omega), Nat.add_mod_right, Nat.mod_eq_of_lt inside]

/-- A task that stays ready, is not an idle task and is left to `core` is picked by it at the latest
on its preempting pick that is as late as there are slots, whatever else is done to the queue without
adding tasks. Witness: `Near` is an invariant until then.
-/
theorem picked_by_slots (queue : RunQueue) (core : Nat) (task : TaskId)
    (ready : queue.state task = some .ready) {state : Turns}
    (run : Reaches (step core task) (Left core task) { queue } state)
    (turns : queue.tasks.length ≤ state.turns)
    : state.picked = true := by
  have inside : task < queue.tasks.length := by
    simp only [RunQueue.state, RunQueue.entry, Option.map_eq_some_iff, Option.join_eq_some_iff]
      at ready
    obtain ⟨_, found, _⟩ := ready
    exact (List.getElem?_eq_some_iff.mp found).1
  have start : Near core task queue.tasks.length { queue } := by
    refine ⟨rfl, Nat.zero_lt_of_lt inside, fun current _ => ?_⟩
    obtain ⟨distance, positive, short, there⟩ := exists_distance current inside
    exact ⟨distance, positive, by simpa using short, there⟩
  have kept : state.picked = true ∨ Near core task queue.tasks.length state := by
    refine run.invariant (I := fun state => state.picked = true ∨ Near core task _ state)
      (Or.inr start) ?_
    intro before call after near left taken
    have sticky (picked : before.picked = true) : after.picked = true := by
      obtain ⟨_, _, rfl⟩ := Option.map_eq_some_iff.mp taken
      simp [picked]
    rcases near with picked | near
    · exact .inl (sticky picked)
    · exact left.elim (fun picked => Or.inl (sticky picked)) (fun leaves => near.step leaves taken)
  exact kept.resolve_right (fun near => Nat.lt_irrefl _ (Nat.lt_of_lt_of_le near.turns turns))

/-- Three tasks on one core: the last is picked on the second preemption. -/
theorem picked_by_slots_three
    : ∃ queue state,
        queue.state 2 = some .ready
        ∧ Reaches (step 0 2) (Left 0 2) { queue } state
        ∧ queue.tasks.length ≤ state.turns
        ∧ state.picked = true := by
  have executed : (runAll (step 0 2) (Left 0 2)
      { queue := (((RunQueue.new "shell" 1).add "link").1.add "usb").1 }
      [.pickNext 0 true [], .op (.sleepCurrent 0 5), .pickNext 0 true [], .pickNext 0 true []]).any
        (fun state => decide (3 ≤ state.turns)) = true := by
    decide +kernel
  obtain ⟨state, run, turns⟩ := Reaches.of_check executed
  exact ⟨_, state, rfl, run, of_decide_eq_true turns,
    picked_by_slots _ 0 2 rfl run (of_decide_eq_true turns)⟩

end Turns

end RustyPi.Sched
