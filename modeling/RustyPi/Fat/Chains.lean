import RustyPi.Fat.Linking
import RustyPi.Lib.Chain

/-! Cluster chains: reading one whole or in part, linking free clusters into a new one, and
freeing one.
-/

namespace RustyPi.Fat

open RustyPi.Bytes RustyPi.Journal

/-- Where an entry's value leads: nowhere from the end of a chain. -/
def FatType.link (fatType : FatType) (value : Nat) : Option Nat :=
  if fatType.chainEnd ≤ value then none else some value

/-- The clusters of a complete chain inside the volume. -/
structure Chained (layout : Layout) (disk : Disk) (clusters : List Nat) : Prop where
  complete : Complete (fun cluster => layout.fatType.link (layout.fatValue disk cluster)) clusters
  inside : ∀ cluster ∈ clusters, layout.contains cluster = true

section Following

variable {layout : Layout} {disk : Disk} {clusters : List Nat}

theorem link_of_next {first : Nat} {next : Option Nat} (follows : layout.next disk first = .ok next)
    : layout.fatType.link (layout.fatValue disk first) = next := by
  simp only [Layout.next] at follows
  unfold FatType.link
  split at follows
  · rw [if_pos ‹_›]
    exact Except.ok.inj follows
  · split at follows
    · cases follows
    · rw [if_neg ‹_›]
      exact Except.ok.inj follows

/-- What following gives is a complete chain. By induction on the steps. -/
theorem chained_of_chainFrom {steps count first : Nat}
    (found : layout.chainFrom disk none steps count first = .ok clusters)
    : Chained layout disk clusters ∧ clusters.head? = some first := by
  induction steps generalizing count first clusters with
  | zero =>
    unfold Layout.chainFrom at found
    split at found <;> cases found
  | succ steps ih =>
    rw [Layout.chainFrom] at found
    split at found
    · rename_i inside
      split at found
      · cases found
      · rename_i follows
        cases found
        exact ⟨⟨link_of_next follows, by simpa using inside⟩, rfl⟩
      · rename_i after follows
        simp only [covered, Option.any_none, Bool.false_eq_true, if_false] at found
        cases rest : layout.chainFrom disk none steps (count + 1) after with
        | error =>
          rw [rest] at found
          cases found
        | ok more =>
          rw [rest] at found
          cases found
          obtain ⟨chained, head⟩ := ih rest
          obtain ⟨tail, rfl⟩ := List.head?_eq_some_iff.mp head
          refine ⟨⟨⟨link_of_next follows, chained.complete⟩, ?_⟩, rfl⟩
          exact List.forall_mem_cons.mpr ⟨inside, chained.inside⟩
    · cases found

end Following

variable {clusters : List Nat} {ending : Nat} {pairs : List (Nat × Nat)}

/-- A chain has no free cluster: what a zero leads to is not inside the volume. -/
theorem Chained.used {layout : Layout} {disk : Disk} (chained : Chained layout disk clusters)
    {cluster : Nat} (member : cluster ∈ clusters)
    : layout.fatValue disk cluster ≠ 0 := by
  intro zero
  have goes : layout.fatType.link (layout.fatValue disk cluster) = some 0 := by
    rw [zero]
    cases layout.fatType <;> rfl
  rcases chained.complete.next_mem member with ends | ⟨next, there, found⟩
  · cases goes.symm.trans ends
  · cases goes.symm.trans found
    have range := (contains_iff 0).mp (chained.inside 0 there)
    omega

/-- The entries that chain clusters, ending with `ending`. -/
def linkPairs (ending : Nat) : List Nat → List (Nat × Nat)
  | [] => []
  | cluster :: rest => (cluster, rest.head?.getD ending) :: linkPairs ending rest

theorem mem_linkPairs {pair : Nat × Nat} (member : pair ∈ linkPairs ending clusters)
    : pair.1 ∈ clusters ∧ (pair.2 = ending ∨ pair.2 ∈ clusters) := by
  induction clusters with
  | nil => cases member
  | cons cluster rest ih =>
    rcases List.mem_cons.mp member with rfl | member
    · refine ⟨List.mem_cons_self, ?_⟩
      cases rest with
      | nil => exact .inl rfl
      | cons next rest => exact .inr (.tail _ List.mem_cons_self)
    · obtain ⟨inside, value⟩ := ih member
      exact ⟨.tail _ inside, value.imp_right (.tail _)⟩

theorem linkPairs_fst (ending : Nat) (clusters : List Nat)
    : (linkPairs ending clusters).map Prod.fst = clusters := by
  induction clusters with
  | nil => rfl
  | cons cluster rest ih => rw [linkPairs, List.map_cons, ih]

/-- Sets entries one after the other. -/
def setEntries : List (Nat × Nat) → FatAction Unit
  | [] => pure ()
  | (cluster, value) :: rest => do
      setFatEntry cluster value
      setEntries rest

theorem linkFrom_eq (ending : Nat) (clusters : List Nat)
    : linkFrom ending clusters = setEntries (linkPairs ending clusters) := by
  induction clusters with
  | nil => rfl
  | cons cluster rest ih => rw [linkFrom, linkPairs, setEntries, ih]

theorem clearEntries_eq (clusters : List Nat)
    : clearEntries clusters = setEntries (clusters.map (fun cluster => (cluster, 0))) := by
  induction clusters with
  | nil => rfl
  | cons cluster rest ih => rw [clearEntries, List.map_cons, setEntries, ih]

theorem replay_congr {values values' : Nat → Nat} {cluster : Nat}
    (same : values' cluster = values cluster)
    : replay values' pairs cluster = replay values pairs cluster := by
  induction pairs generalizing values values' with
  | nil => exact same
  | cons pair rest ih =>
    apply ih
    simp only [Function.update_apply]
    split
    · rfl
    · exact same

variable {fat after : Volume}

/-- Entries were set, on the disk too. -/
structure Relinked (fat : Volume) (pairs : List (Nat × Nat)) (after : Volume) : Prop where
  ready : Ready after
  tended : Tended fat after
  values
    : ∀ cluster, fat.layout.contains cluster = true →
        fat.layout.fatValue after.device.disk cluster
        = replay (fat.layout.fatValue fat.device.disk) pairs cluster

namespace Relinked

variable {cluster : Nat} (relinked : Relinked fat pairs after)
  (inside : fat.layout.contains cluster = true)
include relinked inside

theorem same (other : cluster ∉ pairs.map Prod.fst)
    : fat.layout.fatValue after.device.disk cluster
      = fat.layout.fatValue fat.device.disk cluster :=
  (relinked.values cluster inside).trans
    (replay_of_not_mem (fun _ there same => other (same ▸ List.mem_map_of_mem there)))

theorem set (member : cluster ∈ pairs.map Prod.fst)
    : ∃ pair ∈ pairs, pair.1 = cluster
        ∧ fat.layout.fatValue after.device.disk cluster = pair.2 := by
  rw [relinked.values cluster inside]
  exact replay_of_mem member

end Relinked

theorem setEntries_ends (pending : Pending fat)
    (each : ∀ pair ∈ pairs, fat.layout.contains pair.1 = true
      ∧ pair.2 ≤ fat.layout.fatType.entryMask)
    : (setEntries pairs).Ends fat
        (fun _ after => Pending after ∧ Tended fat after
          ∧ ∀ other, fat.layout.contains other = true →
              after.value other = replay fat.value pairs other)
        (fun _ => Stopped fat) := by
  induction pairs generalizing fat with
  | nil => exact ⟨pending, .refl fat, fun _ _ => rfl⟩
  | cons pair rest ih =>
    obtain ⟨inside, small⟩ := each pair List.mem_cons_self
    unfold setEntries
    refine (setFatEntry_ends inside small pending).bind ?_ (fun _ _ stopped => stopped)
    intro _ mid entered
    have layout := entered.tended.layout
    refine (ih entered.pending (fun other member => ?_)).mono ?_
      (fun _ _ stopped => entered.tended.toSteady.stopped stopped)
    · rw [layout]
      exact each other (.tail _ member)
    · rintro _ after ⟨pendingAfter, later, values⟩
      rw [layout] at values
      refine ⟨pendingAfter, entered.tended.trans later, fun other otherInside => ?_⟩
      rw [values other otherInside]
      apply replay_congr
      rw [entered.values other otherInside]
      exact (Function.update_apply ..).symm

theorem setEntries_flush (ready : Ready fat)
    (each : ∀ pair ∈ pairs, fat.layout.contains pair.1 = true
      ∧ pair.2 ≤ fat.layout.fatType.entryMask)
    : (do setEntries pairs; flushFat).Ends fat (fun _ => Relinked fat pairs)
        (fun _ => Stopped fat) := by
  refine (setEntries_ends ready.pending each).bind ?_ (fun _ _ stopped => stopped)
  rintro _ mid ⟨pending, tended, values⟩
  refine (flushFat_ends pending).mono ?_ (fun _ _ stopped => tended.toSteady.stopped stopped)
  rintro _ after ⟨readyAfter, later, sectors⟩
  refine ⟨readyAfter, tended.trans later, fun cluster inside => ?_⟩
  have place := fatPosition_range ready.proper inside
  rw [tended.layout] at sectors
  have written : fat.layout.fatValue after.device.disk cluster = mid.value cluster := by
    rw [Layout.fatValue, Volume.value, sectors _ place, tended.layout]
  rw [written, values cluster inside]
  apply replay_congr
  rw [Volume.value, ready.shown, Layout.fatValue]

end RustyPi.Fat
