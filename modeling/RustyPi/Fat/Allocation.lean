import Mathlib.Data.Nat.ModEq
import Mathlib.Order.Interval.Finset.Nat
import RustyPi.Fat.Chains

/-! Free clusters: counting them, finding them, chaining them, and giving a chain back. -/

namespace RustyPi.Fat

open RustyPi.Bytes RustyPi.Journal

----------
-- Counting free clusters
----------

namespace Layout

/-- How many FAT entries of data clusters are zero. -/
def freeCells (layout : Layout) (disk : Disk) : Nat :=
  (List.range' 2 layout.clusterCount).countP (fun cluster => layout.fatValue disk cluster = 0)

end Layout

section Counting

variable {layout : Layout} {before after : Disk}

theorem freeCells_eq_card (layout : Layout) (disk : Disk)
    : layout.freeCells disk
      = ((Finset.Ico 2 (2 + layout.clusterCount)).filter
          (fun cluster => layout.fatValue disk cluster = 0)).card := by
  unfold Layout.freeCells
  rw [List.countP_eq_length_filter, ← List.toFinset_card_of_nodup ((List.nodup_range' ..).filter _),
    List.toFinset_filter, List.toFinset_range'_1]
  simp

theorem freeCells_le (layout : Layout) (disk : Disk) : layout.freeCells disk ≤ layout.clusterCount := by
  unfold Layout.freeCells
  exact (List.countP_le_length ..).trans_eq (List.length_range' ..)

theorem freeCells_congr
    (same : ∀ cluster, layout.contains cluster = true →
      (layout.fatValue after cluster = 0 ↔ layout.fatValue before cluster = 0))
    : layout.freeCells after = layout.freeCells before := by
  unfold Layout.freeCells
  refine List.countP_congr (fun cluster member => ?_)
  have inside : layout.contains cluster = true := by
    rw [contains_iff]
    have range := List.mem_range'_1.mp member
    omega
  simpa using same cluster inside

theorem freeCells_add {clusters : List Nat} (distinct : clusters.Nodup)
    (inside : ∀ cluster ∈ clusters, layout.contains cluster = true)
    (same : ∀ cluster, layout.contains cluster = true → cluster ∉ clusters →
      layout.fatValue after cluster = layout.fatValue before cluster)
    (free : ∀ cluster ∈ clusters, layout.fatValue before cluster = 0)
    (used : ∀ cluster ∈ clusters, layout.fatValue after cluster ≠ 0)
    : layout.freeCells after + clusters.length = layout.freeCells before := by
  rw [freeCells_eq_card, freeCells_eq_card, ← List.toFinset_card_of_nodup distinct,
    ← Finset.card_union_of_disjoint]
  · congr 1
    ext cluster
    simp only [Finset.mem_union, Finset.mem_filter, Finset.mem_Ico, List.mem_toFinset]
    have contained : layout.contains cluster = true
        ↔ 2 ≤ cluster ∧ cluster < 2 + layout.clusterCount := by
      rw [contains_iff, Nat.add_comm 2]
    rw [← contained]
    by_cases member : cluster ∈ clusters
    · simp [member, inside cluster member, free cluster member]
    · constructor
      · rintro (⟨here, zero⟩ | there)
        · exact ⟨here, same cluster here member ▸ zero⟩
        · exact absurd there member
      · exact fun ⟨here, zero⟩ => Or.inl ⟨here, (same cluster here member).trans zero⟩
  · rw [Finset.disjoint_left]
    intro cluster zero member
    exact used cluster (List.mem_toFinset.mp member) (Finset.mem_filter.mp zero).2

end Counting

theorem Layout.Proper.clusterCount_lt {layout : Layout} (proper : layout.Proper)
    : layout.clusterCount < 0x100000000 := by
  have numbers := proper.numbers
  have bad : layout.fatType.bad < 0x100000000 := by
    cases layout.fatType <;> decide
  omega

----------
-- Finding free clusters
----------

variable {fat : Volume} {layout : Layout} {clusters : List Nat} {cluster : Nat}

/-- Whether `clusters` are new to the volume: distinct, inside it, and free. -/
structure Fresh (layout : Layout) (disk : Disk) (clusters : List Nat) : Prop where
  distinct : clusters.Nodup
  inside : ∀ cluster ∈ clusters, layout.contains cluster = true
  free : ∀ cluster ∈ clusters, layout.fatValue disk cluster = 0

theorem turn_injective {start total i j : Nat} (iBound : i < total) (jBound : j < total)
    (equal : 2 + (start + i) % total = 2 + (start + j) % total)
    : i = j := by
  have congruent : Nat.ModEq total (start + i) (start + j) := Nat.add_left_cancel equal
  have cancelled : i % total = j % total := Nat.ModEq.add_left_cancel' _ congruent
  rwa [Nat.mod_eq_of_lt iBound, Nat.mod_eq_of_lt jBound] at cancelled

/-- The free clusters among the next `left` of a search from `start` on, until there are `count` with
the ones found before.
-/
def Layout.search (layout : Layout) (disk : Disk) (count start : Nat)
    : (left i : Nat) → (clusters : List Nat) → List Nat
  | 0, _, clusters => clusters
  | left + 1, i, clusters =>
    if clusters.length = count then clusters
    else
      let cluster := 2 + (start - 2 + i) % layout.clusterCount
      layout.search disk count start left (i + 1)
        (if layout.fatValue disk cluster = 0 then clusters ++ [cluster] else clusters)

theorem allocateFrom_reads {count start left i : Nat} (coherent : Coherent fat)
    (ends : i + left = fat.layout.clusterCount)
    : Reads (allocateFrom count start fat.layout.clusterCount left i clusters) fat
        (.ok (fat.layout.search fat.device.disk count start left i clusters)) := by
  induction left generalizing i clusters fat with
  | zero => exact Reads.pure coherent clusters
  | succ left ih =>
    unfold allocateFrom Layout.search
    by_cases enough : clusters.length = count
    · rw [if_pos enough, if_pos enough]
      exact Reads.pure coherent clusters
    · rw [if_neg enough, if_neg enough]
      have inside : fat.layout.contains (2 + (start - 2 + i) % fat.layout.clusterCount) = true := by
        rw [contains_iff]
        have below := Nat.mod_lt (start - 2 + i) (show 0 < fat.layout.clusterCount by omega)
        omega
      refine (fatEntry_reads coherent inside).next (fun after looked => ?_)
      have rest := @ih after
        (if fat.layout.fatValue fat.device.disk (2 + (start - 2 + i) % fat.layout.clusterCount) = 0
          then clusters ++ [2 + (start - 2 + i) % fat.layout.clusterCount] else clusters)
        (i + 1) looked.coherent (by rw [looked.layout]; omega)
      rw [looked.layout, looked.disk] at rest
      exact rest

/-- A search from `start` on looks at every cluster, once. -/
theorem turns_perm (start total : Nat)
    : ((List.range' 0 total).map (fun i => 2 + (start + i) % total)).Perm (List.range' 2 total) := by
  have once : ((List.range' 0 total).map (fun i => 2 + (start + i) % total)).Nodup := by
    refine List.Nodup.map_on (fun i iRange j jRange equal => ?_) (List.nodup_range' ..)
    exact turn_injective (by simpa using iRange) (by simpa using jRange) equal
  refine (List.subperm_of_subset once (fun cluster member => ?_)).perm_of_length_le (by simp)
  obtain ⟨i, range, rfl⟩ := List.mem_map.mp member
  have inside := List.mem_range'_1.mp range
  have below := Nat.mod_lt (start + i) (show 0 < total by omega)
  exact List.mem_range'_1.mpr ⟨by omega, by omega⟩

/-- A search finds the first free clusters in the order it looks at them. By induction on the
clusters left to look at.
-/
theorem search_eq {disk : Disk} {count start left i : Nat} (few : clusters.length ≤ count)
    : layout.search disk count start left i clusters
      = (clusters ++ ((List.range' i left).map (fun i =>
          2 + (start - 2 + i) % layout.clusterCount)).filter (fun cluster =>
            layout.fatValue disk cluster = 0)).take count := by
  induction left generalizing i clusters with
  | zero =>
    rw [List.range'_zero, List.map_nil, List.filter_nil, List.append_nil, List.take_of_length_le few]
    rfl
  | succ left ih =>
    unfold Layout.search
    split
    · rename_i enough
      rw [List.take_append_of_le_length (by omega), List.take_of_length_le few]
    · dsimp only
      rw [List.range'_succ, List.map_cons, List.filter_cons]
      simp only [decide_eq_true_eq]
      split
      · rw [ih (by rw [List.length_append, List.length_singleton]; omega), List.append_assoc]
        rfl
      · exact ih few

/-- As many free clusters are found as are asked for or there are. -/
theorem search_all (layout : Layout) (disk : Disk) (count start : Nat)
    : Fresh layout disk (layout.search disk count start layout.clusterCount 0 [])
      ∧ (layout.search disk count start layout.clusterCount 0 []).length
        = min count (layout.freeCells disk) := by
  have turns := turns_perm (start - 2) layout.clusterCount
  rw [search_eq (Nat.zero_le count), List.nil_append]
  refine ⟨⟨?_, fun cluster member => ?_, fun cluster member => ?_⟩, ?_⟩
  · exact ((turns.nodup_iff.mpr (List.nodup_range' ..)).filter _).sublist (List.take_sublist ..)
  · have range := List.mem_range'_1.mp (turns.mem_iff.mp (List.mem_of_mem_filter
      (List.mem_of_mem_take member)))
    rw [contains_iff]
    omega
  · simpa using List.of_mem_filter (List.mem_of_mem_take member)
  · rw [List.length_take, ← List.countP_eq_length_filter, turns.countP_eq, Layout.freeCells]

/-- Allocating gives as many free clusters as it should if there are as many, or fails. -/
theorem allocate_finds (coherent : Coherent fat) (count : Nat)
    : (allocate count).Ends fat
        (fun clusters after => Fresh fat.layout fat.device.disk clusters ∧ clusters.length = count
          ∧ count ≤ fat.layout.freeCells fat.device.disk
          ∧ ∃ mid, Looked fat mid
            ∧ after = { mid with nextFree := (clusters.getLast?.map (· + 1)).getD 2 })
        (fun halt after => (halt = .error .noSpace
          ∧ fat.layout.freeCells fat.device.disk < count ∨ Failed fat halt) ∧ Looked fat after) := by
  unfold allocate
  simp only [Action.ends_bind, Action.ends_get]
  refine (allocateFrom_reads coherent (Nat.zero_add _)).mono ?_ ?_
  · rintro clusters after ⟨found, looked⟩
    obtain ⟨fresh, many⟩ := search_all fat.layout fat.device.disk count
      (max 2 (min fat.nextFree (fat.layout.clusterCount + 1)))
    rw [Except.ok.inj found] at fresh many
    split
    · exact ⟨.inl ⟨rfl, by omega⟩, looked⟩
    · exact ⟨fresh, by omega, by omega, after, looked, rfl⟩
  · rintro halt after ⟨looked, ⟨error, -, ⟨⟩⟩ | failed⟩
    exact ⟨.inr failed, looked⟩

/-- Allocating gives free clusters, or stops with too few of them or a device error. -/
theorem allocate_ends (ready : Ready fat) (count : Nat)
    : (allocate count).Ends fat
        (fun clusters after => Fresh fat.layout fat.device.disk clusters ∧ clusters.length = count
          ∧ Ready after ∧ Tended fat after ∧ after.device.disk = fat.device.disk)
        (fun halt after => (halt = .error .noSpace ∨ Failed fat halt) ∧ Looked fat after) := by
  refine (allocate_finds ready.coherent count).mono ?_ ?_
  · rintro clusters after ⟨fresh, length, -, mid, looked, rfl⟩
    refine ⟨fresh, length, (looked.ready ready).recount _ _ _, ?_, looked.disk⟩
    have steady := looked.tended.toSteady
    exact .of_steady ⟨steady.layout, steady.freeCount, steady.underflowed, steady.plan,
      steady.trail⟩ looked.disk
  · exact fun halt after ⟨stopped, looked⟩ => ⟨stopped.imp_left And.left, looked⟩

theorem countFree_reads (left cluster free : Nat) (coherent : Coherent fat) (low : 2 ≤ cluster)
    (high : cluster + left ≤ fat.layout.clusterCount + 2)
    : Reads (countFree left cluster free) fat
        (.ok (free + (List.range' cluster left).countP (fun cluster =>
          fat.layout.fatValue fat.device.disk cluster = 0))) := by
  induction left generalizing cluster free fat with
  | zero => exact Reads.pure coherent free
  | succ left ih =>
    have inside : fat.layout.contains cluster = true := by
      rw [contains_iff]
      omega
    unfold countFree
    refine (fatEntry_reads coherent inside).bind ?_ ?_
    · rintro value after same looked
      cases same
      have rest := ih (cluster + 1)
        (if fat.layout.fatValue fat.device.disk cluster = 0 then free + 1 else free) looked.coherent
        (by omega) (by rw [looked.layout]; omega)
      rw [looked.layout, looked.disk] at rest
      convert rest using 2
      rw [List.range'_succ, List.countP_cons]
      simp only [decide_eq_true_eq]
      split <;> omega
    · rintro error ⟨⟩

theorem Layout.Proper.lt_chainEnd (proper : layout.Proper) (inside : layout.contains cluster = true)
    : cluster < layout.fatType.chainEnd := by
  have numbers := proper.numbers
  have bad : layout.fatType.bad < layout.fatType.chainEnd := by
    cases layout.fatType <;> decide
  have range := (contains_iff cluster).mp inside
  omega

theorem freeClusters_reads (coherent : Coherent fat)
    : Reads freeClusters fat (.ok (fat.layout.freeCells fat.device.disk)) := by
  have counted := countFree_reads fat.layout.clusterCount 2 0 coherent (Nat.le_refl 2) (by omega)
  rw [Nat.zero_add] at counted
  exact .get counted

----------
-- Chaining and freeing clusters
----------

/-- Chaining free clusters takes as many off the free ones, and then off the count. -/
theorem link_ends (ready : Ready fat) (fresh : Fresh fat.layout fat.device.disk clusters)
    : (link clusters).Ends fat
        (fun _ after =>
          ∃ mid,
            Relinked fat (linkPairs fat.layout.fatType.entryMask clusters) mid
            ∧ fat.layout.freeCells mid.device.disk + clusters.length
              = fat.layout.freeCells fat.device.disk
            ∧ after = { mid with
                freeCount := mid.freeCount.map (fun free =>
                  (free + (0x100000000 - clusters.length % 0x100000000)) % 0x100000000)
                underflowed := mid.underflowed
                  || mid.freeCount.any (fun free => free < clusters.length) })
        (fun _ => Stopped fat) := by
  have high : fat.layout.fatType.chainEnd ≤ fat.layout.fatType.entryMask := by
    cases fat.layout.fatType <;> decide
  have each (pair : Nat × Nat) (member : pair ∈ linkPairs fat.layout.fatType.entryMask clusters)
      : pair.2 ≠ 0 ∧ fat.layout.contains pair.1 = true
        ∧ pair.2 ≤ fat.layout.fatType.entryMask := by
    obtain ⟨here, value⟩ := mem_linkPairs member
    rcases value with ending | next
    · rw [ending]
      exact ⟨by cases fat.layout.fatType <;> decide, fresh.inside _ here, Nat.le_refl _⟩
    · have range := (contains_iff _).mp (fresh.inside _ next)
      have low := ready.proper.lt_chainEnd (fresh.inside _ next)
      exact ⟨by omega, fresh.inside _ here, by omega⟩
  have flushed := setEntries_flush ready (fun pair member => (each pair member).2)
  unfold link
  simp only [Action.ends_bind, Action.ends_get, Action.ends_modify, linkFrom_eq] at flushed ⊢
  refine flushed.mono (fun _ early flushes => flushes.mono ?_ (fun _ _ stopped => stopped))
    (fun _ _ stopped => stopped)
  intro _ mid relinked
  refine ⟨mid, relinked, ?_, rfl⟩
  refine freeCells_add fresh.distinct fresh.inside ?_ fresh.free ?_
  · exact fun cluster here other => relinked.same here (by rwa [linkPairs_fst])
  · intro cluster member
    obtain ⟨pair, there, -, value⟩ :=
      relinked.set (fresh.inside cluster member) (by rwa [linkPairs_fst])
    rw [value]
    exact (each pair there).1

theorem clearEntries_ends (ready : Ready fat) (distinct : clusters.Nodup)
    (inside : ∀ cluster ∈ clusters, fat.layout.contains cluster = true)
    (used : ∀ cluster ∈ clusters, fat.layout.fatValue fat.device.disk cluster ≠ 0)
    : (do clearEntries clusters; flushFat).Ends fat
        (fun _ after => Ready after ∧ Tended fat after
          ∧ fat.layout.freeCells fat.device.disk + clusters.length
            = fat.layout.freeCells after.device.disk)
        (fun _ => Stopped fat) := by
  rw [clearEntries_eq]
  have cleared : (clusters.map (fun cluster => (cluster, 0))).map Prod.fst = clusters := by
    simp [Function.comp_def]
  refine (setEntries_flush ready ?_).mono ?_ (fun _ _ stopped => stopped)
  · intro pair member
    obtain ⟨cluster, there, rfl⟩ := List.mem_map.mp member
    exact ⟨inside cluster there, Nat.zero_le _⟩
  · intro _ after relinked
    refine ⟨relinked.ready, relinked.tended, ?_⟩
    refine freeCells_add distinct inside ?_ ?_ used
    · exact fun cluster here other => (relinked.same here (by rwa [cleared])).symm
    · intro cluster member
      obtain ⟨pair, there, -, value⟩ := relinked.set (inside cluster member) (by rwa [cleared])
      obtain ⟨_, _, rfl⟩ := List.mem_map.mp there
      exact value

/-- Hooking clusters onto a cluster in use makes none free. -/
theorem hook_ends (ready : Ready fat) {last first : Nat} (inside : fat.layout.contains last = true)
    (used : fat.layout.fatValue fat.device.disk last ≠ 0)
    (target : fat.layout.contains first = true)
    : (do setFatEntry last first; flushFat).Ends fat
        (fun _ after => Ready after ∧ Tended fat after
          ∧ fat.layout.freeCells after.device.disk = fat.layout.freeCells fat.device.disk)
        (fun _ => Stopped fat) := by
  have high : fat.layout.fatType.chainEnd ≤ fat.layout.fatType.entryMask := by
    cases fat.layout.fatType <;> decide
  have low := ready.proper.lt_chainEnd target
  have flushed := @setEntries_flush [(last, first)] fat ready (by
    simp only [List.mem_singleton, forall_eq]
    exact ⟨inside, by omega⟩)
  simp only [setEntries, Action.ends_bind, Action.ends_pure] at flushed ⊢
  refine flushed.mono (fun _ early flushes => flushes.mono ?_ (fun _ _ stopped => stopped))
    (fun _ _ stopped => stopped)
  intro _ after relinked
  refine ⟨relinked.ready, relinked.tended, freeCells_congr (fun cluster here => ?_)⟩
  by_cases same : cluster = last
  · subst same
    obtain ⟨pair, there, -, value⟩ := relinked.set here List.mem_cons_self
    obtain rfl := List.mem_singleton.mp there
    have range := (contains_iff first).mp target
    rw [value]
    exact iff_of_false (show first ≠ 0 by omega) used
  · rw [relinked.same here (by simpa using same)]

end RustyPi.Fat
