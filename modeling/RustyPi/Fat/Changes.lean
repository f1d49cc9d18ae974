import RustyPi.Fat.Allocation

/-! Calls that change a volume, part by part, whatever the FAT, the directories and the device do.
What each part keeps up, a whole call keeps up.
-/

namespace RustyPi.Fat

open RustyPi.Bytes RustyPi.Journal

/-- A relation between states of a call that its parts keep up, from states where `holds` is true. -/
structure Upkeep (holds : Volume → Prop) (relates : Volume → Volume → Prop) : Prop where
  ready : ∀ {a}, holds a → Ready a
  reaches : ∀ {a b}, relates a b → holds b
  layout : ∀ {a b}, relates a b → b.layout = a.layout
  /-- No count changes, and as many clusters are free. -/
  same
    : ∀ {a b},
        holds a → Ready b → Tended a b
        → a.layout.freeCells b.device.disk = a.layout.freeCells a.device.disk
        → relates a b
  stopped : ∀ {a b}, holds a → Stopped a b → relates a b
  /-- The free clusters were counted. -/
  counted
    : ∀ {a}, holds a →
        relates a { a with freeCount := some (a.layout.freeCells a.device.disk) }
  /-- Free clusters were chained. -/
  linked
    : ∀ {a b} (count : Nat),
        holds a → Ready b → Tended a b
        → a.layout.freeCells b.device.disk + count = a.layout.freeCells a.device.disk
        → relates a { b with
            freeCount := b.freeCount.map (fun free =>
              (free + (0x100000000 - count % 0x100000000)) % 0x100000000)
            underflowed := b.underflowed || b.freeCount.any (fun free => free < count) }
  /-- Clusters were freed. -/
  cleared
    : ∀ {a b} (count nextFree : Nat),
        holds a → Ready b → Tended a b
        → a.layout.freeCells a.device.disk + count = a.layout.freeCells b.device.disk
        → relates a { b with
            freeCount := b.freeCount.map (fun free => (free + count) % 0x100000000)
            nextFree }

namespace Upkeep

variable {holds : Volume → Prop} {relates : Volume → Volume → Prop} (upkeep : Upkeep holds relates)
  {fat : Volume} (here : holds fat)
include upkeep here

theorem refl : relates fat fat := upkeep.same here (upkeep.ready here) (.refl fat) rfl

theorem looked {after : Volume} (looked : Looked fat after) : relates fat after :=
  upkeep.same here (looked.ready (upkeep.ready here)) looked.tended (by rw [looked.disk])

theorem aside {after : Volume} (aside : Aside fat after) : relates fat after := by
  have proper := (upkeep.ready here).proper
  refine upkeep.same here (aside.ready (upkeep.ready here)) (aside.tended proper)
    (freeCells_congr (fun cluster inside => ?_))
  rw [aside.fatValue proper inside]

variable {α : Type} {clusters : List Nat}

theorem reads_leads {action : FatAction α} {answer : Except FatError α}
    (reads : Reads action fat answer)
    : action.Leads relates fat :=
  Action.Ends.mono reads (fun _ _ known => upkeep.looked here known.2)
    (fun _ _ known => upkeep.looked here known.1)

theorem allocate_leads (count : Nat) : (allocate count).Leads relates fat := by
  refine (allocate_ends (upkeep.ready here) count).mono ?_
    (fun _ _ known => upkeep.looked here known.2)
  rintro clusters after ⟨_, _, ready, tended, disk⟩
  exact upkeep.same here ready tended (by rw [disk])

theorem writeClusters_leads (clusters : List Nat) (data : List UInt8)
    : (writeClusters clusters data).Leads relates fat :=
  (writeClusters_aside clusters data (upkeep.ready here).proper).mono
    (fun _ aside => upkeep.aside here aside)

theorem storeDir_leads (image : DirImage) (start stop : Nat)
    (outside : ∀ number ∈ image.sectors, fat.layout.Outside number)
    : (storeDir image start stop).Leads relates fat :=
  (storeSectors_aside image _ _ outside).mono (fun _ aside => upkeep.aside here aside)

theorem link_leads (fresh : Fresh fat.layout fat.device.disk clusters)
    : (link clusters).Leads relates fat := by
  refine (link_ends (upkeep.ready here) fresh).mono ?_
    (fun _ _ stopped => upkeep.stopped here stopped)
  rintro _ _ ⟨mid, relinked, fewer, rfl⟩
  exact upkeep.linked clusters.length here relinked.ready relinked.tended fewer

theorem clearEntries_leads (distinct : clusters.Nodup)
    (inside : ∀ cluster ∈ clusters, fat.layout.contains cluster = true)
    (used : ∀ cluster ∈ clusters, fat.layout.fatValue fat.device.disk cluster ≠ 0)
    : (do
        clearEntries clusters
        flushFat
        modify (fun fat => { fat with
          freeCount := fat.freeCount.map (fun free => (free + clusters.length) % 0x100000000)
          nextFree := (clusters.min?.map (fun lowest => min fat.nextFree lowest)).getD fat.nextFree })
        : FatAction Unit).Leads relates fat := by
  have ends := clearEntries_ends (upkeep.ready here) distinct inside used
  unfold Action.Leads
  simp only [Action.ends_bind, Action.ends_modify] at ends ⊢
  refine ends.mono (fun _ _ flushes => flushes.mono ?_ ?_) ?_
  · rintro _ after ⟨ready, tended, more⟩
    exact upkeep.cleared _ _ here ready tended more
  · exact fun _ _ stopped => upkeep.stopped here stopped
  · exact fun _ _ stopped => upkeep.stopped here stopped

variable [Trans relates relates relates]

theorem beginChange_leads : beginChange.Leads relates fat := by
  refine Action.Leads.get_bind ?_
  split
  · refine Action.Ends.bind (freeClusters_reads (upkeep.ready here).coherent) ?_
      (fun _ _ known => upkeep.looked here known.1)
    rintro free after ⟨same, looked⟩
    cases same
    have related := upkeep.looked here looked
    have cells : fat.layout.freeCells fat.device.disk
        = after.layout.freeCells after.device.disk := by
      rw [looked.layout, looked.disk]
    show relates fat { after with freeCount := some (fat.layout.freeCells fat.device.disk) }
    rw [cells]
    exact Trans.trans related (upkeep.counted (upkeep.reaches related))
  · exact upkeep.refl here

/-- A chain that is read, and then going on with its clusters, which are in use. -/
theorem chain_then_leads {first : Nat} {next : List Nat → FatAction α}
    (onward : ∀ clusters after, relates fat after → Chained after.layout after.device.disk clusters →
      (next clusters).Leads relates after)
    : (chain first >>= next).Leads relates fat := by
  have reads := chain_reads (upkeep.ready here).coherent first
  refine Action.Leads.bind_with (upkeep.reads_leads here reads) reads ?_
  rintro clusters after related ⟨found, looked⟩
  refine onward clusters after related ?_
  rw [looked.layout, looked.disk]
  exact (chained_of_chainFrom found).1

theorem freeChain_leads (first : Nat) : (freeChain first).Leads relates fat := by
  unfold freeChain
  simp only
  split
  · exact upkeep.clearEntries_leads here List.nodup_nil (by simp) (by simp)
  · refine upkeep.chain_then_leads here (fun clusters mid related chained => ?_)
    exact upkeep.clearEntries_leads (upkeep.reaches related) chained.complete.nodup chained.inside
      (fun cluster member => chained.used member)

theorem allocate_then_leads {count : Nat} {next : List Nat → FatAction α}
    (onward : ∀ clusters after,
      relates fat after
      → Fresh after.layout after.device.disk clusters
      → clusters.length = count
      → after.device.disk = fat.device.disk
      → (next clusters).Leads relates after)
    : (allocate count >>= next).Leads relates fat := by
  refine Action.Leads.bind_with (upkeep.allocate_leads here count)
    (allocate_ends (upkeep.ready here) count) ?_
  rintro clusters after related ⟨fresh, length, _, tended, disk⟩
  refine onward clusters after related ?_ length disk
  rw [tended.layout, disk]
  exact fresh

/-- Putting data into free clusters, chaining them, and then going on. -/
theorem addChain_then_leads {next : FatAction α}
    (fresh : Fresh fat.layout fat.device.disk clusters) (data : List UInt8)
    (onward : ∀ after,
      relates fat after
      → (∀ cluster, fat.layout.contains cluster = true → cluster ∉ clusters →
          fat.layout.fatValue after.device.disk cluster
          = fat.layout.fatValue fat.device.disk cluster)
      → next.Leads relates after)
    : (do
        writeClusters clusters data
        link clusters
        next).Leads relates fat := by
  have proper := (upkeep.ready here).proper
  refine Action.Leads.bind_with (upkeep.writeClusters_leads here clusters data)
    (writeClusters_aside clusters data proper) (fun _ written related aside => ?_)
  have freshAfter : Fresh written.layout written.device.disk clusters := by
    refine ⟨fresh.distinct, ?_, fun cluster member => ?_⟩
    · rw [aside.layout]
      exact fresh.inside
    · rw [aside.layout, aside.fatValue proper (fresh.inside cluster member)]
      exact fresh.free cluster member
  have there := upkeep.reaches related
  refine Action.Leads.bind_with (upkeep.link_leads there freshAfter)
    (link_ends (upkeep.ready there) freshAfter) ?_
  rintro _ _ later ⟨mid, relinked, _, rfl⟩
  refine onward _ (Trans.trans related later) (fun cluster inside other => ?_)
  have contained : written.layout.contains cluster = true := by rwa [aside.layout]
  have same := relinked.same contained (by rwa [linkPairs_fst])
  rw [aside.layout] at same
  exact same.trans (aside.fatValue proper inside)

theorem writeChain_leads (data : List UInt8) : (writeChain data).Leads relates fat := by
  unfold writeChain
  split
  · exact upkeep.refl here
  · refine Action.Leads.get_bind (upkeep.allocate_then_leads here
      (fun clusters after related fresh _ _ => ?_))
    exact upkeep.addChain_then_leads (upkeep.reaches related) fresh data
      (fun _ later _ => upkeep.refl (upkeep.reaches later))

theorem extendChain_leads (chained : Chained fat.layout fat.device.disk clusters) {count : Nat}
    (some : 0 < count) (data : List UInt8) (result : List Nat → α)
    : (do
        let new ← allocate count
        writeClusters new data
        link new
        setFatEntry (clusters.getLastD 0) (new.headD 0)
        flushFat
        return result new).Leads relates fat := by
  have member : clusters.getLastD 0 ∈ clusters := by
    rw [List.getLastD_eq_getLast?, List.getLast?_eq_getLast_of_ne_nil chained.complete.ne_nil]
    exact List.getLast_mem _
  have used := chained.used member
  refine upkeep.allocate_then_leads here (fun new after related fresh length disk => ?_)
  obtain ⟨first, rest, rfl⟩ : ∃ first rest, new = first :: rest :=
    List.exists_cons_of_length_pos (length ▸ some)
  refine upkeep.addChain_then_leads (upkeep.reaches related) fresh data
    (fun linked later values => ?_)
  rw [upkeep.layout related] at fresh values
  have other : clusters.getLastD 0 ∉ first :: rest := fun there =>
    used (disk ▸ fresh.free _ there)
  have inside := chained.inside _ member
  have layout := (upkeep.layout later).trans (upkeep.layout related)
  have final := upkeep.reaches later
  have hooked := @hook_ends linked (upkeep.ready final) (clusters.getLastD 0) first
    (by rw [layout]; exact inside)
    (by rw [layout, values _ inside other, disk]; exact used)
    (by rw [layout]; exact fresh.inside first List.mem_cons_self)
  unfold Action.Leads
  simp only [Action.ends_bind] at hooked ⊢
  refine hooked.mono (fun _ _ flushes => flushes.mono ?_ ?_) ?_
  · rintro _ after ⟨ready, tended, cells⟩
    exact upkeep.same final ready tended cells
  · exact fun _ _ stopped => upkeep.stopped final stopped
  · exact fun _ _ stopped => upkeep.stopped final stopped

end Upkeep

section Images

variable {layout : Layout}

/-- A directory image as it is loaded and grown: whole sectors, after the FATs. -/
structure DirImage.Fits (image : DirImage) (layout : Layout) : Prop where
  outside : ∀ number ∈ image.sectors, layout.Outside number
  sized : image.bytes.length = image.sectors.length * blockSize

theorem sectorsOf_outside (proper : layout.Proper) (clusters : List Nat)
    : ∀ number ∈ layout.sectorsOf clusters, layout.Outside number := by
  intro number member
  simp only [Layout.sectorsOf, List.mem_flatMap, List.mem_range'_1] at member
  obtain ⟨cluster, _, low, _⟩ := member
  have after := firstSector_outside proper cluster 0
  unfold Layout.Outside at after ⊢
  omega

variable {dir : Dir}

theorem dirSectors_outside (proper : layout.Proper) {disk : Disk} {sectors : List Nat}
    (found : layout.dirSectors disk dir = .ok sectors)
    : ∀ number ∈ sectors, layout.Outside number := by
  have chains {first : Nat} (found : (layout.chain disk first).map layout.sectorsOf = .ok sectors)
      : ∀ number ∈ sectors, layout.Outside number := by
    cases walked : layout.chain disk first with
    | error => rw [walked] at found; cases found
    | ok clusters =>
      rw [walked] at found
      cases found
      exact sectorsOf_outside proper clusters
  unfold Layout.dirSectors at found
  split at found
  · rename_i start count fixed
    cases found
    intro number member
    have after := (proper.between _ _ fixed).1
    have low := (List.mem_range'_1.mp member).1
    exact Nat.le_trans after low
  · exact chains found
  · exact chains found

variable {image : DirImage}

theorem dirImage_fits (proper : layout.Proper) {disk : Disk}
    (found : layout.dirImage disk dir = .ok image)
    : image.Fits layout := by
  unfold Layout.dirImage at found
  cases sectors : layout.dirSectors disk dir with
  | error error => rw [sectors] at found; cases found
  | ok numbers =>
    rw [sectors] at found
    cases found
    refine ⟨dirSectors_outside proper sectors, ?_⟩
    simp [Layout.bytesAt, bytesOf, List.length_flatMap, Block.sized, Function.comp_def]

theorem DirImage.Fits.put (fits : image.Fits layout) (index : Nat) (slots : List Slot)
    : ∀ number ∈ (image.put index slots).sectors, layout.Outside number :=
  fits.outside

end Images

/-- Where there is no free run, more is needed than there is after the end marker. By induction on
the slots not looked at yet.
-/
theorem freeRunFrom_none {total count index run : Nat} {slots : List Slot}
    (none : freeRunFrom total count index run slots = none) (all : index + slots.length = total)
    (before : run ≤ index) (some : 0 < count)
    : total - (index + slots.findIdx Slot.isEnd) < count := by
  induction slots generalizing index run with
  | nil =>
    simp only [List.length_nil, List.findIdx_nil] at *
    omega
  | cons slot rest ih =>
    rw [List.findIdx_cons]
    rw [List.length_cons] at all
    unfold freeRunFrom at none
    cases ends : slot.isEnd with
    | true =>
      rw [ends, if_pos rfl] at none
      split at none
      · cases none
      · simp only [cond_true]
        omega
    | false =>
      have bound : (if slot.isDeleted then run + 1 else 0) ≤ index + 1 := by
        split <;> omega
      simp only [ends, Bool.false_eq_true, if_false] at none
      generalize (if slot.isDeleted then run + 1 else 0) = deleted at none bound
      split at none
      · cases none
      · have later := ih none (by omega) bound
        simp only [cond_false]
        omega

/-- A grown directory's image is one of whole sectors after the FATs too. -/
theorem growDir_fits {fat : Volume} (proper : fat.layout.Proper) (fits : image.Fits fat.layout)
    (needed : Nat)
    : (growDir dir image needed).Ends fat (fun grown _ => grown.2.Fits fat.layout)
        (fun _ _ => True) := by
  have grown (new : List Nat) : DirImage.Fits
      { sectors := image.sectors ++ fat.layout.sectorsOf new
        bytes := image.bytes ++ List.replicate
          ((image.sectors ++ fat.layout.sectorsOf new).length * blockSize - image.bytes.length) 0 }
      fat.layout := by
    refine ⟨fun number member => ?_, ?_⟩
    · rcases List.mem_append.mp member with old | added
      · exact fits.outside number old
      · exact sectorsOf_outside proper new number added
    · have sized := fits.sized
      have more := Nat.mul_le_mul_right blockSize
        (Nat.le_add_right image.sectors.length (fat.layout.sectorsOf new).length)
      simp only [List.length_append, List.length_replicate]
      omega
  unfold growDir
  rw [Action.ends_bind, Action.ends_get]
  dsimp only
  split
  · exact True.intro
  all_goals
    rw [pure_bind]
    refine Action.Ends.bind (.trivial _ _) (fun _ _ _ => ?_) (fun _ _ _ => True.intro)
    refine Action.Ends.bind (.trivial _ _) (fun new _ _ => ?_) (fun _ _ _ => True.intro)
    refine Action.Ends.bind (.trivial _ _) (fun _ _ _ => ?_) (fun _ _ _ => True.intro)
    refine Action.Ends.bind (.trivial _ _) (fun _ _ _ => ?_) (fun _ _ _ => True.intro)
    refine Action.Ends.bind (.trivial _ _) (fun _ _ _ => ?_) (fun _ _ _ => True.intro)
    refine Action.Ends.bind (.trivial _ _) (fun _ _ _ => ?_) (fun _ _ _ => True.intro)
    exact grown new

theorem newSlots_ne_nil {name : Str} {taken : List ShortName} {attr : UInt8} {cluster size : Nat}
    {stamp : Stamp} {slots : List Slot}
    (made : newSlots name taken attr cluster size stamp = some slots)
    : 0 < slots.length := by
  unfold newSlots at made
  split at made
  · cases made
    exact Nat.one_pos
  · obtain ⟨_, _, rfl⟩ := Option.map_eq_some_iff.mp made
    simp

namespace Upkeep

variable {holds : Volume → Prop} {relates : Volume → Volume → Prop} (upkeep : Upkeep holds relates)
  {fat : Volume} (here : holds fat)
include upkeep here

theorem ofExcept_leads (result : Except Halt α)
    : (Action.ofExcept result : FatAction α).Leads relates fat := by
  cases result <;> exact upkeep.refl here

variable [Trans relates relates relates]

theorem growDir_leads {needed : Nat} (none : image.freeRun needed = none) (some : 0 < needed)
    : (growDir dir image needed).Leads relates fat := by
  have room : image.slots - (slotsOf image.bytes).findIdx Slot.isEnd < needed := by
    have found := freeRunFrom_none none (by simp [slotsOf, DirImage.slots]) (Nat.le_refl 0) some
    rwa [Nat.zero_add] at found
  have perCluster : 0 < fat.layout.clusterSize / dirEntrySize := by
    have sectors := (upkeep.ready here).proper.clusterSectors
    simp only [Layout.clusterSize, blockSize, dirEntrySize]
    omega
  refine Action.Leads.get_bind ?_
  dsimp only
  split
  · exact upkeep.refl here
  all_goals
    rw [pure_bind]
    refine upkeep.chain_then_leads here (fun clusters mid related chained => ?_)
    exact upkeep.extendChain_leads (upkeep.reaches related) chained
      (Nat.div_pos (by omega) perCluster) _ _

theorem addEntry_leads (fits : image.Fits fat.layout) (name : Str) (attr : UInt8)
    (cluster size : Nat)
    : (addEntry dir image name attr cluster size).Leads relates fat := by
  unfold addEntry
  refine Action.Leads.get_bind ?_
  dsimp only
  split
  · exact upkeep.refl here
  · rename_i slots made
    split
    · rw [pure_bind]
      exact upkeep.storeDir_leads here _ _ _ (fits.put _ _)
    · rename_i full
      refine Action.Leads.bind_with (upkeep.growDir_leads here full (newSlots_ne_nil made))
        (growDir_fits (upkeep.ready here).proper fits slots.length) ?_
      rintro ⟨start, grown⟩ after related fitsGrown
      rw [← upkeep.layout related] at fitsGrown
      exact upkeep.storeDir_leads (upkeep.reaches related) _ _ _ (fitsGrown.put _ _)

theorem giveBack_leads (first : Nat) (halt : Halt) : (giveBack first halt).Leads relates fat := by
  unfold giveBack
  split
  · exact (upkeep.freeChain_leads here first).bind
      (fun _ _ related => upkeep.refl (upkeep.reaches related))
  · exact upkeep.refl here

/-- Adding an entry for a new chain, which is given back if that fails. -/
theorem addOrGiveBack_leads (fits : image.Fits fat.layout) (name : Str) (attr : UInt8)
    (cluster size : Nat)
    : (tryCatch (addEntry dir image name attr cluster size) (giveBack cluster)
        : FatAction Unit).Leads relates fat :=
  (upkeep.addEntry_leads here fits name attr cluster size).tryCatch
    (fun halt _ related => upkeep.giveBack_leads (upkeep.reaches related) cluster halt)

theorem findDir_then_leads {path : Str} {next : Dir → DirImage → FatAction α}
    (onward : ∀ dir image after,
      relates fat after → image.Fits after.layout → (next dir image).Leads relates after)
    : (do
        let dir ← findDir path
        let image ← loadDir dir
        next dir image).Leads relates fat := by
  refine (upkeep.reads_leads here (findDir_reads (upkeep.ready here).coherent _)).bind
    (fun dir found inParent => ?_)
  have there := upkeep.reaches inParent
  have reads := loadDir_reads (upkeep.ready there).coherent dir
  refine Action.Leads.bind_with (upkeep.reads_leads there reads) reads ?_
  rintro image after related ⟨loaded, _⟩
  refine (onward dir image after (Trans.trans inParent related) ?_)
  rw [upkeep.layout related]
  exact dirImage_fits (upkeep.ready there).proper loaded

theorem writeFileInner_leads (path : Str) (data : List UInt8)
    : (writeFileInner path data).Leads relates fat := by
  unfold writeFileInner
  dsimp only
  split
  · exact upkeep.refl here
  refine (upkeep.ofExcept_leads here _).bind (fun _ named checked => ?_)
  refine upkeep.findDir_then_leads (upkeep.reaches checked) (fun dir image loaded read fits => ?_)
  have ready := upkeep.reaches read
  refine Action.Leads.get_bind ?_
  split
  · exact upkeep.refl ready
  refine (upkeep.beginChange_leads ready).bind (fun _ begun counted => ?_)
  refine (upkeep.writeChain_leads (upkeep.reaches counted) data).bind (fun first stored chained => ?_)
  have outside : image.Fits stored.layout := by
    rw [upkeep.layout chained, upkeep.layout counted]
    exact fits
  split
  · refine Action.Leads.get_bind ?_
    refine (upkeep.storeDir_leads (upkeep.reaches chained) _ _ _ (outside.put _ _)).bind
      (fun _ pointed moved => ?_)
    exact upkeep.freeChain_leads (upkeep.reaches moved) _
  · exact upkeep.addOrGiveBack_leads (upkeep.reaches chained) outside _ _ _ _

theorem createDirInner_leads (path : Str) : (createDirInner path).Leads relates fat := by
  unfold createDirInner
  dsimp only
  refine (upkeep.ofExcept_leads here _).bind (fun _ named checked => ?_)
  refine upkeep.findDir_then_leads (upkeep.reaches checked) (fun dir image loaded read fits => ?_)
  have ready := upkeep.reaches read
  refine Action.Leads.get_bind ?_
  split
  · exact upkeep.refl ready
  refine (upkeep.beginChange_leads ready).bind (fun _ begun counted => ?_)
  refine upkeep.allocate_then_leads (upkeep.reaches counted)
    (fun clusters after allocated fresh one _ => ?_)
  obtain ⟨cluster, rfl⟩ := List.length_eq_one_iff.mp one
  refine upkeep.addChain_then_leads (upkeep.reaches allocated) fresh _ (fun linked chained _ => ?_)
  refine upkeep.addOrGiveBack_leads (upkeep.reaches chained) ?_ _ _ _ _
  rw [upkeep.layout chained, upkeep.layout allocated, upkeep.layout counted]
  exact fits

theorem removeInner_leads (path : Str) : (removeInner path).Leads relates fat := by
  unfold removeInner
  dsimp only
  refine upkeep.findDir_then_leads here (fun dir image loaded read fits => ?_)
  have ready := upkeep.reaches read
  refine Action.Leads.get_bind ?_
  split
  · exact upkeep.refl ready
  · rename_i located _
    have removes {before : Volume} (related : relates loaded before)
        : (do
            beginChange
            storeDir (image.delete located.start (located.stop - located.start))
              located.start located.stop
            freeChain located.entry.firstCluster).Leads relates before := by
      refine (upkeep.beginChange_leads (upkeep.reaches related)).bind (fun _ begun counted => ?_)
      rw [← upkeep.layout related, ← upkeep.layout counted] at fits
      refine (upkeep.storeDir_leads (upkeep.reaches counted) _ _ _ (fits.put _ _)).bind
        (fun _ unlinked moved => ?_)
      exact upkeep.freeChain_leads (upkeep.reaches moved) _
    split
    · refine (upkeep.reads_leads ready (loadDir_reads (upkeep.ready ready).coherent _)).bind
        (fun contents listed listing => ?_)
      split
      · exact upkeep.refl (upkeep.reaches listing)
      · exact removes listing
    · exact removes (upkeep.refl ready)

end Upkeep

/-- What whole calls keep up: nor may writing FSInfo, before the FATs, or setting the time disturb it. -/
structure Lasting (holds : Volume → Prop) (relates : Volume → Volume → Prop) : Prop
    extends Upkeep holds relates where
  informed
    : ∀ {a b} {writes : List (Nat × Block)},
        holds a → Wrote writes a b → Ready b
        → a.layout.freeCells b.device.disk = a.layout.freeCells a.device.disk
        → relates a b
  stamped : ∀ {a} (now : Stamp), holds a → relates a { a with stamp := now }

/-- The end of `finish_change`: what came of the change. -/
def passOn (result : Except FatError Unit) : FatAction Unit :=
  match result with
  | .ok () => pure ()
  | .error error => fail error

namespace Lasting

variable {holds : Volume → Prop} {relates : Volume → Volume → Prop} (lasting : Lasting holds relates)
  {fat : Volume} (here : holds fat) [Trans relates relates relates]
include lasting here

omit [Trans relates relates relates] in
theorem informs {after : Volume} {writes : List (Nat × Block)} {number : Nat}
    (wrote : Wrote writes fat after) (known : fat.layout.fsinfo = some number)
    (each : ∀ write ∈ writes, write.1 = fat.layout.start + number)
    : relates fat after := by
  have ready := lasting.ready here
  obtain ⟨readyAfter, same⟩ := wrote.informed ready known each
  refine lasting.informed here wrote readyAfter (freeCells_congr (fun cluster inside => ?_))
  unfold Layout.fatValue
  rw [same _ (fatPosition_range ready.proper inside).1]

theorem finishChange_leads (result : Except FatError Unit)
    : (finishChange result).Leads relates fat := by
  have ends {after : Volume} (related : relates fat after)
      : (passOn result).Ends after (fun _ => relates fat) (fun _ => relates fat) := by
    cases result <;> exact related
  have unchanged := lasting.refl here
  refine Action.Leads.get_bind ?_
  dsimp only
  cases known : fat.layout.fsinfo with
  | none => exact ends unchanged
  | some number =>
    cases fat.freeCount with
    | none => exact ends unchanged
    | some free =>
      refine Action.Ends.bind (readSector_reads (lasting.ready here).coherent number) ?_
        (fun _ _ known => lasting.looked here known.1)
      rintro block after ⟨_, looked⟩
      have related := lasting.looked here looked
      have known' : after.layout.fsinfo = some number := looked.layout ▸ known
      have there := lasting.reaches related
      split
      · refine Action.Ends.bind (writeSector_ends number _) ?_ ?_
        · exact fun _ later wrote => ends (Trans.trans related
            (lasting.informs there wrote known' (by simp)))
        · rintro _ later ⟨_, writes, each, wrote⟩
          exact Trans.trans related (lasting.informs there wrote known' each)
      · exact ends related

omit here in
theorem change_leads {work : FatAction Unit} (leads : work.Leads relates fat)
    : (do finishChange (← attempt work) : FatAction Unit).Leads relates fat := by
  have ends {result : Except FatError Unit} {after : Volume} (related : relates fat after) :=
    (lasting.finishChange_leads (lasting.reaches related) result).after related
  unfold Action.Leads attempt
  simp only [Action.ends_bind, Action.ends_tryCatch, Action.ends_pure]
  refine Action.Ends.mono leads (fun _ _ => ends) ?_
  rintro (error | _) after related
  · exact ends related
  · exact related

theorem call_leads (call : Call) : call.run.Leads relates fat := by
  have reads {α : Type} {action : FatAction α} {answer : Except FatError α}
      (reads : Reads action fat answer)
      : (discard action).Leads relates fat :=
    (Action.ends_map ..).mpr (lasting.reads_leads here reads)
  have coherent := (lasting.ready here).coherent
  cases call with
  | readDir path => exact reads (readDir_reads coherent path)
  | metadata path => exact reads (metadata_reads coherent path)
  | readFile path => exact reads (readFile_reads coherent path)
  | writeFile path data => exact lasting.change_leads (lasting.writeFileInner_leads here path data)
  | createDir path => exact lasting.change_leads (lasting.createDirInner_leads here path)
  | remove path => exact lasting.change_leads (lasting.removeInner_leads here path)
  | freeClusters => exact reads (freeClusters_reads coherent)
  | setTime now => exact lasting.stamped now here

end Lasting

theorem outcome_of_serve {fat after : Volume} {call : Call} (returned : serve fat call = some after)
    : (call.run.outcome fat).2 = after := by
  unfold serve at returned
  generalize call.run.outcome fat = outcome at returned ⊢
  rcases outcome with ⟨(error | panic) | _, final⟩
  · exact Option.some.inj returned
  · cases returned
  · exact Option.some.inj returned

end RustyPi.Fat
