import RustyPi.Memory.Translation

/-! What the calls of an address space do to the pages it stands for: a new one stands for none, and
mapping adds pages one after another until one is refused.
-/

namespace RustyPi.Memory

open RustyPi.Leases

/-- The pages that were there are as they were, and new ones are zeroed. -/
structure Grown (pages : Pages) (ram : Ram) (after : Pages) (later : Ram) : Prop where
  kept
    : ∀ va page, pages va = some page → after va = some page ∧ Ram.SameFrame page.1 ram later
  zeroed : ∀ va page, pages va = none → after va = some page → later.Zeroed page.1

variable {ram later : Ram} {pages : Pages}

theorem Ram.Zeroed.same {frame : Nat} (zeroed : ram.Zeroed frame) (same : SameFrame frame ram later)
    : later.Zeroed frame :=
  fun offset inside => (same offset inside).trans (zeroed offset inside)

theorem Grown.trans {between after : Pages} {middle : Ram} (first : Grown pages ram between middle)
    (second : Grown between middle after later)
    : Grown pages ram after later where
  kept va page mapped := by
    obtain ⟨still, same⟩ := first.kept va page mapped
    obtain ⟨last, again⟩ := second.kept va page still
    exact ⟨last, fun offset inside => (again offset inside).trans (same offset inside)⟩
  zeroed va page unmapped mapped := by
    cases there : between va with
    | none => exact second.zeroed va page there mapped
    | some other =>
      obtain ⟨still, same⟩ := second.kept va other there
      obtain rfl : other = page := Option.some.inj (still.symm.trans mapped)
      exact (first.zeroed va other unmapped there).same same

theorem Grown.of_same (same : ∀ va page, pages va = some page → Ram.SameFrame page.1 ram later)
    : Grown pages ram pages later where
  kept va page mapped := ⟨mapped, same va page mapped⟩
  zeroed va page unmapped mapped := by simp [unmapped] at mapped

theorem Grown.set {after : Pages} (grown : Grown pages ram after later) {va : Nat}
    (free : after va = none) {page : Nat × Access} (zeroed : later.Zeroed page.1)
    : Grown pages ram (after.set va page) later where
  kept other there mapped := by
    obtain ⟨still, same⟩ := grown.kept other there mapped
    refine ⟨?_, same⟩
    rw [Pages.set_of_ne _ (fun here => by rw [here, free] at still; cases still)]
    exact still
  zeroed other there unmapped mapped := by
    by_cases here : other = va
    · subst here
      rw [Pages.set_same] at mapped
      exact Option.some.inj mapped ▸ zeroed
    · rw [Pages.set_of_ne _ here] at mapped
      exact grown.zeroed other there unmapped mapped

theorem Grown.refl (pages : Pages) (ram : Ram) : Grown pages ram pages ram :=
  .of_same (fun _ _ _ _ _ => rfl)

section Store

variable {scarce : Prop} {held : List Nat} {frame index : Nat}

theorem storeWord_same {other : Nat} (usable : UsableFrame frame) (otherUsable : UsableFrame other)
    (differ : other ≠ frame) (inside : index < entries) (value : Nat) (ram : Ram)
    : Ram.SameFrame other ram (ram.storeWord (frame + 8 * index) value) := by
  refine usable.sameFrame otherUsable differ (fun place outside => ?_)
  refine Ram.storeWord_of_outside ?_
  simp only [entries, pageSize] at *
  omega

theorem storeWord_within (listed : frame ∈ held) (usable : UsableFrame frame)
    (inside : index < entries) (value : Nat) (ram : Ram)
    : (source scarce).Within held ram (ram.storeWord (frame + 8 * index) value) :=
  fun _ otherUsable absent =>
    storeWord_same usable otherUsable (fun same => absent (same ▸ listed)) inside value ram

theorem zeroPage_same {other : Nat} (usable : UsableFrame frame) (otherUsable : UsableFrame other)
    (differ : other ≠ frame) (ram : Ram)
    : Ram.SameFrame other ram (ram.zeroPage frame) :=
  usable.sameFrame otherUsable differ (fun _ outside => if_neg (by omega))

theorem zeroPage_zeroed (frame : Nat) (ram : Ram) : (ram.zeroPage frame).Zeroed frame :=
  fun offset inside => if_pos ⟨by omega, by omega⟩

end Store

namespace Faithful

variable {scarce : Prop} {kernel : Table} {space : AddressSpace} {pages : Pages}
variable {held : List Nat} {ram now : Ram}

theorem tables_nodup (faithful : Faithful kernel space pages held ram) : space.tables.Nodup :=
  (List.nodup_append.mp (faithful.holdings.nodup_iff.mp faithful.distinct)).2.1

theorem root_ne_level2 (faithful : Faithful kernel space pages held ram)
    : space.root ≠ space.level2 := by
  have distinct := faithful.tables_nodup
  simp only [AddressSpace.tables, List.cons_append, List.nodup_cons, List.mem_cons] at distinct
  exact fun same => distinct.1 (.inl same)

variable {index table : Nat}

section Faithful

variable (faithful : Faithful kernel space pages held ram)
include faithful

theorem table_ne_level2 (found : space.level3.lookup index = some table)
    : table ≠ space.level2 := by
  have distinct := faithful.tables_nodup
  simp only [AddressSpace.tables, List.cons_append, List.nodup_cons, List.nil_append] at distinct
  exact fun same => distinct.2.1 (same ▸ List.mem_map.mpr ⟨_, mem_of_lookup found, rfl⟩)

theorem table_ne_root (found : space.level3.lookup index = some table)
    : table ≠ space.root := by
  have distinct := faithful.tables_nodup
  simp only [AddressSpace.tables, List.cons_append, List.nodup_cons, List.nil_append] at distinct
  exact fun same =>
    distinct.1 (List.mem_cons_of_mem _ (same ▸ List.mem_map.mpr ⟨_, mem_of_lookup found, rfl⟩))

end Faithful

theorem level2_mem (space : AddressSpace) : space.level2 ∈ space.allFrames :=
  List.mem_append_right _ (by simp)

theorem root_mem (space : AddressSpace) : space.root ∈ space.allFrames :=
  List.mem_append_right _ (by simp)

variable (faithful : Faithful kernel space pages held ram)
include faithful

theorem grown_of_keeps (keeps : (source scarce).Keeps held ram now)
    : Grown pages ram pages now :=
  .of_same (fun _ _ mapped =>
    keeps _ (faithful.holdings.mem_iff.mpr (List.mem_append_left _ (faithful.page_mem mapped))))

theorem grown_of_store (listed : table ∈ space.tables) (inside : index < entries) (value : Nat)
    : Grown pages ram pages (ram.storeWord (table + 8 * index) value) :=
  .of_same (fun _ _ mapped =>
    storeWord_same (faithful.usable_of_mem (List.mem_append_right _ listed))
      (faithful.page_usable mapped)
      (fun same => faithful.page_notMem_tables mapped (same ▸ listed)) inside value ram)

/-- A descriptor of a new level 3 table changes no translation. -/
theorem linked (inside : index < entries)
    (absent : space.level3.lookup index = none) (usable : UsableFrame table) (new : table ∉ held)
    (zero : ram.Zeroed table)
    : Faithful kernel { space with level3 := insertKey index table space.level3 } pages
        (table :: held)
        (ram.storeWord (space.level2 + 8 * index) (table ||| valid ||| tableOrPage)) := by
  have level2Usable := faithful.usable_of_mem (level2_mem space)
  have newTable : table ≠ space.level2 :=
    fun same => new (same ▸ faithful.holdings.mem_iff.mpr (level2_mem space))
  have stored {other : Nat} (otherUsable : UsableFrame other) (differ : other ≠ space.level2)
      : Ram.SameFrame other ram
          (ram.storeWord (space.level2 + 8 * index) (table ||| valid ||| tableOrPage)) :=
    storeWord_same level2Usable otherUsable differ inside _ ram
  exact
    { holdings :=
        (faithful.holdings.cons table).trans (AddressSpace.allFrames_insertTable table absent)
      distinct := List.nodup_cons.mpr ⟨new, faithful.distinct⟩
      usable := List.forall_mem_cons.mpr ⟨usable, faithful.usable⟩
      recorded := faithful.recorded
      covered := fun va mapped => by
        obtain ⟨userPage, found⟩ := faithful.covered va mapped
        refine ⟨userPage, ?_⟩
        rw [lookup_insertKey]
        split
        · rfl
        · exact found
      walks :=
        { root := fun other small => by
            rw [(stored (faithful.usable_of_mem (root_mem space)) faithful.root_ne_level2).loadWord
              small]
            exact faithful.walks.root other small
          level2 := fun other small => by
            rw [lookup_insertKey]
            dsimp only
            split
            · rename_i same
              rw [same, Ram.loadWord_storeWord, Nat.or_assoc, usable.lt_wordLimit (by decide)]
              rw [Option.map_some, Option.getD_some, Nat.or_assoc]
            · rename_i differ
              rw [Ram.loadWord_storeWord_of_apart (by omega)]
              exact faithful.walks.level2 other small
          level3 := fun va other userPage found => by
            rw [lookup_insertKey] at found
            split at found
            · rename_i same
              cases found
              rw [(stored usable newTable).loadWord (level3Index_lt va),
                zero.loadWord (level3Index_lt va)]
              -- A page here would have had a table before.
              cases mapped : pages va with
              | none => rfl
              | some page =>
                obtain ⟨-, there⟩ := faithful.covered va (by simp [mapped])
                rw [same, absent] at there
                cases there
            · have otherUsable :=
                faithful.usable_of_mem (List.mem_append_right _ (table_mem found))
              rw [(stored otherUsable (faithful.table_ne_level2 found)).loadWord (level3Index_lt va)]
              exact faithful.walks.level3 va other userPage found } }

theorem mapped {va : Nat} (userPage : UserPage va)
    (free : pages va = none) (found : space.level3.lookup (level2Index va) = some table)
    {frame : Nat} (usable : UsableFrame frame) (new : frame ∉ held) (access : Access)
    : Faithful kernel { space with frames := insertKey va frame space.frames }
        (pages.set va (frame, access)) (frame :: held)
        (ram.storeWord (table + 8 * level3Index va) (frame ||| access.descriptorBits)) := by
  have inside := level3Index_lt va
  have tableUsable := faithful.usable_of_mem (List.mem_append_right _ (table_mem found))
  have stored {other : Nat} (otherUsable : UsableFrame other) (differ : other ≠ table)
      : Ram.SameFrame other ram
          (ram.storeWord (table + 8 * level3Index va) (frame ||| access.descriptorBits)) :=
    storeWord_same tableUsable otherUsable differ inside _ ram
  have unrecorded : space.frames.lookup va = none := by rw [faithful.recorded, free]; rfl
  exact
    { holdings :=
        (faithful.holdings.cons frame).trans (AddressSpace.allFrames_insertPage frame unrecorded)
      distinct := List.nodup_cons.mpr ⟨new, faithful.distinct⟩
      usable := List.forall_mem_cons.mpr ⟨usable, faithful.usable⟩
      recorded := fun other => by
        rw [lookup_insertKey]
        split
        · rename_i same
          rw [same, Pages.set_same]
          rfl
        · rename_i differ
          rw [Pages.set_of_ne _ differ]
          exact faithful.recorded other
      covered := fun other there => by
        by_cases same : other = va
        · rw [same]
          exact ⟨userPage, by simp [found]⟩
        · rw [Pages.set_of_ne _ same] at there
          exact faithful.covered other there
      walks :=
        { root := fun index small => by
            rw [(stored (faithful.usable_of_mem (root_mem space))
              (faithful.table_ne_root found).symm).loadWord small]
            exact faithful.walks.root index small
          level2 := fun index small => by
            rw [(stored (faithful.usable_of_mem (level2_mem space))
              (faithful.table_ne_level2 found).symm).loadWord small]
            exact faithful.walks.level2 index small
          level3 := fun other otherTable otherPage otherFound => by
            by_cases same : other = va
            · subst same
              obtain rfl : table = otherTable := Option.some.inj (found.symm.trans otherFound)
              rw [Ram.loadWord_storeWord, usable.lt_wordLimit access.descriptorBits_lt,
                Pages.set_same]
              rfl
            · rw [Pages.set_of_ne _ same]
              by_cases sameTable : otherTable = table
              · -- The same table, so another entry of it.
                subst sameTable
                have index2 := lookup_injective
                  (List.nodup_append.mp faithful.tables_nodup).2.1 otherFound found
                have differ : level3Index other ≠ level3Index va :=
                  fun index3 => same (otherPage.ext userPage index2 index3)
                rw [Ram.loadWord_storeWord_of_apart (by omega)]
                exact faithful.walks.level3 other otherTable otherPage otherFound
              · have otherUsable :=
                  faithful.usable_of_mem (List.mem_append_right _ (table_mem otherFound))
                rw [(stored otherUsable sameTable).loadWord (level3Index_lt other)]
                exact faithful.walks.level3 other otherTable otherPage otherFound } }

end Faithful

theorem zeroedFrame_ensures (scarce : Prop) {held : List Nat}
    (usable : ∀ frame ∈ held, UsableFrame frame)
    : zeroedFrame.Ensures (source scarce)
        (fun result after later =>
          (source scarce).Keeps held ram later
          ∧ match result with
            | none => scarce ∧ after = held
            | some frame =>
              UsableFrame frame ∧ frame ∉ held ∧ after = frame :: held ∧ later.Zeroed frame)
        held ram := by
  unfold zeroedFrame
  rw [Program.ensures_bind, Program.ensures_taken]
  intro between keeps
  refine ⟨fun short => ⟨keeps, short, rfl⟩, fun frame new absent => ?_⟩
  rw [Program.ensures_bind, Program.ensures_modified]
  intro now keepsNow
  have others : ∀ other, UsableFrame other → other ∉ frame :: held →
      Ram.SameFrame other now (now.zeroPage frame) :=
    fun other otherUsable apart =>
      zeroPage_same new otherUsable (fun same => apart (same ▸ List.mem_cons_self)) now
  refine ⟨others, ?_, new, absent, rfl, zeroPage_zeroed frame now⟩
  refine keeps.trans ((keepsNow.mono (List.subset_cons_self ..)).trans ?_)
  exact fun other listed =>
    zeroPage_same new (usable other listed) (fun same => absent (same ▸ listed)) now

namespace AddressSpace

variable {scarce : Prop} {kernel : Table} {space : AddressSpace} {pages : Pages}
variable {held : List Nat} {ram : Ram}

theorem new_ensures (scarce : Prop) (kernel : Table) (ram : Ram)
    : (new kernel).Ensures (source scarce)
        (fun result after later =>
          match result with
          | none => scarce ∧ after = []
          | some space => Faithful kernel space Pages.empty after later)
        [] ram := by
  unfold new
  refine (zeroedFrame_ensures scarce (by simp)).bind (fun result held ram first => ?_)
  cases result with
  | none => exact first.2
  | some root =>
    obtain ⟨-, rootUsable, -, rfl, rootZero⟩ := first
    refine (zeroedFrame_ensures scarce (by simpa using rootUsable)).bind
      (fun result held later second => ?_)
    cases result with
    | none =>
      obtain ⟨-, short, rfl⟩ := second
      rw [Program.ensures_bind, Program.ensures_given]
      exact ⟨List.mem_singleton_self root, fun _ _ => ⟨short, by simp⟩⟩
    | some level2 =>
      obtain ⟨keeps, level2Usable, apart, rfl, level2Zero⟩ := second
      rw [List.mem_singleton] at apart
      rw [Program.ensures_bind, Program.ensures_modified]
      intro before keepsBefore
      have storeTableSame (other : Nat) (usable : UsableFrame other) (differ : other ≠ root)
          : Ram.SameFrame other before (before.storeTable root kernel) :=
        rootUsable.sameFrame usable differ
          (fun _ outside => Ram.storeTable_of_outside root kernel before outside)
      refine ⟨fun other usable absent => storeTableSame other usable
        (fun same => absent (by simp [same])), ?_⟩
      rw [Program.ensures_bind, Program.ensures_modified]
      intro stored keepsStored
      have inside := level1Index_lt userBase
      refine ⟨storeWord_within (by simp) rootUsable inside _ stored, ?_⟩
      have level2Same
          : Ram.SameFrame level2 later
              (stored.storeWord (root + 8 * level1Index userBase)
                (level2 ||| valid ||| tableOrPage)) := by
        refine (source scarce).trans _ _ _ _ (keepsBefore level2 (by simp)) ?_
        refine (source scarce).trans _ _ _ _ (storeTableSame level2 level2Usable apart) ?_
        refine (source scarce).trans _ _ _ _ (keepsStored level2 (by simp)) ?_
        exact storeWord_same rootUsable level2Usable apart inside _ stored
      exact
        { holdings := List.Perm.swap ..
          distinct := by simpa using apart
          usable := by simp [rootUsable, level2Usable]
          recorded := fun _ => rfl
          covered := fun _ mapped => by simp [Pages.empty] at mapped
          walks :=
            { root := fun index small => by
                dsimp only
                split
                · rename_i same
                  rw [same, Ram.loadWord_storeWord, Nat.or_assoc,
                    level2Usable.lt_wordLimit (by decide)]
                · rename_i differ
                  rw [Ram.loadWord_storeWord_of_apart (by omega),
                    (keepsStored root (by simp)).loadWord small,
                    Ram.loadWord_storeTable root kernel before small]
              level2 := fun index small => (level2Zero.same level2Same).loadWord small
              level3 := fun va table _ found => by cases found } }

/-- With a level 3 table for `va`, new or not, the space stands for the same pages. -/
theorem level3For_ensures (faithful : Faithful kernel space pages held ram) (va : Nat)
    : (space.level3For va).Ensures (source scarce)
        (fun result after later =>
          Faithful kernel result.1 pages after later
          ∧ Grown pages ram pages later
          ∧ (∃ taken, after = taken ++ held)
          ∧ match result.2 with
            | none => scarce
            | some table => result.1.level3.lookup (level2Index va) = some table)
        held ram := by
  unfold level3For
  split
  · rename_i table found
    exact ⟨faithful, Grown.refl pages ram, ⟨[], rfl⟩, found⟩
  · rename_i absent
    refine (zeroedFrame_ensures scarce faithful.usable).bind (fun result after later zeroed => ?_)
    cases result with
    | none =>
      obtain ⟨keeps, short, rfl⟩ := zeroed
      exact ⟨faithful.kept keeps, faithful.grown_of_keeps keeps, ⟨[], rfl⟩, short⟩
    | some table =>
      obtain ⟨keeps, usable, new, rfl, zero⟩ := zeroed
      rw [Program.ensures_bind, Program.ensures_modified]
      intro now keepsNow
      have inside := level2Index_lt va
      have allKept := keeps.trans (keepsNow.mono (List.subset_cons_self ..))
      have faithfulNow := faithful.kept allKept
      have level2Held : space.level2 ∈ held :=
        faithful.holdings.mem_iff.mpr (Faithful.level2_mem space)
      have level2Usable := faithful.usable _ level2Held
      refine ⟨storeWord_within (List.mem_cons_of_mem _ level2Held) level2Usable inside _ now,
        faithfulNow.linked inside absent usable new (zero.same (keepsNow table (by simp))),
        (faithful.grown_of_keeps allKept).trans (faithfulNow.grown_of_store (by simp [tables]) inside _),
        ⟨[table], rfl⟩, by simp [lookup_insertKey]⟩

/-- What is known after pages were asked for: those that were added, in frames that were taken for
them, and that the space stands for the pages it then has.
-/
def Answered (scarce : Prop) (kernel : Table) (access : Access) (asked : List Nat) (pages : Pages)
    (held : List Nat) (ram : Ram) (result : AddressSpace × Except MapError Unit)
    (after : List Nat) (later : Ram)
    : Prop :=
  ∃ frames taken pagesAfter,
    Adds scarce access asked pages frames result.2 pagesAfter
    ∧ Faithful kernel result.1 pagesAfter after later
    ∧ Grown pages ram pagesAfter later
    ∧ after = taken ++ held
    ∧ frames ⊆ taken

theorem map_ensures (faithful : Faithful kernel space pages held ram) (va : Nat) (access : Access)
    : (space.map va access).Ensures (source scarce)
        (Answered scarce kernel access [va] pages held ram) held ram := by
  have refused (error : MapError) (reason : Refuses scarce pages va error)
      : Answered scarce kernel access [va] pages held ram (space, .error error) held ram :=
    ⟨[], [], pages, .refused reason, faithful, Grown.refl pages ram, rfl, List.nil_subset _⟩
  unfold map
  split
  · rename_i unaligned
    exact refused .notAligned unaligned
  split
  · rename_i outside
    exact refused .outsideWindow outside
  split
  · rename_i recorded
    refine refused .alreadyMapped ?_
    rw [faithful.recorded, Option.isSome_map] at recorded
    exact recorded
  · rename_i aligned inside unrecorded
    have userPage : UserPage va := ⟨Decidable.not_not.mp aligned, Decidable.not_not.mp inside⟩
    have free : pages va = none := by
      simpa [faithful.recorded] using unrecorded
    refine (level3For_ensures faithful va).bind (fun result after later first => ?_)
    obtain ⟨space, table⟩ := result
    obtain ⟨faithful, grown, ⟨taken, rfl⟩, found⟩ := first
    cases table with
    | none => exact ⟨[], taken, pages, .refused found, faithful, grown, rfl, List.nil_subset _⟩
    | some table =>
      refine (zeroedFrame_ensures scarce faithful.usable).bind (fun result after last second => ?_)
      cases result with
      | none =>
        obtain ⟨keeps, short, rfl⟩ := second
        exact ⟨[], taken, pages, .refused short, faithful.kept keeps,
          grown.trans (faithful.grown_of_keeps keeps), rfl, List.nil_subset _⟩
      | some frame =>
        obtain ⟨keeps, usable, new, rfl, zero⟩ := second
        rw [Program.ensures_bind, Program.ensures_modified]
        intro now keepsNow
        have allKept := keeps.trans (keepsNow.mono (List.subset_cons_self ..))
        have faithfulNow := faithful.kept allKept
        have tableMem := Faithful.table_mem found
        have tableHeld : table ∈ taken ++ held :=
          faithful.holdings.mem_iff.mpr (List.mem_append_right _ tableMem)
        have tableUsable := faithful.usable _ tableHeld
        have inside := level3Index_lt va
        refine ⟨storeWord_within (List.mem_cons_of_mem _ tableHeld) tableUsable inside _ now,
          [frame], frame :: taken, pages.set va (frame, access), .mapped userPage free .done,
          faithfulNow.mapped userPage free found usable new access, ?_, rfl, by simp⟩
        have kept := (grown.trans (faithful.grown_of_keeps allKept)).trans
          (faithfulNow.grown_of_store tableMem inside (frame ||| access.descriptorBits))
        have zeroNow := zero.same (keepsNow frame (by simp))
        have frameSame := storeWord_same tableUsable usable
          (fun same => new (same ▸ tableHeld)) inside (frame ||| access.descriptorBits) now
        exact kept.set free (zeroNow.same frameSame)

def pagesFrom (va count : Nat) : List Nat :=
  (List.range count).map (fun index => va + pageSize * index)

theorem pagesFrom_succ (va count : Nat)
    : pagesFrom va (count + 1) = va :: pagesFrom (va + pageSize) count := by
  unfold pagesFrom
  rw [List.range_succ_eq_map, List.map_cons, List.map_map]
  congr 1
  refine List.map_congr_left (fun index _ => ?_)
  simp only [Function.comp, pageSize]
  omega

/-- Pages are added until one is refused, by induction on how many are asked for. -/
theorem mapPages_ensures (faithful : Faithful kernel space pages held ram) (access : Access)
    (count va : Nat)
    : (space.mapPages access count va).Ensures (source scarce)
        (Answered scarce kernel access (pagesFrom va count) pages held ram) held ram := by
  induction count generalizing space pages held ram va with
  | zero =>
    exact ⟨[], [], pages, .done, faithful, Grown.refl pages ram, rfl, List.nil_subset _⟩
  | succ count ih =>
    unfold mapPages
    rw [pagesFrom_succ]
    refine (map_ensures faithful va access).bind (fun result after later first => ?_)
    obtain ⟨space, answer⟩ := result
    obtain ⟨frames, taken, pagesAfter, adds, faithful, grown, rfl, listed⟩ := first
    cases adds with
    | refused reason =>
      exact ⟨[], taken, _, .refused reason, faithful, grown, rfl, List.nil_subset _⟩
    | mapped userPage free rest =>
      cases rest
      refine (ih faithful (va + pageSize)).mono (fun result after last second => ?_)
      obtain ⟨more, takenMore, pagesLast, added, faithful, grownMore, rfl, listedMore⟩ := second
      refine ⟨_, takenMore ++ taken, pagesLast, .mapped userPage free added, faithful,
        grown.trans grownMore, by simp, ?_⟩
      simp only [List.cons_subset, List.nil_subset, and_true] at listed ⊢
      exact ⟨List.mem_append_right _ listed,
        fun frame there => List.mem_append_left _ (listedMore there)⟩

end AddressSpace

end RustyPi.Memory
