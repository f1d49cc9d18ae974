import RustyPi.Fat.FreeSpace
import RustyPi.Fat.Reading

/-! The FAT cache over any calls, whatever the device does. A sector that is being changed is not
cached, and an error drops it, so that between calls nothing is pending and the cache holds what is on
the disk.
-/

namespace RustyPi.Fat

open RustyPi.Bytes RustyPi.Journal RustyPi.Reach

/-- Nothing is pending, and the cache holds what is on the disk. -/
structure Truthful (before after : Volume) : Prop where
  ready : Ready after
  layout : after.layout = before.layout

theorem Truthful.trans {a b c : Volume} (first : Truthful a b) (second : Truthful b c) : Truthful a c :=
  ⟨second.ready, second.layout.trans first.layout⟩

instance : Trans Truthful Truthful Truthful := ⟨Truthful.trans⟩

theorem truthful_lasting : Lasting Ready Truthful where
  ready := id
  reaches := Truthful.ready
  layout := Truthful.layout
  same _ ready tended _ := ⟨ready, tended.layout⟩
  stopped _ stopped := ⟨stopped.ready, stopped.layout⟩
  counted ready := ⟨ready.recount _ _ _, rfl⟩
  linked _ _ ready tended _ := ⟨ready.recount _ _ _, tended.layout⟩
  cleared _ _ _ ready tended _ := ⟨ready.recount _ _ _, tended.layout⟩
  informed _ wrote ready _ := ⟨ready, wrote.steady.layout⟩
  stamped _ ready := ⟨⟨ready.proper, ready.cache, ready.clean⟩, rfl⟩

/-- Whatever the device does, between calls nothing is pending, and what is cached is a sector of the
first FAT as it is on the disk.
-/
theorem cache_of_calls (device : Device) (start : Nat) (fat reached : Volume)
    (mounted : mount device start = .ok fat) (apart : fat.layout.Proper)
    (calls : Reaches serve anyEvent fat reached)
    : reached.fatDirty = none
      ∧ ∀ number block, reached.fatCache = some (number, block) →
          fat.layout.fatStart ≤ number
          ∧ number < fat.layout.fatStart + fat.layout.fatSize
          ∧ reached.device.disk (fat.layout.start + number) = block := by
  have truthful : Truthful fat reached :=
    calls.invariant ⟨mount_ready mounted apart, rfl⟩ (fun before call after truthful _ returned =>
      truthful.trans (outcome_of_serve returned
        ▸ (truthful_lasting.call_leads truthful.ready call).leaves))
  refine ⟨truthful.ready.clean, fun number block cached => ?_⟩
  obtain ⟨⟨low, high⟩, same⟩ := truthful.ready.cache number block cached
  rw [truthful.layout] at low high same
  exact ⟨low, high, same.symm⟩

/-- A volume whose FAT sector is garbled by the first call that writes it. -/
def garblingDevice : Device :=
  { smallDevice [] [] [] with
    plan := [.none, .none, .none, .none, .failed 0 [.garbled smallBoot]] }

theorem smallBoot_proper : (BootSector.layout 0 smallBoot).Proper where
  clusterSectors := by decide +kernel
  reserved := by decide +kernel
  copies := by decide +kernel
  covers := by decide +kernel
  beforeData := by decide +kernel
  between start sectors fixed := by
    have root : (BootSector.layout 0 smallBoot).root = .fixed 17 1 := by decide +kernel
    cases root.symm.trans fixed
    decide +kernel
  numbers := by decide +kernel
  info number known := by
    have none : (BootSector.layout 0 smallBoot).fsinfo = none := by decide +kernel
    cases none.symm.trans known

/-- A write that garbles the FAT fails, and a later one reads what is there now. -/
theorem cache_of_garbled
    : ∃ fat reached number block,
        mount garblingDevice 0 = .ok fat
        ∧ Reaches serve anyEvent fat reached
        ∧ reached.fatCache = some (number, block)
        ∧ reached.device.disk (fat.layout.start + number) = block := by
  have ran : (mount garblingDevice 0).toOption.any (fun fat =>
      fat.layout = BootSector.layout 0 smallBoot
      ∧ (runAll serve anyEvent fat [.writeFile "/A".toList [1], .writeFile "/B".toList [2]]).any
          (fun reached => reached.fatCache.isSome)) = true := by
    decide +kernel
  cases mounted : mount garblingDevice 0 with
  | error =>
    rw [mounted] at ran
    cases ran
  | ok fat =>
    rw [mounted] at ran
    simp only [Except.toOption, Option.any_some, Bool.decide_and, Bool.and_eq_true,
      decide_eq_true_eq] at ran
    obtain ⟨reached, run, held⟩ := Reaches.of_check ran.2
    obtain ⟨⟨number, block⟩, cached⟩ := Option.isSome_iff_exists.mp held
    have proper : fat.layout.Proper := ran.1 ▸ smallBoot_proper
    have truth := (cache_of_calls garblingDevice 0 fat reached mounted proper run).2
    exact ⟨fat, reached, number, block, rfl, run, cached, (truth number block cached).2.2⟩

end RustyPi.Fat
