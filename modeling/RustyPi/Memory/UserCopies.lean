import RustyPi.Memory.Mapping

/-! Copying into and out of an address space, piece by piece through its tables. A copy changes just
the bytes at its addresses, as a program sees them.
-/

namespace RustyPi.Memory

open RustyPi.Leases

/-- After `bytes` were written at `va`: every mapped byte is one of them, or as it was. -/
def Written (pages : Pages) (ram : Ram) (va : Nat) (bytes : List UInt8) (later : Ram) : Prop :=
  ∀ other physical access,
    pages.translate other = some (physical, access)
    → later physical
      = if va ≤ other then bytes[other - va]?.getD (ram physical) else ram physical

/-- The address is mapped with an access that is allowed. -/
def Pages.Grants (pages : Pages) (allowed : Access → Bool) (va : Nat) : Prop :=
  ∃ physical access, pages.translate va = some (physical, access) ∧ allowed access

theorem Pages.translate_add {pages : Pages} {va physical : Nat} {access : Access}
    (found : pages.translate va = some (physical, access)) {offset : Nat}
    (inPage : va % pageSize + offset < pageSize)
    : pages.translate (va + offset) = some (physical + offset, access) := by
  obtain ⟨same, further⟩
      : pageOf (va + offset) = pageOf va
        ∧ (va + offset) % pageSize = va % pageSize + offset := by
    simp only [pageOf, pageSize] at *
    omega
  unfold Pages.translate at *
  rw [same, further]
  cases mapped : pages (pageOf va) with
  | none => simp [mapped] at found
  | some page =>
    simp only [mapped, Option.map_some, Option.some.injEq, Prod.mk.injEq] at found ⊢
    exact ⟨by omega, found.2⟩

theorem Ram.storeBytes_of_outside {address place : Nat} {bytes : List UInt8} (ram : Ram)
    (outside : place < address ∨ address + bytes.length ≤ place)
    : ram.storeBytes address bytes place = ram place := by
  unfold storeBytes
  split
  · rw [List.getElem?_eq_none (by omega)]
    rfl
  · rfl

namespace Faithful

variable {scarce : Prop} {kernel : Table} {space : AddressSpace} {pages : Pages}
variable {held : List Nat} {ram later : Ram}

variable {va : Nat} {access : Access} {bytes : List UInt8}

variable (faithful : Faithful kernel space pages held ram)
include faithful

theorem translate_held {physical : Nat} (found : pages.translate va = some (physical, access))
    : ∃ frame,
        pages (pageOf va) = some (frame, access)
        ∧ physical = frame + va % pageSize
        ∧ frame ∈ held := by
  cases mapped : pages (pageOf va) with
  | none => simp [Pages.translate, mapped] at found
  | some page =>
    simp only [Pages.translate, mapped, Option.map_some, Option.some.injEq, Prod.mk.injEq]
      at found
    obtain ⟨rfl, rfl⟩ := found
    exact ⟨page.1, rfl, rfl,
      faithful.holdings.mem_iff.mpr (List.mem_append_left _ (faithful.page_mem mapped))⟩

/-- Nothing outside of the window is mapped. -/
theorem translate_window {physical : Nat} (found : pages.translate va = some (physical, access))
    : userBase ≤ va ∧ va < userEnd := by
  obtain ⟨frame, mapped, -⟩ := faithful.translate_held found
  obtain ⟨⟨-, low, high⟩, -⟩ := faithful.covered (pageOf va) (by simp [mapped])
  simp only [pageOf, userBase, userEnd, pageSize] at *
  omega

theorem written_kept {first : Ram}
    (written : Written pages first va bytes ram) (keeps : (source scarce).Keeps held ram later)
    : Written pages first va bytes later := by
  intro other physical access found
  obtain ⟨frame, -, rfl, listed⟩ := faithful.translate_held found
  rw [← written other _ access found]
  exact keeps frame listed _ (Nat.mod_lt _ (by decide))

theorem storeBytes_same {frame : Nat} (mapped : pages (pageOf va) = some (frame, access))
    (fits : va % pageSize + bytes.length ≤ pageSize) {other : Nat} (usable : UsableFrame other)
    (differ : other ≠ frame) (before : Ram)
    : Ram.SameFrame other before (before.storeBytes (frame + va % pageSize) bytes) :=
  (faithful.page_usable mapped).sameFrame usable differ
    (fun _ outside => Ram.storeBytes_of_outside before (by omega))

/-- One more piece is written: the piece is inside one page, and no other page is in its frame. -/
theorem written_piece {first : Ram}
    {done_ piece frame : Nat} (written : Written pages first va (bytes.take done_) ram)
    (mapped : pages (pageOf (va + done_)) = some (frame, access))
    (inPage : (va + done_) % pageSize + piece ≤ pageSize) (inside : done_ + piece ≤ bytes.length)
    : Written pages first va (bytes.take (done_ + piece))
        (ram.storeBytes (frame + (va + done_) % pageSize) ((bytes.drop done_).take piece)) := by
  intro other physical otherAccess found
  have before := written other physical otherAccess found
  have length : ((bytes.drop done_).take piece).length = piece := by
    simp only [List.length_take, List.length_drop]
    omega
  have positive : 0 < pageSize := by decide
  obtain ⟨otherFrame, otherMapped, rfl, -⟩ := faithful.translate_held found
  by_cases samePage : pageOf other = pageOf (va + done_)
  · rw [samePage, mapped] at otherMapped
    obtain ⟨rfl, rfl⟩ := Prod.mk.inj (Option.some.inj otherMapped)
    have offsets : other = pageOf (va + done_) + other % pageSize := by
      rw [← samePage, pageOf, Nat.mul_comm, Nat.div_add_mod]
    have start : va + done_ = pageOf (va + done_) + (va + done_) % pageSize := by
      rw [pageOf, Nat.mul_comm, Nat.div_add_mod]
    unfold Ram.storeBytes
    simp only [List.getElem?_take, List.getElem?_drop] at before ⊢
    rcases Nat.lt_or_ge other (va + done_) with early | late
    · rw [if_neg (show ¬ frame + (va + done_) % pageSize ≤ frame + other % pageSize by omega), before]
      split
      · rw [if_pos (by omega), if_pos (by omega)]
      · rfl
    · have low : frame + (va + done_) % pageSize ≤ frame + other % pageSize := by omega
      have here : va ≤ other := by omega
      rw [if_pos low, if_pos here]
      by_cases within : other < va + done_ + piece
      · have index
            : done_ + (frame + other % pageSize - (frame + (va + done_) % pageSize))
              = other - va := by
          omega
        have present : other - va < bytes.length := by omega
        rw [if_pos (show _ < piece by omega), index,
          if_pos (show other - va < done_ + piece by omega), List.getElem?_eq_getElem present]
        rfl
      · rw [if_neg (show ¬ _ < piece by omega), if_neg (show ¬ other - va < done_ + piece by omega),
          before, if_pos here, if_neg (show ¬ other - va < done_ by omega)]
        rfl
  · have otherUsable := faithful.page_usable otherMapped
    have differ : otherFrame ≠ frame := by
      rintro rfl
      exact samePage (faithful.page_injective otherMapped mapped rfl)
    have fits : (va + done_) % pageSize + ((bytes.drop done_).take piece).length ≤ pageSize := by
      omega
    have same := faithful.storeBytes_same mapped fits otherUsable differ ram
      (other % pageSize) (Nat.mod_lt _ positive)
    rw [same, before]
    -- The addresses of the piece are all in its page.
    have apart : ¬ (va + done_ ≤ other ∧ other < va + done_ + piece) := by
      rintro ⟨low, high⟩
      refine samePage ?_
      simp only [pageOf, pageSize] at *
      omega
    split
    · simp only [List.getElem?_take]
      by_cases early : other - va < done_
      · rw [if_pos early, if_pos (by omega)]
      · rw [if_neg early, if_neg (by omega)]
    · rfl

end Faithful

namespace AddressSpace

variable {scarce : Prop} {kernel : Table} {space : AddressSpace} {pages : Pages}
variable {held : List Nat} {ram : Ram} {State : Type}

/-- The rule for `forEachPiece`: what each piece keeps holds at the end, or up to the first address
that is refused. By induction on what is left.
-/
theorem forEachPiece_ensures (Kept : Nat → State → Ram → Prop) {va len : Nat}
    {allowed : Access → Bool} {body : Nat → Nat → Nat → State → Paging State}
    (stable
      : ∀ done_ state ram later,
          Faithful kernel space pages held ram
          → (source scarce).Keeps held ram later
          → Kept done_ state ram
          → Kept done_ state later)
    (piece
      : ∀ done_ state ram physical access,
          Faithful kernel space pages held ram
          → Kept done_ state ram
          → done_ < len
          → pages.translate (va + done_) = some (physical, access)
          → allowed access
          → (body physical done_ (min (pageSize - (va + done_) % pageSize) (len - done_))
              state).Ensures (source scarce)
              (fun state after later =>
                after = held
                ∧ Faithful kernel space pages held later
                ∧ Kept (done_ + min (pageSize - (va + done_) % pageSize) (len - done_)) state later)
              held ram)
    (done_ : Nat) (state : State) (faithful : Faithful kernel space pages held ram)
    (kept : Kept done_ state ram) (inside : done_ ≤ len)
    (granted : ∀ offset < done_, pages.Grants allowed (va + offset))
    : (space.forEachPiece va len allowed body done_ state).Ensures (source scarce)
        (fun result after later =>
          after = held
          ∧ Faithful kernel space pages held later
          ∧ ∃ count ≤ len,
              Kept count result.1 later
              ∧ (∀ offset < count, pages.Grants allowed (va + offset))
              ∧ match result.2 with
                | .ok () => count = len
                | .error _ => count < len ∧ ¬ pages.Grants allowed (va + count))
        held ram := by
  induction left : len - done_ using Nat.strongRecOn generalizing done_ state ram with
  | _ left ih =>
    unfold forEachPiece
    split
    · rename_i more
      split
      · rename_i beyond
        refine ⟨rfl, faithful, done_, inside, kept, granted, more, ?_⟩
        rintro ⟨physical, access, found, -⟩
        have := faithful.translate_window found
        simp only [wordLimit, userEnd] at *
        omega
      · rw [Program.ensures_bind, Program.ensures_looked]
        intro now keeps
        have faithfulNow := faithful.kept keeps
        have keptNow := stable _ _ _ _ faithful keeps kept
        rw [faithfulNow.translate_eq]
        cases found : pages.translate (va + done_) with
        | none =>
          refine ⟨rfl, faithfulNow, done_, inside, keptNow, granted, more, ?_⟩
          rintro ⟨_, _, there, _⟩
          cases found.symm.trans there
        | some place =>
          obtain ⟨physical, access⟩ := place
          dsimp only
          split
          · rename_i fine
            refine (piece done_ state now physical access faithfulNow keptNow more found fine).bind
              (fun state after later first => ?_)
            obtain ⟨rfl, faithfulLater, keptLater⟩ := first
            have positive : (va + done_) % pageSize < pageSize := Nat.mod_lt _ (by decide)
            refine ih (len - (done_ + min (pageSize - (va + done_) % pageSize) (len - done_)))
              (by omega) _ _ faithfulLater keptLater (by omega) (fun offset small => ?_) rfl
            -- Either the address was granted before, or it is in this piece.
            rcases Nat.lt_or_ge offset done_ with early | late
            · exact granted offset early
            · obtain ⟨further, rfl⟩ := Nat.exists_eq_add_of_le late
              refine ⟨physical + further, access, ?_, fine⟩
              rw [← Nat.add_assoc]
              exact Pages.translate_add found (by omega)
          · rename_i refused
            refine ⟨rfl, faithfulNow, done_, inside, keptNow, granted, more, ?_⟩
            rintro ⟨_, _, there, allowed⟩
            obtain ⟨-, rfl⟩ := Prod.mk.inj (Option.some.inj (found.symm.trans there))
            exact refused allowed
    · rename_i noMore
      obtain rfl : done_ = len := by omega
      exact ⟨rfl, faithful, done_, inside, kept, granted, rfl⟩

/-- A copy writes the bytes up to the first address that is refused. -/
theorem copyIn_ensures (faithful : Faithful kernel space pages held ram) (allowed : Access → Bool)
    (va : Nat) (bytes : List UInt8)
    : (space.copyIn allowed va bytes).Ensures (source scarce)
        (fun result after later =>
          after = held
          ∧ Faithful kernel space pages held later
          ∧ ∃ count ≤ bytes.length,
              Written pages ram va (bytes.take count) later
              ∧ (∀ offset < count, pages.Grants allowed (va + offset))
              ∧ match result with
                | .ok () => count = bytes.length
                | .error _ => count < bytes.length ∧ ¬ pages.Grants allowed (va + count))
        held ram := by
  unfold copyIn
  refine Program.Ensures.bind
    (forEachPiece_ensures (fun done_ _ later => Written pages ram va (bytes.take done_) later)
      (fun done_ _ _ _ faithful keeps kept => faithful.written_kept kept keeps) ?_ 0 ()
      faithful ?_ (Nat.zero_le _) nofun)
    (fun result after later copied => copied)
  · intro done_ _ before physical access faithful written more found fine
    rw [Program.ensures_modified]
    intro now keeps
    have faithfulNow := faithful.kept keeps
    obtain ⟨frame, mapped, rfl, listed⟩ := faithful.translate_held found
    have positive : (va + done_) % pageSize < pageSize := Nat.mod_lt _ (by decide)
    have length
        : ((bytes.drop done_).take (min (pageSize - (va + done_) % pageSize)
            (bytes.length - done_))).length
          = min (pageSize - (va + done_) % pageSize) (bytes.length - done_) := by
      simp only [List.length_take, List.length_drop]
      omega
    have same {other : Nat} (usable : UsableFrame other) (differ : other ≠ frame) :=
      faithfulNow.storeBytes_same mapped (show _ ≤ pageSize by rw [length]; omega) usable differ now
    refine ⟨fun other usable absent => same usable (fun here => absent (here ▸ listed)), rfl, ?_, ?_⟩
    · refine faithfulNow.tables_same (fun table there => ?_)
      refine same (faithful.usable_of_mem (List.mem_append_right _ there)) (fun here => ?_)
      exact faithful.page_notMem_tables mapped (here ▸ there)
    · exact faithfulNow.written_piece (faithful.written_kept written keeps) mapped (by omega)
        (by omega)
  · intro other physical access found
    simp

end AddressSpace

end RustyPi.Memory
