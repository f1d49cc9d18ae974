import RustyPi.Fat.Parsing
import RustyPi.Fat.ShortNames

/-! Stored names read back: the slots `add_entry` makes for a name are parsed as one entry of
that name, taking up exactly those slots.
-/

namespace RustyPi.Fat

open RustyPi.Bytes

/-- The attributes `add_entry` is called with. -/
def EntryKind.attr : EntryKind → UInt8
  | .file => attrArchive
  | .directory => attrDirectory

/-- What a new entry says, as far as its fields have room. -/
def storedEntry (fatType : FatType) (name : Str) (kind : EntryKind) (cluster size : Nat)
    (stamp : Stamp)
    : DirEntry where
  name
  kind
  size := match kind with
    | .file => size % 0x100000000
    | .directory => 0
  modified := { date := stamp.date % 0x10000, time := stamp.time % 0x10000 }
  firstCluster := match fatType with
    | .fat16 => cluster % 0x10000
    | .fat32 => cluster % 0x100000000

/-- What parsing sees of an 8.3 entry. -/
structure ReadsAs (slot : Slot) (short : ShortName) (kind : EntryKind) (cluster size : Nat)
    (stamp : Stamp) : Prop where
  short : slot.take 11 = short
  entry : slot.isEntry = true
  piece : slot.isDeleted = false ∧ slot.isLongName = false
  length : slot.length = dirEntrySize
  fields (fatType : FatType) (name : Str)
    : readEntry fatType slot name = storedEntry fatType name kind cluster size stamp

theorem shortEntry_readsAs {short : ShortName} (live : short.Live) (case : UInt8)
    (kind : EntryKind) (cluster size : Nat) (stamp : Stamp)
    : ReadsAs (shortEntry short case kind.attr cluster size stamp) short kind cluster size
        stamp := by
  obtain ⟨eleven, first⟩ := live
  match short, eleven, first with
  | [a, b, c, d, e, f, g, h, i, j, k], _, first =>
    obtain ⟨slot, made⟩ : ∃ slot : Slot, slot = shortEntry [a, b, c, d, e, f, g, h, i, j, k] case
        kind.attr cluster size stamp := ⟨_, rfl⟩
    have head : byteAt slot 0 = byteAt [a, b, c, d, e, f, g, h, i, j, k] 0 := made ▸ rfl
    have attr : byteAt slot 11 = kind.attr.toNat := made ▸ rfl
    have inside : slot.isEnd = false := by
      rw [Slot.isEnd, head, beq_eq_false_iff_ne]
      omega
    have kept : slot.isDeleted = false := by
      rw [Slot.isDeleted, head, beq_eq_false_iff_ne]
      omega
    have short : slot.isLongName = false := by
      rw [Slot.isLongName, attr]
      cases kind <;> decide
    have volume : slot.isVolumeId = false := by
      rw [Slot.isVolumeId, attr]
      cases kind <;> decide
    have directory : (byteAt slot 11 &&& 0x10 != 0) = decide (kind = .directory) := by
      rw [attr]
      cases kind <;> decide
    subst made
    refine ⟨rfl, by simp [Slot.isEntry, inside, kept, short, volume], ⟨kept, short⟩, rfl, ?_⟩
    intro fatType name
    simp only [readEntry, storedEntry, directory, decide_eq_true_eq, DirEntry.mk.injEq, Stamp.mk.injEq,
      true_and]
    refine ⟨?_, ?_, ⟨?_, ?_⟩, ?_⟩
    · cases kind <;> rfl
    · cases kind
      · simp [shortEntry, u32At, u16At, byteAt, le16, le32]
        omega
      · rfl
    · simp [shortEntry, u16At, byteAt, le16, le32]
      omega
    · simp [shortEntry, u16At, byteAt, le16, le32]
      omega
    · cases fatType <;> simp [shortEntry, u16At, byteAt, le16, le32] <;> omega

/-- What collecting a long name sees of a piece with number `seq`. -/
structure PieceOf (slot : Slot) (seq : Nat) (last : Bool) (checksum : UInt8)
    (units : List Nat) : Prop where
  kind : slot.isEnd = false ∧ slot.isDeleted = false ∧ slot.isLongName = true
  last : slot.isLast = last
  seq : byteAt slot 0 &&& 0x1F = seq
  checksum : slot[13]?.getD 0 = checksum
  units : lfnOffsets.map (u16At slot) = units
  length : slot.length = dirEntrySize

theorem longEntry_pieceOf {seq : Nat} (positive : 1 ≤ seq) (bound : seq < 32) (last : Bool)
    (checksum : UInt8) {units : List Nat} (full : units.length = lfnChars)
    (small : ∀ unit ∈ units, unit < 0x10000)
    : PieceOf (longEntry seq last checksum units) seq last checksum units := by
  match units, full, small with
  | [a, b, c, d, e, f, g, h, i, j, k, l, m], _, small =>
    simp only [List.mem_cons, List.not_mem_nil, or_false, forall_eq_or_imp, forall_eq] at small
    have head : byteAt (longEntry seq last checksum [a, b, c, d, e, f, g, h, i, j, k, l, m]) 0
        = (UInt8.ofNat (seq ||| if last then 0x40 else 0)).toNat := rfl
    have numbered : ∀ (seq : Fin 32) (last : Bool), 1 ≤ seq.val →
        (let byte := (UInt8.ofNat (seq.val ||| if last then 0x40 else 0)).toNat
        (byte == 0) = false ∧ (byte == 0xE5) = false ∧ (byte &&& 0x40 != 0) = last
        ∧ byte &&& 0x1F = seq.val) := by
      decide
    obtain ⟨inside, kept, first, number⟩ := numbered ⟨seq, bound⟩ last positive
    refine ⟨⟨?_, ?_, ?_⟩, ?_, ?_, rfl, ?_, rfl⟩
    · rw [Slot.isEnd, head, inside]
    · rw [Slot.isDeleted, head, kept]
    · show ((attrLongName.toNat &&& 0x3F) == 0x0F) = true
      decide
    · rw [Slot.isLast, head, first]
    · rw [head, number]
    · simp [lfnOffsets, longEntry, u16At, byteAt, le16]
      omega

/-- Piece `piece` of the units `all`, out of `pieces`. -/
def pieceSlot (all : List Nat) (checksum : UInt8) (pieces piece : Nat) : Slot :=
  longEntry (piece + 1) (piece + 1 == pieces) checksum ((all.drop (piece * lfnChars)).take lfnChars)

/-- What is collected of `all` when the pieces from number `piece` on have been seen. -/
def collected (all : List Nat) (checksum : UInt8) (piece : Nat) : LongName where
  units := List.replicate (piece * lfnChars) 0xFFFF ++ all.drop (piece * lfnChars)
  checksum
  expected := piece

theorem splice_collected (all : List Nat) (piece : Nat)
    (within : (piece + 1) * lfnChars ≤ all.length)
    : splice (List.replicate ((piece + 1) * lfnChars) 0xFFFF ++ all.drop ((piece + 1) * lfnChars))
        (piece * lfnChars) ((all.drop (piece * lfnChars)).take lfnChars)
      = List.replicate (piece * lfnChars) 0xFFFF ++ all.drop (piece * lfnChars) := by
  have next : piece * lfnChars + lfnChars = (piece + 1) * lfnChars := (Nat.succ_mul ..).symm
  have full : ((all.drop (piece * lfnChars)).take lfnChars).length = lfnChars := by
    rw [List.length_take, List.length_drop]
    omega
  rw [splice, full, next, List.take_append_of_le_length (by rw [List.length_replicate]; omega),
    List.take_replicate, Nat.min_eq_left (by omega), List.drop_append_of_le_length
      (by rw [List.length_replicate]), List.drop_replicate, Nat.sub_self,
    List.replicate_zero, List.nil_append, List.append_assoc, ← next, ← List.drop_drop,
    List.take_append_drop]

section Collecting

variable {all : List Nat} {pieces : Nat} (checksum : UInt8)
variable (full : all.length = pieces * lfnChars) (few : pieces < 32)
variable (small : ∀ unit ∈ all, unit < 0x10000)

include full few small

theorem pieceSlot_pieceOf (piece : Nat) (inside : piece < pieces)
    : PieceOf (pieceSlot all checksum pieces piece) (piece + 1) (piece + 1 == pieces) checksum
        ((all.drop (piece * lfnChars)).take lfnChars) := by
  refine longEntry_pieceOf (by omega) (by omega) _ _ ?_ ?_
  · have fits : (piece + 1) * lfnChars ≤ pieces * lfnChars := Nat.mul_le_mul_right _ inside
    have next : (piece + 1) * lfnChars = piece * lfnChars + lfnChars := Nat.succ_mul ..
    rw [List.length_take, List.length_drop]
    omega
  · exact fun unit member => small unit (List.mem_of_mem_drop (List.mem_of_mem_take member))

variable {piece : Nat}

/-- The first piece, which has the highest number, starts collecting whatever came before. -/
theorem add_first (last : piece + 1 = pieces) (long : LongName)
    : long.add (pieceSlot all checksum pieces piece) = collected all checksum piece := by
  have seen := pieceSlot_pieceOf checksum full few small piece (by omega)
  have starts : (pieceSlot all checksum pieces piece).isLast = true := by
    rw [seen.last, last]
    exact beq_self_eq_true pieces
  have spliced := splice_collected all piece (by rw [full, last])
  rw [last, ← full, List.drop_length, List.append_nil, full, ← last] at spliced
  simp only [LongName.add, starts, if_true, seen.seq, seen.checksum, seen.units, ne_eq,
    not_true_eq_false, or_false, Nat.add_eq_zero_iff, Nat.one_ne_zero, and_false, if_false,
    Nat.add_sub_cancel, spliced]
  rfl

theorem add_next (next : piece + 1 < pieces)
    : (collected all checksum (piece + 1)).add (pieceSlot all checksum pieces piece)
      = collected all checksum piece := by
  have seen := pieceSlot_pieceOf checksum full few small piece (by omega)
  have continues : (pieceSlot all checksum pieces piece).isLast = false := by
    rw [seen.last, beq_eq_false_iff_ne]
    omega
  have spliced := splice_collected all piece
    (by rw [full]; exact Nat.mul_le_mul_right _ (Nat.le_of_lt next))
  simp only [LongName.add, continues, Bool.false_eq_true, if_false, seen.seq, seen.checksum,
    seen.units, collected, ne_eq, not_true_eq_false, or_false, Nat.add_eq_zero_iff,
    Nat.one_ne_zero, and_false, Nat.add_sub_cancel, spliced]

/-- Collecting goes on with the pieces below number `piece`. By induction on `piece`, the pieces
being stored from the highest number down.
-/
theorem foldl_pieces (inside : piece < pieces)
    : ((List.range piece).reverse.map (pieceSlot all checksum pieces)).foldl LongName.add
        (collected all checksum piece)
      = collected all checksum 0 := by
  induction piece with
  | zero => rfl
  | succ piece ih =>
    rw [List.range_succ, List.reverse_append, List.reverse_singleton, List.singleton_append,
      List.map_cons, List.foldl_cons, add_next checksum full few small inside,
      ih (by omega)]

/-- All the pieces of a name leave the whole name collected, and are the slots of an entry with
an 8.3 entry of the same checksum.
-/
theorem entrySlots_pieces (positive : 0 < pieces) {short : Slot} (entry : short.isEntry = true)
    (complete : ((collected all checksum 0).take (short.take 11)).isSome = true)
    : EntrySlots ((List.range pieces).reverse.map (pieceSlot all checksum pieces)) short
      ∧ ((List.range pieces).reverse.map (pieceSlot all checksum pieces)).foldl LongName.add .new
        = collected all checksum 0 := by
  obtain ⟨piece, rfl⟩ : ∃ piece, pieces = piece + 1 := ⟨pieces - 1, by omega⟩
  have first := pieceSlot_pieceOf checksum full few small piece (by omega)
  have stored : (List.range (piece + 1)).reverse.map (pieceSlot all checksum (piece + 1))
      = pieceSlot all checksum (piece + 1) piece
        :: (List.range piece).reverse.map (pieceSlot all checksum (piece + 1)) := by
    rw [List.range_succ, List.reverse_append, List.reverse_singleton, List.singleton_append,
      List.map_cons]
  have whole : ((List.range (piece + 1)).reverse.map
      (pieceSlot all checksum (piece + 1))).foldl LongName.add .new = collected all checksum 0 := by
    rw [stored, List.foldl_cons, add_first checksum full few small rfl,
      foldl_pieces checksum full few small (by omega)]
  refine ⟨⟨?_, entry, ?_, ?_, fun _ => by rw [whole]; exact complete⟩, whole⟩
  · intro slot member
    obtain ⟨number, inside, rfl⟩ := List.mem_map.mp member
    rw [List.mem_reverse, List.mem_range] at inside
    exact (pieceSlot_pieceOf checksum full few small number inside).kind
  · intro slot head
    rw [stored] at head
    cases head
    rw [first.last, beq_self_eq_true]
  · intro slot member
    rw [stored] at member
    obtain ⟨number, inside, rfl⟩ := List.mem_map.mp member
    rw [List.mem_reverse, List.mem_range] at inside
    rw [(pieceSlot_pieceOf checksum full few small number (by omega)).last, beq_eq_false_iff_ne]
    omega

end Collecting

/-- What `check_name` asks of a name, as far as storing it needs. -/
structure Accepted (name : Str) : Prop where
  nonempty : name ≠ []
  short : (Utf16.encode name).length ≤ maxName
  notDot : name ≠ ['.'] ∧ name ≠ ['.', '.']
  noDot : name.getLast? ≠ some '.'
  printable : ∀ c ∈ name, 0x20 ≤ c.toNat

variable {name : Str} {taken : List ShortName} {kind : EntryKind} {cluster size : Nat}
variable {stamp : Stamp} {slots : List Slot}

theorem accepted_of_checkName (checked : checkName name = .ok ())
    : Accepted name := by
  unfold checkName at checked
  simp only at checked
  split at checked
  · cases checked
  · rename_i good
    simp only [Bool.or_eq_true, List.isEmpty_iff, decide_eq_true_eq, beq_iff_eq,
      List.any_eq_true, not_or, not_exists, not_and, Nat.not_lt] at good
    obtain ⟨⟨⟨⟨⟨⟨nonempty, short⟩, dot⟩, dots⟩, -⟩, noDot⟩, printable⟩ := good
    exact ⟨nonempty, short, ⟨dot, dots⟩, noDot, fun c member => (printable c member).1⟩

/-- U+FFFF, which is one unit and the padding after a long name. -/
def paddingChar : Char := Char.ofNat 0xFFFF

/-- What a long name reads back as: it ends before the first U+FFFF in it. -/
def shownName (name : Str) : Str := name.takeWhile (· != paddingChar)

theorem shownName_eq_self_iff (name : Str) : shownName name = name ↔ paddingChar ∉ name := by
  rw [shownName, List.takeWhile_eq_self_iff]
  simp only [bne_iff_ne]
  exact ⟨fun all member => all _ member rfl, fun absent c member same => absent (same ▸ member)⟩

def pieceCount (name : Str) : Nat := ((Utf16.encode name).length + lfnChars - 1) / lfnChars

theorem longEntries_eq (name : Str) (short : ShortName)
    : longEntries name short
      = (List.range (pieceCount name)).reverse.map
          (pieceSlot (lfnUnits name) (shortNameChecksum short) (pieceCount name)) :=
  rfl

theorem lfnUnits_length (name : Str) : (lfnUnits name).length = pieceCount name * lfnChars := by
  simp only [lfnUnits, pieceCount, List.length_append, List.length_replicate]
  split <;> simp only [List.length_append, List.length_singleton, lfnChars] at * <;> omega

theorem lfnUnits_lt (name : Str) : ∀ unit ∈ lfnUnits name, unit < 0x10000 := by
  intro unit member
  simp only [lfnUnits, List.mem_append, List.mem_replicate] at member
  rcases member with inside | ⟨_, rfl⟩
  · split at inside
    · rcases List.mem_append.mp inside with inside | inside
      · exact Utf16.encode_lt unit inside
      · rw [List.mem_singleton.mp inside]
        decide
    · exact Utf16.encode_lt unit inside
  · decide

theorem pieceCount_pos (accepted : Accepted name) : 0 < pieceCount name := by
  obtain ⟨c, rest, rfl⟩ := List.exists_cons_of_ne_nil accepted.nonempty
  have positive := Utf16.encodeChar_length_pos c
  simp only [pieceCount, lfnChars, Utf16.encode, List.flatMap_cons, List.length_append]
  omega

theorem pieceCount_lt (accepted : Accepted name) : pieceCount name < 32 := by
  have short := accepted.short
  simp only [pieceCount, lfnChars, maxName] at short ⊢
  omega

/-- Reading units back up to a terminator or padding. By induction on the name: a character
passes whole, since none of its units ends the name unless it is U+FFFF.
-/
theorem decode_takeWhile_encode (printable : ∀ c ∈ name, 0x20 ≤ c.toNat) {rest : List Nat}
    (ends : rest.takeWhile (fun unit => unit != 0 && unit != 0xFFFF) = [])
    : Utf16.decode ((Utf16.encode name ++ rest).takeWhile (fun unit => unit != 0 && unit != 0xFFFF))
      = shownName name := by
  induction name with
  | nil => simp [Utf16.encode, ends, Utf16.decode, shownName]
  | cons c tail ih =>
    rw [Utf16.encode, List.flatMap_cons, List.append_assoc]
    by_cases padding : c = paddingChar
    · rw [padding]
      rfl
    · have passes : ∀ unit ∈ Utf16.encodeChar c, (unit != 0 && unit != 0xFFFF) = true := by
        intro unit member
        have low := printable c List.mem_cons_self
        simp only [Bool.and_eq_true, bne_iff_ne]
        constructor
        · rintro rfl
          have zero := ((Utf16.mem_encodeChar_iff rfl rfl c).mp member).1
          omega
        · rintro rfl
          apply padding
          have code := ((Utf16.mem_encodeChar_iff rfl rfl c).mp member).1
          rw [← Char.ofNat_toNat c, code]
          rfl
      have tailShown := ih (fun other member => printable other (.tail _ member))
      rw [List.takeWhile_append_of_pos passes, Utf16.decode_encodeChar_append]
      unfold shownName at tailShown ⊢
      rw [List.takeWhile_cons_of_pos (by simpa using padding)]
      exact congrArg (c :: ·) tailShown

/-- The whole name, collected and matching its 8.3 entry, shows up to the first U+FFFF. -/
theorem take_collected (accepted : Accepted name) (short : ShortName)
    : (collected (lfnUnits name) (shortNameChecksum short) 0).take short
      = some (shownName name) := by
  have filled : lfnUnits name ≠ [] := by
    intro empty
    have length := lfnUnits_length name
    rw [empty] at length
    have positive := pieceCount_pos accepted
    simp only [List.length_nil, lfnChars] at length
    omega
  obtain ⟨rest, split, ends⟩ : ∃ rest, lfnUnits name = Utf16.encode name ++ rest
      ∧ rest.takeWhile (fun unit => unit != 0 && unit != 0xFFFF) = [] := by
    simp only [lfnUnits]
    split
    · exact ⟨_, List.append_assoc .., rfl⟩
    · refine ⟨_, rfl, ?_⟩
      rw [List.takeWhile_replicate]
      rfl
  simp only [LongName.take, collected, Nat.zero_mul, List.replicate_zero, List.drop_zero,
    List.nil_append, ne_eq, filled, not_false_eq_true, if_true, and_self]
  rw [split, decode_takeWhile_encode accepted.printable ends]

theorem paddingChar_not_mem_of_exact {short : ShortName} {case : UInt8}
    (found : exactShortName name = some (short, case)) (noDot : name.getLast? ≠ some '.')
    : paddingChar ∉ name := by
  obtain ⟨base, ext, _, _, parts, -, -⟩ := exactShortName_eq_some found noDot
  have inBase := (partCase_eq_some parts.baseCase).1
  have inExt := (partCase_eq_some parts.extCase).1
  rw [parts.whole]
  intro member
  split at member
  · exact (inBase _ member).inside.2 rfl
  · rcases List.mem_append.mp member with member | member
    · exact (inBase _ member).inside.2 rfl
    · rcases List.mem_cons.mp member with same | member
      · exact absurd same (by decide)
      · exact (inExt _ member).inside.2 rfl

/-- What `add_entry` stores for a name: the slots of an entry that shows it, under the 8.3 name
`short`.
-/
structure Stores (name : Str) (kind : EntryKind) (cluster size : Nat) (stamp : Stamp)
    (short : ShortName) (pieces : List Slot) (slot : Slot) : Prop where
  slots : EntrySlots pieces slot
  name : nameOf pieces slot = shownName name
  reads : ReadsAs slot short kind cluster size stamp
  sized : ∀ piece ∈ pieces, piece.length = dirEntrySize

/-- The 8.3 name comes from the name itself, or is an alias that was not taken. -/
theorem newSlots_stores (accepted : Accepted name)
    (made : newSlots name taken kind.attr cluster size stamp = some slots)
    : ∃ short pieces slot, slots = pieces ++ [slot]
        ∧ Stores name kind cluster size stamp short pieces slot
        ∧ ((exactShortName name).map Prod.fst = some short ∨ short ∉ taken) := by
  unfold newSlots at made
  split at made
  · rename_i short case found
    cases made
    have reads := shortEntry_readsAs (exactShortName_live found accepted.noDot) case kind cluster
      size stamp
    have shows := shortName_shortEntry found accepted.noDot kind.attr cluster size stamp
    have whole := (shownName_eq_self_iff name).mpr
      (paddingChar_not_mem_of_exact found accepted.noDot)
    refine ⟨short, [], _, rfl, ⟨⟨?_, reads.entry, ?_, ?_, ?_⟩, ?_, reads, ?_⟩, .inl ?_⟩
    · exact fun _ member => nomatch member
    · exact fun _ head => nomatch head
    · exact fun _ member => nomatch member
    · exact fun some => absurd rfl some
    · rw [nameOf, List.foldl_nil, LongName.new_clean.take, Option.getD_none, shows, whole]
    · exact fun _ member => nomatch member
    · rw [found]
      rfl
  · obtain ⟨short, found, rfl⟩ := Option.map_eq_some_iff.mp made
    obtain ⟨live, free, -⟩ := aliasFor_eq_some found
    have reads := shortEntry_readsAs live 0 kind cluster size stamp
    have collects := take_collected accepted short
    obtain ⟨slots, folded⟩ := entrySlots_pieces (shortNameChecksum short) (lfnUnits_length name)
      (pieceCount_lt accepted) (lfnUnits_lt name) (pieceCount_pos accepted) reads.entry
      (by rw [reads.short, collects]; rfl)
    refine ⟨short, longEntries name short, _, rfl, ⟨slots, ?_, reads, ?_⟩, .inr free⟩
    · rw [nameOf, longEntries_eq, folded, reads.short, collects]
      rfl
    · intro piece member
      rw [longEntries_eq] at member
      obtain ⟨number, inside, rfl⟩ := List.mem_map.mp member
      rw [List.mem_reverse, List.mem_range] at inside
      exact (pieceSlot_pieceOf _ (lfnUnits_length name) (pieceCount_lt accepted)
        (lfnUnits_lt name) number inside).length

/-- The slots of a new name read back as one entry taking up exactly those slots, and parsing
goes on after them with no long name in progress.
-/
theorem parseSlots_newSlots (fatType : FatType) (accepted : Accepted name)
    (made : newSlots name taken kind.attr cluster size stamp = some slots) (index : Nat)
    (after : List Slot)
    : parseSlots fatType index (slots ++ after)
      = shownEntry (storedEntry fatType (shownName name) kind cluster size stamp) index
          (index + slots.length)
        ++ parseSlots fatType (index + slots.length) after := by
  obtain ⟨short, pieces, slot, rfl, stores, -⟩ := newSlots_stores accepted made
  rw [List.append_assoc, List.singleton_append, stores.slots.parse, stores.name,
    stores.reads.fields, List.length_append, List.length_singleton, Nat.add_assoc]

theorem length_of_mem_newSlots (accepted : Accepted name)
    (made : newSlots name taken kind.attr cluster size stamp = some slots)
    : ∀ slot ∈ slots, slot.length = dirEntrySize := by
  obtain ⟨short, pieces, slot, rfl, stores, -⟩ := newSlots_stores accepted made
  intro other member
  rcases List.mem_append.mp member with piece | last
  · exact stores.sized other piece
  · rw [List.mem_singleton.mp last]
    exact stores.reads.length

/-- The names that can be stored and read back: without U+FFFF, and with an 8.3 name to be
had, either the name itself or an alias that no other entry has.
-/
def Storable (name : Str) (taken : List ShortName) : Prop :=
  paddingChar ∉ name
  ∧ ((exactShortName name).isSome
    ∨ ∃ n short, 1 ≤ n ∧ aliasCandidate (aliasParts name).1 (aliasParts name).2 n = some short
        ∧ short ∉ taken)

theorem newSlots_isSome_iff (name : Str) (taken : List ShortName) (attr : UInt8)
    (cluster size : Nat) (stamp : Stamp)
    : (newSlots name taken attr cluster size stamp).isSome
      ↔ (exactShortName name).isSome
        ∨ ∃ n short, 1 ≤ n
            ∧ aliasCandidate (aliasParts name).1 (aliasParts name).2 n = some short
            ∧ short ∉ taken := by
  rw [← aliasFor_isSome_iff]
  unfold newSlots
  split
  · rename_i found
    simp [found]
  · rename_i missing
    simp [missing]

/-- A run of slots in which no long name is in progress at the end: it has no end marker, and
the last slot, if any, is deleted or a whole entry.
-/
structure Settled (before : List Slot) : Prop where
  inside : ∀ slot ∈ before, slot.isEnd = false
  last : ∀ slot, before.getLast? = some slot → slot.isDeleted = true ∨ slot.isLongName = false

theorem Settled.clean {before : List Slot} (settled : Settled before)
    : (before.foldl LongName.collect .new).Clean := by
  rcases List.eq_nil_or_concat before with rfl | ⟨start, slot, rfl⟩
  · exact LongName.new_clean
  · have last := settled.last slot (by simp)
    rw [List.concat_eq_append, List.foldl_append, List.foldl_cons, List.foldl_nil,
      LongName.collect]
    split
    · exact LongName.reset_clean _
    · rename_i kept
      rw [if_neg (by simpa [kept] using last)]
      exact LongName.reset_clean _

/-- Stored names read back exactly, and only them: the slots made for an accepted name, put
after settled slots, are one entry of that name in exactly those slots.
-/
theorem stored_name_reads_back_iff (fatType : FatType) {name : Str}
    (checked : checkName name = .ok ()) (taken : List ShortName) (kind : EntryKind)
    (cluster size : Nat) (stamp : Stamp) {before after : List Slot}
    (sized : ∀ slot ∈ before ++ after, slot.length = dirEntrySize) (settled : Settled before)
    : (∃ slots entry,
        newSlots name taken kind.attr cluster size stamp = some slots
        ∧ entry.name = name
        ∧ parseLocated (before ++ slots ++ after).flatten fatType
          = parseLocated before.flatten fatType
            ++ { entry, start := before.length, stop := before.length + slots.length }
            :: parseSlots fatType (before.length + slots.length) after)
      ↔ Storable name taken := by
  have accepted := accepted_of_checkName checked
  have listed (slots : List Slot)
      (made : newSlots name taken kind.attr cluster size stamp = some slots)
      : parseLocated (before ++ slots ++ after).flatten fatType
        = parseLocated before.flatten fatType
          ++ (shownEntry (storedEntry fatType (shownName name) kind cluster size stamp)
              before.length (before.length + slots.length)
            ++ parseSlots fatType (before.length + slots.length) after) := by
    have newSized := length_of_mem_newSlots accepted made
    have allSized : ∀ slot ∈ before ++ slots ++ after, slot.length = dirEntrySize := by
      intro slot member
      simp only [List.mem_append] at member sized
      rcases member with (inBefore | inNew) | inAfter
      · exact sized slot (.inl inBefore)
      · exact newSized slot inNew
      · exact sized slot (.inr inAfter)
    have beforeSized : ∀ slot ∈ before, slot.length = dirEntrySize :=
      fun slot member => sized slot (List.mem_append_left _ member)
    simp only [parseLocated, slotsOf]
    rw [chunks_flatten (by decide) allSized, chunks_flatten (by decide) beforeSized,
      List.append_assoc, ← parseSlots_newSlots fatType accepted made]
    have cut := parseSlots_append fatType (slots ++ after) 0 settled.inside settled.clean
    rwa [Nat.zero_add] at cut
  constructor
  · rintro ⟨slots, entry, made, named, parsed⟩
    refine ⟨?_, (newSlots_isSome_iff name taken kind.attr cluster size stamp).mp
      (by rw [made]; rfl)⟩
    rw [listed slots made] at parsed
    have same := List.append_cancel_left parsed
    rw [← List.singleton_append] at same
    have only := List.append_cancel_right same
    unfold shownEntry at only
    split at only
    · cases only
    · have shown : storedEntry fatType (shownName name) kind cluster size stamp = entry := by
        simpa using only
      rw [← shown] at named
      exact (shownName_eq_self_iff name).mp named
  · rintro ⟨plain, possible⟩
    obtain ⟨slots, made⟩ := Option.isSome_iff_exists.mp
      ((newSlots_isSome_iff name taken kind.attr cluster size stamp).mpr possible)
    refine ⟨slots, storedEntry fatType name kind cluster size stamp, made, rfl, ?_⟩
    rw [listed slots made, (shownName_eq_self_iff name).mpr plain, shownEntry, if_neg]
    · rfl
    · exact not_or.mpr accepted.notDot

/-- Witness: `Notes.txt`, which needs an alias, after a deleted slot. -/
theorem stored_name_reads_back_after_deleted
    : ∃ slots entry,
        newSlots "Notes.txt".toList [] EntryKind.file.attr 5 9 { date := 0, time := 0 }
          = some slots
        ∧ entry.name = "Notes.txt".toList
        ∧ parseLocated ([0xE5 :: List.replicate 31 0] ++ slots ++ []).flatten .fat32
          = parseLocated [0xE5 :: List.replicate 31 0].flatten .fat32
            ++ { entry, start := 1, stop := 1 + slots.length }
            :: parseSlots .fat32 (1 + slots.length) [] :=
  (stored_name_reads_back_iff .fat32 (show checkName "Notes.txt".toList = .ok () from rfl) []
    .file 5 9 { date := 0, time := 0 }
    (show ∀ slot ∈ ([0xE5 :: List.replicate 31 0] : List Slot) ++ [],
      slot.length = dirEntrySize from by decide)
    ⟨by decide, fun slot last => .inl (by
      cases last
      decide)⟩).mpr
    ⟨by decide, .inr ⟨1, "NOTES~1 TXT".toList.map asByte, Nat.le_refl 1, by decide, by simp⟩⟩

/-- An accepted name with U+FFFF in it reads back cut short. -/
theorem stored_name_cut_at_padding
    : let name := "draft".toList ++ paddingChar :: "2.txt".toList
      checkName name = .ok ()
      ∧ (newSlots name [] EntryKind.file.attr 5 9 { date := 0, time := 0 }).map
          (fun slots => (parseLocated slots.flatten .fat32).map (fun located =>
            located.entry.name))
        = some ["draft".toList] := by
  decide +kernel

end RustyPi.Fat
