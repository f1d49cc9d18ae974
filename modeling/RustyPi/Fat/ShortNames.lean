import RustyPi.Fat.Slots

/-! The 11 bytes an entry gets: an exact 8.3 name shows the name it was made from, an alias is
one that was not taken, and neither can be mistaken for an end marker or a deleted slot.
-/

namespace RustyPi.Fat

open RustyPi.Bytes RustyPi.Unicode

variable {c : Char} {part name : Str} {short : ShortName} {case : UInt8} {ext basis : List UInt8}
variable {n m : Nat} {taken : List ShortName}

/-- What holds of the 128 ASCII characters holds of each of them. -/
theorem ascii_induction {motive : Char → Prop} (all : ∀ i : Fin 128, motive (Char.ofNat i))
    (ascii : isAscii c = true)
    : motive c := by
  have bound : c.toNat < 128 := by simpa [isAscii] using ascii
  have held := all ⟨c.toNat, bound⟩
  rwa [show Char.ofNat (⟨c.toNat, bound⟩ : Fin 128).val = c from Char.ofNat_toNat c] at held

theorem isAscii_of_isShortChar (short : isShortChar c = true) : isAscii c = true := by
  simp only [isShortChar, isAsciiLowercase, isAsciiUppercase, isAsciiDigit, shortExtra,
    Bool.or_eq_true, Bool.and_eq_true, decide_eq_true_eq, List.contains_eq_mem,
    List.mem_cons, List.not_mem_nil, or_false] at short
  simp only [isAscii, decide_eq_true_eq]
  rcases short with ((⟨_, high⟩ | ⟨_, high⟩) | ⟨_, high⟩) | listed
  · exact Nat.lt_of_le_of_lt (show c.toNat ≤ 'z'.toNat from high) (by decide)
  · exact Nat.lt_of_le_of_lt (show c.toNat ≤ 'Z'.toNat from high) (by decide)
  · exact Nat.lt_of_le_of_lt (show c.toNat ≤ '9'.toNat from high) (by decide)
  · rcases listed with rfl | rfl | rfl | rfl | rfl | rfl | rfl | rfl | rfl | rfl | rfl | rfl
      | rfl | rfl | rfl | rfl <;> decide

/-- What one byte of an 8.3 name shows of the character it was made from. -/
structure Shown (c : Char) : Prop where
  byte : Char.ofNat (asByte (toAsciiUppercase c)).toNat = toAsciiUppercase c
  visible : isWhitespace (toAsciiUppercase c) = false
  upper : isAsciiLowercase c = false → toAsciiUppercase c = c
  lower : isAsciiUppercase c = false → toLowercase (toAsciiUppercase c) = [c]
  first : 0x20 < (asByte (toAsciiUppercase c)).toNat ∧ (asByte (toAsciiUppercase c)).toNat < 0x80
  inside : c ≠ '.' ∧ c ≠ Char.ofNat 0xFFFF

theorem shown_of_isShortChar (short : isShortChar c = true) : Shown c := by
  have listed : isShortChar c = true → Shown c := by
    refine ascii_induction (motive := fun c => isShortChar c = true → Shown c) ?_
      (isAscii_of_isShortChar short)
    intro i short
    have checked : ∀ i : Fin 128, isShortChar (Char.ofNat i) = true →
        (let c := Char.ofNat i
        Char.ofNat (asByte (toAsciiUppercase c)).toNat = toAsciiUppercase c
        ∧ isWhitespace (toAsciiUppercase c) = false
        ∧ (isAsciiLowercase c = false → toAsciiUppercase c = c)
        ∧ (isAsciiUppercase c = false → [toAsciiLowercase (toAsciiUppercase c)] = [c])
        ∧ isAscii (toAsciiUppercase c) = true
        ∧ 0x20 < (asByte (toAsciiUppercase c)).toNat
        ∧ (asByte (toAsciiUppercase c)).toNat < 0x80
        ∧ c ≠ '.' ∧ c ≠ Char.ofNat 0xFFFF) := by
      decide +kernel
    obtain ⟨byte, visible, upper, lower, ascii, above, below, inside⟩ := checked i short
    refine ⟨byte, visible, upper, fun notUpper => ?_, ⟨above, below⟩, inside⟩
    rw [toLowercase_ascii ascii]
    exact lower notUpper
  exact listed short

theorem partCase_eq_some {lower : Bool} (case : partCase part = some lower)
    : (∀ c ∈ part, Shown c)
      ∧ ((∀ c ∈ part, isAsciiLowercase c = false) ∨ ∀ c ∈ part, isAsciiUppercase c = false)
      ∧ part.any isAsciiLowercase = lower := by
  obtain ⟨⟨allowed, single⟩, same⟩ : ((∀ c ∈ part, isShortChar c = true)
      ∧ ((∀ c ∈ part, isAsciiLowercase c = false) ∨ ∀ c ∈ part, isAsciiUppercase c = false))
      ∧ part.any isAsciiLowercase = lower := by
    simpa [partCase] using case
  exact ⟨fun c member => shown_of_isShortChar (allowed c member), single, same⟩

theorem shortPart_padded {lower : Bool} (case : partCase part = some lower) (width : Nat)
    : shortPart (padded width (uppercased part)) lower = part := by
  obtain ⟨shown, single, rfl⟩ := partCase_eq_some case
  have read : (padded width (uppercased part)).map (fun b => Char.ofNat b.toNat)
      = part.map toAsciiUppercase ++ List.replicate (width - part.length) ' ' := by
    simp only [padded, uppercased, List.map_append, List.map_map, List.map_replicate,
      List.length_map]
    congr 1
    · exact List.map_congr_left (fun c member => (shown c member).byte)
  have trimmed : ((padded width (uppercased part)).map (fun b => Char.ofNat b.toNat)).rdropWhile
      isWhitespace = part.map toAsciiUppercase := by
    rw [read, List.rdropWhile, List.reverse_append, List.reverse_replicate]
    rw [List.dropWhile_append_of_pos (by
      intro c member
      rw [(List.mem_replicate.mp member).2]
      decide)]
    rw [List.dropWhile_eq_self_iff.mpr, List.reverse_reverse]
    intro nonempty
    have member := List.getElem_mem (l := (part.map toAsciiUppercase).reverse) nonempty
    simp only [List.mem_reverse, List.mem_map] at member
    obtain ⟨c, inside, same⟩ := member
    rw [← same]
    simp [(shown c inside).visible]
  unfold shortPart
  rw [trimmed]
  cases lowered : part.any isAsciiLowercase with
  | true =>
    have noUpper : ∀ c ∈ part, isAsciiUppercase c = false := by
      refine single.resolve_left (fun noLower => ?_)
      obtain ⟨c, member, lower⟩ := List.any_eq_true.mp lowered
      exact Bool.false_ne_true ((noLower c member).symm.trans lower)
    simp only [if_true, lowercase, List.flatMap_map]
    rw [List.flatMap_congr (g := fun c => [c])
      (fun c member => (shown c member).lower (noUpper c member))]
    simp
  | false =>
    simp only [Bool.false_eq_true, if_false]
    have noLower : ∀ c ∈ part, isAsciiLowercase c = false := by simpa using lowered
    exact (List.map_congr_left (fun c member => (shown c member).upper (noLower c member))).trans
      (List.map_id part)

theorem splitOnce_eq_some {separator : Char} {text before after : Str}
    (cut : splitOnce separator text = some (before, after))
    : text = before ++ separator :: after ∧ separator ∉ before := by
  unfold splitOnce at cut
  split at cut
  · cases cut
  · rename_i c rest dropped
    simp only [Option.some.injEq, Prod.mk.injEq] at cut
    obtain ⟨rfl, rfl⟩ := cut
    have whole := List.takeWhile_append_dropWhile (p := (· != separator)) (l := text)
    have here : c = separator := by
      have stopped := List.head?_dropWhile_not (· != separator) text
      rw [dropped] at stopped
      simpa using stopped
    rw [dropped, here] at whole
    refine ⟨whole.symm, fun member => ?_⟩
    simpa using List.mem_takeWhile_imp member

theorem length_le_utf8Length (text : Str) : text.length ≤ utf8Length text := by
  induction text with
  | nil => exact Nat.zero_le _
  | cons c rest ih =>
    have positive := Char.utf8Size_pos c
    simp only [utf8Length, List.map_cons, List.sum_cons, List.length_cons] at ih ⊢
    omega

/-- An exact 8.3 form: a base, and an extension if there is one, each short and in one case. -/
structure ExactParts (name base ext : Str) (baseLower extLower : Bool) : Prop where
  whole : name = if ext = [] then base else base ++ '.' :: ext
  nonempty : base ≠ []
  baseShort : base.length ≤ 8
  extShort : ext.length ≤ 3
  baseCase : partCase base = some baseLower
  extCase : partCase ext = some extLower

theorem exactShortName_eq_some (found : exactShortName name = some (short, case))
    (noDot : name.getLast? ≠ some '.')
    : ∃ base ext baseLower extLower,
        ExactParts name base ext baseLower extLower
        ∧ short = padded 8 (uppercased base) ++ padded 3 (uppercased ext)
        ∧ case = (if baseLower then caseLowerBase else 0)
            ||| (if extLower then caseLowerExt else 0) := by
  obtain ⟨base, ext, cut⟩ : ∃ base ext, (splitOnce '.' name).getD (name, []) = (base, ext) :=
    ⟨_, _, rfl⟩
  have whole : name = if ext = [] then base else base ++ '.' :: ext := by
    cases dotted : splitOnce '.' name with
    | none =>
      rw [dotted] at cut
      cases cut
      rfl
    | some parts =>
      rw [dotted] at cut
      obtain rfl : parts = (base, ext) := cut
      have joined := (splitOnce_eq_some dotted).1
      rw [if_neg]
      · exact joined
      · rintro rfl
        exact noDot (by rw [joined, List.getLast?_append, List.getLast?_singleton]; rfl)
  simp only [exactShortName, cut] at found
  split at found
  · cases found
  · rename_i within
    simp only [Bool.or_eq_true, List.isEmpty_iff, decide_eq_true_eq, not_or, Nat.not_lt] at within
    obtain ⟨⟨⟨nonempty, baseShort⟩, extShort⟩, -⟩ := within
    obtain ⟨baseLower, baseCase, found⟩ := Option.bind_eq_some_iff.mp found
    obtain ⟨extLower, extCase, same⟩ := Option.map_eq_some_iff.mp found
    simp only [Prod.mk.injEq] at same
    exact ⟨base, ext, baseLower, extLower,
      ⟨whole, nonempty, Nat.le_trans (length_le_utf8Length base) baseShort,
        Nat.le_trans (length_le_utf8Length ext) extShort, baseCase, extCase⟩,
      same.1.symm, same.2.symm⟩

theorem padded_length {width : Nat} {part : List UInt8} (fits : part.length ≤ width)
    : (padded width part).length = width := by
  simp only [padded, List.length_append, List.length_replicate]
  omega

theorem uppercased_length (part : Str) : (uppercased part).length = part.length :=
  List.length_map _

theorem caseFlags (baseLower extLower : Bool)
    : let case := (if baseLower then caseLowerBase else 0) ||| (if extLower then caseLowerExt else 0)
      (case &&& caseLowerBase != 0) = baseLower ∧ (case &&& caseLowerExt != 0) = extLower := by
  cases baseLower <;> cases extLower <;> decide

theorem shortName_append {base : List UInt8} (eight : base.length = 8) (three : ext.length = 3)
    (attr case : UInt8) (rest : List UInt8)
    : shortName (base ++ ext ++ attr :: case :: rest)
      = (let text := shortPart base (case &&& caseLowerBase != 0)
        let shown := if base.head? == some 0x05 then Char.ofNat 0xE5 :: text.tail else text
        let suffix := shortPart ext (case &&& caseLowerExt != 0)
        if suffix.isEmpty then shown else shown ++ '.' :: suffix) := by
  match base, eight, ext, three with
  | [_, _, _, _, _, _, _, _], _, [_, _, _], _ => rfl

theorem shortName_shortEntry (found : exactShortName name = some (short, case))
    (noDot : name.getLast? ≠ some '.') (attr : UInt8) (cluster size : Nat) (stamp : Stamp)
    : shortName (shortEntry short case attr cluster size stamp) = name := by
  obtain ⟨base, ext, baseLower, extLower, parts, rfl, rfl⟩ := exactShortName_eq_some found noDot
  have baseLength : (padded 8 (uppercased base)).length = 8 :=
    padded_length (by rw [uppercased_length]; exact parts.baseShort)
  have extLength : (padded 3 (uppercased ext)).length = 3 :=
    padded_length (by rw [uppercased_length]; exact parts.extShort)
  have flags := caseFlags baseLower extLower
  have notKanji : ((padded 8 (uppercased base)).head? == some (0x05 : UInt8)) = false := by
    obtain ⟨c, rest, rfl⟩ := List.exists_cons_of_ne_nil parts.nonempty
    have first := ((partCase_eq_some parts.baseCase).1 c List.mem_cons_self).first
    rw [beq_eq_false_iff_ne]
    intro same
    have kanji : asByte (toAsciiUppercase c) = 0x05 := Option.some.inj same
    rw [kanji] at first
    exact absurd first.1 (by decide)
  unfold shortEntry
  simp only [List.append_assoc, List.cons_append, List.nil_append]
  rw [← List.append_assoc, shortName_append baseLength extLength]
  simp only [flags.1, flags.2, notKanji, shortPart_padded parts.baseCase,
    shortPart_padded parts.extCase, Bool.false_eq_true, if_false, List.isEmpty_iff]
  exact parts.whole.symm

/-- The 11 bytes of an entry that is there: the first is printable ASCII, so it is neither an
end marker nor a deleted slot.
-/
structure ShortName.Live (short : ShortName) : Prop where
  eleven : short.length = 11
  first : 0x20 < byteAt short 0 ∧ byteAt short 0 < 0x80

theorem exactShortName_live (found : exactShortName name = some (short, case))
    (noDot : name.getLast? ≠ some '.')
    : short.Live := by
  obtain ⟨base, ext, baseLower, extLower, parts, rfl, -⟩ := exactShortName_eq_some found noDot
  constructor
  · rw [List.length_append, padded_length, padded_length]
    · rw [uppercased_length]; exact parts.extShort
    · rw [uppercased_length]; exact parts.baseShort
  · obtain ⟨c, rest, rfl⟩ := List.exists_cons_of_ne_nil parts.nonempty
    exact ((partCase_eq_some parts.baseCase).1 c List.mem_cons_self).first

theorem clean_length_le (part : Str) (max : Nat) : (clean part max).length ≤ max :=
  List.length_take_le max _

theorem mem_clean {max : Nat} {b : UInt8} (member : b ∈ clean part max)
    : 0x20 < b.toNat ∧ b.toNat < 0x80 := by
  obtain ⟨c, _, same⟩ := List.mem_map.mp (List.mem_of_mem_take member)
  split at same
  · rename_i short
    rw [← same]
    exact (shown_of_isShortChar short).first
  · rw [← same]
    decide

/-- The basis of an alias has one to six bytes, and its extension at most three. -/
structure AliasBasis (basis ext : List UInt8) : Prop where
  nonempty : basis ≠ []
  basisShort : basis.length ≤ 6
  extShort : ext.length ≤ 3
  printable : ∀ b ∈ basis, 0x20 < b.toNat ∧ b.toNat < 0x80

theorem aliasParts_basis (name : Str) : AliasBasis (aliasParts name).1 (aliasParts name).2 := by
  simp only [aliasParts]
  split
  · refine ⟨by simp, by simp, clean_length_le _ 3, ?_⟩
    simp
  · rename_i filled
    refine ⟨by simpa using filled, clean_length_le _ 6, clean_length_le _ 3, ?_⟩
    exact fun b member => mem_clean member

theorem aliasCandidate_live (parts : AliasBasis basis ext)
    (candidate : aliasCandidate basis ext n = some short)
    : short.Live := by
  have blankLength : (List.replicate 8 space ++ padded 3 ext).length = 11 := by
    rw [List.length_append, padded_length parts.extShort, List.length_replicate]
  simp only [aliasCandidate] at candidate
  split at candidate
  · rename_i fits
    cases candidate
    have within : 0 + (basis.take (aliasKeep basis n) ++ aliasTail n).length
        ≤ (List.replicate 8 space ++ padded 3 ext).length := by
      rw [blankLength, List.length_append, List.length_take]
      omega
    refine ⟨by rw [splice_length within, blankLength], ?_⟩
    have inside : 0 < (basis.take (aliasKeep basis n) ++ aliasTail n).length := by
      rw [List.length_append, aliasTail, List.length_cons]
      omega
    have first := byteAt_splice within inside
    rw [Nat.zero_add] at first
    rw [first]
    cases kept : basis.take (aliasKeep basis n) with
    | nil => exact (by decide : 0x20 < (asByte '~').toNat ∧ (asByte '~').toNat < 0x80)
    | cons b rest =>
      refine parts.printable b (List.mem_of_mem_take (i := aliasKeep basis n) ?_)
      rw [kept]
      exact List.mem_cons_self
  · cases candidate

theorem aliasTail_length (n : Nat) : (aliasTail n).length = (Nat.toDigits 10 n).length + 1 := by
  simp [aliasTail, digits]

theorem aliasTail_length_mono (le : m ≤ n)
    : (aliasTail m).length ≤ (aliasTail n).length := by
  have positive : 0 < (Nat.toDigits 10 n).length := Nat.length_toDigits_pos
  have bound := (Nat.length_toDigits_le_iff (b := 10) (n := n) (by omega) positive).mp le_rfl
  have within := (Nat.length_toDigits_le_iff (b := 10) (n := m) (by omega) positive).mpr
    (Nat.lt_of_le_of_lt le bound)
  rw [aliasTail_length, aliasTail_length]
  omega

theorem aliasCandidate_isSome_iff (basis ext : List UInt8) (n : Nat)
    : (aliasCandidate basis ext n).isSome ↔ aliasKeep basis n + (aliasTail n).length ≤ 11 := by
  simp only [aliasCandidate]
  split
  · rename_i fits
    exact ⟨fun _ => fits, fun _ => rfl⟩
  · rename_i exceeds
    exact ⟨fun missing => absurd missing Bool.false_ne_true, fun fits => absurd fits exceeds⟩

theorem aliasCandidate_isSome_of_le (parts : AliasBasis basis ext) (le : m ≤ n)
    (fits : (aliasCandidate basis ext n).isSome)
    : (aliasCandidate basis ext m).isSome := by
  have shorter := aliasTail_length_mono le
  have short := parts.basisShort
  rw [aliasCandidate_isSome_iff, aliasKeep] at fits ⊢
  split at fits <;> split <;> omega

theorem lt_of_aliasCandidate (parts : AliasBasis basis ext)
    (fits : (aliasCandidate basis ext n).isSome)
    : n < 1000000000 := by
  have filled : 0 < basis.length := List.length_pos_iff.mpr parts.nonempty
  have short : (Nat.toDigits 10 n).length ≤ 9 := by
    have length := aliasTail_length n
    rw [aliasCandidate_isSome_iff, aliasKeep] at fits
    split at fits <;> omega
  exact (Nat.length_toDigits_le_iff (by omega) (by omega)).mp short

/-- A found alias is a candidate that was not taken. By induction on the tries left. -/
theorem aliasFrom_eq_some {fuel : Nat} (found : aliasFrom basis ext taken fuel n = some short)
    : short ∉ taken
      ∧ ∃ m, n ≤ m ∧ m < n + fuel ∧ aliasCandidate basis ext m = some short := by
  induction fuel generalizing n with
  | zero => cases found
  | succ fuel ih =>
    obtain ⟨candidate, here, found⟩ := Option.bind_eq_some_iff.mp found
    split at found
    · obtain ⟨free, m, later, below, same⟩ := ih found
      exact ⟨free, m, by omega, by omega, same⟩
    · rename_i free
      cases found
      exact ⟨by simpa using free, n, Nat.le_refl n, by omega, here⟩

/-- A candidate that is not taken is found, or one before it. By induction on the tries left. -/
theorem aliasFrom_isSome (parts : AliasBasis basis ext) {fuel : Nat}
    (candidate : aliasCandidate basis ext m = some short) (free : short ∉ taken) (from_ : n ≤ m)
    (reached : m < n + fuel)
    : (aliasFrom basis ext taken fuel n).isSome := by
  induction fuel generalizing n with
  | zero => omega
  | succ fuel ih =>
    obtain ⟨here, tried⟩ := Option.isSome_iff_exists.mp
      (aliasCandidate_isSome_of_le parts from_ (by rw [candidate]; rfl))
    simp only [aliasFrom, tried, Option.bind_some]
    split
    · rename_i used
      have later : n ≠ m := by
        rintro rfl
        rw [candidate] at tried
        cases tried
        exact free (by simpa using used)
      exact ih (by omega) (by omega)
    · rfl

theorem aliasFor_eq_some (found : aliasFor name taken = some short)
    : short.Live ∧ short ∉ taken ∧ ∃ n, 1 ≤ n
        ∧ aliasCandidate (aliasParts name).1 (aliasParts name).2 n = some short := by
  obtain ⟨free, n, positive, -, candidate⟩ := aliasFrom_eq_some found
  exact ⟨aliasCandidate_live (aliasParts_basis name) candidate, free, n, positive, candidate⟩

theorem aliasFor_isSome_iff (name : Str) (taken : List ShortName)
    : (aliasFor name taken).isSome
      ↔ ∃ n short, 1 ≤ n ∧ aliasCandidate (aliasParts name).1 (aliasParts name).2 n = some short
          ∧ short ∉ taken := by
  constructor
  · intro found
    obtain ⟨short, found⟩ := Option.isSome_iff_exists.mp found
    obtain ⟨-, free, n, positive, candidate⟩ := aliasFor_eq_some found
    exact ⟨n, short, positive, candidate, free⟩
  · rintro ⟨n, short, positive, candidate, free⟩
    have parts := aliasParts_basis name
    have below := lt_of_aliasCandidate parts (by rw [candidate]; rfl)
    exact aliasFrom_isSome parts candidate free positive (by omega)

end RustyPi.Fat
