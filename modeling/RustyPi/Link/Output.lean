import Mathlib.Data.List.TakeDrop
import RustyPi.Link.Frames

/-! Program output and frames on one line. Whatever programs print, and wherever they stop, the other
side receives just the kernel's frames.
-/

namespace RustyPi.Link

open RustyPi.Utf8

----------
-- Which bytes occur
----------

variable {char : Char} {kind : List Char}

/-- An ASCII character's byte occurs only in texts that have the character. -/
theorem mem_of_mem_encode (ascii : char.toNat < 0x80) {text : List Char}
    (listed : UInt8.ofNat char.toNat ∈ encode text)
    : char ∈ text := by
  obtain ⟨other, there, inside⟩ := List.mem_flatMap.mp listed
  have value : (UInt8.ofNat char.toNat).toNat = char.toNat :=
    UInt8.toNat_ofNat_of_lt' (Nat.lt_trans ascii (by decide))
  have same := toNat_of_mem_utf8EncodeChar (by rw [value]; exact ascii) inside
  rw [value] at same
  exact Char.ext (UInt32.toNat_inj.mp same) ▸ there

theorem notMem_sanitize {breaks : Char → Bool} (breaking : breaks char) (differ : char ≠ '?')
    (text : List Char)
    : char ∉ sanitize breaks text := by
  intro listed
  obtain ⟨other, -, same⟩ := List.mem_map.mp listed
  split at same
  · exact differ same.symm
  · rename_i kept
    exact kept (same ▸ breaking)

/-- Console text is the bytes' text with `?` for each `$`, and one for each invalid part. -/
theorem plainText_flatten (bytes : List UInt8)
    : (plainText bytes).flatten
      = (chunks bytes).flatMap (fun chunk =>
          sanitize (· = '$') chunk.valid ++ if chunk.invalid ≠ [] then ['?'] else []) := by
  unfold plainText
  rw [List.flatten_eq_flatMap, List.flatMap_assoc]
  congr 1
  funext chunk
  rw [List.flatMap_append, List.flatMap_assoc, ← flatMap_cleanPiece]
  congr 1
  · congr 1
    funext piece
    unfold cleanPiece
    split <;> simp_all
  · split <;> simp

theorem dollar_notMem_plainText (bytes : List UInt8)
    : dollar ∉ encode (plainText bytes).flatten := by
  intro listed
  have present : '$' ∈ (plainText bytes).flatten :=
    mem_of_mem_encode (show '$'.toNat < 0x80 by decide) listed
  rw [plainText_flatten] at present
  obtain ⟨chunk, -, inside⟩ := List.mem_flatMap.mp present
  rcases List.mem_append.mp inside with valid | mark
  · exact notMem_sanitize (by decide) (by decide) chunk.valid valid
  · split at mark <;> simp at mark

/-- A kind that frames can have. -/
def KindOk (kind : List Char) : Prop :=
  ∀ char ∈ kind, char ≠ ',' ∧ char ≠ '$' ∧ char ≠ '\r' ∧ char ≠ '\n'

/-- Nothing in a frame's text ends it early, or starts another. -/
theorem notMem_frameText (kindOk : KindOk kind) (payload : List (List Char))
    (breaking : frameBreaking char)
    : char ∉ frameText kind payload := by
  intro listed
  rcases List.mem_append.mp listed with inKind | inPayload
  · obtain ⟨-, notDollar, notReturn, notNewline⟩ := kindOk char inKind
    simp_all [frameBreaking]
  · unfold FrameWriter.payloadText at inPayload
    split at inPayload
    · cases inPayload
    · rcases List.mem_cons.mp inPayload with rfl | inside
      · cases breaking
      · refine notMem_sanitize breaking ?_ _ inside
        rintro rfl
        cases breaking

----------
-- Parsing what was written
----------

/-- A frame without the end of its line. -/
def frameLine (kind : List Char) (payload : List (List Char)) : List UInt8 :=
  let body := encode (frameText kind payload)
  dollar :: (body ++ [star, hexDigit (checksum body >>> 4), hexDigit (checksum body &&& 0xF)])

theorem writeFrame_eq_frameLine (kind : List Char) (payload : List (List Char))
    : writeFrame kind payload = frameLine kind payload ++ [newline] := by
  rw [writeFrame_eq]
  simp [frameLine]

theorem hexDigit_inside (nibble : UInt8)
    : hexDigit nibble ≠ carriageReturn ∧ hexDigit nibble ≠ newline ∧ hexDigit nibble ≠ dollar := by
  unfold hexDigit
  cases found : hexDigits[nibble.toNat]? with
  | none => decide
  | some digit =>
    have all : ∀ digit ∈ hexDigits,
        digit ≠ carriageReturn ∧ digit ≠ newline ∧ digit ≠ dollar := by
      decide +kernel
    exact all digit (List.mem_of_getElem? found)

/-- Between its `$` and its end nothing ends a frame, or starts another. -/
theorem frameLine_inside (kindOk : KindOk kind) (payload : List (List Char))
    : ∀ byte ∈ (frameLine kind payload).tail,
        byte ≠ carriageReturn ∧ byte ≠ newline ∧ byte ≠ dollar := by
  intro byte listed
  rcases List.mem_append.mp listed with inText | inSum
  · refine ⟨?_, ?_, ?_⟩ <;> rintro rfl
    · exact notMem_frameText kindOk payload (by decide)
        (mem_of_mem_encode (show '\r'.toNat < 0x80 by decide) inText)
    · exact notMem_frameText kindOk payload (by decide)
        (mem_of_mem_encode (show '\n'.toNat < 0x80 by decide) inText)
    · exact notMem_frameText kindOk payload (by decide)
        (mem_of_mem_encode (show '$'.toNat < 0x80 by decide) inText)
  · simp only [List.mem_cons, List.not_mem_nil, or_false] at inSum
    rcases inSum with rfl | rfl | rfl
    · decide
    · exact hexDigit_inside _
    · exact hexDigit_inside _

theorem splitOnce_frameText (kindOk : KindOk kind) (payload : List (List Char))
    : (splitOnce ',' (frameText kind payload)).getD (frameText kind payload, [])
      = (kind, sanitize frameBreaking payload.flatten) := by
  have plain : ∀ char ∈ kind, decide (char ≠ ',') = true := fun char listed => by
    simpa using (kindOk char listed).1
  unfold splitOnce frameText FrameWriter.payloadText
  rw [List.span_eq_takeWhile_dropWhile]
  by_cases empty : payload.flatten = []
  · rw [if_pos empty, List.takeWhile_append_of_pos plain, List.dropWhile_append_of_pos plain, empty]
    simp [sanitize]
  · rw [if_neg empty, List.takeWhile_append_of_pos plain, List.dropWhile_append_of_pos plain]
    simp

theorem parse_frameLine (kindOk : KindOk kind) (payload : List (List Char))
    : parse (frameLine kind payload) = some (kind, sanitize frameBreaking payload.flatten) := by
  generalize written : encode (frameText kind payload) = body
  have line : frameLine kind payload = dollar :: (body
      ++ [star, hexDigit (checksum body >>> 4), hexDigit (checksum body &&& 0xF)]) := by
    rw [frameLine, written]
  have length : (frameLine kind payload).length = body.length + 4 := by simp [line]
  unfold parse
  have starAt : (frameLine kind payload)[body.length + 1]? = some star := by
    rw [line, List.getElem?_cons_succ, List.getElem?_append_right (Nat.le_refl _)]
    simp
  have hiAt : (frameLine kind payload)[body.length + 2]? = some (hexDigit (checksum body >>> 4)) := by
    rw [line, List.getElem?_cons_succ, List.getElem?_append_right (by omega)]
    simp
  have loAt : (frameLine kind payload)[body.length + 3]? = some (hexDigit (checksum body &&& 0xF)) := by
    rw [line, List.getElem?_cons_succ, List.getElem?_append_right (by omega)]
    simp
  have bodyAt : ((frameLine kind payload).drop 1).take body.length = body := by
    rw [line, List.drop_succ_cons, List.drop_zero, List.take_left]
  have start : (frameLine kind payload)[0]? = some dollar := by rw [line]; rfl
  rw [length, show body.length + 4 - 3 = body.length + 1 by omega,
    show body.length + 4 - 2 = body.length + 2 by omega,
    show body.length + 4 - 1 = body.length + 3 by omega, Nat.add_sub_cancel, starAt, hiAt, loAt,
    bodyAt, start, if_neg (by simp)]
  simp only [Option.getD_some, hexByte_hexDigit, Option.bind_eq_bind, Option.bind_some, ne_eq,
    not_true_eq_false, if_false, ← written, decode_encode, splitOnce_frameText kindOk]
  rfl

/-- A text in which one byte is another has another checksum. By induction on the text. -/
theorem set_of_checksum {bytes : List UInt8} {position : Nat} {byte : UInt8}
    (same : checksum (bytes.set position byte) = checksum bytes)
    : bytes.set position byte = bytes := by
  have cons (first : UInt8) (rest : List UInt8)
      : checksum (first :: rest) = first ^^^ checksum rest := by
    simpa [checksum] using checksum_append [first] rest
  induction bytes generalizing position with
  | nil => rfl
  | cons first rest ih =>
    cases position with
    | zero =>
      rw [List.set_cons_zero, cons, cons, UInt8.xor_left_inj] at same
      rw [List.set_cons_zero, same]
    | succ position =>
      rw [List.set_cons_succ, cons, cons, UInt8.xor_right_inj] at same
      rw [List.set_cons_succ, ih same]

/-- What is parsed is what the body told, whose checksum the last two digits are. -/
theorem parse_body {bytes : List UInt8} {message : List Char × List Char}
    (parsed : parse bytes = some message)
    : hexByte (bytes[bytes.length - 2]?.getD 0) (bytes[bytes.length - 1]?.getD 0)
        = some (checksum ((bytes.drop 1).take (bytes.length - 4)))
      ∧ (decode ((bytes.drop 1).take (bytes.length - 4))).map (fun text =>
          (splitOnce ',' text).getD (text, []))
        = some message := by
  unfold parse at parsed
  split at parsed
  · cases parsed
  · obtain ⟨sum, digits, checked⟩ := Option.bind_eq_some_iff.mp parsed
    rw [Option.ite_none_left_eq_some, not_not] at checked
    obtain ⟨rfl, checked⟩ := checked
    obtain ⟨text, decoded, result⟩ := Option.bind_eq_some_iff.mp checked
    exact ⟨digits, Option.map_eq_some_iff.mpr ⟨text, decoded, Option.some.inj result⟩⟩

/-- A frame in which any one byte is replaced is refused, unless it told the same. -/
theorem parse_damaged {bytes : List UInt8} {message : List Char × List Char}
    (parsed : parse bytes = some message) (position : Nat) (byte : UInt8)
    : parse (bytes.set position byte) = none
      ∨ parse (bytes.set position byte) = some message := by
  cases damaged : parse (bytes.set position byte) with
  | none => exact .inl rfl
  | some other =>
    obtain ⟨digits, told⟩ := parse_body parsed
    obtain ⟨digits', told'⟩ := parse_body damaged
    rw [List.length_set] at digits' told'
    have body
        : ((bytes.set position byte).drop 1).take (bytes.length - 4)
          = (bytes.drop 1).take (bytes.length - 4) := by
      by_cases inside : 0 < position ∧ position < bytes.length - 3
      · -- the digits are as they were
        rw [List.getElem?_set_ne (by omega), List.getElem?_set_ne (by omega), digits] at digits'
        rw [List.drop_set, if_neg (by omega), List.take_set] at digits' ⊢
        exact set_of_checksum (Option.some.inj digits').symm
      · rw [List.drop_set]
        split
        · rfl
        · rw [List.take_set, List.set_eq_of_length_le]
          simp only [List.length_take]
          omega
    rw [body, told] at told'
    exact .inr told'.symm

/-- Witness: a byte of the payload is lost, but not the case of a digit. -/
theorem parse_damaged_digit
    : parse (frameLine ['A'] [['b']]) = some (['A'], ['b'])
      ∧ parse ((frameLine ['A'] [['b']]).set 3 0x63) = none
      ∧ parse ((frameLine ['A'] [['b']]).set 6 0x66) = some (['A'], ['b']) := by
  have parsed : parse (frameLine ['A'] [['b']]) = some (['A'], ['b']) := by decide +kernel
  refine ⟨parsed, ?_, ?_⟩
  · exact (parse_damaged parsed 3 0x63).resolve_right (by decide +kernel)
  · exact (parse_damaged parsed 6 0x66).resolve_left (by decide +kernel)

----------
-- Receiving
----------

namespace Receiver

/-- The receiver isn't in the middle of a frame. -/
def Plain (receiver : Receiver) : Prop := receiver.line[0]? ≠ some dollar

variable {receiver : Receiver}

@[simp] theorem feed_append (receiver : Receiver) (first second : List UInt8)
    : receiver.feed (first ++ second)
      = (((receiver.feed first).1.feed second).1,
          (receiver.feed first).2 ++ ((receiver.feed first).1.feed second).2) := by
  induction first generalizing receiver with
  | nil => rfl
  | cons byte rest ih => simp [feed, ih]

variable {byte : UInt8}

theorem Plain.store (plain : receiver.Plain) (text : byte ≠ dollar)
    : (receiver.store byte).Plain := by
  unfold Receiver.store
  split
  · unfold Plain at plain ⊢
    cases line : receiver.line with
    | nil => simpa using text
    | cons first rest => simpa [line] using plain
  · exact plain

theorem plain_clear (receiver : Receiver) : receiver.clear.Plain := by simp [Plain, clear]

/-- Outside of frames the end of a line completes nothing. At most the line was too long. -/
theorem endLine_plain (plain : receiver.Plain)
    : receiver.endLine.1.Plain
      ∧ ∀ event ∈ receiver.endLine.2, event = .rejected "line too long" := by
  refine ⟨plain_clear _, fun event completed => ?_⟩
  unfold endLine at completed
  dsimp only at completed
  split at completed
  · exact (Option.some.inj completed).symm
  · split at completed
    · unfold dispatch at completed
      rw [if_pos (show receiver.line[0]? ≠ some dollar from plain)] at completed
      cases completed
    · cases completed

/-- Text without `$` is no frame, whatever else is in it. -/
theorem push_plain (plain : receiver.Plain) (text : byte ≠ dollar)
    : (receiver.push (.ok byte)).1.Plain
      ∧ ∀ event ∈ (receiver.push (.ok byte)).2, event = .rejected "line too long" := by
  have counted : receiver.countByte.Plain := plain
  unfold push
  dsimp only
  split_ifs
  · exact ⟨counted, by simp⟩
  · exact endLine_plain counted
  · exact ⟨counted.store text, by simp⟩

theorem feed_plain (plain : receiver.Plain) {bytes : List UInt8} (text : dollar ∉ bytes)
    : (receiver.feed bytes).1.Plain
      ∧ ∀ event ∈ (receiver.feed bytes).2, event = .rejected "line too long" := by
  induction bytes generalizing receiver with
  | nil => exact ⟨plain, by simp [feed]⟩
  | cons byte rest ih =>
    rw [List.mem_cons, not_or] at text
    obtain ⟨afterByte, first⟩ := push_plain plain (Ne.symm text.1)
    obtain ⟨afterRest, others⟩ := ih afterByte text.2
    refine ⟨afterRest, fun event listed => ?_⟩
    rcases List.mem_append.mp listed with now | later
    · exact first event (Option.mem_toList.mp now)
    · exact others event later

theorem push_inside (inside : byte ≠ carriageReturn ∧ byte ≠ newline ∧ byte ≠ dollar)
    (room : receiver.line.length < maxLine)
    : (receiver.push (.ok byte)).1.line = receiver.line ++ [byte]
      ∧ (receiver.push (.ok byte)).1.overflow = receiver.overflow
      ∧ (receiver.push (.ok byte)).2 = none := by
  simp [push, countByte, store, inside, room]

theorem feed_inside {bytes : List UInt8}
    (inside : ∀ byte ∈ bytes, byte ≠ carriageReturn ∧ byte ≠ newline ∧ byte ≠ dollar)
    (room : receiver.line.length + bytes.length ≤ maxLine)
    : (receiver.feed bytes).1.line = receiver.line ++ bytes
      ∧ (receiver.feed bytes).1.overflow = receiver.overflow
      ∧ (receiver.feed bytes).2 = [] := by
  induction bytes generalizing receiver with
  | nil => simp [feed]
  | cons byte rest ih =>
    rw [List.length_cons] at room
    obtain ⟨line, overflow, event⟩ :=
      push_inside (inside byte List.mem_cons_self) (show receiver.line.length < maxLine by omega)
    obtain ⟨lineRest, overflowRest, events⟩ :=
      ih (fun other listed => inside other (List.mem_cons_of_mem _ listed))
        (show _ + rest.length ≤ maxLine by rw [line, List.length_append, List.length_singleton]; omega)
    simp only [feed, lineRest, overflowRest, events, line, overflow, event]
    simp

theorem push_dollar (receiver : Receiver)
    : (receiver.push (.ok dollar)).1.line = [dollar]
      ∧ (receiver.push (.ok dollar)).1.overflow = false
      ∧ (receiver.push (.ok dollar)).2 = none := by
  simp [push, countByte, store, discard, clear, dollar, carriageReturn, newline, maxLine]

theorem push_newline {kind payload : List Char} (noOverflow : receiver.overflow = false)
    (frame : receiver.line[0]? = some dollar) (parsed : parse receiver.line = some (kind, payload))
    : (receiver.push (.ok newline)).1.Plain
      ∧ (receiver.push (.ok newline)).2 = some (.frame kind payload) := by
  have some : 0 < receiver.line.length := by
    obtain ⟨inside, -⟩ := List.getElem?_eq_some_iff.mp frame
    exact inside
  have shape : receiver.push (.ok newline) = receiver.countByte.endLine := by
    simp [push, newline, carriageReturn]
  have dispatched
      : receiver.countByte.dispatch = (receiver.countByte, Option.some (.frame kind payload)) := by
    unfold dispatch
    rw [if_neg (Decidable.not_not.mpr (show receiver.countByte.line[0]? = _ from frame)),
      show parse receiver.countByte.line = _ from parsed]
  rw [shape]
  refine ⟨plain_clear _, ?_⟩
  unfold endLine
  rw [if_neg (show ¬ receiver.countByte.overflow = true by simpa [countByte] using noOverflow),
    if_pos (show 0 < receiver.countByte.line.length from some), dispatched]

/-- A whole frame is received, from any state. -/
theorem feed_frame (receiver : Receiver) {kind : List Char} (kindOk : KindOk kind)
    {payload : List (List Char)} (fits : (frameLine kind payload).length ≤ maxLine)
    : (receiver.feed (writeFrame kind payload)).1.Plain
      ∧ (receiver.feed (writeFrame kind payload)).2
        = [.frame kind (sanitize frameBreaking payload.flatten)] := by
  rw [writeFrame_eq_frameLine]
  generalize rest : (frameLine kind payload).tail = tail
  have cut : frameLine kind payload = dollar :: tail := by rw [← rest]; rfl
  obtain ⟨line, overflow, event⟩ := push_dollar receiver
  have room : (receiver.push (.ok dollar)).1.line.length + tail.length ≤ maxLine := by
    rw [cut, List.length_cons] at fits
    rw [line, List.length_singleton]
    omega
  obtain ⟨lineAll, overflowAll, events⟩ :=
    feed_inside (rest ▸ frameLine_inside kindOk payload) room
  have whole : ((receiver.push (.ok dollar)).1.feed tail).1.line = frameLine kind payload := by
    rw [lineAll, line, cut]
    rfl
  obtain ⟨plain, completed⟩ :=
    push_newline (overflowAll.trans overflow) (by rw [whole, cut]; rfl)
      (whole ▸ parse_frameLine kindOk payload)
  rw [cut, feed_append]
  simp only [feed, event, events, completed]
  exact ⟨plain, rfl⟩

end Receiver

----------
-- Everything on the line
----------

/-- What is written to the line: what a program prints, or a frame. -/
inductive Item
  | output (bytes : List UInt8)
  | frame (kind : List Char) (payload : List (List Char))

namespace Item

/-- The bytes that go out for it. -/
def bytes : Item → List UInt8
  | .output bytes => encode (plainText bytes).flatten
  | .frame kind payload => writeFrame kind payload

/-- A frame has a proper kind, and fits. -/
def Ok : Item → Prop
  | .output _ => True
  | .frame kind payload => KindOk kind ∧ (writeFrame kind payload).length ≤ maxLine + 1

/-- The frame that is to be received. -/
def event : Item → Option Event
  | .output _ => none
  | .frame kind payload => some (.frame kind (sanitize frameBreaking payload.flatten))

end Item

def Event.isFrame : Event → Bool
  | .frame _ _ => true
  | .rejected _ => false

/-- The frames are just these, and otherwise lines are at most too long. -/
structure Reported (events frames : List Event) : Prop where
  frames : events.filter Event.isFrame = frames
  others : ∀ event ∈ events, event.isFrame = false → event = .rejected "line too long"

theorem Reported.append {events more frames others : List Event} (first : Reported events frames)
    (second : Reported more others)
    : Reported (events ++ more) (frames ++ others) where
  frames := by rw [List.filter_append, first.frames, second.frames]
  others event listed notFrame := by
    rcases List.mem_append.mp listed with now | after
    · exact first.others event now notFrame
    · exact second.others event after notFrame

/-- Between frames, each item is reported if it is a frame. -/
theorem reported_item {receiver : Receiver} (plain : receiver.Plain) {item : Item} (ok : item.Ok)
    : (receiver.feed item.bytes).1.Plain
      ∧ Reported (receiver.feed item.bytes).2 item.event.toList := by
  cases item with
  | output bytes =>
    obtain ⟨plain, complaints⟩ := Receiver.feed_plain plain (dollar_notMem_plainText bytes)
    refine ⟨plain, ?_, fun event listed _ => complaints event listed⟩
    refine List.filter_eq_nil_iff.mpr (fun event listed => ?_)
    rw [complaints event listed]
    simp [Event.isFrame]
  | frame kind payload =>
    obtain ⟨kindOk, fits⟩ := ok
    rw [writeFrame_eq_frameLine, List.length_append, List.length_singleton] at fits
    obtain ⟨plain, received⟩ := receiver.feed_frame kindOk (Nat.le_of_succ_le_succ fits)
    refine ⟨plain, ?_⟩
    show Reported (receiver.feed (writeFrame kind payload)).2 _
    rw [received]
    exact ⟨rfl, by simp [Event.isFrame]⟩

theorem reported_items {receiver : Receiver} (plain : receiver.Plain) {items : List Item}
    (ok : ∀ item ∈ items, item.Ok)
    : Reported (receiver.feed (items.flatMap Item.bytes)).2 (items.filterMap Item.event) := by
  induction items generalizing receiver with
  | nil => exact ⟨rfl, by simp [Receiver.feed]⟩
  | cons item rest ih =>
    obtain ⟨plain, first⟩ := reported_item plain (ok item List.mem_cons_self)
    have later := ih plain (fun other listed => ok other (List.mem_cons_of_mem _ listed))
    have split : (item :: rest).filterMap Item.event
        = item.event.toList ++ rest.filterMap Item.event := by
      cases event : item.event <;> simp [event]
    rw [List.flatMap_cons, Receiver.feed_append, split]
    exact first.append later

/-- Program output can't forge or damage frames. Whatever programs print, and wherever they stop,
with frames in between: the receiver reports just the frames, in order. Besides, it only complains
about lines that are too long.
-/
theorem frames_of_items {items : List Item} (ok : ∀ item ∈ items, item.Ok)
    : (Receiver.new.feed (items.flatMap Item.bytes)).2.filter Event.isFrame
        = items.filterMap Item.event
      ∧ ∀ event ∈ (Receiver.new.feed (items.flatMap Item.bytes)).2,
          event.isFrame = false → event = .rejected "line too long" := by
  have plain : Receiver.new.Plain := by simp [Receiver.Plain, Receiver.new]
  have reported := reported_items plain ok
  exact ⟨reported.frames, reported.others⟩

/-- Witness: a program prints the start of a frame and stops, and a frame with a line end in its
payload follows.
-/
theorem frames_of_forgery
    : (∀ item ∈ [Item.output [0x24, 0x4F, 0x4B, 0xFF], .frame ['R', 'S', 'P'] [['a', '\n'], ['b']]],
        item.Ok)
      ∧ (Receiver.new.feed
          ([Item.output [0x24, 0x4F, 0x4B, 0xFF],
            .frame ['R', 'S', 'P'] [['a', '\n'], ['b']]].flatMap Item.bytes)).2.filter Event.isFrame
        = [.frame ['R', 'S', 'P'] ['a', '?', 'b']] := by
  have ok : ∀ item ∈ [Item.output [0x24, 0x4F, 0x4B, 0xFF],
      .frame ['R', 'S', 'P'] [['a', '\n'], ['b']]], item.Ok := by
    simp only [List.forall_mem_cons, List.not_mem_nil, false_imp_iff, implies_true, and_true, Item.Ok,
      KindOk, true_and]
    decide
  exact ⟨ok, (frames_of_items ok).1⟩

end RustyPi.Link
