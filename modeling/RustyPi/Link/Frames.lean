import Mathlib.Algebra.Group.Nat.Defs
import RustyPi.Lib.Utf8

/-! Frames on the Arduino link, `rustypi-core/src/link.rs`: one line each, from `$` to the end of the
line, with a checksum. Text between them is plain console output.
-/

namespace RustyPi.Link

open RustyPi.Utf8

/-- Longest line, without its end, that is accepted. -/
def maxLine : Nat := 160

def dollar : UInt8 := 0x24

def star : UInt8 := 0x2A

def comma : UInt8 := 0x2C

def questionMark : UInt8 := 0x3F

def carriageReturn : UInt8 := 0x0D

def newline : UInt8 := 0x0A

/-- `str::split_once`. -/
def splitOnce (separator : Char) (text : List Char) : Option (List Char × List Char) :=
  match text.span (· ≠ separator) with
  | (_, []) => none
  | (before, _ :: after) => some (before, after)

/-- `str::split_inclusive`: pieces that end with a character that `breaks`; the last need not. -/
def splitInclusive (breaks : Char → Bool) : List Char → List (List Char)
  | [] => []
  | char :: rest =>
    if breaks char then [char] :: splitInclusive breaks rest
    else
      match splitInclusive breaks rest with
      | [] => [[char]]
      | piece :: more => (char :: piece) :: more

/-- `str::strip_suffix` of one character that `breaks`. -/
def stripSuffix (breaks : Char → Bool) (piece : List Char) : Option (List Char) :=
  match piece.getLast? with
  | some char => if breaks char then some piece.dropLast else none
  | none => none

/-- Characters that can't appear inside a frame. -/
def frameBreaking (char : Char) : Bool := char = '$' ∨ char = '\r' ∨ char = '\n'

def checksum (bytes : List UInt8) : UInt8 := bytes.foldl (· ^^^ ·) 0

----------
-- Receiving
----------

/-- Receive-side counters. -/
structure Stats where
  rxBytes : Nat
  rxErrors : Nat
  dropped : Nat
  badFrames : Nat
  overflows : Nat
  deriving DecidableEq, Repr

/-- `u32::wrapping_add(1)`. -/
def wrappingSucc (count : Nat) : Nat := (count + 1) % 2 ^ 32

/-- What a completed line turned out to be. -/
inductive Event
  | frame (kind payload : List Char)
  | rejected (reason : String)
  deriving DecidableEq, Repr

def hexNibble (char : UInt8) : Option UInt8 :=
  if 0x30 ≤ char ∧ char ≤ 0x39 then some (char - 0x30)
  else if 0x41 ≤ char ∧ char ≤ 0x46 then some (char - 0x41 + 10)
  else if 0x61 ≤ char ∧ char ≤ 0x66 then some (char - 0x61 + 10)
  else none

def hexByte (hi lo : UInt8) : Option UInt8 := do
  return (← hexNibble hi) <<< 4 ||| (← hexNibble lo)

/-- Splits `$KIND,payload*HH` into the kind and payload after verifying the checksum. -/
def parse (bytes : List UInt8) : Option (List Char × List Char) :=
  if bytes.length < 4 ∨ bytes[0]? ≠ some dollar ∨ bytes[bytes.length - 3]? ≠ some star then none
  else do
    let body := (bytes.drop 1).take (bytes.length - 4)
    let expected ← hexByte (bytes[bytes.length - 2]?.getD 0) (bytes[bytes.length - 1]?.getD 0)
    if checksum body ≠ expected then none
    else
      let text ← decode body
      return (splitOnce ',' text).getD (text, [])

/-- Assembles received bytes into frames. -/
structure Receiver where
  /-- The line so far: the first `len` bytes of the buffer. -/
  line : List UInt8
  overflow : Bool
  stats : Stats
  deriving DecidableEq, Repr

namespace Receiver

def new : Receiver := { line := [], overflow := false, stats := ⟨0, 0, 0, 0, 0⟩ }

def countByte (receiver : Receiver) : Receiver :=
  { receiver with stats.rxBytes := wrappingSucc receiver.stats.rxBytes }

def countDropped (receiver : Receiver) : Receiver :=
  { receiver with stats.dropped := wrappingSucc receiver.stats.dropped }

def clear (receiver : Receiver) : Receiver := { receiver with line := [], overflow := false }

def store (receiver : Receiver) (byte : UInt8) : Receiver :=
  if receiver.line.length < maxLine then { receiver with line := receiver.line ++ [byte] }
  else { receiver with overflow := true }

/-- Throws away the partial line, counting it if there was one. -/
def discard (receiver : Receiver) : Receiver :=
  (if 0 < receiver.line.length ∨ receiver.overflow then receiver.countDropped else receiver).clear

def dispatch (receiver : Receiver) : Receiver × Option Event :=
  if receiver.line[0]? ≠ some dollar then (receiver.countDropped, none)
  else
    match parse receiver.line with
    | some (kind, payload) => (receiver, some (.frame kind payload))
    | none =>
      ({ receiver with stats.badFrames := wrappingSucc receiver.stats.badFrames },
        some (.rejected "bad frame"))

def endLine (receiver : Receiver) : Receiver × Option Event :=
  let (receiver, event) :=
    if receiver.overflow then
      ({ receiver with stats.overflows := wrappingSucc receiver.stats.overflows },
        some (.rejected "line too long"))
    else if 0 < receiver.line.length then receiver.dispatch
    else (receiver, none)
  (receiver.clear, event)

/-- Feeds one received byte, an error if the UART flagged it as damaged. -/
def push (receiver : Receiver) (received : Except UInt8 UInt8) : Receiver × Option Event :=
  let receiver := receiver.countByte
  match received with
  | .error _ =>
    ({ receiver with stats.rxErrors := wrappingSucc receiver.stats.rxErrors }.discard, none)
  | .ok byte =>
    if byte = carriageReturn then (receiver, none)
    else if byte = newline then receiver.endLine
    else if byte = dollar then (receiver.discard.store byte, none)
    else (receiver.store byte, none)

/-- Feeds undamaged bytes, and lists what they complete. -/
def feed (receiver : Receiver) : List UInt8 → Receiver × List Event
  | [] => (receiver, [])
  | byte :: rest =>
    let (receiver, event) := receiver.push (.ok byte)
    let (receiver, events) := receiver.feed rest
    (receiver, event.toList ++ events)

end Receiver

----------
-- Sending
----------

/-- Streams a payload while accumulating the frame checksum. -/
structure FrameWriter where
  /-- What was written, the frame's start included. -/
  out : List UInt8
  sum : UInt8
  hasPayload : Bool

namespace FrameWriter

/-- Writes a text that may end with a character that can't appear in a frame. -/
def writePiece (writer : FrameWriter) (piece : List Char) : FrameWriter :=
  match stripSuffix frameBreaking piece with
  | some text =>
    { writer with
      out := writer.out ++ encode text ++ [questionMark]
      sum := writer.sum ^^^ checksum (encode text) ^^^ questionMark }
  | none =>
    { writer with
      out := writer.out ++ encode piece, sum := writer.sum ^^^ checksum (encode piece) }

/-- The separator is only written once the payload turns out to be non-empty. -/
def writeSeparator (writer : FrameWriter) : FrameWriter :=
  if writer.hasPayload then writer
  else
    { out := writer.out ++ [comma], sum := writer.sum ^^^ comma, hasPayload := true }

def writeStr (writer : FrameWriter) (text : List Char) : FrameWriter :=
  if text = [] then writer
  else (splitInclusive frameBreaking text).foldl writePiece writer.writeSeparator

end FrameWriter

def hexDigits : List UInt8 :=
  [0x30, 0x31, 0x32, 0x33, 0x34, 0x35, 0x36, 0x37, 0x38, 0x39, 0x41, 0x42, 0x43, 0x44, 0x45, 0x46]

def hexDigit (nibble : UInt8) : UInt8 := hexDigits[nibble.toNat]?.getD 0

/-- The bytes of a frame, whose payload is formatted in pieces. -/
def writeFrame (kind : List Char) (payload : List (List Char)) : List UInt8 :=
  let writer : FrameWriter :=
    { out := dollar :: encode kind, sum := checksum (encode kind), hasPayload := false }
  let writer := payload.foldl FrameWriter.writeStr writer
  writer.out ++ [star, hexDigit (writer.sum >>> 4), hexDigit (writer.sum &&& 0xF), newline]

/-- Turns untrusted bytes into console text that can't be mistaken for frames, piece by piece. -/
def plainText (bytes : List UInt8) : List (List Char) :=
  (chunks bytes).flatMap (fun chunk =>
    (splitInclusive (· = '$') chunk.valid).flatMap (fun piece =>
      match stripSuffix (· = '$') piece with
      | some text => [text, ['?']]
      | none => [piece])
    ++ if chunk.invalid ≠ [] then [['?']] else [])

----------
-- What is written
----------

/-- A text with `?` for each character that `breaks`. -/
def sanitize (breaks : Char → Bool) (text : List Char) : List Char :=
  text.map (fun char => if breaks char then '?' else char)

/-- A piece without the character it may end with. -/
def cleanPiece (breaks : Char → Bool) (piece : List Char) : List Char :=
  match stripSuffix breaks piece with
  | some text => text ++ ['?']
  | none => piece

theorem ne_nil_of_mem_splitInclusive {breaks : Char → Bool} {text piece : List Char}
    (listed : piece ∈ splitInclusive breaks text)
    : piece ≠ [] := by
  induction text generalizing piece with
  | nil => cases listed
  | cons char rest ih =>
    unfold splitInclusive at listed
    split at listed
    · rcases List.mem_cons.mp listed with rfl | later
      · simp
      · exact ih later
    · split at listed
      · simp_all
      · rename_i first more cut
        rcases List.mem_cons.mp listed with rfl | later
        · simp
        · exact ih (cut ▸ List.mem_cons_of_mem _ later)

theorem cleanPiece_cons {breaks : Char → Bool} (char : Char) {piece : List Char} (some : piece ≠ [])
    : cleanPiece breaks (char :: piece) = char :: cleanPiece breaks piece := by
  obtain ⟨front, last, rfl⟩ := List.eq_nil_or_concat piece |>.resolve_left some
  simp only [cleanPiece, stripSuffix, List.concat_eq_append, ← List.cons_append,
    List.getLast?_concat, List.dropLast_concat]
  by_cases breaking : breaks last <;> simp [breaking]

/-- Cleaning the pieces cleans the whole text, by induction on it. -/
theorem flatMap_cleanPiece (breaks : Char → Bool) (text : List Char)
    : (splitInclusive breaks text).flatMap (cleanPiece breaks) = sanitize breaks text := by
  induction text with
  | nil => rfl
  | cons char rest ih =>
    unfold splitInclusive
    by_cases breaking : breaks char
    · simp [breaking, ih, sanitize, cleanPiece, stripSuffix]
    · rw [if_neg breaking]
      have first : sanitize breaks (char :: rest) = char :: sanitize breaks rest := by
        simp [sanitize, breaking]
      rw [first, ← ih]
      split
      · rename_i empty
        simp [empty, cleanPiece, stripSuffix, breaking]
      · rename_i piece more cut
        have some : piece ≠ [] :=
          ne_nil_of_mem_splitInclusive (cut ▸ List.mem_cons_self : piece ∈ splitInclusive breaks rest)
        rw [cut, List.flatMap_cons, List.flatMap_cons, cleanPiece_cons char some]
        rfl

theorem foldl_xor (bytes : List UInt8) (start : UInt8)
    : bytes.foldl (· ^^^ ·) start = start ^^^ checksum bytes := by
  unfold checksum
  induction bytes generalizing start with
  | nil => simp
  | cons byte rest ih =>
    rw [List.foldl_cons, List.foldl_cons, ih, ih (0 ^^^ byte), UInt8.zero_xor, UInt8.xor_assoc]

@[simp] theorem checksum_append (first second : List UInt8)
    : checksum (first ++ second) = checksum first ^^^ checksum second := by
  rw [checksum, List.foldl_append, foldl_xor]
  rfl

namespace FrameWriter

/-- `text` was written after the frame's start, and summed up. -/
structure Wrote (writer : FrameWriter) (text : List Char) : Prop where
  out : writer.out = dollar :: encode text
  sum : writer.sum = checksum (encode text)

variable {writer : FrameWriter} {text : List Char}

theorem Wrote.append (wrote : writer.Wrote text) (more : List Char) (hasPayload : Bool)
    : Wrote
        { out := writer.out ++ encode more, sum := writer.sum ^^^ checksum (encode more), hasPayload }
        (text ++ more) :=
  ⟨by simp [wrote.out], by simp [wrote.sum]⟩

theorem wrote_writePiece (wrote : writer.Wrote text) (piece : List Char)
    : (writer.writePiece piece).Wrote (text ++ cleanPiece frameBreaking piece)
      ∧ (writer.writePiece piece).hasPayload = writer.hasPayload := by
  unfold writePiece cleanPiece
  split
  · rename_i front _
    have both := wrote.append (front ++ ['?']) writer.hasPayload
    have mark : encode ['?'] = [questionMark] := by decide
    have single : checksum [questionMark] = questionMark := by decide
    rw [encode_append, mark, checksum_append, single, ← List.append_assoc, ← UInt8.xor_assoc] at both
    exact ⟨both, rfl⟩
  · exact ⟨wrote.append piece writer.hasPayload, rfl⟩

theorem wrote_pieces (wrote : writer.Wrote text) (pieces : List (List Char))
    : (pieces.foldl writePiece writer).Wrote (text ++ pieces.flatMap (cleanPiece frameBreaking))
      ∧ (pieces.foldl writePiece writer).hasPayload = writer.hasPayload := by
  induction pieces generalizing writer text with
  | nil => exact ⟨by simpa using wrote, rfl⟩
  | cons piece rest ih =>
    obtain ⟨first, same⟩ := wrote_writePiece wrote piece
    obtain ⟨others, again⟩ := ih first
    exact ⟨by simpa using others, again.trans same⟩

/-- What a payload adds to a frame. -/
def payloadText (payload : List Char) : List Char :=
  if payload = [] then [] else ',' :: sanitize frameBreaking payload

/-- A frame with this kind and payload has been written so far. -/
def Holds (writer : FrameWriter) (kind payload : List Char) : Prop :=
  writer.Wrote (kind ++ payloadText payload) ∧ writer.hasPayload = decide (payload ≠ [])

theorem holds_writeStr {kind payload : List Char} (holds : writer.Holds kind payload)
    (text : List Char)
    : (writer.writeStr text).Holds kind (payload ++ text) := by
  obtain ⟨wrote, has⟩ := holds
  unfold writeStr
  split
  · rename_i empty
    rw [empty, List.append_nil]
    exact ⟨wrote, has⟩
  · rename_i some
    have separated
        : writer.writeSeparator.Wrote (kind ++ ',' :: sanitize frameBreaking payload)
          ∧ writer.writeSeparator.hasPayload = true := by
      unfold writeSeparator
      by_cases empty : payload = []
      · subst empty
        rw [if_neg (by simp [has])]
        have mark : encode [','] = [comma] := by decide
        have single : checksum [comma] = comma := by decide
        have added := wrote.append [','] true
        rw [mark, single] at added
        exact ⟨by simpa [payloadText, sanitize] using added, rfl⟩
      · rw [if_pos (by simp [has, empty])]
        exact ⟨by simpa [payloadText, empty] using wrote, by simp [has, empty]⟩
    obtain ⟨wrote, has⟩ := wrote_pieces separated.1 (splitInclusive frameBreaking text)
    rw [flatMap_cleanPiece] at wrote
    refine ⟨?_, has.trans (by simp [separated.2, some])⟩
    simpa [payloadText, some, sanitize] using wrote

theorem holds_payload {kind payload : List Char} (holds : writer.Holds kind payload)
    (pieces : List (List Char))
    : (pieces.foldl writeStr writer).Holds kind (payload ++ pieces.flatten) := by
  induction pieces generalizing writer payload with
  | nil => simpa using holds
  | cons piece rest ih => simpa using ih (holds_writeStr holds piece)

end FrameWriter

/-- The text between `$` and `*`. -/
def frameText (kind : List Char) (payload : List (List Char)) : List Char :=
  kind ++ FrameWriter.payloadText payload.flatten

/-- The bytes of a frame are those of its text, with the sum over them. -/
theorem writeFrame_eq (kind : List Char) (payload : List (List Char))
    : writeFrame kind payload
      = dollar :: encode (frameText kind payload)
        ++ [star, hexDigit (checksum (encode (frameText kind payload)) >>> 4),
          hexDigit (checksum (encode (frameText kind payload)) &&& 0xF), newline] := by
  have start : FrameWriter.Holds
      { out := dollar :: encode kind, sum := checksum (encode kind), hasPayload := false } kind [] :=
    ⟨⟨by simp [FrameWriter.payloadText], by simp [FrameWriter.payloadText]⟩, by simp⟩
  obtain ⟨⟨out, sum⟩, -⟩ := FrameWriter.holds_payload start payload
  unfold writeFrame
  dsimp only
  rw [out, sum, List.nil_append]
  rfl

theorem hexByte_hexDigit (sum : UInt8)
    : hexByte (hexDigit (sum >>> 4)) (hexDigit (sum &&& 0xF)) = some sum := by
  have all : ∀ value < 256, hexByte (hexDigit (UInt8.ofNat value >>> 4))
      (hexDigit (UInt8.ofNat value &&& 0xF)) = some (UInt8.ofNat value) := by
    decide +kernel
  simpa using all sum.toNat sum.toNat_lt

end RustyPi.Link
