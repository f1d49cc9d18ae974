import Mathlib.Data.Nat.Digits.Defs
import RustyPi.Link.Output
import RustyPi.Link.Session

/-! Replies as frames on the line: the texts of a reply are cut so that its frames fit, as long as the
lines' numbers have two digits.
-/

namespace RustyPi.Link

open RustyPi.Utf8

/-- Longest line text that still fits in a frame. -/
def maxText : Nat := maxLine - "$HELP,65535,99,*HH".length

/-- `str::is_char_boundary`. -/
def isCharBoundary : List Char → Nat → Bool
  | _, 0 => true
  | [], _ + 1 => false
  | char :: rest, index => char.utf8Size ≤ index && isCharBoundary rest (index - char.utf8Size)

def boundaryUpTo (text : List Char) : Nat → Nat
  | 0 => 0
  | index + 1 => if isCharBoundary text (index + 1) then index + 1 else boundaryUpTo text index

/-- `String::truncate`, at a boundary. -/
def truncate : List Char → Nat → List Char
  | [], _ => []
  | char :: rest, size =>
    if char.utf8Size ≤ size then char :: truncate rest (size - char.utf8Size) else []

/-- A line's text as a reply keeps it. -/
def cut (text : List Char) : List Char :=
  if maxText < (encode text).length then truncate text (boundaryUpTo text maxText) else text

/-- `Reply::line`. -/
def addLine (reply : List Line) (line : Line) : List Line :=
  reply ++ [{ line with text := cut line.text }]

/-- The reply with these lines. -/
def replyOf (lines : List Line) : List Line := lines.foldl addLine []

theorem replyOf_eq (lines : List Line)
    : replyOf lines = lines.map (fun line => { line with text := cut line.text }) := by
  suffices ∀ reply, lines.foldl addLine reply
      = reply ++ lines.map (fun line => { line with text := cut line.text }) from this []
  induction lines with
  | nil => simp
  | cons line rest ih => simp [ih, addLine]

def LineKind.frameKind : LineKind → List Char
  | .rsp => "RSP".toList
  | .help => "HELP".toList

def decimal (number : Nat) : List Char := Nat.toDigits 10 number

namespace Outgoing

def kind : Outgoing → List Char
  | .line kind _ _ _ => kind.frameKind
  | .ended _ _ => "END".toList
  | .busy _ => "BUSY".toList
  | .hello => "HELLO".toList
  | .pong _ => "PONG".toList
  | .err _ => "ERR".toList

/-- The payload, in the pieces that it is formatted in. -/
def payload : Outgoing → List (List Char)
  | .line _ seq index text => [decimal seq, [','], decimal index, [','], text]
  | .ended seq count => [decimal seq, [','], decimal count]
  | .busy seq => [decimal seq]
  | .hello => ["RustyPI".toList]
  | .pong payload => [payload]
  | .err reason => [reason]

/-- What goes out for the frame. -/
def bytes (frame : Outgoing) : List UInt8 := writeFrame frame.kind frame.payload

end Outgoing

/-- What the other side is to report of a reply: every line with its kind, the sequence number, its
index and its text without the characters that frames can't have; then the number of lines.
-/
def replyEvents (seq : Nat) (reply : List Line) : List Event :=
  reply.mapIdx (fun index line =>
    .frame line.kind.frameKind
      (decimal seq ++ ',' :: (decimal index ++ ',' :: sanitize frameBreaking line.text)))
  ++ [.frame "END".toList (decimal seq ++ ',' :: decimal reply.length)]

/-- The frames of a reply fit the link, and a receiver that gets them reports the whole reply. -/
def Delivered (receiver : Receiver) (seq : Nat) (lines : List Line) : Prop :=
  (∀ frame ∈ replyFrames seq (replyOf lines), frame.bytes.length ≤ maxLine + 1)
  ∧ (receiver.feed ((replyFrames seq (replyOf lines)).flatMap Outgoing.bytes)).2
    = replyEvents seq (replyOf lines)

/-- How long a line's frame is with a text, without the end of its line. -/
def lineLength (seq index : Nat) (kind : LineKind) (text : List Char) : Nat :=
  kind.frameKind.length + (decimal seq).length + (decimal index).length + (encode text).length + 7

/-- Of the lines whose numbers have three digits or more, no front part of the text that is short
enough to be kept is too long for a frame.
-/
def LinesFit (seq : Nat) (lines : List Line) : Prop :=
  ∀ index line,
    100 ≤ index
    → lines[index]? = some line
    → ∀ front,
        front <+: line.text
        → (encode front).length ≤ maxText
        → lineLength seq index line.kind front ≤ maxLine

/-- Where a front part of a text ends, a character ends. By induction on the text. -/
theorem isCharBoundary_of_front {front text : List Char} (part : front <+: text)
    : isCharBoundary text (encode front).length = true := by
  induction text generalizing front with
  | nil =>
    rw [List.prefix_nil.mp part]
    rfl
  | cons char rest ih =>
    rcases List.prefix_cons_iff.mp part with rfl | ⟨front, rfl, inner⟩
    · rfl
    · have some := char.utf8Size_pos
      rw [encode_cons, List.length_append, String.length_utf8EncodeChar, isCharBoundary,
        Nat.add_sub_cancel_left, ih inner]
      · simp
      · omega

/-- The boundary found is the last one up to where it is looked for. -/
theorem boundaryUpTo_spec {text : List Char} (limit : Nat)
    : boundaryUpTo text limit ≤ limit
      ∧ ∀ index ≤ limit, isCharBoundary text index = true → index ≤ boundaryUpTo text limit := by
  induction limit with
  | zero => exact ⟨Nat.le_refl 0, fun _ below _ => below⟩
  | succ limit ih =>
    rw [boundaryUpTo]
    split
    · exact ⟨Nat.le_refl _, fun _ below _ => below⟩
    · rename_i inside
      refine ⟨Nat.le_succ_of_le ih.1, fun index below boundary => ?_⟩
      rcases Nat.le_succ_iff.mp below with earlier | rfl
      · exact ih.2 index earlier boundary
      · exact absurd boundary inside

/-- Truncating keeps the longest front part that isn't longer than the size. -/
theorem truncate_spec (text : List Char) (size : Nat)
    : truncate text size <+: text
      ∧ (encode (truncate text size)).length ≤ size
      ∧ ∀ front, front <+: text → (encode front).length ≤ size
          → (encode front).length ≤ (encode (truncate text size)).length := by
  induction text generalizing size with
  | nil =>
    refine ⟨List.prefix_rfl, Nat.zero_le _, fun front part _ => ?_⟩
    rw [List.prefix_nil.mp part]
    exact Nat.le_refl _
  | cons char rest ih =>
    rw [truncate]
    split
    · rename_i fits
      obtain ⟨part, short, most⟩ := ih (size - char.utf8Size)
      refine ⟨(List.prefix_cons_inj char).mpr part, ?_, fun front part small => ?_⟩
      · rw [encode_cons, List.length_append, String.length_utf8EncodeChar]
        omega
      · rcases List.prefix_cons_iff.mp part with rfl | ⟨front, rfl, inner⟩
        · exact Nat.zero_le _
        · rw [encode_cons, List.length_append, String.length_utf8EncodeChar] at *
          have longest := most front inner (by omega)
          rw [encode_cons, List.length_append, String.length_utf8EncodeChar]
          omega
    · rename_i large
      refine ⟨List.nil_prefix, Nat.zero_le _, fun front part small => ?_⟩
      rcases List.prefix_cons_iff.mp part with rfl | ⟨front, rfl, inner⟩
      · exact Nat.le_refl _
      · rw [encode_cons, List.length_append, String.length_utf8EncodeChar] at small
        omega

/-- What a reply keeps of a text is its longest front part of at most `MAX_TEXT` bytes. -/
theorem cut_spec (text : List Char)
    : cut text <+: text
      ∧ (encode (cut text)).length ≤ maxText
      ∧ ∀ front, front <+: text → (encode front).length ≤ maxText
          → (encode front).length ≤ (encode (cut text)).length := by
  rw [cut]
  split
  · obtain ⟨below, last⟩ := @boundaryUpTo_spec text maxText
    obtain ⟨part, short, most⟩ := truncate_spec text (boundaryUpTo text maxText)
    refine ⟨part, Nat.le_trans short below, fun front part small => ?_⟩
    exact most front part (last _ small (isCharBoundary_of_front part))
  · refine ⟨List.prefix_rfl, by omega, ?_⟩
    rintro front ⟨rest, rfl⟩ _
    rw [encode_append, List.length_append]
    exact Nat.le_add_right _ _

theorem length_decimal_le {number digits : Nat} (positive : 0 < digits) (small : number < 10 ^ digits)
    : (decimal number).length ≤ digits :=
  (Nat.length_toDigits_le_iff (by decide) positive).mpr small

/-- The lines fit exactly if each does as it is cut: up to number 99 they always do. -/
theorem linesFit_iff {seq : UInt16} {lines : List Line}
    : LinesFit seq.toNat lines
      ↔ ∀ index line, lines[index]? = some line
          → lineLength seq.toNat index line.kind (cut line.text) ≤ maxLine := by
  constructor
  · intro fit index line found
    obtain ⟨part, short, _⟩ := cut_spec line.text
    by_cases large : 100 ≤ index
    · exact fit index line large found _ part short
    · have seqDigits := length_decimal_le (by decide) (Nat.lt_trans seq.toNat_lt (by decide : _ < 10 ^ 5))
      have digits := length_decimal_le (by decide) (show index < 10 ^ 2 by omega)
      have kind : line.kind.frameKind.length ≤ 4 := by cases line.kind <;> decide
      simp only [lineLength, maxText, maxLine] at *
      have : "$HELP,65535,99,*HH".length = 18 := rfl
      omega
  · intro fit index line _ found front part short
    have longest := (cut_spec line.text).2.2 front part short
    have fits := fit index line found
    simp only [lineLength] at *
    omega

theorem sanitize_append (breaks : Char → Bool) (first second : List Char)
    : sanitize breaks (first ++ second) = sanitize breaks first ++ sanitize breaks second :=
  List.map_append

/-- Characters that can't appear in frames take one byte, like the one sent instead. -/
theorem length_sanitize (text : List Char)
    : (encode (sanitize frameBreaking text)).length = (encode text).length := by
  have size (char : Char) : (if frameBreaking char then '?' else char).utf8Size = char.utf8Size := by
    split
    · rename_i breaking
      rcases of_decide_eq_true breaking with rfl | rfl | rfl <;> rfl
    · rfl
  induction text with
  | nil => rfl
  | cons char rest ih =>
    rw [sanitize, List.map_cons, encode_cons, encode_cons, List.length_append, List.length_append,
      String.length_utf8EncodeChar, String.length_utf8EncodeChar, size]
    exact congrArg _ ih

theorem isDigit_of_mem_decimal {number : Nat} {char : Char} (member : char ∈ decimal number)
    : char.isDigit :=
  Nat.isDigit_of_mem_toDigits (by decide) (by decide) member

theorem sanitize_decimal (number : Nat)
    : sanitize frameBreaking (decimal number) = decimal number := by
  refine (List.map_congr_left (fun char member => if_neg ?_)).trans (List.map_id _)
  have digit := isDigit_of_mem_decimal member
  intro breaking
  rcases of_decide_eq_true breaking with rfl | rfl | rfl <;> cases digit

theorem length_encode_of_ascii {text : List Char} (ascii : ∀ char ∈ text, char.utf8Size = 1)
    : (encode text).length = text.length := by
  induction text with
  | nil => rfl
  | cons char rest ih =>
    obtain ⟨first, others⟩ := List.forall_mem_cons.mp ascii
    rw [encode_cons, List.length_append, String.length_utf8EncodeChar, first, ih others,
      List.length_cons, Nat.add_comm]

theorem length_decimal (number : Nat)
    : (encode (decimal number)).length = (decimal number).length := by
  refine length_encode_of_ascii (fun char member => Char.utf8Size_eq_one_iff.mpr ?_)
  have digit := isDigit_of_mem_decimal member
  simp only [Char.isDigit, Bool.and_eq_true, decide_eq_true_eq] at digit
  exact UInt32.le_trans digit.2 (by decide)

theorem length_decimal_succ (number : Nat)
    : (decimal (number + 1)).length ≤ (decimal number).length + 1 := by
  have small : number < 10 ^ (decimal number).length :=
    (Nat.length_toDigits_le_iff (by decide) Nat.length_toDigits_pos).mp (Nat.le_refl _)
  refine (Nat.length_toDigits_le_iff (by decide) (Nat.succ_pos _)).mpr ?_
  rw [Nat.pow_succ]
  omega

theorem length_writeFrame (kind : List Char) (payload : List (List Char))
    (some : payload.flatten ≠ [])
    : (writeFrame kind payload).length
      = (encode kind).length + (encode payload.flatten).length + 6 := by
  have separator : (encode [',']).length = 1 := by decide
  have text : encode (frameText kind payload)
      = encode kind ++ (encode [','] ++ encode (sanitize frameBreaking payload.flatten)) := by
    rw [frameText, FrameWriter.payloadText, if_neg some, ← encode_append, ← encode_append]
    rfl
  rw [writeFrame_eq, text]
  simp only [List.length_append, List.length_cons, List.length_nil, length_sanitize, separator]
  omega

theorem length_line (seq index : Nat) (line : Line)
    : (Outgoing.line line.kind seq index (cut line.text)).bytes.length
      = lineLength seq index line.kind (cut line.text) + 1 := by
  have kind : (encode line.kind.frameKind).length = line.kind.frameKind.length := by
    cases line.kind <;> decide
  have separator : (encode [',']).length = 1 := by decide
  rw [Outgoing.bytes, Outgoing.kind, Outgoing.payload, length_writeFrame _ _ (by simp), kind,
    lineLength]
  simp only [List.flatten_cons, List.flatten_nil, encode_append, List.length_append, length_decimal,
    separator, encode_nil, List.length_nil]
  omega

theorem length_ended (seq count : Nat)
    : (Outgoing.ended seq count).bytes.length
      = (decimal seq).length + (decimal count).length + 10 := by
  have kind : (encode "END".toList).length = 3 := by decide
  have separator : (encode [',']).length = 1 := by decide
  rw [Outgoing.bytes, Outgoing.kind, Outgoing.payload, length_writeFrame _ _ (by simp), kind]
  simp only [List.flatten_cons, List.flatten_nil, encode_append, List.length_append, length_decimal,
    separator, encode_nil, List.length_nil]
  omega

theorem kindOk (frame : Outgoing) : KindOk frame.kind := by
  intro char member
  have upper : char.isUpper := by
    refine List.all_eq_true.mp ?_ char member
    cases frame with
    | line kind => cases kind <;> rfl
    | _ => rfl
  refine ⟨?_, ?_, ?_, ?_⟩ <;> (rintro rfl; cases upper)

theorem feed_frames (receiver : Receiver) {frames : List Outgoing}
    (fit : ∀ frame ∈ frames, frame.bytes.length ≤ maxLine + 1)
    : (receiver.feed (frames.flatMap Outgoing.bytes)).2
      = frames.map (fun frame => .frame frame.kind (sanitize frameBreaking frame.payload.flatten)) := by
  induction frames generalizing receiver with
  | nil => rfl
  | cons frame rest ih =>
    obtain ⟨first, others⟩ := List.forall_mem_cons.mp fit
    have fits : (frameLine frame.kind frame.payload).length ≤ maxLine := by
      rw [Outgoing.bytes, writeFrame_eq_frameLine, List.length_append] at first
      exact Nat.le_of_succ_le_succ first
    rw [List.flatMap_cons, Receiver.feed_append, ih _ others, Outgoing.bytes,
      (Receiver.feed_frame receiver (kindOk frame) fits).2]
    rfl

theorem replyFrames_events (seq : Nat) (reply : List Line)
    : (replyFrames seq reply).map
        (fun frame => Event.frame frame.kind (sanitize frameBreaking frame.payload.flatten))
      = replyEvents seq reply := by
  have separator (text : List Char)
      : sanitize frameBreaking (',' :: text) = ',' :: sanitize frameBreaking text :=
    rfl
  rw [replyFrames, List.map_append, replyEvents]
  congr 1
  · refine List.ext_getElem? (fun index => ?_)
    rw [List.getElem?_map, List.getElem?_mapIdx, List.getElem?_mapIdx, Option.map_map]
    congr 1
    funext line
    simp [Outgoing.kind, Outgoing.payload, sanitize_append, sanitize_decimal, separator]
  · simp [Outgoing.kind, Outgoing.payload, sanitize_append, sanitize_decimal, separator]

/-- The frame that ends a reply fits: its last line's number makes room for how many there are. -/
theorem LinesFit.ended {seq : UInt16} {lines : List Line} (fit : LinesFit seq.toNat lines)
    : (Outgoing.ended seq.toNat lines.length).bytes.length ≤ maxLine + 1 := by
  rw [length_ended, maxLine]
  rcases List.eq_nil_or_concat lines with rfl | ⟨front, last, rfl⟩
  · have seqDigits := length_decimal_le (by decide) (Nat.lt_trans seq.toNat_lt (by decide : _ < 10 ^ 5))
    have countDigits : (decimal 0).length = 1 := by decide
    rw [List.length_nil]
    omega
  · have lastFits := linesFit_iff.mp fit front.length last (by simp)
    have kind : 3 ≤ last.kind.frameKind.length := by cases last.kind <;> decide
    have more := length_decimal_succ front.length
    rw [lineLength, maxLine] at lastFits
    rw [List.length_concat]
    omega

theorem mem_replyFrames {seq : Nat} {lines : List Line} {frame : Outgoing}
    : frame ∈ replyFrames seq (replyOf lines)
      ↔ (∃ index line, lines[index]? = some line
          ∧ frame = .line line.kind seq index (cut line.text))
        ∨ frame = .ended seq lines.length := by
  rw [replyFrames, replyOf_eq, List.mem_append, List.mem_singleton, List.length_map]
  refine or_congr_left ?_
  rw [List.mem_iff_getElem?]
  refine exists_congr (fun index => ?_)
  simp [List.getElem?_mapIdx, eq_comm]

/-- A reply is delivered exactly if its lines fit. -/
theorem delivered_iff (receiver : Receiver) (seq : UInt16) (lines : List Line)
    : Delivered receiver seq.toNat lines ↔ LinesFit seq.toNat lines := by
  rw [linesFit_iff]
  constructor
  · rintro ⟨fit, _⟩ index line found
    have fits := fit _ (mem_replyFrames.mpr (.inl ⟨index, line, found, rfl⟩))
    rw [length_line] at fits
    exact Nat.le_of_succ_le_succ fits
  · intro fit
    have frames : ∀ frame ∈ replyFrames seq.toNat (replyOf lines),
        frame.bytes.length ≤ maxLine + 1 := by
      intro frame member
      rcases mem_replyFrames.mp member with ⟨index, line, found, rfl⟩ | rfl
      · rw [length_line]
        exact Nat.succ_le_succ (fit index line found)
      · exact (linesFit_iff.mpr fit).ended
    exact ⟨frames, (feed_frames receiver frames).trans (replyFrames_events _ _)⟩

/-- A hundred help lines, and another one with the longest text: its number takes a third digit, and
its frame is too long.
-/
theorem not_delivered_of_longLine
    : ¬Delivered .new 65535
        (List.replicate 100 ⟨.help, []⟩ ++ [⟨.help, List.replicate 142 'x'⟩]) := by
  intro delivered
  have tooLong : ∃ frame ∈ replyFrames 65535
      (replyOf (List.replicate 100 ⟨.help, []⟩ ++ [⟨.help, List.replicate 142 'x'⟩])),
      ¬frame.bytes.length ≤ maxLine + 1 := by
    decide +kernel
  obtain ⟨frame, member, long⟩ := tooLong
  exact long (delivered.1 frame member)

end RustyPi.Link
