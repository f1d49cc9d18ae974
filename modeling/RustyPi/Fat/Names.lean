import Mathlib.Algebra.GroupWithZero.Nat
import Mathlib.Data.List.DropRight
import RustyPi.Lib.Bytes
import RustyPi.Lib.Unicode
import RustyPi.Lib.Utf16

/-! The names of `rustypi-core/src/fat`: which ones FAT can store, how paths are cut, how names
are matched, and the 8.3 name an entry gets. Text is a list of characters and the 11 bytes of
an 8.3 name are a list of bytes. Arithmetic wraps where it can overflow, as in a release build.
-/

namespace RustyPi.Fat

open RustyPi.Unicode

abbrev Str := List Char

/-- A device's own error, which FAT code only passes on. -/
abbrev DeviceError := Nat

inductive FatError
  | device (error : DeviceError)
  | notFat (reason : String)
  | unsupportedSectorSize (size : Nat)
  | fat12
  | badCluster (cluster : Nat)
  | chainLoop
  | truncated
  | notFound
  | notADirectory
  | notAFile
  | alreadyExists
  | notEmpty
  | invalidName
  | noSpace
  | directoryFull
  | tooBig
  deriving DecidableEq, Repr

/-- Longest name, in UTF-16 units. -/
def maxName : Nat := 255

/-- Characters FAT names may not contain, besides control characters. -/
def forbidden : List Char := ['"', '*', '/', ':', '<', '>', '?', '\\', '|']

/-- Characters an 8.3 name may contain, besides letters and digits. -/
def shortExtra : List Char :=
  ['!', '#', '$', '%', '&', '\'', '(', ')', '-', '@', '^', '_', '\x60', '\x7b', '\x7d', '~']

/-- Checks `name` is one FAT can store. -/
def checkName (name : Str) : Except FatError Unit :=
  let bad := name.isEmpty
    || decide (maxName < (Utf16.encode name).length)
    || name == ['.']
    || name == ['.', '.']
    || name.getLast? == some ' '
    || name.getLast? == some '.'
    || name.any (fun c => decide (c.toNat < 0x20) || forbidden.contains c)
  if bad then .error .invalidName else .ok ()

/-- The text before the first `separator` and the text after it. -/
def splitOnce (separator : Char) (text : Str) : Option (Str × Str) :=
  match text.dropWhile (· != separator) with
  | [] => none
  | _ :: after => some (text.takeWhile (· != separator), after)

/-- The text before the last `separator` and the text after it. -/
def rsplitOnce (separator : Char) (text : Str) : Option (Str × Str) :=
  (splitOnce separator text.reverse).map (fun (after, before) =>
    (before.reverse, after.reverse))

/-- Splits a path into its parent directory and final name. -/
def splitPath (path : Str) : Str × Str :=
  let path := path.rdropWhile (· == '/')
  (rsplitOnce '/' path).getD ([], path)

/-- The parts of a path between its slashes, without empty ones. -/
def components (path : Str) : List Str := (path.splitOn '/').filter (fun part => !part.isEmpty)

def namesMatch (first second : Str) : Bool := lowercase first == lowercase second

/-- The 11 bytes of an 8.3 name: 8 for the base and 3 for the extension, space-padded. -/
abbrev ShortName := List UInt8

def space : UInt8 := 0x20

def caseLowerBase : UInt8 := 0x08

def caseLowerExt : UInt8 := 0x10

def isAsciiLowercase (c : Char) : Bool := 'a' ≤ c && c ≤ 'z'

def isAsciiUppercase (c : Char) : Bool := 'A' ≤ c && c ≤ 'Z'

def isAsciiDigit (c : Char) : Bool := '0' ≤ c && c ≤ '9'

def isShortChar (c : Char) : Bool :=
  isAsciiLowercase c || isAsciiUppercase c || isAsciiDigit c || shortExtra.contains c

/-- Bytes of the UTF-8 form. -/
def utf8Length (text : Str) : Nat := (text.map Char.utf8Size).sum

def asByte (c : Char) : UInt8 := UInt8.ofNat c.toNat

/-- Whether a part is in lower case, if it is in a single case and 8.3 names allow it. -/
def partCase (part : Str) : Option Bool :=
  let lower := part.any isAsciiLowercase
  let upper := part.any isAsciiUppercase
  if part.all isShortChar && !(lower && upper) then some lower else none

/-- `part` in upper case, padded with spaces to `width` bytes. -/
def padded (width : Nat) (part : List UInt8) : List UInt8 :=
  part ++ List.replicate (width - part.length) space

def uppercased (part : Str) : List UInt8 := part.map (fun c => asByte (toAsciiUppercase c))

/-- `name` as an 8.3 name with its case flags, if it is one: up to 8 characters, maybe a dot
and up to 3 more, from the characters 8.3 names allow, each part in a single case.
-/
def exactShortName (name : Str) : Option (ShortName × UInt8) :=
  let (base, ext) := (splitOnce '.' name).getD (name, [])
  if base.isEmpty || decide (8 < utf8Length base) || decide (3 < utf8Length ext)
      || ext.contains '.' then none
  else
    (partCase base).bind (fun baseLower =>
      (partCase ext).map (fun extLower =>
        (padded 8 (uppercased base) ++ padded 3 (uppercased ext),
          (if baseLower then caseLowerBase else 0) ||| (if extLower then caseLowerExt else 0))))

def digits (n : Nat) : List UInt8 := (Nat.toDigits 10 n).map asByte

/-- What an alias keeps of a part: no spaces and dots, and `_` for what 8.3 names can't have. -/
def clean (part : Str) (max : Nat) : List UInt8 :=
  ((part.filter (fun c => c != ' ' && c != '.')).map (fun c =>
    if isShortChar c then asByte (toAsciiUppercase c) else 0x5F)).take max

/-- `~` and a number. -/
def aliasTail (n : Nat) : List UInt8 := asByte '~' :: digits n

/-- How much of the basis an alias keeps: `basis.len().min(8 - tail.len())`, where the
subtraction wraps in a release build, so that a number of eight digits or more cuts nothing off.
-/
def aliasKeep (basis : List UInt8) (n : Nat) : Nat :=
  let tail := aliasTail n
  if tail.length ≤ 8 then min basis.length (8 - tail.length) else basis.length

/-- The alias with number `n`, or none when it doesn't fit in the 11 bytes. -/
def aliasCandidate (basis ext : List UInt8) (n : Nat) : Option ShortName :=
  let keep := aliasKeep basis n
  let tail := aliasTail n
  let blank := List.replicate 8 space ++ padded 3 ext
  if keep + tail.length ≤ 11 then some (Bytes.splice blank 0 (basis.take keep ++ tail)) else none

/-- The first free alias from number `n` on, trying at most `fuel` of them. -/
def aliasFrom (basis ext : List UInt8) (taken : List ShortName) : (fuel n : Nat) → Option ShortName
  | 0, _ => none
  | fuel + 1, n =>
    (aliasCandidate basis ext n).bind (fun short =>
      if taken.contains short then aliasFrom basis ext taken fuel (n + 1) else some short)

/-- The basis and extension of the aliases of `name`. -/
def aliasParts (name : Str) : List UInt8 × List UInt8 :=
  let trimmed := name.dropWhile (· == '.')
  let (base, ext) := (rsplitOnce '.' trimmed).getD (trimmed, [])
  let basis := clean base 6
  (if basis.isEmpty then [0x5F] else basis, clean ext 3)

/-- A unique 8.3 alias for a long name, like `LONGFI~1TXT`. No number of ten digits fits, so
`1u32..` never gets further than that, and none stands for the index it then panics on.
-/
def aliasFor (name : Str) (taken : List ShortName) : Option ShortName :=
  let (basis, ext) := aliasParts name
  aliasFrom basis ext taken 1000000000 1

/-- Checksum of an 8.3 name, stored in its long name entries to tie them together. -/
def shortNameChecksum (name : List UInt8) : UInt8 :=
  name.foldl (fun sum b => (sum >>> 1 ||| sum <<< 7) + b) 0

/-- The text of an 8.3 entry's base or extension. -/
def shortPart (bytes : List UInt8) (lower : Bool) : Str :=
  let text := (bytes.map (fun b => Char.ofNat b.toNat)).rdropWhile isWhitespace
  if lower then lowercase text else text

/-- The name an 8.3 entry shows. -/
def shortName (entry : List UInt8) : Str :=
  let case := entry[12]?.getD 0
  let text := shortPart (entry.take 8) (case &&& caseLowerBase != 0)
  -- a name really starting with 0xE5 is stored as 0x05
  let base := if entry.head? == some 0x05 then Char.ofNat 0xE5 :: text.tail else text
  let ext := shortPart ((entry.drop 8).take 3) (case &&& caseLowerExt != 0)
  if ext.isEmpty then base else base ++ '.' :: ext

end RustyPi.Fat
