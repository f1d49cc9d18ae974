import Mathlib.Data.FinEnum
import RustyPi.Net.Dhcp

/-! Asking a server for a name's addresses: `rustypi-core/src/net/dns.rs`. A name is its UTF-8 bytes. -/

namespace RustyPi.Net.Dns

open RustyPi.Net.Dhcp (range?)

def port : UInt16 := 53

def header : Nat := 12

def recursionDesired : UInt16 := 0x0100
def response : UInt16 := 0x8000
def typeA : UInt16 := 1
def classIn : UInt16 := 1

def maxName : Nat := 253
def maxLabel : Nat := 63

def dot : UInt8 := 46

/-- `trim_end_matches('.')`. -/
def trimEnd (name : List UInt8) : List UInt8 := (name.reverse.dropWhile (· = dot)).reverse

/-- A label that DNS can carry. -/
def accepts (label : List UInt8) : Bool :=
  label ≠ [] ∧ label.length ≤ maxLabel ∧ ∀ byte ∈ label, byte < 0x80

/-- A name as labels with their lengths before them, and an empty one at the end. -/
def encode (labels : List (List UInt8)) : List UInt8 :=
  labels.flatMap (fun label => UInt8.ofNat label.length :: label) ++ [0]

/-- A query for a name's A records. -/
def query (name : List UInt8) (id : UInt16) : Option (List UInt8) :=
  let name := trimEnd name
  if name = [] ∨ maxName < name.length then none
  else
    let labels := name.splitOn dot
    if labels.all accepts then
      some (be16 id ++ be16 recursionDesired ++ [0, 1, 0, 0, 0, 0, 0, 0] ++ encode labels ++ be16 typeA
        ++ be16 classIn)
    else none

/-- What a server said about a query. -/
inductive Answer
  | addresses (addresses : List Ipv4)
  | noSuchName
  | failed (code : UInt8)
  deriving DecidableEq, Repr

/-- Where the name at an index ends, within so many labels: pointers are skipped, not followed. -/
def skipName (bytes : List UInt8) : Nat → Nat → Option Nat
  | 0, _ => none
  | left + 1, at_ => do
      let length ← bytes[at_]?
      if length = 0 then some (at_ + 1)
      else if length &&& 0xC0 = 0xC0 then if at_ + 2 ≤ bytes.length then some (at_ + 2) else none
      else if length &&& 0xC0 ≠ 0 then none
      else skipName bytes left (at_ + (1 + length.toNat))

def skipQuestions (bytes : List UInt8) : Nat → Nat → Option Nat
  | 0, at_ => some at_
  | left + 1, at_ => do
      let at_ ← skipName bytes maxName at_
      skipQuestions bytes left (at_ + 4)

/-- The addresses in the records from an index on, after those before. -/
def readAnswers (bytes : List UInt8) : Nat → Nat → List Ipv4 → Option (List Ipv4)
  | 0, _, addresses => some addresses
  | left + 1, at_, addresses => do
      let at_ ← skipName bytes maxName at_
      let record ← range? bytes at_ (at_ + 10)
      let length := (u16At record 8).toNat
      let data ← range? bytes (at_ + 10) (at_ + 10 + length)
      let more := u16At record 0 = typeA ∧ u16At record 2 = classIn ∧ length = 4
      readAnswers bytes left (at_ + (10 + length))
        (if more then addresses ++ [ipv4At data 0] else addresses)

/-- The answer to a query of ours. -/
def parse (bytes : List UInt8) (id : UInt16) : Option Answer :=
  if bytes.length < header ∨ u16At bytes 0 ≠ id ∨ u16At bytes 2 &&& response = 0 then none
  else
    let code := (u16At bytes 2 &&& 0xF).toUInt8
    if code = 3 then some .noSuchName
    else if code ≠ 0 then some (.failed code)
    else do
      let at_ ← skipQuestions bytes (u16At bytes 4).toNat header
      let addresses ← readAnswers bytes (u16At bytes 6).toNat at_ []
      return .addresses addresses

end RustyPi.Net.Dns
