import EventCodec.Text.Based
import EventCodec.Text.Decimal
import EventCodec.Url.Domain

/-! # Addresses

    A host can be given by its number.  An address of 32 bits is written
    as up to four numbers, in a base of ten, eight or sixteen each, of
    which the last fills the bytes that are left.  An address of 128 bits
    is eight pieces of 16 bits between colons; two colons stand for one
    or more pieces that are zero, and the last two pieces may be written
    as an address of 32 bits. -/

namespace EventCodec.Url

open Domain (pieces)

/-! ### 32 bits -/

/-- A number of an address: in the base of sixteen after `0x`, of eight
    after a zero, of ten otherwise.  After `0x` there may be nothing. -/
def addressNumber? : List Char → Option Nat
  | [] => none
  | ['0'] => some 0
  | '0' :: 'x' :: digits => Text.basedValue? 16 digits
  | '0' :: 'X' :: digits => Text.basedValue? 16 digits
  | '0' :: digits => Text.basedValue? 8 digits
  | digits => Text.basedValue? 10 digits

/-- The parts of a name without a point at its end. -/
def addressParts (name : List Char) : List (List Char) :=
  let parts := pieces '.' name
  if parts.getLast? == some [] then parts.dropLast else parts

/-- Whether a name can only be meant as an address. -/
def endsInNumber (name : List Char) : Bool :=
  match (addressParts name).getLast? with
  | none => false
  | some part => (!part.isEmpty && part.all Text.isDigit) || (addressNumber? part).isSome

/-- The value of an address whose first numbers are bytes and whose last
    fills the rest of so many bytes. -/
def addressValue? : Nat → List Nat → Option Nat
  | _, [] => none
  | bytes, [n] => if n < Nat.pow 256 bytes then some n else none
  | 0, _ => none
  | bytes + 1, n :: rest =>
    if n < 256 then (addressValue? bytes rest).map (n * Nat.pow 256 bytes + ·) else none

/-- The address of 32 bits that a name is. -/
def ipv4? (name : List Char) : Option UInt32 := do
  let numbers ← (addressParts name).mapM addressNumber?
  let value ← addressValue? 4 numbers
  return UInt32.ofNat value

def ipv4Text (n : UInt32) : String :=
  ".".intercalate ([24, 16, 8, 0].map fun shift => toString (n.toNat >>> shift % 256))

/-! ### 128 bits -/

/-- A piece: up to four digits. -/
def addressPiece? (digits : List Char) : Option UInt16 :=
  if digits.isEmpty || 4 < digits.length then none
  else (Text.basedValue? 16 digits).map UInt16.ofNat

/-- A byte in a base of ten, without zeros in front. -/
def addressByte? (digits : List Char) : Option Nat :=
  match digits with
  | '0' :: _ :: _ => none
  | digits => Text.readDigits? 256 digits

/-- Two pieces written as an address of 32 bits. -/
def embedded? (text : List Char) : Option (List UInt16) := do
  match ← (pieces '.' text).mapM addressByte? with
  | [a, b, c, d] => some [UInt16.ofNat (a * 256 + b), UInt16.ofNat (c * 256 + d)]
  | _ => none

/-- A row of pieces; the last may be an address of 32 bits if it comes at
    the end of the whole address. -/
def addressPieces? (atEnd : Bool) : List (List Char) → Option (List UInt16)
  | [] => some []
  | [text] =>
    if atEnd && text.contains '.' then embedded? text else (addressPiece? text).map ([·])
  | text :: rest => do return (← addressPiece? text) :: (← addressPieces? atEnd rest)

/-- The pieces on one side of two colons, where there may be none. -/
def addressSide? (atEnd : Bool) (text : List Char) : Option (List UInt16) :=
  if text.isEmpty then some [] else addressPieces? atEnd (pieces ':' text)

/-- The text before and after the first two colons. -/
def splitColons? : List Char → Option (List Char × List Char)
  | [] => none
  | ':' :: ':' :: rest => some ([], rest)
  | c :: rest => (splitColons? rest).map fun (before, after) => (c :: before, after)

/-- The eight pieces of an address of 128 bits. -/
def ipv6? (text : List Char) : Option (List UInt16) :=
  match splitColons? text with
  | none => (addressPieces? true (pieces ':' text)).filter (·.length == 8)
  | some (before, after) => do
    let first ← addressSide? false before
    let last ← addressSide? true after
    if first.length + last.length ≤ 7 then
      some (first ++ List.replicate (8 - first.length - last.length) 0 ++ last)
    else none

/-- How many pieces in front are zero. -/
def zeros (address : List UInt16) : Nat :=
  (address.takeWhile (· == 0)).length

/-- Where the longest row of zeros begins, and how long it is; the first
    of several. -/
def longestZeros (start : Nat) : List UInt16 → Nat × Nat
  | [] => (start, 0)
  | piece :: rest =>
    let here := zeros (piece :: rest)
    let later := longestZeros (start + 1) rest
    if later.2 ≤ here then (start, here) else later

def pieceText (piece : UInt16) : String :=
  String.ofList (Nat.toDigits 16 piece.toNat)

/-- The shortest text of an address: two colons for the longest row of at
    least two zeros. -/
def ipv6Text (address : List UInt16) : String :=
  let join (part : List UInt16) := ":".intercalate (part.map pieceText)
  let (start, count) := longestZeros 0 address
  let body :=
    if count < 2 then join address
    else join (address.take start) ++ "::" ++ join (address.drop (start + count))
  "[" ++ body ++ "]"

end EventCodec.Url
