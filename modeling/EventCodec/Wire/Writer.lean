import EventCodec.Wire.Layout

/-! # Writing messages

    A record is written field by field.  Fields equal to their default
    and absent ones leave no trace; packed numbers share one
    length-delimited run; an entry of a map is a small message of its
    own. -/

namespace EventCodec.Wire

open Schema (Scalar)

/-- One occurrence of a field, its number left out: the wire type and the
    bytes after the key. -/
structure Piece where
  wireType : WireType
  content : Bytes
deriving DecidableEq, Repr

namespace Piece

def ofScalar (k : Scalar) (v : ScalarValue k) : Piece :=
  { wireType := wireTypeOf k, content := encodeScalar k v }

/-- The bytes of the occurrence under a field number. -/
def encode (number : UInt32) (p : Piece) : Bytes :=
  Key.encode { number, wireType := p.wireType } ++ p.content

end Piece

/-- The numbers under which an entry holds its key and its value. -/
def entryKeyNumber : UInt32 := 1
def entryValueNumber : UInt32 := 2

/-- An entry of a map; the key and the value are left out when they are
    the default. -/
def encodeEntry (k : Scalar) (entry : String × ScalarValue k) : Bytes :=
  (if entry.1 = "" then [] else (Piece.ofScalar .string entry.1).encode entryKeyNumber) ++
    (if ScalarValue.isDefault k entry.2 then []
      else (Piece.ofScalar k entry.2).encode entryValueNumber)

/-- The occurrences a value is written as. -/
def pieces : (s : Shape) → s.Value → List Piece
  | .single k, v =>
    if ScalarValue.isDefault k v then [] else [.ofScalar k v]
  | .optional _, none => []
  | .optional k, some v => [.ofScalar k v]
  | .repeated k packed, vs =>
    if packed && k.isNumeric then
      if vs.isEmpty then []
      else [{ wireType := .lengthDelimited, content := delimited (vs.flatMap (encodeScalar k)) }]
    else vs.map (.ofScalar k)
  | .map k, entries =>
    List.map (fun e =>
      { wireType := .lengthDelimited, content := delimited (encodeEntry k e) }) entries

namespace Slot

def encode (s : Slot) : Bytes :=
  (pieces s.field.shape s.value).flatMap (Piece.encode s.field.number)

end Slot

namespace Record

def encode (r : Record) : Bytes :=
  r.flatMap Slot.encode

end Record

end EventCodec.Wire
