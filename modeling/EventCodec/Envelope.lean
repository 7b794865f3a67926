import EventCodec.Bytes
import EventCodec.Error

/-! # Envelopes

    One event on the wire: a magic byte, the schema's ID in four bytes,
    the high one first, and the payload.  A payload has at most 16 MiB. -/

namespace EventCodec

/-! ### Format -/

structure Envelope where
  /-- The schema the payload was written with. -/
  schemaId : UInt32
  payload : Bytes
deriving DecidableEq, Repr

/-- Why bytes are no envelope. -/
inductive EnvelopeError where
  | tooShort (length : Nat)
  | badMagic (found : UInt8)
  | payloadTooLarge (length : Nat)
deriving DecidableEq, Repr

namespace EnvelopeError

def message : EnvelopeError → String
  | .tooShort length => "信封长度不足: " ++ toString length ++ " 字节"
  | .badMagic found => "无效的魔数: 0x" ++ Bytes.toHex [found]
  | .payloadTooLarge length => "负载过大: " ++ toString length ++ " 字节"

def toCodec (e : EnvelopeError) : CodecError :=
  .decode e.message

end EnvelopeError

namespace Envelope

def magicByte : UInt8 := 0

def headerSize : Nat := 5

def maxPayloadSize : Nat := 16777216

/-- The four bytes of an ID, the high one first. -/
def idBytes (id : UInt32) : Bytes :=
  [(id >>> 24).toUInt8, (id >>> 16).toUInt8, (id >>> 8).toUInt8, id.toUInt8]

/-- The ID with these four bytes. -/
def idOfBytes (a b c d : UInt8) : UInt32 :=
  (a.toUInt32 <<< 24) ||| (b.toUInt32 <<< 16) ||| (c.toUInt32 <<< 8) ||| d.toUInt32

/-- The bytes in front of a payload. -/
def header (id : UInt32) : Bytes :=
  magicByte :: idBytes id

/-- The whole envelope as bytes. -/
def encode (e : Envelope) : Bytes :=
  header e.schemaId ++ e.payload

/-! ### Reading -/

/-- Splits bytes into the ID and what follows the header. -/
def split (data : Bytes) : Except EnvelopeError (UInt32 × Bytes) :=
  match data with
  | magic :: a :: b :: c :: d :: payload =>
    if magic = magicByte then .ok (idOfBytes a b c d, payload) else .error (.badMagic magic)
  | short => .error (.tooShort short.length)

/-- Reads the schema's ID and looks no further. -/
def peekSchemaId (data : Bytes) : Except EnvelopeError UInt32 :=
  (split data).map Prod.fst

/-- Reads an envelope. -/
def parse (data : Bytes) : Except EnvelopeError Envelope :=
  match split data with
  | .error e => .error e
  | .ok (schemaId, payload) =>
    let length := payload.length
    if maxPayloadSize < length then .error (.payloadTooLarge length)
    else .ok { schemaId, payload }

/-! ### Views -/

/-- The number of bytes, header included. -/
def size (e : Envelope) : Nat :=
  headerSize + e.payload.length

def isEmpty (e : Envelope) : Bool :=
  e.payload.isEmpty

/-- One line about the envelope. -/
def summary (e : Envelope) : String :=
  "Envelope[schema_id=" ++ toString e.schemaId.toNat ++ ", payload_len=" ++
    toString e.payload.length ++ "]"

end Envelope

end EventCodec
