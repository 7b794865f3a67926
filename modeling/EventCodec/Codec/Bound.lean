import EventCodec.Codec.Cache
import EventCodec.Codec.Payload
import EventCodec.Envelope
import EventCodec.Event.Basic
import EventCodec.Schema.Compatibility
import EventCodec.Text.Quoted

/-! # Codecs bound to a schema

    A codec that writes envelopes under one schema ID and reads envelopes
    under any.  An envelope under another ID is read only if the schema it
    was written with can be read with the codec's own; the registry is
    asked for that schema, and its answer is kept. -/

namespace EventCodec

open Schema Wire

structure Bound (α : Type) where
  type : EventType α
  /-- The ID envelopes are written under. -/
  schemaId : UInt32
  /-- The descriptor envelopes are written and read with. -/
  descriptor : Descriptor
  cache : Cache

namespace Bound

variable {α σ : Type}

def new (type : EventType α) (schemaId : UInt32) (descriptor : Descriptor) : Bound α :=
  { type, schemaId, descriptor, cache := .empty }

/-- The codec as shown in messages. -/
def shown (b : Bound α) : String :=
  "EnvelopeCodec \x7b schema_id: " ++ toString b.schemaId.toNat ++ ", descriptor: " ++
    Text.quoted b.descriptor.name ++ ", .. \x7d"

/-! ### Writing -/

/-- Why a value cannot be written. -/
inductive WriteError where
  /-- The value is outside its range. -/
  | invalid (complaint : String)
  | tooLarge (length : Nat)
  /-- The bytes do not fit the descriptor. -/
  | unfit (error : PayloadError)
deriving DecidableEq, Repr

namespace WriteError

def message : WriteError → String
  | .invalid complaint => complaint
  | .tooLarge length => "负载过大: " ++ toString length ++ " 字节"
  | .unfit error => error.message

def toCodec (e : WriteError) : CodecError :=
  .encode e.message

end WriteError

/-- The envelope of a value, or what is wrong with the value. -/
def write (b : Bound α) (v : α) : Except WriteError Bytes :=
  match b.type.validate v with
  | some complaint => .error (.invalid complaint)
  | none =>
    let payload := b.type.encode v
    let length := payload.length
    if Envelope.maxPayloadSize < length then .error (.tooLarge length)
    else
      match checkPayload b.descriptor payload with
      | .error e => .error (.unfit e)
      | .ok () => .ok (Envelope.header b.schemaId ++ payload)

def encode (b : Bound α) (v : α) : Except CodecError Bytes :=
  (b.write v).mapError WriteError.toCodec

/-! ### Reading -/

/-- The value of a payload. -/
def decodePayload (b : Bound α) (payload : Bytes) : Except CodecError α :=
  (b.type.decode payload).mapError fun f => .decode f.message

/-- The value of an envelope whose writer's descriptor is known. -/
def decodeFrom (b : Bound α) (writer : Descriptor) (e : Envelope) : Except CodecError α :=
  match checkCompatible writer b.descriptor with
  | .error conflict => .error (conflict.toDecode.withContext (.schemaId e.schemaId))
  | .ok () => b.decodePayload e.payload

/-- Reads an envelope under any schema ID. -/
def decode (r : Registry σ) (data : Bytes) (ctx : Context) (b : Bound α) (s : σ) :
    Except CodecError α × Bound α × σ :=
  match Envelope.parse data with
  | .error e => (.error e.toCodec, b, s)
  | .ok e =>
    if e.schemaId = b.schemaId then (b.decodePayload e.payload, b, s)
    else
      match b.cache.getOrFetch r e.schemaId ctx s with
      | (.error error, cache, s) => (.error error, { b with cache }, s)
      | (.ok writer, cache, s) => (b.decodeFrom writer e, { b with cache }, s)

/-- Reads an envelope under the codec's own ID, without a registry. -/
def decodeBound (b : Bound α) (data : Bytes) : Except CodecError α :=
  match Envelope.parse data with
  | .error e => .error e.toCodec
  | .ok e =>
    if e.schemaId = b.schemaId then b.decodePayload e.payload
    else
      .error (.decode ("schema ID " ++ toString e.schemaId.toNat ++ " 与绑定的 " ++
        toString b.schemaId.toNat ++ " 不一致"))

/-- Fetches the descriptor of an ID into the cache. -/
def fetchInto (r : Registry σ) (id : UInt32) (ctx : Context) (b : Bound α) (s : σ) :
    Except CodecError Descriptor × Bound α × σ :=
  match b.cache.getOrFetch r id ctx s with
  | (result, cache, s) => (result, { b with cache }, s)

end Bound

end EventCodec
