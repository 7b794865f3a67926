import EventCodec.Registry.Basic

/-! # The cache of writer schemas

    The descriptors a codec has fetched, by schema ID.  Only successes are
    kept, and an entry never changes: an ID stands for one schema.

    What is here is the cache between calls.  Calls that overlap are the
    subject of `EventCodec.Codec.Flight`. -/

namespace EventCodec

open Schema

structure Cache where
  entries : List (UInt32 × Descriptor)
deriving DecidableEq

namespace Cache

def empty : Cache := { entries := [] }

def get? (c : Cache) (id : UInt32) : Option Descriptor :=
  (c.entries.find? fun e => e.1 == id).map Prod.snd

def insert (c : Cache) (id : UInt32) (d : Descriptor) : Cache :=
  { entries := c.entries ++ [(id, d)] }

def size (c : Cache) : Nat := c.entries.length

def isEmpty (c : Cache) : Bool := c.entries.isEmpty

/-! ### Fetching -/

/-- What a registry's answer to a fetch means for the call that made it. -/
def interpret (id : UInt32) (answer : Except RegistryError RegisteredSchema) :
    Except CodecError Descriptor :=
  match answer with
  | .error e => .error (e.toFetch id)
  | .ok schema => schema.descriptor.mapError SchemaError.toDecode

/-- The entry that reports a new descriptor. -/
def cached (id : UInt32) (d : Descriptor) (ctx : Context) : Journal.Entry where
  level := .debug
  message := "cached writer schema"
  details :=
    [Journal.number "schema_id" id.toNat, ("type_name", d.name)] ++
      Journal.optional "correlation_id" ctx.correlationId

/-- The descriptor of an ID: the one kept, or the one the registry has. -/
def getOrFetch {σ : Type} (r : Registry σ) (id : UInt32) (ctx : Context) (c : Cache) (s : σ) :
    Except CodecError Descriptor × Cache × σ :=
  match c.get? id with
  | some d => (.ok d, c, s)
  | none =>
    match r.fetch id ctx s with
    | (answer, s) =>
      match interpret id answer with
      | .error e => (.error e, c, s)
      | .ok d => (.ok d, c.insert id d, r.note (cached id d ctx) s)

end Cache

end EventCodec
