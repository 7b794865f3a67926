import EventCodec.Codec.Scope
import EventCodec.Config.Basic
import EventCodec.Event.Catalogue
import EventCodec.Registry.Staged

/-! # Steps of a session

    A session is a row of steps on one registry and on codecs that have
    names.  Each step has an answer. -/

namespace EventCodec.Session

open Schema

/-! ### Where things come from -/

/-- Where a descriptor comes from. -/
inductive Source where
  | declared (builder : Builder)
  | text (text : String)
  /-- What an event type declares. -/
  | type (entry : Event.Entry)

/-- Why a source has no descriptor. -/
inductive SourceError where
  | schema (error : SchemaError)
  | codec (error : CodecError)
deriving DecidableEq, Repr

def Source.descriptor : Source → Except SourceError Descriptor
  | .declared b => b.build.mapError .schema
  | .text t => (Descriptor.ofText t).mapError .schema
  | .type e => e.type.resolve.mapError .codec

/-- Where the bytes to be read come from. -/
inductive Data where
  | bytes (bytes : Bytes)
  /-- What an earlier step wrote, by its number. -/
  | ofStep (number : Nat)

/-- A value whose form depends on the event type it is for. -/
abbrev Draft := Event.Entry → Event.Value

/-! ### Steps -/

/-- A step of the body of a scope. -/
inductive BodyStep where
  | encode (value : Draft)
  /-- Without data: what the body wrote last. -/
  | decode (data : Option Data)
  | close
  | state
  | fail (error : CodecError)

/-- Changes to the stage of a registry. -/
inductive Setting where
  | plant (id : UInt32) (schemaType : Option String) (text : String)
  | fail (call : Call) (failure : Option Planned)
  | delay (call : Call) (ms : Nat)
  | advance (ms : Nat)

/-- What is done with a codec that has a name. -/
inductive Use where
  | info
  | encode (value : Draft)
  | decode (data : Data) (ctx : Context.Request)
  | decodeAll (items : List Data) (ctx : Context.Request)
  | decodeBound (data : Data)
  | cache (id : UInt32)
  | cacheFetch (id : UInt32) (ctx : Context.Request)
  | subjects (ctx : Context.Request)
  | close (ctx : Context.Request)
  | drop
  | dropOutside

inductive Step where
  | register (subject : String) (schema : Source) (ctx : Context.Request)
  | fetch (id : UInt32) (ctx : Context.Request)
  | latest (subject : String) (ctx : Context.Request)
  | delete (subject : String) (ctx : Context.Request)
  | subjects (ctx : Context.Request)
  | set (setting : Setting)
  /-- Opens a codec under a name. -/
  | openCodec (codec : String) (entry : Event.Entry) (subject : String) (ctx : Context.Request)
  /-- Opens a codec under a name, on a registry of its own. -/
  | connect (codec : String) (entry : Event.Entry) (subject : String) (config : Config)
  /-- Binds a codec to an ID without registering anything. -/
  | bind (codec : String) (entry : Event.Entry) (schemaId : UInt32)
  | use (codec : String) (use : Use)
  | scope (entry : Event.Entry) (subject : String) (body : List BodyStep)

/-! ### Answers -/

/-- What is known about a codec. -/
structure Info where
  schemaId : UInt32
  /-- Subject and state, if the codec was opened. -/
  life : Option (String × CodecState)
  descriptor : Descriptor
  shown : String

inductive BodyAnswer where
  | data (bytes : Bytes)
  | value (value : Event.Value)
  | closed
  | state (state : CodecState)

inductive Answer where
  | nothing
  | id (id : UInt32)
  | schema (schema : RegisteredSchema)
  | versions (versions : List UInt32)
  | subjects (subjects : List String)
  | registryError (error : RegistryError)
  | sourceError (error : SourceError)
  /-- A schema type that registries do not know. -/
  | badSchemaType
  | noCodec
  | codecExists
  | info (info : Info)
  | data (bytes : Bytes)
  | value (value : Event.Value)
  | values (results : List (Except CodecError Event.Value))
  | cache (cache : Cache) (entry : Option Descriptor)
  | descriptor (descriptor : Descriptor)
  | closed
  | codecError (error : CodecError)
  /-- The answers of the body and the result of the scope. -/
  | scope (body : List BodyAnswer) (result : Except CodecError Nat)

end EventCodec.Session
