import EventCodec.Json.Record
import EventCodec.Registry.Error
import EventCodec.Registry.Schema
import EventCodec.Rest.Status

/-! # Replies of a registry

    What a registry says in the bodies of its answers, and what an answer
    that is no success means.  An error has a code of the registry's own
    and a message; without a message the status speaks for itself. -/

namespace EventCodec.Rest

open Json (fields? required withDefault word? text? list?)

/-! ### Bodies of successes -/

/-- The type of a schema: its name, or an object with nothing under that
    name. -/
def schemaType? : Json → Option SchemaType
  | .string (some name) => SchemaType.ofName? name
  | .object [(some name, .null)] => SchemaType.ofName? name
  | _ => none

/-- The ID of a schema that was registered. -/
def registeredId? (body : Json) : Option UInt32 := do
  match ← fields? ["id"] body with
  | [id] => required word? id
  | _ => none

/-- The schema with an ID. -/
def schema? (id : UInt32) (body : Json) : Option RegisteredSchema := do
  match ← fields? ["schema", "schemaType"] body with
  | [schema, schemaType] =>
    return {
      id
      subject := none
      version := none
      text := ← required text? schema
      schemaType := ← withDefault .default schemaType? schemaType }
  | _ => none

/-- A schema with its subject and version. -/
def latest? (body : Json) : Option RegisteredSchema := do
  match ← fields? ["subject", "version", "id", "schema", "schemaType"] body with
  | [subject, version, id, schema, schemaType] =>
    return {
      subject := some (← required text? subject)
      version := some (← required word? version)
      id := ← required word? id
      text := ← required text? schema
      schemaType := ← withDefault .default schemaType? schemaType }
  | _ => none

def versions? : Json → Option (List UInt32) := list? word?

def subjects? : Json → Option (List String) := list? text?

/-! ### Errors -/

/-- What a registry says about an error. -/
structure ErrorBody where
  code : UInt32
  message : String
deriving DecidableEq, Repr

def ErrorBody.ofJson? (body : Json) : Option ErrorBody := do
  match ← fields? ["error_code", "message"] body with
  | [code, message] =>
    return { code := ← required word? code, message := ← withDefault "" text? message }
  | _ => none

def subjectNotFoundCode : UInt32 := 40401
def versionNotFoundCode : UInt32 := 40402
def schemaNotFoundCode : UInt32 := 40403

/-- What a request was about. -/
inductive Target where
  | subject (name : String)
  | schema (id : UInt32)
  | registry
deriving DecidableEq, Repr

/-- What was not found: what the request was about, if the code says so or
    there is none. -/
def notFound? (code : Option UInt32) : Target → Option RegistryError
  | .subject name =>
    if code.all fun c => c == subjectNotFoundCode || c == versionNotFoundCode then
      some (.subjectNotFound name)
    else none
  | .schema id => if code.all (· == schemaNotFoundCode) then some (.schemaNotFound id) else none
  | .registry => none

/-- What an answer means that is no success. -/
def errorOf (status : Nat) (body : Option ErrorBody) (target : Target) : RegistryError :=
  let message := ((body.map (·.message)).filter (!·.isEmpty)).getD (statusText status)
  match status with
  | 401 | 403 => .unauthorized message
  | 404 => (notFound? (body.map (·.code)) target).getD (.server status message)
  | 409 =>
    .incompatible (match target with
      | .subject name => name
      | _ => "") message
  | 422 => .invalidSchema message
  | status => .server status message

end EventCodec.Rest
