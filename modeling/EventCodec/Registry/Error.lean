import EventCodec.Error

/-! # Registry errors

    Why a registry did not answer as asked.  What the error means for a
    codec depends on what was being done: registering, fetching the
    schema of an envelope, or cleaning up. -/

namespace EventCodec

inductive RegistryError where
  /-- The registry could not be talked to. -/
  | transport (reason : String)
  | unauthorized (message : String)
  /-- The schema breaks the rules of its subject. -/
  | incompatible (subject message : String)
  | invalidSchema (message : String)
  | subjectNotFound (subject : String)
  | schemaNotFound (id : UInt32)
  /-- An error status with no meaning of its own. -/
  | server (status : Nat) (message : String)
  | invalidResponse (reason : String)
  /-- The deadline passed. -/
  | timeout
  /-- The caller gave up. -/
  | cancelled
  | invalidConfig (reason : String)
deriving DecidableEq, Repr

namespace RegistryError

def message : RegistryError → String
  | .transport reason => "Transport error: " ++ reason
  | .unauthorized message => "Unauthorized: " ++ message
  | .incompatible subject message =>
    "Incompatible schema for subject " ++ subject ++ ": " ++ message
  | .invalidSchema message => "Invalid schema: " ++ message
  | .subjectNotFound subject => "Subject not found: " ++ subject
  | .schemaNotFound id => "Schema not found: " ++ toString id.toNat
  | .server status message => "Registry error (" ++ toString status ++ "): " ++ message
  | .invalidResponse reason => "Invalid response: " ++ reason
  | .timeout => "Request timed out"
  | .cancelled => "Request cancelled"
  | .invalidConfig reason => "Invalid configuration: " ++ reason

/-- A failed registration. -/
def toRegistration (e : RegistryError) (subject : String) : CodecError :=
  .registration subject e.message

/-- A failed fetch while decoding: only a schema that does not exist is an
    unknown one. -/
def toFetch (e : RegistryError) (id : UInt32) : CodecError :=
  match e with
  | .schemaNotFound _ => .unknownSchema id
  | e => .decode ("fetching schema " ++ toString id.toNat ++ ": " ++ e.message)

/-- A failed deletion. -/
def toCleanup (e : RegistryError) (subject : String) : CodecError :=
  .cleanup subject e.message

end RegistryError

end EventCodec
