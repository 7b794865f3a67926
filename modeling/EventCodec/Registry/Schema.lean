import EventCodec.Schema.Proto.Parser

/-! # Registered schemas

    What a registry knows under an ID.  Registries keep schemas in several
    languages; only those in the schema language of this library have a
    descriptor. -/

namespace EventCodec

open Schema

inductive SchemaType where
  | avro
  | protobuf
  | json
deriving DecidableEq, Repr

namespace SchemaType

/-- The name a registry uses. -/
def name : SchemaType → String
  | .avro => "AVRO"
  | .protobuf => "PROTOBUF"
  | .json => "JSON"

def ofName? (name : String) : Option SchemaType :=
  [avro, protobuf, json].find? fun t => t.name == name

/-- The type of a schema whose registry does not name one. -/
def default : SchemaType := .avro

@[simp] theorem ofName?_name (t : SchemaType) : ofName? t.name = some t := by
  cases t <;> decide

end SchemaType

structure RegisteredSchema where
  id : UInt32
  /-- The subject, when it was asked for by subject. -/
  subject : Option String
  /-- The version under the subject, when it was asked for by subject. -/
  version : Option UInt32
  schemaType : SchemaType
  /-- The text of the schema. -/
  text : String
deriving DecidableEq, Repr

namespace RegisteredSchema

/-- The descriptor the text stands for. -/
def descriptor (s : RegisteredSchema) : Except SchemaError Descriptor :=
  match s.schemaType with
  | .protobuf => Descriptor.ofText s.text
  | other =>
    .error (.parse ("schema " ++ toString s.id.toNat ++ " has type " ++ other.name ++
      ", expected PROTOBUF"))

end RegisteredSchema

end EventCodec
