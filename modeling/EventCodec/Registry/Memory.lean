import EventCodec.Ordered
import EventCodec.Registry.Basic
import EventCodec.Schema.Compatibility
import EventCodec.Schema.Proto.Printer
import EventCodec.Table

/-! # A registry in memory

    Equal schema texts share one ID, whatever their subjects.  A subject
    is a row of versions; the same schema is registered under it only
    once, and a new version has to be able to read the newest one.
    Deleting a subject also deletes each schema that no other subject
    refers to, and an ID is never given out again.

    The schemas are kept twice, by ID and by text. -/

namespace EventCodec

open Schema

structure Memory where
  /-- The ID the next new text will get. -/
  nextId : UInt32
  /-- The texts of the live schemas, by ID. -/
  schemas : List (UInt32 × String)
  /-- Their IDs, by text. -/
  ids : List (String × UInt32)
  /-- The IDs of the versions of each subject, oldest first. -/
  subjects : List (String × List UInt32)
deriving DecidableEq, Repr

namespace Memory

def empty : Memory :=
  { nextId := 1, schemas := [], ids := [], subjects := [] }

/-! ### Views -/

/-- The text with an ID. -/
def text? (m : Memory) (id : UInt32) : Option String :=
  Table.get? id m.schemas

/-- The ID of a text. -/
def id? (m : Memory) (text : String) : Option UInt32 :=
  Table.get? text m.ids

/-- The versions of a subject. -/
def versions? (m : Memory) (subject : String) : Option (List UInt32) :=
  Ordered.get? subject m.subjects

/-- Whether any subject refers to an ID. -/
def isReferenced (m : Memory) (id : UInt32) : Bool :=
  m.subjects.any fun e => e.2.contains id

/-! ### Registering -/

/-- What registering comes to. -/
inductive Registered where
  /-- The subject already has the schema. -/
  | already (id : UInt32)
  /-- The subject has a new version. -/
  | added (id : UInt32)
deriving DecidableEq, Repr

namespace Registered

def id : Registered → UInt32
  | .already id => id
  | .added id => id

end Registered

/-- Whether a descriptor can follow the newest of some versions. -/
def checkLatest (m : Memory) (subject : String) (versions : List UInt32) (d : Descriptor) :
    Except RegistryError Unit :=
  match versions.getLast?.bind m.text? with
  | none => .ok ()
  | some text =>
    match Descriptor.ofText text with
    | .error e => .error (.invalidSchema e.message)
    | .ok latest =>
      match checkCompatible latest d with
      | .error e => .error (.incompatible subject e.message)
      | .ok () => .ok ()

/-- Keeps a new text under the next ID. -/
def store (m : Memory) (text : String) : Memory :=
  { m with
    nextId := m.nextId + 1
    schemas := Table.insert m.nextId text m.schemas
    ids := Table.insert text m.nextId m.ids }

/-- The ID of a text, which gets one if it has none. -/
def assign (m : Memory) (text : String) : UInt32 × Memory :=
  match m.id? text with
  | some id => (id, m)
  | none => (m.nextId, m.store text)

/-- Gives a subject its versions. -/
def setVersions (m : Memory) (subject : String) (versions : List UInt32) : Memory :=
  { m with subjects := Ordered.insert subject versions m.subjects }

/-- Adds a text to the versions a subject has so far. -/
def add (m : Memory) (subject text : String) (versions : List UInt32) : UInt32 × Memory :=
  match m.assign text with
  | (id, m) => (id, m.setVersions subject (versions ++ [id]))

def register (m : Memory) (subject : String) (d : Descriptor) :
    Except RegistryError Registered × Memory :=
  let text := d.text
  match m.versions? subject with
  | none =>
    let (id, m) := m.add subject text []
    (.ok (.added id), m)
  | some versions =>
    match (m.id? text).filter versions.contains with
    | some id => (.ok (.already id), m)
    | none =>
      match m.checkLatest subject versions d with
      | .error e => (.error e, m)
      | .ok () =>
        let (id, m) := m.add subject text versions
        (.ok (.added id), m)

/-! ### Looking up -/

def fetch (m : Memory) (id : UInt32) : Except RegistryError RegisteredSchema :=
  match m.text? id with
  | none => .error (.schemaNotFound id)
  | some text => .ok { id, subject := none, version := none, schemaType := .protobuf, text }

def latest (m : Memory) (subject : String) : Except RegistryError RegisteredSchema :=
  match m.versions? subject with
  | none => .error (.subjectNotFound subject)
  | some versions =>
    match versions.getLast? with
    | none => .error (.subjectNotFound subject)
    | some id =>
      match m.text? id with
      | none => .error (.schemaNotFound id)
      | some text =>
        .ok {
          id
          subject := some subject
          version := some (UInt32.ofNat versions.length)
          schemaType := .protobuf
          text }

def subjectNames (m : Memory) : List String :=
  m.subjects.map Prod.fst

/-! ### Deleting -/

/-- The versions of a subject that has so many, counted from one; their
    number is one of 32 bits as well. -/
def versionNumbers (n : Nat) : List UInt32 :=
  (List.range (UInt32.ofNat n).toNat).map fun i => UInt32.ofNat (i + 1)

/-- Forgets a schema. -/
def remove (m : Memory) (id : UInt32) (text : String) : Memory :=
  { m with schemas := Table.erase id m.schemas, ids := Table.erase text m.ids }

/-- Forgets the schema with an ID, unless a subject refers to it. -/
def release (m : Memory) (id : UInt32) : Memory :=
  if m.isReferenced id then m
  else
    match m.text? id with
    | none => m
    | some text => m.remove id text

/-- Forgets a subject, but none of its schemas. -/
def dropSubject (m : Memory) (subject : String) : Memory :=
  { m with subjects := Ordered.erase subject m.subjects }

/-- Without a subject, and without the schemas only it referred to. -/
def without (m : Memory) (subject : String) (versions : List UInt32) : Memory :=
  versions.foldl release (m.dropSubject subject)

def delete (m : Memory) (subject : String) : Except RegistryError (List UInt32) × Memory :=
  match m.versions? subject with
  | none => (.error (.subjectNotFound subject), m)
  | some versions => (.ok (versionNumbers versions.length), m.without subject versions)

end Memory

end EventCodec
