import EventCodec.Schema.Descriptor
import EventCodec.Schema.Error

/-! # Compatibility of two schemas

    What one schema wrote can be read with another if every field number
    that both have stands for the same kind, repeated in both or in
    neither.  A field only the writer has is skipped, one only the reader
    has takes its default.  Names play no part. -/

namespace EventCodec.Schema

/-- A field number on which writer and reader disagree. -/
structure Conflict where
  written : Field
  read : Field
deriving DecidableEq, Repr

namespace Conflict

def reason (c : Conflict) : String :=
  "字段 #" ++ toString c.read.number.toNat ++ " 写方为 " ++ c.written.typeText ++
    "，读方为 " ++ c.read.typeText

def toError (c : Conflict) : SchemaError :=
  .incompatible c.reason

end Conflict

/-- The same kind, repeated in both or in neither. -/
def Field.agrees (f g : Field) : Bool :=
  f.kind = g.kind && f.repeated = g.repeated

/-- The conflict at one field of the reader. -/
def conflictAt? (writer : Descriptor) (f : Field) : Option Conflict :=
  match writer.field? f.number with
  | some written => if written.agrees f then none else some { written, read := f }
  | none => none

/-- The first conflict in the order of the reader's fields. -/
def conflict? (writer reader : Descriptor) : Option Conflict :=
  reader.fields.toList.findSome? (conflictAt? writer)

/-- Whether what `writer` wrote can be read with `reader`. -/
def checkCompatible (writer reader : Descriptor) : Except SchemaError Unit :=
  match conflict? writer reader with
  | some c => .error c.toError
  | none => .ok ()

end EventCodec.Schema
