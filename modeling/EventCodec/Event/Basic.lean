import EventCodec.Schema.Builder
import EventCodec.Wire.Reader
import EventCodec.Wire.Writer

/-! # Event types

    What a codec needs to know about a type of events: a description of
    its fields, and how a value is checked, written and read.

    Nothing forces the description and the bytes to agree.  The types
    made from a layout (`Layout.eventType`) agree unless they are given
    another description; for all others the codec looks at the bytes
    before it lets them out. -/

namespace EventCodec

open Schema Wire

structure EventType (α : Type) where
  /-- The name under which the type appears in the journal. -/
  name : String
  /-- The declared fields. -/
  describe : Builder
  /-- The complaint about a value outside its range, if there is one. -/
  validate : α → Option String
  encode : α → Bytes
  decode : Bytes → Except Failure α
  default : α

namespace EventType

variable {α β : Type}

/-- The descriptor of the declared fields. -/
def resolve (t : EventType α) : Except CodecError Descriptor :=
  t.describe.build.mapError fun e => e.toUnsupported t.describe.name

/-- The same type with another description. -/
def describedAs (t : EventType α) (describe : Builder) : EventType α :=
  { t with describe }

/-- The same type with its values seen as those of another type. -/
def via (t : EventType α) (into : α → β) (back : β → α) : EventType β where
  name := t.name
  describe := t.describe
  validate v := t.validate (back v)
  encode v := t.encode (back v)
  decode bytes := (t.decode bytes).map into
  default := into t.default

end EventType

/-- The event type whose values are the records of a layout. -/
def Wire.Layout.eventType (l : Layout) (validate : Record → Option String) :
    EventType Record where
  name := l.name
  describe := l.describe
  validate
  encode := Record.encode
  decode := l.decode
  default := l.defaults

end EventCodec
