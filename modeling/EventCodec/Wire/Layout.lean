import EventCodec.Schema.Builder
import EventCodec.Wire.Scalar

/-! # Layouts of messages

    A layout lists the fields of a message as they are on the wire.  A
    field has a shape: one value, a value that may be absent, any number
    of values, or a map from text.

    A record of a layout gives each field a value of its shape. -/

namespace EventCodec.Wire

open Schema (Scalar Kind Builder Declaration)

/-! ### Shapes -/

inductive Shape where
  /-- One value; a field that does not occur has the default. -/
  | single (kind : Scalar)
  /-- A value whose presence matters. -/
  | optional (kind : Scalar)
  /-- Any number of values; numbers may be packed into one run. -/
  | repeated (kind : Scalar) (packed : Bool)
  /-- Entries from text to a kind. -/
  | map (kind : Scalar)
deriving DecidableEq, Repr

namespace Shape

/-- The values of a field of this shape. -/
abbrev Value : Shape → Type
  | .single k => ScalarValue k
  | .optional k => Option (ScalarValue k)
  | .repeated k _ => List (ScalarValue k)
  | .map k => List (String × ScalarValue k)

def default : (s : Shape) → s.Value
  | .single k => ScalarValue.default k
  | .optional _ => none
  | .repeated _ _ => []
  | .map _ => []

instance instDecidableEqValue : (s : Shape) → DecidableEq s.Value
  | .single k => inferInstanceAs (DecidableEq (ScalarValue k))
  | .optional k => inferInstanceAs (DecidableEq (Option (ScalarValue k)))
  | .repeated k _ => inferInstanceAs (DecidableEq (List (ScalarValue k)))
  | .map k => inferInstanceAs (DecidableEq (List (String × ScalarValue k)))

/-- The shape as a schema declares it, and whether it is repeated. -/
def declared : Shape → Kind × Bool
  | .single k => (.scalar k, false)
  | .optional k => (.scalar k, false)
  | .repeated k _ => (.scalar k, true)
  | .map k => (.map (.scalar .string) (.scalar k), false)

end Shape

/-! ### Layouts and records -/

structure FieldLayout where
  number : UInt32
  name : String
  shape : Shape
deriving DecidableEq, Repr

namespace FieldLayout

/-- The declaration that matches the field. -/
def declaration (f : FieldLayout) : Declaration :=
  { number := f.number, name := f.name, kind := f.shape.declared.1, repeated := f.shape.declared.2 }

end FieldLayout

structure Layout where
  /-- The message's name. -/
  name : String
  /-- The fields, in the order they are written. -/
  fields : List FieldLayout
deriving DecidableEq, Repr

namespace Layout

/-- The description that declares exactly the fields of the layout. -/
def describe (l : Layout) : Builder :=
  { name := l.name, declarations := l.fields.map FieldLayout.declaration }

def field? (l : Layout) (number : UInt32) : Option FieldLayout :=
  l.fields.find? fun f => f.number == number

end Layout

/-- A field with its value. -/
structure Slot where
  field : FieldLayout
  value : field.shape.Value
deriving DecidableEq

/-- The fields of a message with their values, in the layout's order. -/
abbrev Record := List Slot

namespace Layout

/-- The record in which no field occurs. -/
def defaults (l : Layout) : Record :=
  l.fields.map fun f => { field := f, value := f.shape.default }

end Layout

end EventCodec.Wire
