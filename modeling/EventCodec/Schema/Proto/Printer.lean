import EventCodec.Schema.Descriptor

/-! # Writing schema text

    The text under which a descriptor is registered.  One descriptor has
    one text, so registries may compare texts. -/

namespace EventCodec.Schema

namespace Proto

/-- The first line and the blank line after it. -/
def versionLine : String := "syntax = \"proto3\";\n\n"

/-- One field: two blanks, kind, name and number. -/
def fieldLine (f : Field) : String :=
  "  " ++ f.typeText ++ " " ++ f.name ++ " = " ++ toString f.number.toNat ++ ";\n"

end Proto

/-- The schema text of a descriptor. -/
def Descriptor.text (d : Descriptor) : String :=
  Proto.versionLine ++ "message " ++ d.name ++ " \x7b\n" ++
    String.join (d.fields.toList.map Proto.fieldLine) ++ "\x7d\n"

end EventCodec.Schema
