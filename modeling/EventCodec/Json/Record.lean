import EventCodec.Json.Basic

/-! # Records

    A record with named fields is an object, in which each name stands at
    most once and other names mean nothing, or an array, in which the
    fields come in their order and some at the end may be missing. -/

namespace EventCodec.Json

/-- The values under a name. -/
def valuesOf (members : List (Option String × Json)) (name : String) : List Json :=
  members.filterMap fun m => if m.1 == some name then some m.2 else none

/-- The values of fields, in their order, where they are given. -/
def fields? (names : List String) : Json → Option (List (Option Json))
  | .array items =>
    if items.length ≤ names.length then
      some (items.map some ++ List.replicate (names.length - items.length) none)
    else none
  | .object members =>
    if members.any (·.1.isNone) || names.any fun name => 1 < (valuesOf members name).length then none
    else some (names.map fun name => (valuesOf members name).head?)
  | _ => none

/-- A number that fits a word of 32 bits. -/
def word? : Json → Option UInt32
  | .natural n => if n < UInt32.size then some (UInt32.ofNat n) else none
  | _ => none

def text? : Json → Option String
  | .string text => text
  | _ => none

def list? {α : Type} (item? : Json → Option α) : Json → Option (List α)
  | .array items => items.mapM item?
  | _ => none

/-- A field that has to be given. -/
def required {α : Type} (read? : Json → Option α) (field : Option Json) : Option α :=
  field.bind read?

/-- A field that has a value if it is not given. -/
def withDefault {α : Type} (default : α) (read? : Json → Option α) : Option Json → Option α
  | none => some default
  | some v => read? v

end EventCodec.Json
