/-! # Field kinds

    The kinds a field can be declared with.  The fifteen scalars are those
    of the schema language; a reference to another message and a map can
    be declared as well, but a schema of one message cannot express them,
    so building a descriptor refuses both. -/

namespace EventCodec.Schema

/-! ### Scalars -/

inductive Scalar where
  | double | float
  | int32 | int64 | uint32 | uint64 | sint32 | sint64
  | fixed32 | fixed64 | sfixed32 | sfixed64
  | bool | string | bytes
deriving DecidableEq, Repr

namespace Scalar

/-- The keyword of the schema language. -/
def keyword : Scalar → String
  | .double => "double"
  | .float => "float"
  | .int32 => "int32"
  | .int64 => "int64"
  | .uint32 => "uint32"
  | .uint64 => "uint64"
  | .sint32 => "sint32"
  | .sint64 => "sint64"
  | .fixed32 => "fixed32"
  | .fixed64 => "fixed64"
  | .sfixed32 => "sfixed32"
  | .sfixed64 => "sfixed64"
  | .bool => "bool"
  | .string => "string"
  | .bytes => "bytes"

def all : List Scalar :=
  [.double, .float, .int32, .int64, .uint32, .uint64, .sint32, .sint64,
    .fixed32, .fixed64, .sfixed32, .sfixed64, .bool, .string, .bytes]

theorem mem_all (s : Scalar) : s ∈ all := by
  cases s <;> decide

/-- The scalar with this keyword. -/
def ofKeyword? (word : String) : Option Scalar :=
  all.find? fun s => s.keyword = word

@[simp] theorem ofKeyword?_keyword (s : Scalar) : ofKeyword? s.keyword = some s := by
  cases s <;> decide

theorem keyword_of_ofKeyword? {word : String} {s : Scalar} (h : ofKeyword? word = some s) :
    s.keyword = word := by
  simpa using List.find?_some h

/-- Kinds whose repeated values share one length-delimited run. -/
def isNumeric : Scalar → Bool
  | .string | .bytes => false
  | _ => true

end Scalar

/-! ### Kinds -/

inductive Kind where
  | scalar (kind : Scalar)
  | message (name : String)
  | map (key value : Kind)
deriving DecidableEq, Repr

namespace Kind

/-- How the kind is written in schema text. -/
def name : Kind → String
  | .scalar s => s.keyword
  | .message name => name
  | .map key value => "map<" ++ key.name ++ ", " ++ value.name ++ ">"

/-- A word that is no scalar's keyword names a message. -/
def ofName (word : String) : Kind :=
  match Scalar.ofKeyword? word with
  | some s => .scalar s
  | none => .message word

def isScalar : Kind → Bool
  | .scalar _ => true
  | _ => false

@[simp] theorem ofName_keyword (s : Scalar) : ofName s.keyword = .scalar s := by
  simp [ofName]

end Kind

end EventCodec.Schema
