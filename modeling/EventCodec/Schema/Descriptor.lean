import EventCodec.Schema.Kind

/-! # Descriptors

    A descriptor says which fields a message has.  Only what a schema of
    one message can express is a descriptor: names are identifiers, field
    numbers lie in the legal range and rise strictly, no name occurs
    twice, and every kind is a scalar.  These facts are part of the type,
    so whoever holds a descriptor may rely on them.

    Because the numbers rise, a field is found by bisection. -/

namespace EventCodec.Schema

/-! ### Legal names and numbers -/

/-- Letters of ASCII. -/
def isLetter (c : Char) : Bool :=
  ('a' ≤ c && c ≤ 'z') || ('A' ≤ c && c ≤ 'Z')

def startsIdentifier (c : Char) : Bool :=
  isLetter c || c == '_'

def continuesIdentifier (c : Char) : Bool :=
  startsIdentifier c || ('0' ≤ c && c ≤ '9')

/-- A letter or underscore, then letters, digits and underscores. -/
def isIdentifier (name : String) : Bool :=
  match name.toList with
  | [] => false
  | c :: cs => startsIdentifier c && cs.all continuesIdentifier

/-- The largest field number of the wire format. -/
def maxFieldNumber : UInt32 := 536870911

/-- The range kept free for the format's own use. -/
def firstReserved : UInt32 := 19000
def lastReserved : UInt32 := 19999

def isInRange (number : UInt32) : Bool :=
  number != 0 && number ≤ maxFieldNumber

def isReserved (number : UInt32) : Bool :=
  firstReserved ≤ number && number ≤ lastReserved

/-! ### Fields -/

structure Field where
  /-- What identifies the field on the wire. -/
  number : UInt32
  name : String
  kind : Scalar
  repeated : Bool
deriving DecidableEq, Repr

namespace Field

/-- What every field of a descriptor satisfies on its own. -/
structure IsLegal (f : Field) : Prop where
  name : isIdentifier f.name = true
  inRange : isInRange f.number = true
  notReserved : isReserved f.number = false

/-- Kind and repetition as written in schema text. -/
def typeText (f : Field) : String :=
  (if f.repeated then "repeated " else "") ++ f.kind.keyword

end Field

/-- What the fields of a descriptor satisfy together. -/
structure IsFieldSet (fields : List Field) : Prop where
  legal : ∀ f ∈ fields, f.IsLegal
  sorted : fields.Pairwise fun f g => f.number < g.number
  names : fields.Pairwise fun f g => f.name ≠ g.name

theorem IsFieldSet.nil : IsFieldSet [] :=
  ⟨by simp, .nil, .nil⟩

/-! ### Descriptors -/

structure Descriptor where
  /-- The message's name. -/
  name : String
  /-- The fields, by rising number. -/
  fields : Array Field
  isIdentifier_name : isIdentifier name = true
  isFieldSet : IsFieldSet fields.toList

namespace Descriptor

@[ext] theorem ext {d e : Descriptor} (name : d.name = e.name) (fields : d.fields = e.fields) :
    d = e := by
  cases d; cases e; simp_all

instance : DecidableEq Descriptor := fun d e =>
  if h : d.name = e.name ∧ d.fields = e.fields then .isTrue (ext h.1 h.2)
  else .isFalse fun eq => h (by simp [eq])

/-- Bisection between two positions: the field with this number among
    those at `low` up to before `high`. -/
def search (fields : Array Field) (number : UInt32) (low high : Nat)
    (bound : high ≤ fields.size) : Option Field :=
  if h : low < high then
    let middle := low + (high - low) / 2
    have inside : middle < fields.size := by omega
    let f := fields[middle]
    if f.number = number then some f
    else if f.number < number then search fields number (middle + 1) high bound
    else search fields number low middle (by omega)
  else none
termination_by high - low

/-- The field with this number. -/
def field? (d : Descriptor) (number : UInt32) : Option Field :=
  search d.fields number 0 d.fields.size (Nat.le_refl _)

/-- The field with this name. -/
def fieldByName? (d : Descriptor) (name : String) : Option Field :=
  d.fields.find? fun f => f.name == name

end Descriptor

end EventCodec.Schema
