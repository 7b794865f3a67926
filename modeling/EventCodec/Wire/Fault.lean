import EventCodec.Bytes

/-! # Faults of the wire format

    What can be wrong with the bytes of a message.  A fault inside a field
    that the message declares is reported with the path to that field,
    the innermost level first. -/

namespace EventCodec.Wire

/-! ### Wire types -/

/-- How the value after a key is laid out. -/
inductive WireType where
  | varint
  | fixed64
  | lengthDelimited
  | startGroup
  | endGroup
  | fixed32
deriving DecidableEq, Repr

namespace WireType

/-- The low three bits of a key. -/
def code : WireType → Nat
  | .varint => 0
  | .fixed64 => 1
  | .lengthDelimited => 2
  | .startGroup => 3
  | .endGroup => 4
  | .fixed32 => 5

def ofCode? : Nat → Option WireType
  | 0 => some .varint
  | 1 => some .fixed64
  | 2 => some .lengthDelimited
  | 3 => some .startGroup
  | 4 => some .endGroup
  | 5 => some .fixed32
  | _ => none

/-- The wire type as shown in messages. -/
def shown : WireType → String
  | .varint => "Varint"
  | .fixed64 => "SixtyFourBit"
  | .lengthDelimited => "LengthDelimited"
  | .startGroup => "StartGroup"
  | .endGroup => "EndGroup"
  | .fixed32 => "ThirtyTwoBit"

@[simp] theorem ofCode?_code (w : WireType) : ofCode? w.code = some w := by
  cases w <;> rfl

theorem code_of_ofCode? {n : Nat} {w : WireType} (h : ofCode? n = some w) : w.code = n := by
  unfold ofCode? at h
  split at h <;> cases h <;> rfl

theorem code_lt (w : WireType) : w.code < 6 := by
  cases w <;> decide

end WireType

/-! ### Faults -/

inductive Fault where
  | invalidVarint
  /-- A key that does not fit a word of 32 bits. -/
  | invalidKey (key : Nat)
  | invalidWireType (code : Nat)
  /-- The field number zero. -/
  | invalidNumber
  | wireTypeMismatch (found expected : WireType)
  /-- A length or a fixed width beyond the end of the input. -/
  | underflow
  /-- The last element runs over the length announced for all. -/
  | lengthExceeded
  | invalidText
  | unexpectedEndGroup
  | recursionLimit
deriving DecidableEq, Repr

namespace Fault

def message : Fault → String
  | .invalidVarint => "invalid varint"
  | .invalidKey key => "invalid key value: " ++ toString key
  | .invalidWireType code => "invalid wire type value: " ++ toString code
  | .invalidNumber => "invalid tag value: 0"
  | .wireTypeMismatch found expected =>
    "invalid wire type: " ++ found.shown ++ " (expected " ++ expected.shown ++ ")"
  | .underflow => "buffer underflow"
  | .lengthExceeded => "delimited length exceeded"
  | .invalidText => "invalid string value: data is not UTF-8 encoded"
  | .unexpectedEndGroup => "unexpected end group tag"
  | .recursionLimit => "recursion limit reached"

end Fault

/-- One level of the path to a fault. -/
structure Place where
  message : String
  field : String
deriving DecidableEq, Repr

/-- A fault and the path to it. -/
structure Failure where
  fault : Fault
  /-- The fields the fault lies in, innermost first. -/
  path : List Place
deriving DecidableEq, Repr

namespace Failure

/-- A fault outside every declared field. -/
def ofFault (fault : Fault) : Failure :=
  { fault, path := [] }

/-- The same failure, seen from one level further out. -/
def within (f : Failure) (place : Place) : Failure :=
  { f with path := f.path ++ [place] }

def message (f : Failure) : String :=
  "failed to decode Protobuf message: " ++
    String.join (f.path.map fun p => p.message ++ "." ++ p.field ++ ": ") ++ f.fault.message

end Failure

end EventCodec.Wire
