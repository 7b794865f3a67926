import EventCodec.Schema.Kind
import EventCodec.Wire.Key

/-! # Scalar values

    What a value of each scalar kind is, and how it is laid out after its
    key.  Floating-point numbers are kept as their bits: nothing is ever
    computed with them. -/

namespace EventCodec.Wire

open Schema (Scalar)

/-! ### Values -/

/-- The values of a scalar kind. -/
abbrev ScalarValue : Scalar → Type
  | .double => UInt64
  | .float => UInt32
  | .int32 => Int32
  | .int64 => Int64
  | .uint32 => UInt32
  | .uint64 => UInt64
  | .sint32 => Int32
  | .sint64 => Int64
  | .fixed32 => UInt32
  | .fixed64 => UInt64
  | .sfixed32 => Int32
  | .sfixed64 => Int64
  | .bool => Bool
  | .string => String
  | .bytes => Bytes

namespace ScalarValue

instance instDecidableEq : (k : Scalar) → DecidableEq (ScalarValue k)
  | .double => inferInstanceAs (DecidableEq UInt64)
  | .float => inferInstanceAs (DecidableEq UInt32)
  | .int32 => inferInstanceAs (DecidableEq Int32)
  | .int64 => inferInstanceAs (DecidableEq Int64)
  | .uint32 => inferInstanceAs (DecidableEq UInt32)
  | .uint64 => inferInstanceAs (DecidableEq UInt64)
  | .sint32 => inferInstanceAs (DecidableEq Int32)
  | .sint64 => inferInstanceAs (DecidableEq Int64)
  | .fixed32 => inferInstanceAs (DecidableEq UInt32)
  | .fixed64 => inferInstanceAs (DecidableEq UInt64)
  | .sfixed32 => inferInstanceAs (DecidableEq Int32)
  | .sfixed64 => inferInstanceAs (DecidableEq Int64)
  | .bool => inferInstanceAs (DecidableEq Bool)
  | .string => inferInstanceAs (DecidableEq String)
  | .bytes => inferInstanceAs (DecidableEq (List UInt8))

/-- The value of a field that does not occur. -/
def default : (k : Scalar) → ScalarValue k
  | .double => (0 : UInt64)
  | .float => (0 : UInt32)
  | .int32 => (0 : Int32)
  | .int64 => (0 : Int64)
  | .uint32 => (0 : UInt32)
  | .uint64 => (0 : UInt64)
  | .sint32 => (0 : Int32)
  | .sint64 => (0 : Int64)
  | .fixed32 => (0 : UInt32)
  | .fixed64 => (0 : UInt64)
  | .sfixed32 => (0 : Int32)
  | .sfixed64 => (0 : Int64)
  | .bool => false
  | .string => ""
  | .bytes => ([] : Bytes)

/-- Whether a value is equal to the default of its kind: a field with one
    value is then not written.  Both zeros of floating point are equal to
    it. -/
def isDefault : (k : Scalar) → ScalarValue k → Bool
  | .double, (bits : UInt64) => bits == 0 || bits == 0x8000000000000000
  | .float, (bits : UInt32) => bits == 0 || bits == 0x80000000
  | k, v => decide (v = default k)

end ScalarValue

/-! ### Wire types -/

/-- The wire type a kind is written with. -/
def wireTypeOf : Scalar → WireType
  | .int32 | .int64 | .uint32 | .uint64 | .sint32 | .sint64 | .bool => .varint
  | .double | .fixed64 | .sfixed64 => .fixed64
  | .float | .fixed32 | .sfixed32 => .fixed32
  | .string | .bytes => .lengthDelimited

/-! ### Layouts of numbers -/

/-- Signed numbers near zero become small: 0, -1, 1, -2, … are 0, 1, 2,
    3, …. -/
def zigzag (z : Int) : Nat :=
  if 0 ≤ z then 2 * z.toNat else 2 * (-z).toNat - 1

def unzigzag (n : Nat) : Int :=
  if n % 2 = 0 then (n / 2 : Nat) else -((n / 2 + 1 : Nat) : Int)

theorem unzigzag_zigzag (z : Int) : unzigzag (zigzag z) = z := by
  unfold zigzag unzigzag
  split <;> split <;> omega

/-- The lowest bytes of a number, the low one first. -/
def littleEndian : Nat → Nat → Bytes
  | 0, _ => []
  | width + 1, n => (n % 256).toUInt8 :: littleEndian width (n / 256)

def ofLittleEndian : Bytes → Nat
  | [] => 0
  | b :: rest => b.toNat + 256 * ofLittleEndian rest

/-- A number and the bytes it counts. -/
def delimited (content : Bytes) : Bytes :=
  Varint.encode content.length ++ content

/-! ### Writing -/

/-- The bytes of a value, its key left out.  A negative number of 32 bits
    is extended to 64. -/
def encodeScalar : (k : Scalar) → ScalarValue k → Bytes
  | .double, (v : UInt64) => littleEndian 8 v.toNat
  | .float, (v : UInt32) => littleEndian 4 v.toNat
  | .int32, (v : Int32) => Varint.encode v.toInt64.toUInt64.toNat
  | .int64, (v : Int64) => Varint.encode v.toUInt64.toNat
  | .uint32, (v : UInt32) => Varint.encode v.toNat
  | .uint64, (v : UInt64) => Varint.encode v.toNat
  | .sint32, (v : Int32) => Varint.encode (zigzag v.toInt)
  | .sint64, (v : Int64) => Varint.encode (zigzag v.toInt)
  | .fixed32, (v : UInt32) => littleEndian 4 v.toNat
  | .fixed64, (v : UInt64) => littleEndian 8 v.toNat
  | .sfixed32, (v : Int32) => littleEndian 4 v.toUInt32.toNat
  | .sfixed64, (v : Int64) => littleEndian 8 v.toUInt64.toNat
  | .bool, (v : Bool) => Varint.encode v.toNat
  | .string, (v : String) => delimited (Bytes.ofText v)
  | .bytes, (v : Bytes) => delimited v

/-! ### Reading -/

/-- A number of a fixed width. -/
def readFixed (width : Nat) (i : Input) : Except Fault (Nat × Input) :=
  if i.size < width then .error .underflow
  else .ok (ofLittleEndian (i.take width), i.drop width)

/-- A length and as many bytes. -/
def readDelimited (i : Input) : Except Fault (Bytes × Input) :=
  match Varint.read i with
  | .error e => .error e
  | .ok (n, rest) =>
    if rest.size < n then .error .underflow else .ok (rest.take n, rest.drop n)

/-- The value that a number stands for; numbers too long for a kind of 32
    bits lose their high half. -/
def ofNumber : (k : Scalar) → Nat → ScalarValue k
  | .double, n => UInt64.ofNat n
  | .float, n => UInt32.ofNat n
  | .int32, n => (UInt32.ofNat n).toInt32
  | .int64, n => (UInt64.ofNat n).toInt64
  | .uint32, n => UInt32.ofNat n
  | .uint64, n => UInt64.ofNat n
  | .sint32, n => Int32.ofInt (unzigzag (n % 4294967296))
  | .sint64, n => Int64.ofInt (unzigzag n)
  | .fixed32, n => UInt32.ofNat n
  | .fixed64, n => UInt64.ofNat n
  | .sfixed32, n => (UInt32.ofNat n).toInt32
  | .sfixed64, n => (UInt64.ofNat n).toInt64
  | .bool, n => n != 0
  | .string, _ => ""
  | .bytes, _ => ([] : Bytes)

/-- Reads a value whose wire type is the one of its kind. -/
def readScalar (k : Scalar) (i : Input) : Except Fault (ScalarValue k × Input) :=
  match k with
  | .string =>
    match readDelimited i with
    | .error e => .error e
    | .ok (content, rest) =>
      match Bytes.toText? content with
      | some text => .ok (text, rest)
      | none => .error .invalidText
  | .bytes => readDelimited i
  | k =>
    let number := match wireTypeOf k with
      | .fixed64 => readFixed 8 i
      | .fixed32 => readFixed 4 i
      | _ => Varint.read i
    match number with
    | .error e => .error e
    | .ok (n, rest) => .ok (ofNumber k n, rest)

/-- Refuses every wire type but one. -/
def expectWireType (expected found : WireType) : Except Fault Unit :=
  if found = expected then .ok () else .error (.wireTypeMismatch found expected)

/-! ### Reading goes forward -/

theorem size_readFixed {width n : Nat} {i rest : Input} (pos : 0 < width)
    (h : readFixed width i = .ok (n, rest)) : rest.size < i.size := by
  unfold readFixed at h
  split at h
  · contradiction
  · obtain ⟨-, rfl⟩ := Prod.mk.inj (Except.ok.inj h)
    simp only [Input.size_drop]
    omega

theorem size_readDelimited {content : Bytes} {i rest : Input}
    (h : readDelimited i = .ok (content, rest)) : rest.size < i.size := by
  unfold readDelimited at h
  split at h
  · contradiction
  · rename_i hv
    have := Varint.size_read hv
    split at h
    · contradiction
    · obtain ⟨-, rfl⟩ := Prod.mk.inj (Except.ok.inj h)
      simp only [Input.size_drop]
      omega

theorem size_readScalar {k : Scalar} {v : ScalarValue k} {i rest : Input}
    (h : readScalar k i = .ok (v, rest)) : rest.size < i.size := by
  unfold readScalar at h
  split at h
  · split at h
    · contradiction
    · rename_i hd
      have := size_readDelimited hd
      split at h
      · obtain ⟨-, rfl⟩ := Prod.mk.inj (Except.ok.inj h)
        exact this
      · contradiction
  · exact size_readDelimited h
  · simp only at h
    split at h
    · contradiction
    · rename_i hn
      obtain ⟨-, rfl⟩ := Prod.mk.inj (Except.ok.inj h)
      split at hn
      · exact size_readFixed (by decide) hn
      · exact size_readFixed (by decide) hn
      · exact Varint.size_read hn

end EventCodec.Wire
