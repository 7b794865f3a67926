import EventCodec.Schema.Descriptor
import EventCodec.Wire.Scalar
import EventCodec.Wire.Skip
import Mathlib.Algebra.Group.Nat.Defs

/-! # Scalar values are read as they were written

    The readers of the wire format undo its writers: whatever follows a
    value on the wire, reading gives the value back and leaves exactly
    what follows.  The key idea is that every numeric kind is laid out as
    one natural number (`numberOf`), so that only three layouts have to be
    looked at: a variable-length number, a number of fixed width and
    delimited bytes.

    Skipping is not looked at separately.  Whoever can read a value can
    also skip it, and is left with the same rest (`skipPlain_of_readScalar`). -/

namespace EventCodec.Wire

open Schema (Scalar isInRange)

/-! ### Variable-length numbers -/

namespace Varint

theorem toNat_toUInt8 {n : Nat} (h : n < 256) : n.toUInt8.toNat = n := by
  simp; omega

theorem readFrom_encode {left n : Nat} (rest : Bytes) (h : n < 2 * 128 ^ left) :
    readFrom (left + 1) (.ofBytes (encode n ++ rest)) = some (n, .ofBytes rest) := by
  -- on the bytes that may still follow: each takes seven bits, and the
  -- last one, the tenth, has room for a single bit
  induction left generalizing n with
  | zero =>
    have hn : n.toUInt8.toNat = n := toNat_toUInt8 (by omega)
    have hlt : n.toUInt8 < 128 := by rw [UInt8.lt_iff_toNat_lt, hn]; simp; omega
    have hle : ¬ 1 < n.toUInt8 := by rw [UInt8.lt_iff_toNat_lt, hn]; simp; omega
    rw [encode, if_pos (by omega)]
    simp only [List.singleton_append, readFrom, Input.next?_cons, if_pos hlt]
    rw [if_neg (by simp [hle]), hn]
  | succ left ih =>
    rw [encode]
    split
    · next hsmall =>
      have hn : n.toUInt8.toNat = n := toNat_toUInt8 (by omega)
      have hlt : n.toUInt8 < 128 := by rw [UInt8.lt_iff_toNat_lt, hn]; simpa using hsmall
      simp only [List.singleton_append, readFrom, Input.next?_cons, if_pos hlt]
      rw [if_neg (by simp), hn]
    · next hbig =>
      have hb : (n % 128 + 128).toUInt8.toNat = n % 128 + 128 := toNat_toUInt8 (by omega)
      have hge : ¬ (n % 128 + 128).toUInt8 < 128 := by
        rw [UInt8.lt_iff_toNat_lt, hb]; simp
      -- one byte less is left, and the bound shrinks by the seven bits it takes
      have hhigh : n / 128 < 2 * 128 ^ left := by
        rw [Nat.div_lt_iff_lt_mul (by decide)]
        rw [Nat.pow_succ] at h
        omega
      rw [readFrom]
      simp only [List.cons_append, Input.next?_cons, if_neg hge, ih hhigh, hb]
      congr 2
      omega

theorem read_encode {n : Nat} (rest : Bytes) (h : n < 2 ^ 64) :
    read (.ofBytes (encode n ++ rest)) = .ok (n, .ofBytes rest) := by
  have hread : read? (.ofBytes (encode n ++ rest)) = some (n, .ofBytes rest) :=
    readFrom_encode rest (by omega)
  rw [read, hread]

end Varint

/-! ### Keys -/

namespace Key

theorem code_lt {k : Key} (h : isInRange k.number = true) : k.code < 4294967296 := by
  simp only [isInRange, Bool.and_eq_true, decide_eq_true_eq, UInt32.le_iff_toNat_le] at h
  have hmax : k.number.toNat ≤ 536870911 := h.2
  have := k.wireType.code_lt
  unfold code
  omega

theorem number_pos {k : Key} (h : isInRange k.number = true) : 0 < k.number.toNat := by
  simp only [isInRange, Bool.and_eq_true, bne_iff_ne, ne_eq, ← UInt32.toNat_inj] at h
  have hne : k.number.toNat ≠ 0 := h.1
  omega

theorem read_encode {k : Key} (rest : Bytes) (h : isInRange k.number = true) :
    read (.ofBytes (k.encode ++ rest)) = .ok (k, .ofBytes rest) := by
  have hcode := code_lt h
  have hpos := number_pos h
  have hw := k.wireType.code_lt
  -- the wire type is in the lowest three bits of the code
  have hlow : k.code % 8 = k.wireType.code := by unfold code; omega
  have hhigh : k.code / 8 = k.number.toNat := by unfold code; omega
  unfold read encode
  rw [Varint.read_encode rest (by omega)]
  simp only [hlow, hhigh, WireType.ofCode?_code, UInt32.ofNat_toNat]
  rw [if_neg (by omega), if_neg (by omega)]

end Key

/-! ### Numbers of fixed width -/

theorem length_littleEndian (width n : Nat) : (littleEndian width n).length = width := by
  induction width generalizing n with
  | zero => rfl
  | succ width ih => simp [littleEndian, ih]

theorem ofLittleEndian_littleEndian {width n : Nat} (h : n < 256 ^ width) :
    ofLittleEndian (littleEndian width n) = n := by
  induction width generalizing n with
  | zero => simp [littleEndian, ofLittleEndian]; omega
  | succ width ih =>
    have hhigh : n / 256 < 256 ^ width := by
      rw [Nat.div_lt_iff_lt_mul (by decide)]
      rwa [Nat.pow_succ] at h
    have hlow : (n % 256).toUInt8.toNat = n % 256 := Varint.toNat_toUInt8 (by omega)
    simp only [littleEndian, ofLittleEndian, ih hhigh, hlow]
    omega

theorem readFixed_littleEndian {width n : Nat} (rest : Bytes) (h : n < 256 ^ width) :
    readFixed width (.ofBytes (littleEndian width n ++ rest)) = .ok (n, .ofBytes rest) := by
  have hlen := length_littleEndian width n
  have htake : (Input.ofBytes (littleEndian width n ++ rest)).take width = littleEndian width n := by
    simpa [hlen] using Input.take_append (littleEndian width n) rest
  have hdrop : (Input.ofBytes (littleEndian width n ++ rest)).drop width = .ofBytes rest := by
    simpa [hlen] using Input.drop_append (littleEndian width n) rest
  unfold readFixed
  rw [if_neg (by simp [hlen]), htake, hdrop, ofLittleEndian_littleEndian h]

/-! ### Delimited bytes -/

theorem readDelimited_delimited {content : Bytes} (rest : Bytes) (h : content.length < 2 ^ 64) :
    readDelimited (.ofBytes (delimited content ++ rest)) = .ok (content, .ofBytes rest) := by
  unfold readDelimited delimited
  rw [List.append_assoc, Varint.read_encode _ h]
  simp

/-! ### One number for each value -/

/-- The number a numeric value is laid out as. -/
def numberOf : (k : Scalar) → ScalarValue k → Nat
  | .double, (v : UInt64) => v.toNat
  | .float, (v : UInt32) => v.toNat
  | .int32, (v : Int32) => v.toInt64.toUInt64.toNat
  | .int64, (v : Int64) => v.toUInt64.toNat
  | .uint32, (v : UInt32) => v.toNat
  | .uint64, (v : UInt64) => v.toNat
  | .sint32, (v : Int32) => zigzag v.toInt
  | .sint64, (v : Int64) => zigzag v.toInt
  | .fixed32, (v : UInt32) => v.toNat
  | .fixed64, (v : UInt64) => v.toNat
  | .sfixed32, (v : Int32) => v.toUInt32.toNat
  | .sfixed64, (v : Int64) => v.toUInt64.toNat
  | .bool, (v : Bool) => v.toNat
  | .string, _ => 0
  | .bytes, _ => 0

theorem zigzag_lt (half : Nat) {z : Int} (hlow : -half ≤ z) (hhigh : z < half) :
    zigzag z < 2 * half := by
  unfold zigzag
  split <;> omega

theorem numberOf_lt (k : Scalar) (v : ScalarValue k) : numberOf k v < 2 ^ 64 := by
  cases k with
  | double | uint64 | fixed64 => exact UInt64.toNat_lt v
  | float | uint32 | fixed32 => exact Nat.lt_trans (UInt32.toNat_lt v) (by decide)
  | int32 => exact UInt64.toNat_lt _
  | int64 | sfixed64 => exact UInt64.toNat_lt _
  | sint32 =>
    have hlow := Int32.le_toInt v
    have hhigh := Int32.toInt_lt v
    exact Nat.lt_trans (zigzag_lt (2 ^ 31) hlow hhigh) (by decide)
  | sint64 => exact zigzag_lt (2 ^ 63) (Int64.le_toInt v) (Int64.toInt_lt v)
  | sfixed32 => exact Nat.lt_trans (UInt32.toNat_lt _) (by decide)
  | bool => exact Nat.lt_of_le_of_lt (Bool.toNat_le v) (by decide)
  | string | bytes => exact Nat.two_pow_pos 64

/-- The kinds of four bytes hold no more than four bytes. -/
theorem numberOf_lt_of_fixed32 {k : Scalar} (h : wireTypeOf k = .fixed32) (v : ScalarValue k) :
    numberOf k v < 2 ^ 32 := by
  cases k with
  | float | fixed32 => exact UInt32.toNat_lt v
  | sfixed32 => exact UInt32.toNat_lt _
  | _ => contradiction

theorem setWidth_signExtend (v : BitVec 32) : (v.signExtend 64).setWidth 32 = v := by
  ext i hi
  simp [BitVec.getLsbD_signExtend, hi]
  omega

/-- A negative number of 32 bits survives the detour over 64 bits. -/
theorem toInt32_ofNat_extended (v : Int32) :
    (UInt32.ofNat v.toInt64.toUInt64.toNat).toInt32 = v := by
  apply Int32.toBitVec.inj
  rw [UInt32.ofNat_uInt64ToNat]
  exact setWidth_signExtend v.toBitVec

theorem ofNumber_numberOf {k : Scalar} (h : k.isNumeric = true) (v : ScalarValue k) :
    ofNumber k (numberOf k v) = v := by
  cases k with
  | double | uint64 | fixed64 => exact UInt64.ofNat_toNat
  | float | uint32 | fixed32 => exact UInt32.ofNat_toNat
  -- a negative number is written in ten bytes, as one of 64 bits
  | int32 => exact toInt32_ofNat_extended v
  | int64 | sfixed64 =>
    show (UInt64.ofNat (Int64.toUInt64 v).toNat).toInt64 = v
    rw [UInt64.ofNat_toNat, Int64.toInt64_toUInt64]
  | sint32 =>
    have hlt := zigzag_lt (2 ^ 31) (Int32.le_toInt v) (Int32.toInt_lt v)
    show Int32.ofInt (unzigzag (zigzag (Int32.toInt v) % 4294967296)) = v
    rw [Nat.mod_eq_of_lt (by omega), unzigzag_zigzag, Int32.ofInt_toInt]
  | sint64 =>
    show Int64.ofInt (unzigzag (zigzag (Int64.toInt v))) = v
    rw [unzigzag_zigzag, Int64.ofInt_toInt]
  | sfixed32 =>
    show (UInt32.ofNat (Int32.toUInt32 v).toNat).toInt32 = v
    rw [UInt32.ofNat_toNat, Int32.toInt32_toUInt32]
  | bool => cases v <;> rfl
  | string | bytes => contradiction

/-- The layout of a numeric value depends on its number and wire type
    only. -/
theorem encodeScalar_of_isNumeric {k : Scalar} (h : k.isNumeric = true) (v : ScalarValue k) :
    encodeScalar k v = match wireTypeOf k with
      | .fixed64 => littleEndian 8 (numberOf k v)
      | .fixed32 => littleEndian 4 (numberOf k v)
      | _ => Varint.encode (numberOf k v) := by
  cases k with
  | string | bytes => contradiction
  | _ => rfl

theorem readScalar_of_isNumeric {k : Scalar} (h : k.isNumeric = true) (i : Input) :
    readScalar k i =
      match (match wireTypeOf k with
        | .fixed64 => readFixed 8 i
        | .fixed32 => readFixed 4 i
        | _ => Varint.read i) with
      | .error e => .error e
      | .ok (n, rest) => .ok (ofNumber k n, rest) := by
  cases k with
  | string | bytes => contradiction
  | _ => rfl

/-! ### Reading what was written -/

/-- Numbers are read back whatever they are. -/
theorem readScalar_number {k : Scalar} (h : k.isNumeric = true) (v : ScalarValue k)
    (rest : Bytes) :
    readScalar k (.ofBytes (encodeScalar k v ++ rest)) = .ok (v, .ofBytes rest) := by
  have hnumber := numberOf_lt k v
  rw [readScalar_of_isNumeric h, encodeScalar_of_isNumeric h]
  -- writer and reader choose the same layout, whatever the kind
  cases hw : wireTypeOf k with
  | fixed64 =>
    have hnumber : numberOf k v < 256 ^ 8 := hnumber
    simp only [readFixed_littleEndian rest hnumber, ofNumber_numberOf h]
  | fixed32 =>
    have hnumber : numberOf k v < 256 ^ 4 := numberOf_lt_of_fixed32 hw v
    simp only [readFixed_littleEndian rest hnumber, ofNumber_numberOf h]
  | _ => simp only [Varint.read_encode rest hnumber, ofNumber_numberOf h]

theorem length_le_length_delimited (content : Bytes) :
    content.length ≤ (delimited content).length := by
  simp [delimited]

/-- Every value is read back, provided that its length can be written. -/
theorem readScalar_encodeScalar (k : Scalar) (v : ScalarValue k) (rest : Bytes)
    (h : (encodeScalar k v).length < 2 ^ 64) :
    readScalar k (.ofBytes (encodeScalar k v ++ rest)) = .ok (v, .ofBytes rest) := by
  cases k with
  | string =>
    have hlen : (Bytes.ofText v).length < 2 ^ 64 :=
      Nat.lt_of_le_of_lt (length_le_length_delimited _) h
    show readScalar .string (.ofBytes (delimited (Bytes.ofText v) ++ rest)) = _
    simp only [readScalar, readDelimited_delimited rest hlen, Bytes.toText?_ofText]
  | bytes =>
    have hlen : List.length v < 2 ^ 64 := Nat.lt_of_le_of_lt (length_le_length_delimited _) h
    exact readDelimited_delimited rest hlen
  | _ => exact readScalar_number rfl v rest

/-! ### Skipping -/

theorem skipPlain_of_readDelimited {content : Bytes} {i rest : Input}
    (h : readDelimited i = .ok (content, rest)) : skipPlain .lengthDelimited i = .ok rest := by
  unfold readDelimited at h
  unfold skipPlain skipBytes
  cases hread : Varint.read i with
  | error e =>
    rw [hread] at h
    contradiction
  | ok size =>
    simp only [hread] at h ⊢
    split at h
    · contradiction
    · next hsize =>
      obtain ⟨-, rfl⟩ := Prod.mk.inj (Except.ok.inj h)
      rw [if_neg hsize]

theorem skipBytes_of_readFixed {width n : Nat} {i rest : Input}
    (h : readFixed width i = .ok (n, rest)) : skipBytes width i = .ok rest := by
  unfold readFixed at h
  unfold skipBytes
  split at h
  · contradiction
  · next hsize =>
    obtain ⟨-, rfl⟩ := Prod.mk.inj (Except.ok.inj h)
    rw [if_neg hsize]

/-- What can be read as a value of a kind can be skipped by its wire
    type. -/
theorem skipPlain_of_readScalar {k : Scalar} {v : ScalarValue k} {i rest : Input}
    (h : readScalar k i = .ok (v, rest)) : skipPlain (wireTypeOf k) i = .ok rest := by
  by_cases hk : k.isNumeric = true
  · rw [readScalar_of_isNumeric hk] at h
    split at h
    · contradiction
    · next hnumber =>
      obtain ⟨-, rfl⟩ := Prod.mk.inj (Except.ok.inj h)
      cases hw : wireTypeOf k with
      | fixed64 => rw [hw] at hnumber; exact skipBytes_of_readFixed hnumber
      | fixed32 => rw [hw] at hnumber; exact skipBytes_of_readFixed hnumber
      | varint => rw [hw] at hnumber; simp only [skipPlain, hnumber]
      | lengthDelimited | startGroup | endGroup => cases k <;> contradiction
  · cases k with
    | string =>
      simp only [readScalar] at h
      split at h
      · contradiction
      · next hread =>
        split at h
        · obtain ⟨-, rfl⟩ := Prod.mk.inj (Except.ok.inj h)
          exact skipPlain_of_readDelimited hread
        · contradiction
    | bytes => exact skipPlain_of_readDelimited h
    | _ => exact absurd rfl hk

theorem skip_of_skipPlain {number : UInt32} {w : WireType} {i rest : Input}
    (h : skipPlain w i = .ok rest) : skip recursionBudget { number, wireType := w } i = .ok rest := by
  -- a group is the only thing that nests
  have hw : w ≠ .startGroup := by
    rintro rfl
    contradiction
  unfold skip
  rw [if_neg (by decide), if_neg hw, h]

end EventCodec.Wire
