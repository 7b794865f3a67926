import EventCodec.Wire.Varint

/-! # Keys

    Every field starts with a key: its number and the wire type of the
    value that follows, in one variable-length number of at most 32
    bits. -/

namespace EventCodec.Wire

structure Key where
  number : UInt32
  wireType : WireType
deriving DecidableEq, Repr

namespace Key

/-- The number that stands for the key. -/
def code (k : Key) : Nat :=
  k.number.toNat * 8 + k.wireType.code

def encode (k : Key) : Bytes :=
  Varint.encode k.code

/-- Reads a key.  A number too large is reported before a wire type that
    does not exist, and that before a field number of zero. -/
def read (i : Input) : Except Fault (Key × Input) :=
  match Varint.read i with
  | .error e => .error e
  | .ok (code, rest) =>
    if 4294967296 ≤ code then .error (.invalidKey code)
    else
      match WireType.ofCode? (code % 8) with
      | none => .error (.invalidWireType (code % 8))
      | some wireType =>
        if code / 8 = 0 then .error .invalidNumber
        else .ok ({ number := UInt32.ofNat (code / 8), wireType }, rest)

theorem size_read {i rest : Input} {k : Key} (h : read i = .ok (k, rest)) :
    rest.size < i.size := by
  unfold read at h
  split at h
  · contradiction
  · rename_i code tail hv
    have := Varint.size_read hv
    split at h
    · contradiction
    · split at h
      · contradiction
      · split at h
        · contradiction
        · obtain ⟨-, rfl⟩ := Prod.mk.inj (Except.ok.inj h)
          exact this

end Key

end EventCodec.Wire
