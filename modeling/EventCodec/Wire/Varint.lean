import EventCodec.Wire.Fault
import EventCodec.Wire.Input

/-! # Variable-length numbers

    Seven bits a byte, the low ones first; the high bit of a byte says
    that another one follows.  A number has 64 bits, so it takes at most
    ten bytes and the tenth is at most one.  Writing uses as few bytes as
    possible, reading accepts padding. -/

namespace EventCodec.Wire.Varint

/-! ### Writing -/

def encode (n : Nat) : Bytes :=
  if n < 128 then [n.toUInt8] else (n % 128 + 128).toUInt8 :: encode (n / 128)

/-! ### Reading -/

/-- Reads a number of at most `left` bytes, of which the last must not
    exceed one if all ten are used. -/
def readFrom : Nat → Input → Option (Nat × Input)
  | 0, _ => none
  | left + 1, i =>
    match i.next? with
    | none => none
    | some (b, rest) =>
      if b < 128 then
        if left = 0 ∧ 1 < b then none else some (b.toNat, rest)
      else
        match readFrom left rest with
        | none => none
        | some (high, rest) => some (b.toNat - 128 + 128 * high, rest)

/-- The most bytes a number may take. -/
def maxBytes : Nat := 10

def read? (i : Input) : Option (Nat × Input) :=
  readFrom maxBytes i

/-- Reads a number, or reports the fault. -/
def read (i : Input) : Except Fault (Nat × Input) :=
  match read? i with
  | some r => .ok r
  | none => .error .invalidVarint

theorem size_readFrom {left n : Nat} {i rest : Input} (h : readFrom left i = some (n, rest)) :
    rest.size < i.size := by
  induction left generalizing n i rest with
  | zero => contradiction
  | succ left ih =>
    simp only [readFrom] at h
    split at h
    · contradiction
    · rename_i b tail hb
      have := Input.size_next? hb
      split at h
      · split at h
        · contradiction
        · obtain ⟨-, rfl⟩ := Prod.mk.inj (Option.some.inj h)
          omega
      · split at h
        · contradiction
        · rename_i high tail' ht
          obtain ⟨-, rfl⟩ := Prod.mk.inj (Option.some.inj h)
          have := ih ht
          omega

theorem size_read {n : Nat} {i rest : Input} (h : read i = .ok (n, rest)) :
    rest.size < i.size := by
  unfold read at h
  split at h
  · rename_i r hr
    obtain rfl := Except.ok.inj h
    exact size_readFrom hr
  · contradiction

end EventCodec.Wire.Varint
