import EventCodec.Wire.Key

/-! # Skipping values

    A value that nobody asked for is skipped by its wire type alone.
    Groups nest: a group ends with the end key of its own number, and
    what lies between is skipped in turn.

    Each value inside a group takes one level of a budget, so that a
    message cannot nest without bound. -/

namespace EventCodec.Wire

/-- The levels a message may nest. -/
def recursionBudget : Nat := 100

/-- Skips a fixed number of bytes. -/
def skipBytes (n : Nat) (i : Input) : Except Fault Input :=
  if i.size < n then .error .underflow else .ok (i.drop n)

/-- Skips a value that is no group. -/
def skipPlain (w : WireType) (i : Input) : Except Fault Input :=
  match w with
  | .varint =>
    match Varint.read i with
    | .error e => .error e
    | .ok (_, rest) => .ok rest
  | .fixed64 => skipBytes 8 i
  | .fixed32 => skipBytes 4 i
  | .lengthDelimited =>
    match Varint.read i with
    | .error e => .error e
    | .ok (n, rest) => skipBytes n rest
  | .startGroup | .endGroup => .error .unexpectedEndGroup

theorem size_skipBytes {n : Nat} {i rest : Input} (h : skipBytes n i = .ok rest) :
    rest.size ≤ i.size := by
  unfold skipBytes at h
  split at h
  · contradiction
  · obtain rfl := Except.ok.inj h
    simp

theorem size_skipPlain {w : WireType} {i rest : Input} (h : skipPlain w i = .ok rest) :
    rest.size ≤ i.size := by
  unfold skipPlain at h
  split at h
  · split at h
    · contradiction
    · rename_i hv
      obtain rfl := Except.ok.inj h
      exact Nat.le_of_lt (Varint.size_read hv)
  · exact size_skipBytes h
  · exact size_skipBytes h
  · split at h
    · contradiction
    · rename_i hv
      have := Varint.size_read hv
      have := size_skipBytes h
      omega
  · contradiction
  · contradiction

/-- Skips the rest of the groups that are open, the innermost first. -/
def skipGroups (budget : Nat) (groups : List UInt32) (i : Input) : Except Fault Input :=
  match groups with
  | [] => .ok i
  | number :: outer =>
    match _key : Key.read i with
    | .error e => .error e
    | .ok (key, rest) =>
      if key.wireType = .endGroup then
        if key.number = number then skipGroups budget outer rest
        else .error .unexpectedEndGroup
      else if budget ≤ outer.length + 1 then .error .recursionLimit
      else if key.wireType = .startGroup then
        skipGroups budget (key.number :: number :: outer) rest
      else
        match _value : skipPlain key.wireType rest with
        | .error e => .error e
        | .ok rest => skipGroups budget (number :: outer) rest
termination_by i.size
decreasing_by
  · exact Key.size_read _key
  · exact Key.size_read _key
  · have := Key.size_read _key
    have := size_skipPlain _value
    omega

/-- Skips the value after a key. -/
def skip (budget : Nat) (key : Key) (i : Input) : Except Fault Input :=
  if budget = 0 then .error .recursionLimit
  else if key.wireType = .startGroup then skipGroups budget [key.number] i
  else skipPlain key.wireType i

theorem size_skipGroups {budget : Nat} {groups : List UInt32} {i rest : Input}
    (h : skipGroups budget groups i = .ok rest) : rest.size ≤ i.size := by
  fun_induction skipGroups budget groups i with
  | case1 =>
    obtain rfl := Except.ok.inj h
    exact Nat.le_refl _
  | case3 _ _ _ tail hk _ ih =>
    have := Key.size_read hk
    have := ih h
    omega
  | case6 _ _ _ _ tail hk _ _ _ ih =>
    have := Key.size_read hk
    have := ih h
    omega
  | case8 _ _ _ _ tail hk _ _ _ left hv ih =>
    have := Key.size_read hk
    have := size_skipPlain hv
    have := ih h
    omega
  | _ => contradiction

theorem size_skip {budget : Nat} {key : Key} {i rest : Input} (h : skip budget key i = .ok rest) :
    rest.size ≤ i.size := by
  unfold skip at h
  split at h
  · contradiction
  · split at h
    · exact size_skipGroups h
    · exact size_skipPlain h

end EventCodec.Wire
