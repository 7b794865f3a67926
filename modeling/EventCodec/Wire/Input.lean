import EventCodec.Bytes

/-! # Input of the wire format

    The bytes still to be read, with their number at hand: lengths inside
    a message are compared with it at every step. -/

namespace EventCodec.Wire

structure Input where
  bytes : Bytes
  /-- How many bytes are left. -/
  size : Nat
  length_bytes : bytes.length = size

namespace Input

def ofBytes (bytes : Bytes) : Input :=
  { bytes, size := bytes.length, length_bytes := rfl }

@[ext] theorem ext {i j : Input} (h : i.bytes = j.bytes) : i = j := by
  cases i with | mk b n hb =>
  cases j with | mk c m hc =>
  obtain rfl : b = c := h
  subst hb hc
  rfl

@[simp] theorem ofBytes_bytes (i : Input) : ofBytes i.bytes = i :=
  ext rfl

@[simp] theorem bytes_ofBytes (bytes : Bytes) : (ofBytes bytes).bytes = bytes := rfl

@[simp] theorem size_ofBytes (bytes : Bytes) : (ofBytes bytes).size = bytes.length := rfl

/-- The next byte and what follows it. -/
def next? (i : Input) : Option (UInt8 × Input) :=
  match i with
  | { bytes := [], .. } => none
  | { bytes := b :: rest, size, length_bytes } =>
    some (b, { bytes := rest, size := size - 1, length_bytes := by simp at length_bytes; omega })

@[simp] theorem next?_nil : (ofBytes []).next? = none := rfl

@[simp] theorem next?_cons (b : UInt8) (rest : Bytes) :
    (ofBytes (b :: rest)).next? = some (b, ofBytes rest) := by
  simp only [next?, ofBytes, Option.some.injEq, Prod.mk.injEq, true_and]
  exact ext rfl

theorem size_next? {i rest : Input} {b : UInt8} (h : i.next? = some (b, rest)) :
    rest.size + 1 = i.size := by
  unfold next? at h
  split at h
  · contradiction
  · rename_i _ tail size len
    obtain ⟨-, rfl⟩ := Prod.mk.inj (Option.some.inj h)
    simp only [List.length_cons] at len
    simp only
    omega

/-- What is left after the next `n` bytes. -/
def drop (n : Nat) (i : Input) : Input :=
  { bytes := i.bytes.drop n, size := i.size - n, length_bytes := by simp [i.length_bytes] }

@[simp] theorem size_drop (n : Nat) (i : Input) : (i.drop n).size = i.size - n := rfl

@[simp] theorem drop_append (front back : Bytes) :
    (ofBytes (front ++ back)).drop front.length = ofBytes back :=
  ext (by simp [drop])

/-- The next `n` bytes. -/
def take (n : Nat) (i : Input) : Bytes :=
  i.bytes.take n

@[simp] theorem take_append (front back : Bytes) :
    (ofBytes (front ++ back)).take front.length = front := by
  simp [take]

end Input

end EventCodec.Wire
