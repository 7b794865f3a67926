import EventCodec.Ordered
import EventCodec.Wire.Layout
import EventCodec.Wire.Skip

/-! # Reading messages

    A message is read as the row of its occurrences: each known field
    contributes what its occurrence holds, each unknown one is skipped.
    The record then follows from the occurrences alone: the last one
    decides a single value, repeated values add up, and entries of a map
    replace those with the same key.

    Elements inside a delimited part are read from the input as a whole;
    only afterwards is it checked that the last one ended where the part
    ends. -/

namespace EventCodec.Wire

open Schema (Scalar)

namespace Shape

/-- What one occurrence of a field contributes. -/
abbrev Chunk : Shape → Type
  | .single k => ScalarValue k
  | .optional k => ScalarValue k
  | .repeated k _ => List (ScalarValue k)
  | .map k => String × ScalarValue k

/-- The value that the contributions of all occurrences make. -/
def combine : (s : Shape) → List s.Chunk → s.Value
  | .single k, chunks => chunks.getLast?.getD (ScalarValue.default k)
  | .optional _, chunks => chunks.getLast?
  | .repeated _ _, chunks => chunks.flatten
  | .map _, chunks => chunks.foldl (fun entries e => Ordered.insert e.1 e.2 entries) []

end Shape

/-! ### Delimited parts -/

/-- Reads the length of a part; the result is the size of the input at
    which the part ends. -/
def readLimit (i : Input) : Except Fault (Nat × Input) :=
  match Varint.read i with
  | .error e => .error e
  | .ok (n, rest) => if rest.size < n then .error .underflow else .ok (rest.size - n, rest)

/-- Reads packed values up to a limit; `before` are those already read,
    the last one first. -/
def readRun (k : Scalar) (limit : Nat) (before : List (ScalarValue k)) (i : Input) :
    Except Fault (List (ScalarValue k) × Input) :=
  if limit < i.size then
    match _value : readScalar k i with
    | .error e => .error e
    | .ok (v, rest) => readRun k limit (v :: before) rest
  else if i.size = limit then .ok (before.reverse, i)
  else .error .lengthExceeded
termination_by i.size
decreasing_by exact size_readScalar _value

/-- Reads one value of a kind under its key. -/
def readSingle (k : Scalar) (found : WireType) (i : Input) :
    Except Fault (ScalarValue k × Input) :=
  match expectWireType (wireTypeOf k) found with
  | .error e => .error e
  | .ok () => readScalar k i

/-- Reads one part of an entry of a map. -/
def readEntryField (k : Scalar) (budget : Nat) (entry : String × ScalarValue k) (key : Key)
    (i : Input) : Except Fault ((String × ScalarValue k) × Input) :=
  if key.number = 1 then
    match readSingle .string key.wireType i with
    | .error e => .error e
    | .ok (name, rest) => .ok ((name, entry.2), rest)
  else if key.number = 2 then
    match readSingle k key.wireType i with
    | .error e => .error e
    | .ok (v, rest) => .ok ((entry.1, v), rest)
  else
    match skip budget key i with
    | .error e => .error e
    | .ok rest => .ok (entry, rest)

theorem size_readSingle {k : Scalar} {found : WireType} {v : ScalarValue k} {i rest : Input}
    (h : readSingle k found i = .ok (v, rest)) : rest.size < i.size := by
  unfold readSingle at h
  split at h
  · contradiction
  · exact size_readScalar h

theorem size_readEntryField {k : Scalar} {budget : Nat} {entry result : String × ScalarValue k}
    {key : Key} {i rest : Input}
    (h : readEntryField k budget entry key i = .ok (result, rest)) : rest.size ≤ i.size := by
  unfold readEntryField at h
  split at h
  · split at h
    · contradiction
    · rename_i hs
      obtain ⟨-, rfl⟩ := Prod.mk.inj (Except.ok.inj h)
      exact Nat.le_of_lt (size_readSingle hs)
  · split at h
    · split at h
      · contradiction
      · rename_i hs
        obtain ⟨-, rfl⟩ := Prod.mk.inj (Except.ok.inj h)
        exact Nat.le_of_lt (size_readSingle hs)
    · split at h
      · contradiction
      · rename_i hs
        obtain ⟨-, rfl⟩ := Prod.mk.inj (Except.ok.inj h)
        exact size_skip hs

/-- Reads an entry of a map up to a limit. -/
def readEntryTo (k : Scalar) (budget limit : Nat) (entry : String × ScalarValue k) (i : Input) :
    Except Fault ((String × ScalarValue k) × Input) :=
  if limit < i.size then
    match _key : Key.read i with
    | .error e => .error e
    | .ok (key, rest) =>
      match _part : readEntryField k budget entry key rest with
      | .error e => .error e
      | .ok (entry, rest) => readEntryTo k budget limit entry rest
  else if i.size = limit then .ok (entry, i)
  else .error .lengthExceeded
termination_by i.size
decreasing_by
  have := Key.size_read _key
  have := size_readEntryField _part
  omega

/-- Reads an entry of a map. -/
def readEntry (k : Scalar) (budget : Nat) (i : Input) :
    Except Fault ((String × ScalarValue k) × Input) :=
  if budget = 0 then .error .recursionLimit
  else
    match readLimit i with
    | .error e => .error e
    | .ok (limit, rest) =>
      readEntryTo k (budget - 1) limit ("", ScalarValue.default k) rest

/-! ### Occurrences -/

/-- Reads the values of a repeated field: packed numbers in one run, all
    else one value at a time. -/
def readRepeated (k : Scalar) (found : WireType) (i : Input) :
    Except Fault (List (ScalarValue k) × Input) :=
  if k.isNumeric && found = .lengthDelimited then
    match readLimit i with
    | .error e => .error e
    | .ok (limit, rest) => readRun k limit [] rest
  else
    match readSingle k found i with
    | .error e => .error e
    | .ok (v, rest) => .ok ([v], rest)

/-- Reads what one occurrence of a field holds. -/
def readChunk (budget : Nat) : (s : Shape) → WireType → Input → Except Fault (s.Chunk × Input)
  | .single k, found, i => readSingle k found i
  | .optional k, found, i => readSingle k found i
  | .repeated k _, found, i => readRepeated k found i
  | .map k, _, i => readEntry k budget i

theorem size_readLimit {n : Nat} {i rest : Input} (h : readLimit i = .ok (n, rest)) :
    rest.size < i.size := by
  unfold readLimit at h
  split at h
  · contradiction
  · rename_i hv
    have := Varint.size_read hv
    split at h
    · contradiction
    · obtain ⟨-, rfl⟩ := Prod.mk.inj (Except.ok.inj h)
      exact this

theorem size_readRun {k : Scalar} {limit : Nat} {before vs : List (ScalarValue k)}
    {i rest : Input} (h : readRun k limit before i = .ok (vs, rest)) : rest.size ≤ i.size := by
  fun_induction readRun k limit before i with
  | case1 => contradiction
  | case2 _ _ _ _ _ hv ih =>
    have := size_readScalar hv
    have := ih h
    omega
  | case3 =>
    obtain ⟨-, rfl⟩ := Prod.mk.inj (Except.ok.inj h)
    exact Nat.le_refl _
  | case4 => contradiction

theorem size_readEntryTo {k : Scalar} {budget limit : Nat} {entry result : String × ScalarValue k}
    {i rest : Input} (h : readEntryTo k budget limit entry i = .ok (result, rest)) :
    rest.size ≤ i.size := by
  fun_induction readEntryTo k budget limit entry i with
  | case3 _ _ _ _ _ hk _ _ hp ih =>
    have := Key.size_read hk
    have := size_readEntryField hp
    have := ih h
    omega
  | case4 =>
    obtain ⟨-, rfl⟩ := Prod.mk.inj (Except.ok.inj h)
    exact Nat.le_refl _
  | _ => contradiction

theorem size_readChunk {budget : Nat} {s : Shape} {found : WireType} {c : s.Chunk}
    {i rest : Input} (h : readChunk budget s found i = .ok (c, rest)) : rest.size ≤ i.size := by
  cases s with
  | single k => exact Nat.le_of_lt (size_readSingle h)
  | optional k => exact Nat.le_of_lt (size_readSingle h)
  | repeated k packed =>
    simp only [readChunk, readRepeated] at h
    split at h
    · split at h
      · contradiction
      · rename_i hl
        have := size_readLimit hl
        have := size_readRun h
        omega
    · split at h
      · contradiction
      · rename_i hs
        obtain ⟨-, rfl⟩ := Prod.mk.inj (Except.ok.inj h)
        exact Nat.le_of_lt (size_readSingle hs)
  | map k =>
    simp only [readChunk, readEntry] at h
    split at h
    · contradiction
    · split at h
      · contradiction
      · rename_i hl
        have := size_readLimit hl
        have := size_readEntryTo h
        omega

/-- An occurrence of a known field. -/
structure Occurrence where
  field : FieldLayout
  chunk : field.shape.Chunk

/-- What the occurrences of one field hold, in order. -/
def chunksOf (f : FieldLayout) (occurrences : List Occurrence) : List f.shape.Chunk :=
  occurrences.filterMap fun o =>
    if h : o.field = f then some (h ▸ o.chunk) else none

/-! ### Messages -/

namespace Layout

/-- Reads the occurrences of the known fields to the end of the input;
    `before` are those already read, the last one first. -/
def occurrencesFrom (l : Layout) (before : List Occurrence) (i : Input) :
    Except Failure (List Occurrence) :=
  if i.size = 0 then .ok before.reverse
  else
    match _key : Key.read i with
    | .error e => .error (.ofFault e)
    | .ok (key, rest) =>
      match l.field? key.number with
      | none =>
        match _left : skip recursionBudget key rest with
        | .error e => .error (.ofFault e)
        | .ok rest => l.occurrencesFrom before rest
      | some f =>
        match _read : readChunk recursionBudget f.shape key.wireType rest with
        | .error e => .error (Failure.within (.ofFault e) { message := l.name, field := f.name })
        | .ok (chunk, rest) => l.occurrencesFrom ({ field := f, chunk } :: before) rest
termination_by i.size
decreasing_by
  · have := Key.size_read _key
    have := size_skip _left
    omega
  · have := Key.size_read _key
    have := size_readChunk _read
    omega

/-- The occurrences of the known fields. -/
def occurrences (l : Layout) (bytes : Bytes) : Except Failure (List Occurrence) :=
  l.occurrencesFrom [] (.ofBytes bytes)

/-- The record that occurrences make. -/
def record (l : Layout) (occurrences : List Occurrence) : Record :=
  l.fields.map fun f => { field := f, value := f.shape.combine (chunksOf f occurrences) }

/-- The record that bytes stand for. -/
def decode (l : Layout) (bytes : Bytes) : Except Failure Record :=
  (l.occurrences bytes).map l.record

end Layout

end EventCodec.Wire
