import EventCodec.Proofs.Wire.Scalar
import EventCodec.Wire.Reader

/-! # Reading and skipping go the same way

    Readers leave a suffix of what they are given, and a suffix is known
    by its size.  So whoever reads a run of packed numbers ends where one
    ends who skips it (`skipPlain_of_readRun`).

    The other way, a value that can be skipped can be read
    (`readScalar_of_skipPlain`), with one exception: a text may turn out
    to be none. -/

namespace EventCodec.Wire

open Schema (Scalar)

/-! ### Readers go forward -/

theorem Input.suffix_next? {i rest : Input} {b : UInt8} (h : i.next? = some (b, rest)) :
    rest.bytes <:+ i.bytes := by
  unfold next? at h
  split at h
  · contradiction
  · obtain ⟨-, rfl⟩ := Prod.mk.inj (Option.some.inj h)
    exact List.suffix_cons _ _

theorem Input.suffix_drop (n : Nat) (i : Input) : (i.drop n).bytes <:+ i.bytes :=
  List.drop_suffix n i.bytes

/-- What is left of an input is known by its size. -/
theorem Input.eq_drop_of_suffix {i rest : Input} (h : rest.bytes <:+ i.bytes) :
    rest = i.drop (i.size - rest.size) := by
  apply ext
  show rest.bytes = i.bytes.drop (i.size - rest.size)
  rw [← i.length_bytes, ← rest.length_bytes]
  exact List.suffix_iff_eq_drop.mp h

theorem Varint.suffix_readFrom {left n : Nat} {i rest : Input}
    (h : readFrom left i = some (n, rest)) : rest.bytes <:+ i.bytes := by
  induction left generalizing n i rest with
  | zero => contradiction
  | succ left ih =>
    simp only [readFrom] at h
    split at h
    · contradiction
    · next b tail hb =>
      have htail := Input.suffix_next? hb
      split at h
      · split at h
        · contradiction
        · obtain ⟨-, rfl⟩ := Prod.mk.inj (Option.some.inj h)
          exact htail
      · split at h
        · contradiction
        · next high tail' hhigh =>
          obtain ⟨-, rfl⟩ := Prod.mk.inj (Option.some.inj h)
          exact (ih hhigh).trans htail

theorem Varint.suffix_read {n : Nat} {i rest : Input} (h : read i = .ok (n, rest)) :
    rest.bytes <:+ i.bytes := by
  unfold read at h
  split at h
  · next r hr =>
    obtain rfl := Except.ok.inj h
    exact suffix_readFrom hr
  · contradiction

theorem suffix_skipBytes {n : Nat} {i rest : Input} (h : skipBytes n i = .ok rest) :
    rest.bytes <:+ i.bytes := by
  unfold skipBytes at h
  split at h
  · contradiction
  · obtain rfl := Except.ok.inj h
    exact i.suffix_drop n

theorem suffix_skipPlain {w : WireType} {i rest : Input} (h : skipPlain w i = .ok rest) :
    rest.bytes <:+ i.bytes := by
  unfold skipPlain at h
  split at h
  · split at h
    · contradiction
    · next hread =>
      obtain rfl := Except.ok.inj h
      exact Varint.suffix_read hread
  · exact suffix_skipBytes h
  · exact suffix_skipBytes h
  · split at h
    · contradiction
    · next hread => exact (suffix_skipBytes h).trans (Varint.suffix_read hread)
  · contradiction
  · contradiction

/-- A run is left where it ends. -/
theorem readRun_spec {k : Scalar} {limit : Nat} {before vs : List (ScalarValue k)}
    {i rest : Input} (h : readRun k limit before i = .ok (vs, rest)) :
    rest.bytes <:+ i.bytes ∧ rest.size = limit := by
  fun_induction readRun k limit before i with
  | case2 before i hmore v tail hread ih =>
    obtain ⟨hsuffix, hsize⟩ := ih h
    exact ⟨hsuffix.trans (suffix_skipPlain (skipPlain_of_readScalar hread)), hsize⟩
  | case3 before i hend hsize =>
    obtain ⟨-, rfl⟩ := Prod.mk.inj (Except.ok.inj h)
    exact ⟨List.suffix_refl _, hsize⟩
  | _ => contradiction

/-- Reading a run leaves what skipping it would leave. -/
theorem skipPlain_of_readRun {k : Scalar} {limit : Nat} {vs : List (ScalarValue k)}
    {i start rest : Input} (hlimit : readLimit i = .ok (limit, start))
    (hrun : readRun k limit [] start = .ok (vs, rest)) :
    skipPlain .lengthDelimited i = .ok rest := by
  obtain ⟨hsuffix, hsize⟩ := readRun_spec hrun
  have hrest := Input.eq_drop_of_suffix hsuffix
  unfold readLimit at hlimit
  unfold skipPlain skipBytes
  cases hread : Varint.read i with
  | error e =>
    rw [hread] at hlimit
    contradiction
  | ok size =>
    simp only [hread] at hlimit ⊢
    split at hlimit
    · contradiction
    · next hroom =>
      obtain ⟨rfl, rfl⟩ := Prod.mk.inj (Except.ok.inj hlimit)
      rw [if_neg hroom, hrest, hsize]
      congr 2
      omega

/-! ### What can be skipped can be read -/

theorem readFixed_of_skipBytes {width : Nat} {i rest : Input} (h : skipBytes width i = .ok rest) :
    ∃ n, readFixed width i = .ok (n, rest) := by
  unfold skipBytes at h
  unfold readFixed
  split at h
  · contradiction
  · next hsize =>
    obtain rfl := Except.ok.inj h
    exact ⟨_, if_neg hsize⟩

theorem readDelimited_of_skipPlain {i rest : Input}
    (h : skipPlain .lengthDelimited i = .ok rest) :
    ∃ content, readDelimited i = .ok (content, rest) := by
  unfold skipPlain skipBytes at h
  unfold readDelimited
  cases hread : Varint.read i with
  | error e =>
    rw [hread] at h
    contradiction
  | ok size =>
    simp only [hread] at h ⊢
    split at h
    · contradiction
    · next hroom =>
      obtain rfl := Except.ok.inj h
      exact ⟨_, if_neg hroom⟩

/-- Whatever can be skipped can be read, unless it ought to be a text. -/
theorem readScalar_of_skipPlain {k : Scalar} {i rest : Input} (hk : k ≠ .string)
    (h : skipPlain (wireTypeOf k) i = .ok rest) : ∃ v, readScalar k i = .ok (v, rest) := by
  by_cases hnumeric : k.isNumeric = true
  · rw [readScalar_of_isNumeric hnumeric]
    cases hw : wireTypeOf k with
    | fixed64 | fixed32 =>
      rw [hw] at h
      obtain ⟨n, hread⟩ := readFixed_of_skipBytes h
      exact ⟨ofNumber k n, by simp only [hread]⟩
    | varint =>
      rw [hw] at h
      unfold skipPlain at h
      cases hread : Varint.read i with
      | error e =>
        rw [hread] at h
        contradiction
      | ok size =>
        rw [hread] at h
        obtain rfl := Except.ok.inj h
        exact ⟨ofNumber k size.1, rfl⟩
    | lengthDelimited | startGroup | endGroup => cases k <;> contradiction
  · cases k with
    | string => contradiction
    | bytes => exact readDelimited_of_skipPlain h
    | _ => exact absurd rfl hnumeric

theorem skipPlain_of_skip {budget : Nat} {key : Key} {i rest : Input}
    (hw : key.wireType ≠ .startGroup) (h : skip budget key i = .ok rest) :
    skipPlain key.wireType i = .ok rest := by
  unfold skip at h
  rw [if_neg hw] at h
  split at h
  · contradiction
  · exact h

/-! ### Values on their own and in runs -/

theorem wireTypeOf_ne_of_isNumeric {k : Scalar} (h : k.isNumeric = true) :
    wireTypeOf k ≠ .lengthDelimited := by
  cases k with
  | string | bytes => contradiction
  | _ => decide

theorem wireTypeOf_ne_startGroup (k : Scalar) : wireTypeOf k ≠ .startGroup := by
  cases k <;> decide

theorem readSingle_eq_ok_iff {k : Scalar} {w : WireType} {v : ScalarValue k} {i rest : Input} :
    readSingle k w i = .ok (v, rest) ↔ w = wireTypeOf k ∧ readScalar k i = .ok (v, rest) := by
  unfold readSingle expectWireType
  by_cases hw : w = wireTypeOf k
  · simp [hw]
  · simp [hw]

/-- A repeated field is read as a run, or one value at a time. -/
theorem readRepeated_cases {k : Scalar} {w : WireType} {vs : List (ScalarValue k)} {i rest : Input}
    (h : readRepeated k w i = .ok (vs, rest)) :
    (k.isNumeric = true ∧ w = .lengthDelimited ∧ ∃ limit start,
      readLimit i = .ok (limit, start) ∧ readRun k limit [] start = .ok (vs, rest)) ∨
    ∃ v, readSingle k w i = .ok (v, rest) := by
  unfold readRepeated at h
  split at h
  · next hrun =>
    obtain ⟨hnumeric, hw⟩ : k.isNumeric = true ∧ w = .lengthDelimited := by simpa using hrun
    split at h
    · contradiction
    · next limit start hlimit => exact .inl ⟨hnumeric, hw, limit, start, hlimit, h⟩
  · split at h
    · contradiction
    · next v left hread =>
      obtain ⟨-, rfl⟩ := Prod.mk.inj (Except.ok.inj h)
      exact .inr ⟨v, hread⟩

theorem readRepeated_of_single {k : Scalar} {w : WireType} {v : ScalarValue k} {i rest : Input}
    (hsingle : k.isNumeric = true → w ≠ .lengthDelimited)
    (hread : readSingle k w i = .ok (v, rest)) : readRepeated k w i = .ok ([v], rest) := by
  unfold readRepeated
  rw [if_neg (by simpa using hsingle), hread]

theorem readRepeated_of_run {k : Scalar} {limit : Nat} {vs : List (ScalarValue k)}
    {i start rest : Input} (hnumeric : k.isNumeric = true)
    (hlimit : readLimit i = .ok (limit, start))
    (hrun : readRun k limit [] start = .ok (vs, rest)) :
    readRepeated k .lengthDelimited i = .ok (vs, rest) := by
  unfold readRepeated
  rw [if_pos (by simp [hnumeric]), hlimit]
  exact hrun

end EventCodec.Wire
