import EventCodec.Wire.Skip
import Mathlib.Algebra.Group.Nat.Defs

/-! # The form of keys and values

    Which bytes are a number, a key, a value, is said here without
    reading them.  A number may be padded; its only bounds are ten bytes
    and 64 bits.

    A reader succeeds exactly if such a form stands at the front of what
    it is given, and what it leaves is what stands behind
    (`Varint.read_eq_ok_iff`, `Key.read_eq_ok_iff`,
    `skipPlain_eq_ok_iff`).  It reports a fault exactly if none stands
    there, and `KeyFault` and `ValueFault` say which one. -/

namespace EventCodec.Wire

/-! ### Numbers -/

/-- Seven bits a byte, the low ones first; all bytes but the last have
    their high bit set. -/
inductive Varint.Digits : Bytes → Nat → Prop where
  | last {b : UInt8} : b.toNat < 128 → Digits [b] b.toNat
  | more {b : UInt8} {bs : Bytes} {n : Nat} : 128 ≤ b.toNat → Digits bs n →
      Digits (b :: bs) (b.toNat - 128 + 128 * n)

/-- The bytes of a number of 64 bits. -/
structure IsVarint (bs : Bytes) (n : Nat) : Prop where
  digits : Varint.Digits bs n
  length : bs.length ≤ 10
  bound : n < 2 ^ 64

/-- No number stands at the front. -/
def LacksVarint (bs : Bytes) : Prop :=
  ∀ front rest n, bs = front ++ rest → ¬ IsVarint front n

namespace Varint

variable {i rest : Input} {bs : Bytes} {n left : Nat} {fault : Fault}

theorem Digits.length_pos (h : Digits bs n) : 0 < bs.length := by
  cases h <;> simp

theorem bytes_next? {b : UInt8} (h : i.next? = some (b, rest)) : i.bytes = b :: rest.bytes := by
  unfold Input.next? at h
  split at h
  · contradiction
  · obtain ⟨rfl, rfl⟩ := Prod.mk.inj (Option.some.inj h)
    rfl

theorem next?_of_bytes {b : UInt8} (h : i.bytes = b :: rest.bytes) : i.next? = some (b, rest) := by
  have hi : i = .ofBytes (b :: rest.bytes) := Input.ext h
  rw [hi, Input.next?_cons, Input.ofBytes_bytes]

/-- The last of ten bytes must not exceed one. -/
theorem last_lt_iff {b : UInt8} (h : b.toNat < 128) :
    b.toNat < 2 * 128 ^ left ↔ ¬ (left = 0 ∧ 1 < b) := by
  rw [UInt8.lt_iff_toNat_lt]
  show _ ↔ ¬ (left = 0 ∧ 1 < b.toNat)
  cases left with
  | zero => omega
  | succ left =>
    have hpow : 0 < 128 ^ left := Nat.pow_pos (by decide)
    rw [Nat.pow_succ]
    omega

/-- What a byte adds is below 128, so a bound on the number is one on the
    digits behind it. -/
theorem more_lt_iff {b : UInt8} (h : 128 ≤ b.toNat) (hleft : 0 < left) :
    b.toNat - 128 + 128 * n < 2 * 128 ^ left ↔ n < 2 * 128 ^ (left - 1) := by
  have hbyte := b.toNat_lt
  obtain ⟨left, rfl⟩ := Nat.exists_eq_succ_of_ne_zero (Nat.ne_of_gt hleft)
  rw [Nat.succ_sub_one, Nat.pow_succ]
  omega

/-- Reading at most so many bytes finds the numbers that have no more, and
    of which the last byte does not exceed one if they have as many. -/
theorem readFrom_eq_some_iff :
    readFrom left i = some (n, rest) ↔
      ∃ front, i.bytes = front ++ rest.bytes ∧ Digits front n ∧ front.length ≤ left ∧
        n < 2 * 128 ^ (left - 1) := by
  -- the bound on the bytes that follow is that on the number, one byte less
  induction left generalizing i n with
  | zero =>
    constructor
    · intro h
      contradiction
    · -- no digits take no bytes
      rintro ⟨front, -, hdigits, hlength, -⟩
      have hpos := hdigits.length_pos
      omega
  | succ left ih =>
    rw [Nat.add_sub_cancel]
    constructor
    · intro h
      simp only [readFrom] at h
      split at h
      · contradiction
      · next b tail hnext =>
        have hbytes := bytes_next? hnext
        split at h
        · next hlow =>
          split at h
          · contradiction
          · next hlast =>
            obtain ⟨rfl, rfl⟩ := Prod.mk.inj (Option.some.inj h)
            have hb : b.toNat < 128 := UInt8.lt_iff_toNat_lt.mp hlow
            exact ⟨[b], hbytes, .last hb, by simp, (last_lt_iff hb).mpr hlast⟩
        · next hhigh =>
          split at h
          · contradiction
          · next high tail' hread =>
            obtain ⟨rfl, rfl⟩ := Prod.mk.inj (Option.some.inj h)
            obtain ⟨front, htail, hdigits, hlength, hbound⟩ := ih.mp hread
            have hb : 128 ≤ b.toNat :=
              Nat.not_lt.mp fun hlt => hhigh (UInt8.lt_iff_toNat_lt.mpr hlt)
            have hpos := hdigits.length_pos
            refine ⟨b :: front, by rw [hbytes, htail]; rfl, .more hb hdigits, ?_, ?_⟩
            · exact Nat.succ_le_succ hlength
            · exact (more_lt_iff hb (by omega)).mpr hbound
    · rintro ⟨front, hbytes, hdigits, hlength, hbound⟩
      cases hdigits with
      | @last b hb =>
        have hlow : b < 128 := UInt8.lt_iff_toNat_lt.mpr hb
        have hlast : ¬ (left = 0 ∧ 1 < b) := (last_lt_iff hb).mp hbound
        simp only [readFrom, next?_of_bytes hbytes, if_pos hlow, if_neg hlast]
      | @more b front n hb hdigits =>
        let tail : Input := .ofBytes (front ++ rest.bytes)
        have hnext : i.next? = some (b, tail) := next?_of_bytes hbytes
        have hhigh : ¬ b < 128 := mt UInt8.lt_iff_toNat_lt.mp (Nat.not_lt.mpr hb)
        have hlength' : front.length ≤ left := Nat.le_of_succ_le_succ hlength
        have hpos := hdigits.length_pos
        have hread : readFrom left tail = some (n, rest) :=
          ih.mpr ⟨front, rfl, hdigits, hlength', (more_lt_iff hb (by omega)).mp hbound⟩
        simp only [readFrom, hnext, if_neg hhigh, hread]

theorem read_eq_ok_iff :
    read i = .ok (n, rest) ↔ ∃ front, i.bytes = front ++ rest.bytes ∧ IsVarint front n := by
  have hread : read i = .ok (n, rest) ↔ readFrom maxBytes i = some (n, rest) := by
    unfold read read?
    cases readFrom maxBytes i <;> simp
  rw [hread, readFrom_eq_some_iff]
  apply exists_congr
  intro front
  apply and_congr_right
  intro _
  exact ⟨fun ⟨hdigits, hlength, hbound⟩ => ⟨hdigits, hlength, hbound⟩,
    fun h => ⟨h.digits, h.length, h.bound⟩⟩

theorem read_eq_error_iff :
    read i = .error fault ↔ fault = .invalidVarint ∧ LacksVarint i.bytes := by
  constructor
  · intro h
    refine ⟨?_, ?_⟩
    · unfold read at h
      split at h
      · contradiction
      · exact (Except.error.inj h).symm
    · intro front left n hbytes hvarint
      have hread : read i = .ok (n, .ofBytes left) := read_eq_ok_iff.mpr ⟨front, hbytes, hvarint⟩
      rw [h] at hread
      contradiction
  · rintro ⟨rfl, hlacks⟩
    cases hread : read i with
    | ok r =>
      obtain ⟨front, hbytes, hvarint⟩ := read_eq_ok_iff.mp hread
      exact absurd hvarint (hlacks front _ _ hbytes)
    | error e =>
      unfold read at hread
      split at hread
      · contradiction
      · exact hread.symm

end Varint

/-! ### Keys -/

/-- The bytes of a key: a number of 32 bits that stands for it, and no
    field has the number zero. -/
structure IsKey (bs : Bytes) (key : Key) : Prop where
  varint : IsVarint bs key.code
  bound : key.code < 2 ^ 32
  number : key.number ≠ 0

/-- Why no key stands at the front. -/
inductive KeyFault (bs : Bytes) : Fault → Prop where
  | varint : LacksVarint bs → KeyFault bs .invalidVarint
  | tooLarge {front rest : Bytes} {code : Nat} : bs = front ++ rest → IsVarint front code →
      2 ^ 32 ≤ code → KeyFault bs (.invalidKey code)
  | wireType {front rest : Bytes} {code : Nat} : bs = front ++ rest → IsVarint front code →
      code < 2 ^ 32 → 6 ≤ code % 8 → KeyFault bs (.invalidWireType (code % 8))
  | number {front rest : Bytes} {code : Nat} : bs = front ++ rest → IsVarint front code →
      code < 2 ^ 32 → code % 8 < 6 → code / 8 = 0 → KeyFault bs .invalidNumber

theorem WireType.ofCode?_eq_none_iff {code : Nat} : ofCode? code = none ↔ 6 ≤ code := by
  constructor
  · intro h
    rcases Nat.lt_or_ge code 6 with hlt | hge
    · have hall : ∀ k : Fin 6, ofCode? k ≠ none := by decide
      exact absurd h (hall ⟨code, hlt⟩)
    · exact hge
  · intro h
    cases hcode : ofCode? code with
    | none => rfl
    | some w =>
      have hlt := w.code_lt
      rw [code_of_ofCode? hcode] at hlt
      omega

namespace Key

variable {key : Key} {i rest : Input} {code : Nat} {fault : Fault}

theorem code_mod (key : Key) : key.code % 8 = key.wireType.code := by
  have hlt := key.wireType.code_lt
  unfold code
  omega

theorem code_div (key : Key) : key.code / 8 = key.number.toNat := by
  have hlt := key.wireType.code_lt
  unfold code
  omega

/-- Number and wire type of a key are the two parts of the number that
    stands for it. -/
theorem code_split {w : WireType} (hlow : w.code = code % 8) (hbound : code < 2 ^ 32) :
    Key.code { number := UInt32.ofNat (code / 8), wireType := w } = code := by
  have hhigh : (UInt32.ofNat (code / 8)).toNat = code / 8 := by
    rw [UInt32.toNat_ofNat']
    exact Nat.mod_eq_of_lt (by omega)
  show (UInt32.ofNat (code / 8)).toNat * 8 + w.code = code
  rw [hlow, hhigh]
  omega

/-- What a number says about a key. -/
theorem read_of_varint (h : Varint.read i = .ok (code, rest)) :
    read i =
      if 2 ^ 32 ≤ code then .error (.invalidKey code)
      else
        match WireType.ofCode? (code % 8) with
        | none => .error (.invalidWireType (code % 8))
        | some wireType =>
          if code / 8 = 0 then .error .invalidNumber
          else .ok ({ number := UInt32.ofNat (code / 8), wireType }, rest) := by
  rw [read, h]
  rfl

theorem read_eq_ok_iff :
    read i = .ok (key, rest) ↔ ∃ front, i.bytes = front ++ rest.bytes ∧ IsKey front key := by
  constructor
  · intro h
    cases hvarint : Varint.read i with
    | error e =>
      rw [read, hvarint] at h
      contradiction
    | ok r =>
      obtain ⟨code, left⟩ := r
      rw [read_of_varint hvarint] at h
      obtain ⟨front, hbytes, hfront⟩ := Varint.read_eq_ok_iff.mp hvarint
      split at h
      · contradiction
      · next hbound =>
        split at h
        · contradiction
        · next w hw =>
          split at h
          · contradiction
          · next hnumber =>
            obtain ⟨rfl, rfl⟩ := Prod.mk.inj (Except.ok.inj h)
            have hlt : code < 2 ^ 32 := Nat.not_le.mp hbound
            have hcode := code_split (WireType.code_of_ofCode? hw) hlt
            refine ⟨front, hbytes, hcode.symm ▸ hfront, by rw [hcode]; exact hlt, ?_⟩
            -- a number of zero would leave nothing but the wire type
            intro hzero
            apply hnumber
            rw [← hcode, code_div]
            exact congrArg UInt32.toNat hzero
  · rintro ⟨front, hbytes, hkey⟩
    have hnumber : ¬ key.number.toNat = 0 := fun hzero => hkey.number (UInt32.toNat_inj.mp hzero)
    rw [read_of_varint (Varint.read_eq_ok_iff.mpr ⟨front, hbytes, hkey.varint⟩),
      if_neg (Nat.not_le.mpr hkey.bound), code_mod, WireType.ofCode?_code, code_div]
    simp only [if_neg hnumber, UInt32.ofNat_toNat]

theorem read_eq_error_iff : read i = .error fault ↔ KeyFault i.bytes fault := by
  constructor
  · intro h
    cases hvarint : Varint.read i with
    | error e =>
      rw [read, hvarint] at h
      obtain rfl := Except.error.inj h
      obtain ⟨rfl, hlacks⟩ := Varint.read_eq_error_iff.mp hvarint
      exact .varint hlacks
    | ok r =>
      obtain ⟨code, left⟩ := r
      rw [read_of_varint hvarint] at h
      obtain ⟨front, hbytes, hfront⟩ := Varint.read_eq_ok_iff.mp hvarint
      split at h
      · next hbound =>
        obtain rfl := Except.error.inj h
        exact .tooLarge hbytes hfront hbound
      · next hbound =>
        split at h
        · next hw =>
          obtain rfl := Except.error.inj h
          exact .wireType hbytes hfront (Nat.not_le.mp hbound) (WireType.ofCode?_eq_none_iff.mp hw)
        · next w hw =>
          split at h
          · next hnumber =>
            obtain rfl := Except.error.inj h
            have hlow : code % 8 < 6 := WireType.code_of_ofCode? hw ▸ w.code_lt
            exact .number hbytes hfront (Nat.not_le.mp hbound) hlow hnumber
          · contradiction
  · -- the number at the front is the one that is read
    have hread : ∀ {front left : Bytes} {code : Nat}, i.bytes = front ++ left →
        IsVarint front code → Varint.read i = .ok (code, .ofBytes left) :=
      fun hbytes hfront => Varint.read_eq_ok_iff.mpr ⟨_, hbytes, hfront⟩
    intro h
    cases h with
    | varint hlacks => rw [read, Varint.read_eq_error_iff.mpr ⟨rfl, hlacks⟩]
    | tooLarge hbytes hfront hbound => rw [read_of_varint (hread hbytes hfront), if_pos hbound]
    | wireType hbytes hfront hbound hlow =>
      rw [read_of_varint (hread hbytes hfront), if_neg (Nat.not_le.mpr hbound),
        WireType.ofCode?_eq_none_iff.mpr hlow]
    | @number front left code hbytes hfront hbound hlow hnumber =>
      rw [read_of_varint (hread hbytes hfront), if_neg (Nat.not_le.mpr hbound)]
      cases hw : WireType.ofCode? (code % 8) with
      | none =>
        have hge := WireType.ofCode?_eq_none_iff.mp hw
        omega
      | some w => exact if_pos hnumber

end Key

/-! ### Values -/

/-- The bytes of a complete value.  A group is none. -/
def IsValue : WireType → Bytes → Prop
  | .varint, bs => ∃ n, IsVarint bs n
  | .fixed64, bs => bs.length = 8
  | .fixed32, bs => bs.length = 4
  | .lengthDelimited, bs => ∃ head content, bs = head ++ content ∧ IsVarint head content.length
  | .startGroup, _ | .endGroup, _ => False

/-- Why no complete value stands at the front. -/
inductive ValueFault (bs : Bytes) : WireType → Fault → Prop where
  | varint : LacksVarint bs → ValueFault bs .varint .invalidVarint
  | fixed64 : bs.length < 8 → ValueFault bs .fixed64 .underflow
  | fixed32 : bs.length < 4 → ValueFault bs .fixed32 .underflow
  | length : LacksVarint bs → ValueFault bs .lengthDelimited .invalidVarint
  | content {head rest : Bytes} {n : Nat} : bs = head ++ rest → IsVarint head n →
      rest.length < n → ValueFault bs .lengthDelimited .underflow

section Values

variable {w : WireType} {key : Key} {i rest : Input} {n : Nat} {fault : Fault}

theorem skipBytes_eq_ok_iff :
    skipBytes n i = .ok rest ↔ ∃ front, i.bytes = front ++ rest.bytes ∧ front.length = n := by
  have hsize := i.length_bytes
  unfold skipBytes
  constructor
  · intro h
    split at h
    · contradiction
    · obtain rfl := Except.ok.inj h
      exact ⟨i.bytes.take n, (List.take_append_drop n i.bytes).symm, by simp; omega⟩
  · rintro ⟨front, hbytes, rfl⟩
    have hlength : i.size = front.length + rest.bytes.length := by
      rw [← hsize, hbytes, List.length_append]
    rw [if_neg (by omega)]
    have hi : i = .ofBytes (front ++ rest.bytes) := Input.ext hbytes
    rw [hi, Input.drop_append, Input.ofBytes_bytes]

theorem skipBytes_eq_error_iff :
    skipBytes n i = .error fault ↔ fault = .underflow ∧ i.bytes.length < n := by
  rw [i.length_bytes]
  unfold skipBytes
  split
  · next hlt => simp [hlt, eq_comm]
  · next hge => simp [hge]

/-- A length in front of a value is read before the value is skipped. -/
theorem skipPlain_delimited (h : Varint.read i = .ok (n, rest)) :
    skipPlain .lengthDelimited i = skipBytes n rest := by
  rw [skipPlain, h]

/-- A value is skipped exactly if it is complete. -/
theorem skipPlain_eq_ok_iff :
    skipPlain w i = .ok rest ↔ ∃ front, i.bytes = front ++ rest.bytes ∧ IsValue w front := by
  cases w with
  | fixed64 => exact skipBytes_eq_ok_iff
  | fixed32 => exact skipBytes_eq_ok_iff
  | startGroup | endGroup => simp [skipPlain, IsValue]
  | varint =>
    constructor
    · intro h
      cases hread : Varint.read i with
      | error e =>
        rw [skipPlain, hread] at h
        contradiction
      | ok r =>
        obtain ⟨n, left⟩ := r
        rw [skipPlain, hread] at h
        obtain rfl := Except.ok.inj h
        obtain ⟨front, hbytes, hfront⟩ := Varint.read_eq_ok_iff.mp hread
        exact ⟨front, hbytes, n, hfront⟩
    · rintro ⟨front, hbytes, n, hfront⟩
      rw [skipPlain, Varint.read_eq_ok_iff.mpr ⟨front, hbytes, hfront⟩]
  | lengthDelimited =>
    constructor
    · intro h
      cases hread : Varint.read i with
      | error e =>
        rw [skipPlain, hread] at h
        contradiction
      | ok r =>
        obtain ⟨n, left⟩ := r
        rw [skipPlain_delimited hread] at h
        obtain ⟨head, hbytes, hhead⟩ := Varint.read_eq_ok_iff.mp hread
        obtain ⟨content, hleft, rfl⟩ := skipBytes_eq_ok_iff.mp h
        refine ⟨head ++ content, ?_, head, content, rfl, hhead⟩
        rw [hbytes, hleft, List.append_assoc]
    · rintro ⟨front, hbytes, head, content, rfl, hhead⟩
      rw [List.append_assoc] at hbytes
      have hread : Varint.read i = .ok (content.length, .ofBytes (content ++ rest.bytes)) :=
        Varint.read_eq_ok_iff.mpr ⟨head, hbytes, hhead⟩
      rw [skipPlain_delimited hread]
      exact skipBytes_eq_ok_iff.mpr ⟨content, rfl, rfl⟩

/-- Short of a group, a value cannot be skipped exactly if none is
    complete. -/
theorem skipPlain_eq_error_iff (hstart : w ≠ .startGroup) (hend : w ≠ .endGroup) :
    skipPlain w i = .error fault ↔ ValueFault i.bytes w fault := by
  constructor
  · intro h
    cases w with
    | startGroup => exact absurd rfl hstart
    | endGroup => exact absurd rfl hend
    | fixed64 =>
      obtain ⟨rfl, hlt⟩ := skipBytes_eq_error_iff.mp h
      exact .fixed64 hlt
    | fixed32 =>
      obtain ⟨rfl, hlt⟩ := skipBytes_eq_error_iff.mp h
      exact .fixed32 hlt
    | varint =>
      cases hread : Varint.read i with
      | ok r =>
        rw [skipPlain, hread] at h
        contradiction
      | error e =>
        rw [skipPlain, hread] at h
        obtain rfl := Except.error.inj h
        obtain ⟨rfl, hlacks⟩ := Varint.read_eq_error_iff.mp hread
        exact .varint hlacks
    | lengthDelimited =>
      cases hread : Varint.read i with
      | error e =>
        rw [skipPlain, hread] at h
        obtain rfl := Except.error.inj h
        obtain ⟨rfl, hlacks⟩ := Varint.read_eq_error_iff.mp hread
        exact .length hlacks
      | ok r =>
        obtain ⟨n, left⟩ := r
        rw [skipPlain_delimited hread] at h
        obtain ⟨head, hbytes, hhead⟩ := Varint.read_eq_ok_iff.mp hread
        obtain ⟨rfl, hlt⟩ := skipBytes_eq_error_iff.mp h
        exact .content hbytes hhead hlt
  · intro h
    cases h with
    | varint hlacks => rw [skipPlain, Varint.read_eq_error_iff.mpr ⟨rfl, hlacks⟩]
    | length hlacks => rw [skipPlain, Varint.read_eq_error_iff.mpr ⟨rfl, hlacks⟩]
    | fixed64 hlt => exact skipBytes_eq_error_iff.mpr ⟨rfl, hlt⟩
    | fixed32 hlt => exact skipBytes_eq_error_iff.mpr ⟨rfl, hlt⟩
    | @content head left n hbytes hhead hlt =>
      have hread : Varint.read i = .ok (n, .ofBytes left) :=
        Varint.read_eq_ok_iff.mpr ⟨head, hbytes, hhead⟩
      rw [skipPlain_delimited hread]
      exact skipBytes_eq_error_iff.mpr ⟨rfl, hlt⟩

/-- Short of a group, nothing nests. -/
theorem skip_eq_skipPlain (hstart : key.wireType ≠ .startGroup) :
    skip recursionBudget key i = skipPlain key.wireType i := by
  rw [skip, if_neg (by decide), if_neg hstart]

end Values

end EventCodec.Wire
