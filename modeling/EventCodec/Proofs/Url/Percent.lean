import EventCodec.Url.Basic

/-! # Percent encoding is undone by decoding

    A place that refuses the percent sign and all that is beyond ASCII can
    be read back: what it keeps stands for itself, and everything else
    comes as the bytes of its UTF-8.  So no two texts look the same
    there. -/

namespace EventCodec

/-- The bytes of a text are those of its characters. -/
theorem Bytes.ofText_ofList (text : List Char) :
    Bytes.ofText (String.ofList text) = text.flatMap String.utf8EncodeChar := by
  simp [Bytes.ofText, List.utf8Encode]

theorem Bytes.ofText_singleton (c : Char) :
    Bytes.ofText (String.singleton c) = String.utf8EncodeChar c := by
  rw [String.singleton_eq_ofList, Bytes.ofText_ofList, List.flatMap_singleton]

/-- A character has at least one byte. -/
theorem utf8EncodeChar_ne_nil (c : Char) : String.utf8EncodeChar c ≠ [] := by
  rw [← List.length_pos_iff, String.length_utf8EncodeChar]
  exact c.utf8Size_pos

theorem length_le_flatMap {α β : Type} {f : α → List β} (h : ∀ a, f a ≠ []) (items : List α) :
    items.length ≤ (items.flatMap f).length := by
  induction items with
  | nil => exact Nat.le_refl 0
  | cons a items ih =>
    have hsome := List.length_pos_iff.mpr (h a)
    rw [List.flatMap_cons, List.length_append, List.length_cons]
    omega

theorem length_le_utf8ByteSize (text : String) : text.length ≤ text.utf8ByteSize := by
  have hbytes := Bytes.ofText_ofList text.toList
  rw [String.ofList_toList] at hbytes
  have hsize : text.utf8ByteSize = (Bytes.ofText text).length := by
    rw [Bytes.ofText, Array.length_toList]
    rfl
  rw [hsize, hbytes, ← String.length_toList]
  exact length_le_flatMap utf8EncodeChar_ne_nil text.toList

namespace Url

/-! ### One byte -/

theorem decode_cons_of_ne {b : UInt8} (h : b ≠ 0x25) (rest : Bytes) :
    decode (b :: rest) = b :: decode rest := by
  rw [decode]
  intro _ _ _ heq
  exact absurd heq h

theorem highDigit_lt (b : UInt8) : b / 16 < 16 := by
  have hb := b.toNat_lt
  rw [UInt8.lt_iff_toNat_lt, UInt8.toNat_div]
  show b.toNat / 16 < 16
  omega

theorem lowDigit_lt (b : UInt8) : b % 16 < 16 := by
  rw [UInt8.lt_iff_toNat_lt, UInt8.toNat_mod]
  exact Nat.mod_lt _ (by decide)

theorem digits_eq (b : UInt8) : b / 16 * 16 + b % 16 = b := by
  have hb := b.toNat_lt
  apply UInt8.toNat_inj.mp
  rw [UInt8.toNat_add, UInt8.toNat_mul, UInt8.toNat_div, UInt8.toNat_mod]
  show (b.toNat / 16 * 16 % 256 + b.toNat % 16) % 256 = b.toNat
  omega

/-- What holds of the sixteen digits. -/
theorem forall_digit {P : UInt8 → Prop} (hall : ∀ k : Fin 16, P (UInt8.ofNat k)) {n : UInt8}
    (h : n < 16) : P n := by
  have hdigit := hall ⟨n.toNat, UInt8.lt_iff_toNat_lt.mp h⟩
  rwa [UInt8.ofNat_toNat] at hdigit

/-- A digit is one byte, and has its value. -/
theorem exists_digit {n : UInt8} (h : n < 16) :
    ∃ digit, String.utf8EncodeChar (upperDigit n) = [digit] ∧
      Bytes.hexValue? (Char.ofNat digit.toNat) = some n := by
  refine ⟨UInt8.ofNat (upperDigit n).toNat, ?_⟩
  exact forall_digit
    (P := fun n => String.utf8EncodeChar (upperDigit n) = [UInt8.ofNat (upperDigit n).toNat] ∧
      Bytes.hexValue? (Char.ofNat (UInt8.ofNat (upperDigit n).toNat).toNat) = some n)
    (by decide) h

/-- An encoded byte is read as that byte. -/
theorem decode_encodeByte (b : UInt8) (rest : Bytes) :
    decode ((encodeByte b).flatMap String.utf8EncodeChar ++ rest) = b :: decode rest := by
  obtain ⟨high, hhighByte, hhighValue⟩ := exists_digit (highDigit_lt b)
  obtain ⟨low, hlowByte, hlowValue⟩ := exists_digit (lowDigit_lt b)
  have hpercent : String.utf8EncodeChar '%' = [0x25] := by decide
  simp only [encodeByte, List.flatMap_cons, List.flatMap_nil, hpercent, hhighByte, hlowByte]
  show decode (0x25 :: high :: low :: rest) = b :: decode rest
  rw [decode, hhighValue, hlowValue]
  show (b / 16 * 16 + b % 16) :: decode rest = b :: decode rest
  rw [digits_eq]

theorem decode_encodeBytes (bytes rest : Bytes) :
    decode ((bytes.flatMap encodeByte).flatMap String.utf8EncodeChar ++ rest) =
      bytes ++ decode rest := by
  induction bytes with
  | nil => rfl
  | cons b bytes ih =>
    rw [List.flatMap_cons, List.flatMap_append, List.append_assoc, decode_encodeByte, ih]
    rfl

/-! ### Texts -/

/-- What a place keeps can be told from what is encoded there. -/
def IsReadable (refused : Char → Bool) : Prop :=
  ∀ c, refused c = false → c.toNat < 0x80 ∧ c ≠ '%'

theorem isReadable_segment : IsReadable isRefusedInSegment := by
  intro c hc
  simp only [isRefusedInSegment, isRefusedInPath, isRefusedInFragment, isForeign,
    Bool.or_eq_false_iff, decide_eq_false_iff_not] at hc
  refine ⟨by omega, ?_⟩
  rintro rfl
  simp at hc

/-- A character of ASCII is one byte. -/
theorem utf8EncodeChar_of_lt {c : Char} (h : c.toNat < 0x80) :
    String.utf8EncodeChar c = [UInt8.ofNat c.toNat] := by
  rw [String.utf8EncodeChar_eq_singleton]
  · rfl
  · rw [Char.utf8Size, if_pos]
    rw [UInt32.le_iff_toNat_le]
    exact Nat.le_of_lt_succ h

theorem decode_encode {refused : Char → Bool} (h : IsReadable refused) (text : List Char)
    (rest : Bytes) :
    decode ((encode refused text).flatMap String.utf8EncodeChar ++ rest) =
      text.flatMap String.utf8EncodeChar ++ decode rest := by
  induction text with
  | nil => rfl
  | cons c text ih =>
    rw [encode, List.flatMap_cons, List.flatMap_append, List.append_assoc, ← encode,
      List.flatMap_cons, List.append_assoc]
    -- a refused character comes as its bytes, any other as itself
    by_cases hc : refused c = true
    · rw [if_pos hc, Bytes.ofText_singleton, decode_encodeBytes, ih]
    · obtain ⟨hlt, hne⟩ := h c (by simpa using hc)
      have hbyte : UInt8.ofNat c.toNat ≠ 0x25 := by
        intro heq
        have hcode : c.toNat % 256 = 0x25 := congrArg UInt8.toNat heq
        refine hne (Char.toNat_inj.mp ?_)
        show c.toNat = 0x25
        omega
      rw [if_neg hc, List.flatMap_singleton, utf8EncodeChar_of_lt hlt, List.singleton_append,
        List.singleton_append, decode_cons_of_ne hbyte, ih]

/-- An encoded text is read as that text. -/
theorem decodeText?_encode {refused : Char → Bool} (h : IsReadable refused) (text : List Char) :
    decodeText? (String.ofList (encode refused text)) = some (String.ofList text) := by
  have hdecode := decode_encode h text []
  rw [List.append_nil, decode, List.append_nil, ← Bytes.ofText_ofList, ← Bytes.ofText_ofList]
    at hdecode
  rw [decodeText?, hdecode, Bytes.toText?_ofText]

/-- Nothing gets shorter by being encoded. -/
theorem length_le_encode (refused : Char → Bool) (text : List Char) :
    text.length ≤ (encode refused text).length := by
  refine length_le_flatMap (fun c => ?_) text
  split
  · rw [Bytes.ofText_singleton]
    cases hform : String.utf8EncodeChar c with
    | nil => exact absurd hform (utf8EncodeChar_ne_nil c)
    | cons b rest => exact List.cons_ne_nil _ _
  · exact List.cons_ne_nil _ _

theorem encode_injective {refused : Char → Bool} (h : IsReadable refused)
    {text other : List Char} (heq : encode refused text = encode refused other) :
    text = other := by
  have hread := decodeText?_encode h text
  rw [heq, decodeText?_encode h] at hread
  exact (String.ofList_injective (Option.some.inj hread)).symm

end Url

end EventCodec
