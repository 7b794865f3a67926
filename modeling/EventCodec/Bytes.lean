/-! # Bytes

    Rows of bytes, and the two texts made of them: hexadecimal digits and
    UTF-8. -/

namespace EventCodec

/-- A row of bytes. -/
abbrev Bytes := List UInt8

namespace Bytes

/-- The bytes of a text in UTF-8. -/
def ofText (text : String) : Bytes :=
  text.toByteArray.data.toList

/-- The text whose UTF-8 these bytes are. -/
def toText? (bytes : Bytes) : Option String :=
  String.fromUTF8? ⟨bytes.toArray⟩

@[simp] theorem toText?_ofText (text : String) : toText? (ofText text) = some text := by
  have same : (⟨(ofText text).toArray⟩ : ByteArray) = text.toByteArray := by simp [ofText]
  rw [toText?, same, String.fromUTF8?, dif_pos text.isValidUTF8]
  exact congrArg some (String.toByteArray_inj.1 rfl)

theorem ofText_of_toText? {bytes : Bytes} {text : String} (h : toText? bytes = some text) :
    ofText text = bytes := by
  unfold toText? String.fromUTF8? at h
  split at h
  · obtain rfl := Option.some.inj h
    exact List.toList_toArray
  · contradiction

/-- A hexadecimal digit, lower case. -/
def hexDigit (n : UInt8) : Char :=
  Char.ofNat (if n < 10 then 48 + n.toNat else 87 + n.toNat)

/-- Two digits a byte. -/
def toHex (bytes : Bytes) : String :=
  bytes.foldl (fun text b => (text.push (hexDigit (b / 16))).push (hexDigit (b % 16))) ""

/-- The number a hexadecimal digit stands for, in either case. -/
def hexValue? (c : Char) : Option UInt8 :=
  if '0' ≤ c && c ≤ '9' then some (c.toNat - 48).toUInt8
  else if 'a' ≤ c && c ≤ 'f' then some (c.toNat - 87).toUInt8
  else if 'A' ≤ c && c ≤ 'F' then some (c.toNat - 55).toUInt8
  else none

/-- Reads pairs of digits; `before` are the bytes already read, the last
    one first. -/
def ofHexFrom? (before : Bytes) : List Char → Option Bytes
  | [] => some before.reverse
  | [_] => none
  | high :: low :: rest =>
    match hexValue? high, hexValue? low with
    | some h, some l => ofHexFrom? ((h * 16 + l) :: before) rest
    | _, _ => none

/-- The bytes written as pairs of hexadecimal digits. -/
def ofHex? (text : String) : Option Bytes :=
  ofHexFrom? [] text.toList

end Bytes

end EventCodec
