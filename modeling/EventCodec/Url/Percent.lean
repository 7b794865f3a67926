import EventCodec.Bytes

/-! # Percent encoding

    A URL holds only some characters of ASCII as they are, and which ones
    depends on the place.  All others are written as the bytes of their
    UTF-8, each as a percent sign and two digits. -/

namespace EventCodec.Url

/-! ### What has to be encoded -/

/-- What no place holds: control characters and all beyond ASCII. -/
def isForeign (c : Char) : Bool :=
  c.toNat ≤ 0x1F || 0x7F ≤ c.toNat

def isRefusedInFragment (c : Char) : Bool :=
  isForeign c || [' ', '"', '<', '>', '\x60'].contains c

def isRefusedInPath (c : Char) : Bool :=
  isRefusedInFragment c || ['#', '?', '\x7b', '\x7d'].contains c

/-- What a segment cannot hold that is to stay one segment, and to be read
    back as it was. -/
def isRefusedInSegment (c : Char) : Bool :=
  isRefusedInPath c || ['/', '%', '\\'].contains c

def isRefusedInUser (c : Char) : Bool :=
  isRefusedInPath c || ['/', ':', ';', '=', '@', '[', '\\', ']', '^', '|'].contains c

def isRefusedInQuery (c : Char) : Bool :=
  isForeign c || [' ', '"', '#', '<', '>', '\''].contains c

/-! ### Encoding and decoding -/

/-- A digit, upper case. -/
def upperDigit (n : UInt8) : Char :=
  Char.ofNat (if n < 10 then 48 + n.toNat else 55 + n.toNat)

def encodeByte (b : UInt8) : List Char :=
  ['%', upperDigit (b / 16), upperDigit (b % 16)]

/-- Encodes the characters that a place refuses. -/
def encode (refused : Char → Bool) (text : List Char) : List Char :=
  text.flatMap fun c =>
    if refused c then (Bytes.ofText (String.singleton c)).flatMap encodeByte else [c]

/-- The bytes a text stands for.  A percent sign that two digits do not
    follow stands for itself. -/
def decode : Bytes → Bytes
  | [] => []
  | b :: rest =>
    match b, rest with
    | 0x25, high :: low :: more =>
      match Bytes.hexValue? (Char.ofNat high.toNat), Bytes.hexValue? (Char.ofNat low.toNat) with
      | some h, some l => (h * 16 + l) :: decode more
      | _, _ => 0x25 :: decode (high :: low :: more)
    | b, rest => b :: decode rest

end EventCodec.Url
