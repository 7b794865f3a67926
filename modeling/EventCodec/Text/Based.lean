import EventCodec.Bytes

/-! # Numbers in other bases

    Digits in a base of at most 16, the letters among them in either
    case, and the characters that code points stand for. -/

namespace EventCodec.Text

/-- The value of a digit in a base of at most 16. -/
def basedDigit? (base : Nat) (c : Char) : Option Nat :=
  ((Bytes.hexValue? c).map UInt8.toNat).filter (· < base)

/-- The value of a row of digits; no digits stand for zero. -/
def basedValue? (base : Nat) (digits : List Char) : Option Nat :=
  digits.foldlM (fun value c => (basedDigit? base c).map (value * base + ·)) 0

/-- The character with a code point; a half of a surrogate pair has
    none. -/
def charOf? (code : Nat) : Option Char :=
  if h : code.isValidChar then some (Char.ofNatAux code h) else none

/-- The value of exactly so many hexadecimal digits in front. -/
def codeInFront? (digits : Nat) (text : List Char) : Option Nat :=
  if (text.take digits).length = digits then basedValue? 16 (text.take digits) else none

end EventCodec.Text
