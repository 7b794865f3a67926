/-! # Decimal numbers

    Unsigned numbers are written without padding and read with any number
    of leading zeros, as long as the value fits the word they are meant
    for. -/

namespace EventCodec.Text

/-- The ten digits of ASCII. -/
def isDigit (c : Char) : Bool :=
  '0' ≤ c && c ≤ '9'

/-- The value of a digit. -/
def digitValue (c : Char) : Nat :=
  c.toNat - '0'.toNat

/-- The value of a row of digits, after the digits read so far. -/
def digitsValue (soFar : Nat) (digits : List Char) : Nat :=
  digits.foldl (fun value c => value * 10 + digitValue c) soFar

/-- A nonempty row of digits that stands for a number below `bound`. -/
def readDigits? (bound : Nat) (cs : List Char) : Option Nat :=
  if cs.isEmpty || !cs.all isDigit then none
  else
    let value := digitsValue 0 cs
    if value < bound then some value else none

/-- A number below `bound`, with or without a plus sign in front. -/
def readNat? (bound : Nat) : List Char → Option Nat
  | '+' :: cs => readDigits? bound cs
  | cs => readDigits? bound cs

end EventCodec.Text
