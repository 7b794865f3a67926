import EventCodec.Text.Unprintable
import EventCodec.Url.Domain

/-! # Names beyond ASCII

    Letters are lowered, full-width forms become those of ASCII,
    characters that have no effect are dropped, and a label beyond ASCII
    is written in punycode.

    These are names for runs, and no more than an approximation of the
    tables of Unicode: capitals are known of the Latin, Greek, Cyrillic
    and Armenian alphabets, and text is taken to be composed already.  No
    statement about a client depends on them. -/

namespace EventCodec.Url.International

open Domain (isForbidden pieces punycodeMark)

/-! ### Characters -/

/-- Hyphens and joiners that do not show, and marks that only choose a
    form. -/
def isDropped (c : Char) : Bool :=
  let n := c.toNat
  n == 0xAD || n == 0x34F || n == 0x200B || n == 0x2060 || n == 0x2064 || n == 0xFEFF ||
    (0x180B ≤ n && n ≤ 0x180D) || (0xFE00 ≤ n && n ≤ 0xFE0F)

/-- Points of other scripts. -/
def isPoint (c : Char) : Bool :=
  c == '\u3002' || c == '\uff0e' || c == '\uff61'

/-- Marks that belong to the character before them. -/
def isMark (c : Char) : Bool :=
  let n := c.toNat
  (0x300 ≤ n && n ≤ 0x36F) || (0x483 ≤ n && n ≤ 0x487) || (0x591 ≤ n && n ≤ 0x5BD) ||
    (0x64B ≤ n && n ≤ 0x65F) || (0x1AB0 ≤ n && n ≤ 0x1AFF) || (0x1DC0 ≤ n && n ≤ 0x1DFF) ||
    (0x20D0 ≤ n && n ≤ 0x20FF) || (0x302A ≤ n && n ≤ 0x302F) || n == 0x3099 || n == 0x309A ||
    (0xFE20 ≤ n && n ≤ 0xFE2F)

/-- The code point of the small letter. -/
def lowered (n : Nat) : Nat :=
  if 0x41 ≤ n && n ≤ 0x5A then n + 0x20
  else if 0xC0 ≤ n && n ≤ 0xDE && n != 0xD7 then n + 0x20
  else if 0x100 ≤ n && n ≤ 0x137 || 0x14A ≤ n && n ≤ 0x177 then n + (1 - n % 2)
  else if 0x139 ≤ n && n ≤ 0x148 || 0x179 ≤ n && n ≤ 0x17E then n + n % 2
  else if n == 0x178 then 0xFF
  else if 0x391 ≤ n && n ≤ 0x3A9 then n + 0x20
  else if 0x400 ≤ n && n ≤ 0x40F then n + 0x50
  else if 0x410 ≤ n && n ≤ 0x42F then n + 0x20
  else if 0x460 ≤ n && n ≤ 0x481 || 0x48A ≤ n && n ≤ 0x4BF || 0x4D0 ≤ n && n ≤ 0x52F then
    n + (1 - n % 2)
  else if 0x531 ≤ n && n ≤ 0x556 then n + 0x30
  else if 0x1E00 ≤ n && n ≤ 0x1E95 || 0x1EA0 ≤ n && n ≤ 0x1EFF then n + (1 - n % 2)
  else if 0xFF01 ≤ n && n ≤ 0xFF5E then
    let ascii := n - 0xFEE0
    if 0x41 ≤ ascii && ascii ≤ 0x5A then ascii + 0x20 else ascii
  else n

/-- What becomes of a character; some are refused. -/
def mapped? (c : Char) : Option (List Char) :=
  if isDropped c then some []
  else if isPoint c then some ['.']
  else
    let small := Char.ofNat (lowered c.toNat)
    if isForbidden small || (Text.isUnprintable small && !isMark small) then none else some [small]

/-- The characters of a name after all have been mapped. -/
def mapAll? (name : List Char) : Option (List Char) :=
  (name.mapM mapped?).map List.flatten

/-! ### Labels -/

/-- Whether a label is in its final form: no character would be mapped to
    something else, and none belongs to a character before the label. -/
def isFinal (label : List Char) : Bool :=
  mapAll? label == some label && !label.head?.any isMark

/-- Whether punycode stands for a label beyond ASCII, and is what would be
    written for it. -/
def isPunycode (text : List Char) : Bool :=
  (Punycode.decode? text).any fun label =>
    !label.all Punycode.isBasic && isFinal label && Punycode.encode label == text

/-- A label in ASCII. -/
def label? (label : List Char) : Option (List Char) :=
  if punycodeMark.isPrefixOf label then
    if isPunycode (label.drop punycodeMark.length) then some label else none
  else if label.all Punycode.isBasic then some label
  else if isFinal label then some (punycodeMark ++ Punycode.encode label)
  else none

/-- A domain name in ASCII. -/
def toAscii? : Names := fun name => do
  let labels ← (pieces '.' (← mapAll? name)).mapM label?
  return ['.'].intercalate labels

end EventCodec.Url.International
