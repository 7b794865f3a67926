import EventCodec.Url.Punycode

/-! # Domain names

    A domain name is a row of labels with points between them.  In plain
    ASCII it is what it is, in small letters.  What becomes of all other
    names is for the tables of Unicode to say; whoever reads a name brings
    them along (`Names`). -/

namespace EventCodec.Url

/-- How names beyond plain ASCII are brought into ASCII, and which of them
    are refused. -/
abbrev Names := List Char → Option (List Char)

namespace Domain

/-! ### Labels -/

/-- The pieces of the rest of a text between separators; `before` are the
    pieces already found, and `piece` is the beginning of the next, both
    in reverse. -/
def piecesFrom (separator : Char) (before : List (List Char)) (piece : List Char) :
    List Char → List (List Char)
  | [] => (piece.reverse :: before).reverse
  | c :: rest =>
    if c = separator then piecesFrom separator (piece.reverse :: before) [] rest
    else piecesFrom separator before (c :: piece) rest

/-- The pieces of a text between separators; there is one more than
    separators. -/
def pieces (separator : Char) (text : List Char) : List (List Char) :=
  piecesFrom separator [] [] text

/-- What a label in punycode begins with. -/
def punycodeMark : List Char := ['x', 'n', '-', '-']

/-- Whether a name is in ASCII and no label of it stands for one that is
    not. -/
def isPlain (name : List Char) : Bool :=
  name.all Punycode.isBasic &&
    !(pieces '.' name).any fun label => punycodeMark.isPrefixOf (label.map Char.toLower)

/-! ### Names -/

/-- What no domain name holds. -/
def isForbidden (c : Char) : Bool :=
  c.toNat ≤ 0x20 || c.toNat == 0x7F ||
    ['#', '%', '/', ':', '<', '>', '?', '@', '[', '\\', ']', '^', '\x60', '\x7b', '|', '\x7d'].contains c

/-- A plain name in small letters. -/
def lowered? (name : List Char) : Option (List Char) :=
  let small := name.map Char.toLower
  if small.any isForbidden then none else some small

/-- A domain name in ASCII. -/
def ofText? (names : Names) (name : List Char) : Option (List Char) :=
  if isPlain name then lowered? name else names name

end Domain

end EventCodec.Url
