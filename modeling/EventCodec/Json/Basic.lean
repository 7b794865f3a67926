import EventCodec.Text.Based
import EventCodec.Text.Decimal
import EventCodec.Text.Front

/-! # JSON

    Text is read strictly: one value with white space around it and
    nothing else, no zeros in front of a number, no comma before a closing
    bracket, no control characters inside quotes.

    Of numbers only those keep their value that are written as a row of
    digits.  Escapes may name halves of a surrogate pair, and a string
    with a lone half is no text. -/

namespace EventCodec

inductive Json where
  | null
  | bool (b : Bool)
  | natural (n : Nat)
  /-- A number with a sign, a fraction or an exponent. -/
  | number
  | string (text : Option String)
  | array (items : List Json)
  | object (members : List (Option String × Json))

namespace Json

open Text (Front Reader)

/-! ### Space and numbers -/

def isSpace (c : Char) : Bool :=
  c == ' ' || c == '\n' || c == '\t' || c == '\r'

def afterSpace (text : List Char) : List Char :=
  text.dropWhile isSpace

theorem length_afterSpace (text : List Char) : (afterSpace text).length ≤ text.length :=
  Text.length_dropWhile isSpace text

/-- What words and numbers are made of. -/
def isWordChar (c : Char) : Bool :=
  Text.isDigit c || ('a' ≤ c && c ≤ 'z') || c == 'E' || c == '+' || c == '-' || c == '.'

/-- A row of digits that begins with a zero only if it is one. -/
def isWhole : List Char → Bool
  | [] => false
  | '0' :: rest => rest.isEmpty
  | digits => digits.all Text.isDigit

/-- A row of at least one digit. -/
def isDigits (word : List Char) : Bool :=
  !word.isEmpty && word.all Text.isDigit

/-- An exponent with its mark, or nothing. -/
def isPower : List Char → Bool
  | [] => true
  | c :: rest =>
    (c == 'e' || c == 'E') &&
      isDigits (if rest.head? == some '+' || rest.head? == some '-' then rest.tail else rest)

/-- A fraction with its point, or nothing. -/
def isFraction : List Char → Bool
  | [] => true
  | c :: rest => c == '.' && isDigits rest

/-- Whether a word is a number of any form. -/
def isNumber (word : List Char) : Bool :=
  let unsigned := if word.head? == some '-' then word.tail else word
  let isMark (c : Char) := c == 'e' || c == 'E'
  let mantissa := unsigned.takeWhile (!isMark ·)
  isWhole (mantissa.takeWhile (· != '.')) && isFraction (mantissa.dropWhile (· != '.')) &&
    isPower (unsigned.dropWhile (!isMark ·))

/-- The value of a word. -/
def ofWord? (word : List Char) : Option Json :=
  if word = ['n', 'u', 'l', 'l'] then some .null
  else if word = ['t', 'r', 'u', 'e'] then some (.bool true)
  else if word = ['f', 'a', 'l', 's', 'e'] then some (.bool false)
  else if isWhole word then some (.natural (Text.digitsValue 0 word))
  else if isNumber word then some .number
  else none

/-! ### Strings -/

/-- The value of the four digits of a code unit. -/
def unit? (text : List Char) : Option Nat :=
  Text.codeInFront? 4 text

/-- The second half of a pair, if the text goes on with an escape of
    one. -/
def secondHalf? : List Char → Option Nat
  | '\\' :: 'u' :: rest => (unit? rest).filter fun n => 0xDC00 ≤ n && n ≤ 0xDFFF
  | _ => none

/-- What an escape of a code unit stands for, and how many characters
    belong to it. -/
def unitEscape? (text : List Char) : Option (Option Char × Nat) :=
  (unit? text).map fun first =>
    if 0xD800 ≤ first && first ≤ 0xDBFF then
      match secondHalf? (text.drop 4) with
      | some second => (Text.charOf? (0x10000 + (first - 0xD800) * 0x400 + (second - 0xDC00)), 10)
      | none => (none, 4)
    else (Text.charOf? first, 4)

/-- What a backslash and the text after it stand for, and what is left. -/
def escape? : List Char → Option (Option Char × List Char)
  | [] => none
  | c :: rest =>
    match c with
    | '"' => some (some '"', rest)
    | '\\' => some (some '\\', rest)
    | '/' => some (some '/', rest)
    | 'b' => some (some '\x08', rest)
    | 'f' => some (some '\x0c', rest)
    | 'n' => some (some '\n', rest)
    | 'r' => some (some '\r', rest)
    | 't' => some (some '\t', rest)
    | 'u' => (unitEscape? rest).map fun (value, length) => (value, rest.drop length)
    | _ => none

theorem length_escape? {text rest : List Char} {value : Option Char}
    (h : escape? text = some (value, rest)) : rest.length ≤ text.length := by
  unfold escape? at h
  split at h
  · contradiction
  · split at h
    all_goals first
      | contradiction
      | (cases h; exact Nat.le_succ _)
      | (simp only [Option.map_eq_some_iff, Prod.mk.injEq] at h
         obtain ⟨⟨c, n⟩, -, -, rfl⟩ := h
         simp only [List.length_drop, List.length_cons]
         omega)

/-- The text up to the closing quote, and what is left; `before` is what
    was read so far, the last character first, if all of it is text. -/
def stringFrom (before : Option (List Char)) (text : List Char) :
    Option (Option (List Char) × List Char) :=
  match text with
  | [] => none
  | c :: rest =>
    if c = '"' then some (before.map List.reverse, rest)
    else if c = '\\' then
      match _escape : escape? rest with
      | none => none
      | some (value, rest) => stringFrom (do return (← value) :: (← before)) rest
    else if c.toNat < 0x20 then none
    else stringFrom (before.map (c :: ·)) rest
termination_by text.length
decreasing_by
  · have := length_escape? _escape
    simp only [List.length_cons]
    omega
  · simp

theorem length_stringFrom {before value : Option (List Char)} {text rest : List Char}
    (h : stringFrom before text = some (value, rest)) : rest.length < text.length := by
  fun_induction stringFrom before text with
  | case1 => contradiction
  | case2 => cases h; simp
  | case3 => contradiction
  | case4 _ _ value' rest' eq _ ih =>
    have := ih h
    have := length_escape? eq
    simp only [List.length_cons]
    omega
  | case5 => contradiction
  | case6 before c rest _ _ _ ih =>
    have := ih h
    simp only [List.length_cons]
    omega

/-- A string whose opening quote has been read. -/
def stringTail : Reader (Option String) := fun text =>
  match h : stringFrom (some []) text with
  | none => none
  | some (value, rest) =>
    some { value := value.map String.ofList, rest, shorter := length_stringFrom h }

/-! ### Arrays and objects -/

/-- The rest of a bracketed row, its first bracket or a comma read;
    `before` are the items already read, the last one first. -/
def rowFrom {α : Type} (item : Reader α) (close : Char) (bound : Nat) (before : List α)
    (text : List Char) (fits : text.length ≤ bound) : Option (Front (List α) bound) :=
  match item (afterSpace text) with
  | none => none
  | some front =>
    have shorter : (afterSpace front.rest).length < text.length := by
      have := length_afterSpace text
      have := length_afterSpace front.rest
      have := front.shorter
      omega
    match _next : afterSpace front.rest with
    | [] => none
    | c :: rest =>
      have fewer : rest.length < text.length := by
        rw [_next, List.length_cons] at shorter
        omega
      if c = close then
        some { value := (front.value :: before).reverse, rest, shorter := by omega }
      else if c = ',' then rowFrom item close bound (front.value :: before) rest (by omega)
      else none
termination_by text.length

/-- A bracketed row, which may be empty, its first bracket read. -/
def row {α : Type} (item : Reader α) (close : Char) : Reader (List α) := fun text =>
  match eq : afterSpace text with
  | [] => none
  | c :: rest =>
    if c = close then
      some {
        value := []
        rest
        shorter := by
          have := length_afterSpace text
          rw [eq, List.length_cons] at this
          omega }
    else rowFrom item close text.length [] text (Text.fits_self text)

/-- A name, a colon, and a value. -/
def member (item : Reader Json) : Reader (Option String × Json)
  | '"' :: rest =>
    match stringTail rest with
    | none => none
    | some name =>
      match eq : afterSpace name.rest with
      | ':' :: more =>
        (item (afterSpace more)).map fun v =>
          (v.map (name.value, ·)).widen (by
            have := length_afterSpace name.rest
            have := length_afterSpace more
            have := name.shorter
            simp only [eq, List.length_cons] at *
            omega)
      | _ => none
  | _ => none

/-- A value inside which others nest up to a depth. -/
def valueWithin : Nat → Reader Json
  | depth, text =>
    match text with
    | '[' :: rest =>
      match depth with
      | 0 => none
      | depth + 1 =>
        (row (valueWithin depth) ']' rest).map fun front =>
          (front.map .array).afterOne
    | '\x7b' :: rest =>
      match depth with
      | 0 => none
      | depth + 1 =>
        (row (member (valueWithin depth)) '\x7d' rest).map fun front =>
          (front.map .object).afterOne
    | '"' :: rest =>
      (stringTail rest).map fun front => (front.map .string).afterOne
    | text =>
      (Text.run isWordChar text).bind fun front =>
        (ofWord? front.value).map fun v => front.map fun _ => v

/-- The value a text stands for.  No text nests deeper than it is long. -/
def ofText? (text : String) : Option Json :=
  match valueWithin text.length (afterSpace text.toList) with
  | none => none
  | some front => if (afterSpace front.rest).isEmpty then some front.value else none

/-! ### Writing -/

/-- One character inside quotes. -/
def escaped (c : Char) : List Char :=
  if c = '"' then ['\\', '"']
  else if c = '\\' then ['\\', '\\']
  else if c = '\x08' then ['\\', 'b']
  else if c = '\x0c' then ['\\', 'f']
  else if c = '\n' then ['\\', 'n']
  else if c = '\r' then ['\\', 'r']
  else if c = '\t' then ['\\', 't']
  else if c.toNat < 0x20 then
    let b := UInt8.ofNat c.toNat
    ['\\', 'u', '0', '0', Bytes.hexDigit (b / 16), Bytes.hexDigit (b % 16)]
  else [c]

/-- Text between quotes. -/
def quoted (text : String) : String :=
  String.ofList ('"' :: text.toList.flatMap escaped ++ ['"'])

end Json

end EventCodec
