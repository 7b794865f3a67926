import EventCodec.Text.Based
import EventCodec.Text.Decimal

/-! # Values that are words

    A value without quotes or brackets is one word: a truth value, a whole
    number, a number with a fraction or an exponent, or a point in time.

    Whole numbers keep their value, which has to fit a signed word of 64
    bits.  Of the other numbers and of points in time only the form
    matters here, and that they exist: no setting holds one. -/

namespace EventCodec.Toml

open Text (isDigit digitsValue digitValue)

inductive Value where
  | text (text : String)
  | integer (n : Int)
  | boolean (b : Bool)
  | float
  | dateTime
  | array
  | table
deriving DecidableEq, Repr

/-- What words are made of. -/
def isWordChar (c : Char) : Bool :=
  c.isAlphanum || c == '+' || c == '-' || c == '_' || c == '.' || c == ':'

/-! ### Digits -/

/-- The digits of the rest of a row in which an underscore may stand
    between two digits; `before` are those already read, the last one
    first. -/
def groupedFrom? (digit : Char → Bool) (before : List Char) : List Char → Option (List Char)
  | [] => none
  | [c] => if digit c then some (c :: before).reverse else none
  | c :: '_' :: rest => if digit c then groupedFrom? digit (c :: before) rest else none
  | c :: rest => if digit c then groupedFrom? digit (c :: before) rest else none

/-- The digits of a row in which an underscore may stand between two
    digits. -/
def grouped? (digit : Char → Bool) (word : List Char) : Option (List Char) :=
  groupedFrom? digit [] word

/-- The digits of a number, which begins with a zero only if it is one. -/
def decimal? (word : List Char) : Option (List Char) :=
  match grouped? isDigit word with
  | some ('0' :: _ :: _) => none
  | digits => digits

/-- A sign, which may be missing, and the rest: whether it is a minus. -/
def signed : List Char → Bool × List Char
  | '-' :: rest => (true, rest)
  | '+' :: rest => (false, rest)
  | word => (false, word)

/-! ### Whole numbers -/

/-- The values a signed word of 64 bits can have. -/
def inRange (n : Int) : Option Int :=
  if -9223372036854775808 ≤ n ∧ n ≤ 9223372036854775807 then some n else none

/-- A number in another base. -/
def based? (base : Nat) (word : List Char) : Option Int := do
  let digits ← grouped? (fun c => (Text.basedDigit? base c).isSome) word
  let n ← Text.basedValue? base digits
  inRange n

def integer? (word : List Char) : Option Int :=
  match word with
  | '0' :: 'x' :: rest => based? 16 rest
  | '0' :: 'o' :: rest => based? 8 rest
  | '0' :: 'b' :: rest => based? 2 rest
  | word =>
    let (minus, rest) := signed word
    (decimal? rest).bind fun digits =>
      let n : Int := digitsValue 0 digits
      inRange (if minus then -n else n)

/-! ### Numbers with a fraction or an exponent -/

/-- The numbers from which on a double is infinite: halfway between the
    largest double and the next power of two. -/
def infinityFrom : Nat := Nat.pow 2 1024 - Nat.pow 2 970

/-- Whether `digits * 10 ^ exponent` is too large for a double. -/
def isTooLarge (digits : List Char) (exponent : Int) : Bool :=
  let digits := digits.dropWhile (· == '0')
  let places := (digits.length : Int) + exponent
  if digits.isEmpty || places < 309 then false
  else if 309 < places then true
  else
    let value := digitsValue 0 digits
    if exponent < 0 then infinityFrom * Nat.pow 10 exponent.natAbs ≤ value
    else infinityFrom ≤ value * Nat.pow 10 exponent.natAbs

/-- The digits of a fraction, a point in front; nothing has none. -/
def fraction? : List Char → Option (List Char)
  | [] => some []
  | '.' :: rest => grouped? isDigit rest
  | _ => none

/-- An exponent, its mark in front; nothing is the exponent zero. -/
def exponent? : List Char → Option Int
  | [] => some 0
  | c :: rest =>
    if c = 'e' || c = 'E' then
      let (minus, rest) := signed rest
      (grouped? isDigit rest).map fun digits =>
        let n : Int := digitsValue 0 digits
        if minus then -n else n
    else none

/-- Whether a word is a number with a fraction or an exponent, or one of
    the names of what is no finite number.  A number whose double would be
    infinite is none. -/
def isFloat (word : List Char) : Bool :=
  let (minus, unsigned) := signed word
  if unsigned = ['i', 'n', 'f'] || unsigned = ['n', 'a', 'n'] then true
  else
    let isMark (c : Char) := c == '.' || c == 'e' || c == 'E'
    let whole := unsigned.takeWhile fun c => !isMark c
    let rest := unsigned.dropWhile fun c => !isMark c
    let point := rest.takeWhile fun c => c != 'e' && c != 'E'
    let power := rest.dropWhile fun c => c != 'e' && c != 'E'
    match decimal? whole, fraction? point, exponent? power with
    | some whole, some part, some exponent =>
      !rest.isEmpty && (minus || !isTooLarge (whole ++ part) (exponent - part.length))
    | _, _, _ => false

/-! ### Points in time -/

/-- The number that so many digits in front stand for, and what follows. -/
def digits? (count : Nat) (word : List Char) : Option (Nat × List Char) :=
  let digits := word.take count
  if digits.length = count && digits.all isDigit then
    some (digitsValue 0 digits, word.drop count)
  else none

/-- What follows a character in front. -/
def after? (c : Char) : List Char → Option (List Char)
  | first :: rest => if first = c then some rest else none
  | [] => none

/-- How many days a month has. -/
def daysOf (year month : Nat) : Nat :=
  if month = 2 then
    if year % 4 = 0 && (year % 100 != 0 || year % 400 = 0) then 29 else 28
  else if month = 4 || month = 6 || month = 9 || month = 11 then 30
  else 31

/-- What follows a date in front. -/
def afterDate? (word : List Char) : Option (List Char) := do
  let (year, rest) ← digits? 4 word
  let (month, rest) ← digits? 2 (← after? '-' rest)
  let (day, rest) ← digits? 2 (← after? '-' rest)
  if 1 ≤ month && month ≤ 12 && 1 ≤ day && day ≤ daysOf year month then some rest else none

/-- What follows hours and minutes in front. -/
def afterMinutes? (word : List Char) : Option (List Char) := do
  let (hour, rest) ← digits? 2 word
  let (minute, rest) ← digits? 2 (← after? ':' rest)
  if hour ≤ 23 && minute ≤ 59 then some rest else none

/-- What follows a time in front, with or without parts of seconds. -/
def afterTime? (word : List Char) : Option (List Char) := do
  let (second, rest) ← digits? 2 (← after? ':' (← afterMinutes? word))
  if second ≤ 60 then
    match rest with
    | '.' :: c :: rest => if isDigit c then some (rest.dropWhile isDigit) else none
    | rest => some rest
  else none

/-- Whether a word is the distance from universal time, or nothing. -/
def isOffset : List Char → Bool
  | [] => true
  | c :: rest =>
    if c = 'Z' || c = 'z' then rest.isEmpty
    else (c = '+' || c = '-') && afterMinutes? rest == some []

/-- Whether a word is a time with or without an offset. -/
def isTimeOfDate (word : List Char) : Bool :=
  (afterTime? word).any isOffset

/-- Whether a word is a point in time: a date, a time, or both. -/
def isDateTime (word : List Char) : Bool :=
  match afterDate? word with
  | some [] => true
  | some (c :: rest) => (c = 'T' || c = 't') && isTimeOfDate rest
  | none => afterTime? word == some []

/-! ### Words -/

/-- The value of a word. -/
def valueOf? (word : List Char) : Option Value :=
  if word = ['t', 'r', 'u', 'e'] then some (.boolean true)
  else if word = ['f', 'a', 'l', 's', 'e'] then some (.boolean false)
  else if isDateTime word then some .dateTime
  else if isFloat word then some .float
  else (integer? word).map .integer

end EventCodec.Toml
