/-! # Punycode

    A label of a host name with characters beyond ASCII is written in
    ASCII: first the characters of ASCII, then one number for each of the
    others, in the order of their code points.  The number says how many
    places and code points lie between two of them.

    Numbers are written in digits of a base of 36, the lowest one first.
    Each digit has a threshold, and a digit below its threshold is the
    last one.  The thresholds follow a bias that adapts to the numbers
    written so far. -/

namespace EventCodec.Url.Punycode

/-! ### Digits -/

/-- The letters stand for 0 to 25, the digits for 26 to 35. -/
def digitChar (digit : Nat) : Char :=
  Char.ofNat (if digit < 26 then 'a'.toNat + digit else '0'.toNat + (digit - 26))

def digitValue? (c : Char) : Option Nat :=
  if 'a' ≤ c && c ≤ 'z' then some (c.toNat - 'a'.toNat)
  else if '0' ≤ c && c ≤ '9' then some (c.toNat - '0'.toNat + 26)
  else none

/-- The threshold of a digit: between 1 and 26. -/
def threshold (bias place : Nat) : Nat :=
  max 1 (min 26 (36 * place - bias))

theorem threshold_pos (bias place : Nat) : 1 ≤ threshold bias place := by
  unfold threshold
  omega

theorem threshold_le (bias place : Nat) : threshold bias place ≤ 26 := by
  unfold threshold
  omega

/-- Divides until what is left is small, and counts the divisions. -/
def shrink (count delta : Nat) : Nat × Nat :=
  if 455 < delta then shrink (count + 1) (delta / 35) else (count, delta)
termination_by delta
decreasing_by omega

/-- The bias after a number, of which there are so many now. -/
def adapt (delta count : Nat) (isFirst : Bool) : Nat :=
  let delta := if isFirst then delta / 700 else delta / 2
  let (steps, rest) := shrink 0 (delta + delta / count)
  36 * steps + 36 * rest / (rest + 38)

/-- The digits of a number from a place on; places count from one. -/
def writeDelta (bias place n : Nat) : List Char :=
  let t := threshold bias place
  if n < t then [digitChar n]
  else digitChar (t + (n - t) % (36 - t)) :: writeDelta bias (place + 1) ((n - t) / (36 - t))
termination_by n
decreasing_by
  have := threshold_pos bias place
  have := threshold_le bias place
  exact Nat.lt_of_le_of_lt (Nat.div_le_self _ _) (by omega)

/-- Reads a number; each digit weighs so much more than the one before. -/
def readDelta (bias place weight value : Nat) : List Char → Option (Nat × List Char)
  | [] => none
  | c :: rest =>
    match digitValue? c with
    | none => none
    | some digit =>
      let t := threshold bias place
      let value := value + digit * weight
      if digit < t then some (value, rest)
      else readDelta bias (place + 1) (weight * (36 - t)) value rest

theorem length_readDelta {bias place weight value n : Nat} {text rest : List Char}
    (h : readDelta bias place weight value text = some (n, rest)) : rest.length < text.length := by
  induction text generalizing place weight value with
  | nil => contradiction
  | cons c text ih =>
    unfold readDelta at h
    split at h
    · contradiction
    · dsimp only at h
      split at h
      · cases h
        simp
      · exact Nat.lt_succ_of_lt (ih h)

/-! ### Encoding -/

def initialBias : Nat := 72

def firstCode : Nat := 0x80

structure Encoder where
  /-- What is written, the last character first. -/
  written : List Char
  delta : Nat
  bias : Nat
  /-- How many characters are done. -/
  count : Nat

/-- Passes over one character while a code point is being placed. -/
def Encoder.pass (basic code : Nat) (e : Encoder) (c : Char) : Encoder :=
  if c.toNat < code then { e with delta := e.delta + 1 }
  else if c.toNat = code then
    { written := (writeDelta e.bias 1 e.delta).reverse ++ e.written
      delta := 0
      bias := adapt e.delta (e.count + 1) (e.count == basic)
      count := e.count + 1 }
  else e

/-- Places all characters with some code points, which rise. -/
def Encoder.place (label : List Char) (basic : Nat) : Nat → List Nat → Encoder → Encoder
  | _, [], e => e
  | next, code :: codes, e =>
    let e := { e with delta := e.delta + (code - next) * (e.count + 1) }
    let e := label.foldl (Encoder.pass basic code) e
    Encoder.place label basic (code + 1) codes { e with delta := e.delta + 1 }

def isBasic (c : Char) : Bool :=
  c.toNat < firstCode

/-- A label in ASCII. -/
def encode (label : List Char) : List Char :=
  let basic := label.filter isBasic
  let codes := ((label.filter (!isBasic ·)).map Char.toNat).mergeSort.eraseDups
  let start : Encoder := { written := [], delta := 0, bias := initialBias, count := basic.length }
  let finish := Encoder.place label basic.length firstCode codes start
  basic ++ (if basic.isEmpty then [] else ['-']) ++ finish.written.reverse

/-! ### Decoding -/

/-- Puts one character after the other in its place: the next code point
    is at least `code`, and for `code` itself at least at `place`. -/
def decodeFrom (isFirst : Bool) (bias code place : Nat) (label text : List Char) :
    Option (List Char) :=
  if text.isEmpty then some label
  else
    match _read : readDelta bias 1 1 0 text with
    | none => none
    | some (delta, rest) =>
      let count := label.length + 1
      let code := code + (place + delta) / count
      let place := (place + delta) % count
      if code.isValidChar then
        decodeFrom false (adapt delta count isFirst) code (place + 1)
          (label.insertIdx place (Char.ofNat code)) rest
      else none
termination_by text.length
decreasing_by exact length_readDelta _read

/-- The label that a text in ASCII stands for.  The last hyphen, unless it
    is the first character, ends the characters of ASCII. -/
def decode? (text : List Char) : Option (List Char) :=
  let tail := (text.reverse.takeWhile (· != '-')).reverse
  let basic := text.take (text.length - tail.length - 1)
  if basic.isEmpty then decodeFrom true initialBias firstCode 0 [] text
  else decodeFrom true initialBias firstCode 0 basic tail

end EventCodec.Url.Punycode
