/-! # Reading from the front

    A reader takes something from the front of a text, or refuses.  What
    it leaves is shorter than the text, so that whatever repeats a reader
    comes to an end.

    A loop that reads several things is given a bound on the text it
    started from, and hands it on from step to step. -/

namespace EventCodec.Text

/-- A value read from the front of a text, which had so many characters
    or fewer. -/
structure Front (α : Type) (bound : Nat) where
  value : α
  /-- What is left of the text. -/
  rest : List Char
  shorter : rest.length < bound

abbrev Reader (α : Type) : Type := (text : List Char) → Option (Front α text.length)

/-- A text is as long as it is. -/
theorem fits_self (text : List Char) : text.length ≤ text.length :=
  Nat.le_refl _

theorem length_dropWhile (p : Char → Bool) (text : List Char) :
    (text.dropWhile p).length ≤ text.length :=
  (List.dropWhile_sublist p).length_le

namespace Front

variable {α β : Type} {bound wider : Nat}

def map (f : α → β) (front : Front α bound) : Front β bound :=
  { value := f front.value, rest := front.rest, shorter := front.shorter }

/-- The same front of a longer text. -/
def widen (front : Front α bound) (h : bound ≤ wider) : Front α wider :=
  { value := front.value, rest := front.rest, shorter := Nat.lt_of_lt_of_le front.shorter h }

/-- The same front of a text with one more character before it. -/
def afterOne {c : Char} {rest : List Char} (front : Front α rest.length) :
    Front α (c :: rest).length :=
  front.widen (Nat.le_succ _)

end Front

/-- Reads the longest row of characters of a class, at least one. -/
def run (p : Char → Bool) : Reader (List Char)
  | [] => none
  | c :: rest =>
    if p c then
      some {
        value := c :: rest.takeWhile p
        rest := rest.dropWhile p
        shorter := Nat.lt_succ_of_le (length_dropWhile p rest) }
    else none

end EventCodec.Text
