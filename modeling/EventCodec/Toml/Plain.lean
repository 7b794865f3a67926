import EventCodec.Text.Front

/-! # Plain text

    A document is text without control characters other than tabs and
    line breaks.  A carriage return can only stand before a line feed, and
    the two are one line break, so that reading starts from text in which
    a line break is one line feed.  A byte order mark in front is no part
    of the text. -/

namespace EventCodec.Toml

/-- What no document holds. -/
def isRefused (c : Char) : Bool :=
  (c.toNat < 0x20 && c != '\t' && c != '\n') || c.toNat == 0x7F

/-- Reads on with the line breaks made line feeds; `before` is what was
    read so far, the last character first. -/
def plainFrom? (before : List Char) : List Char → Option (List Char)
  | [] => some before.reverse
  | '\r' :: '\n' :: rest => plainFrom? ('\n' :: before) rest
  | c :: rest => if isRefused c then none else plainFrom? (c :: before) rest

/-- Text whose line breaks are line feeds, if it is plain. -/
def plain? (text : List Char) : Option (List Char) :=
  plainFrom? [] text

def withoutMark : List Char → List Char
  | '\ufeff' :: rest => rest
  | text => text

/-! ### Space -/

def isBlank (c : Char) : Bool :=
  c == ' ' || c == '\t'

def afterBlank (text : List Char) : List Char :=
  text.dropWhile isBlank

/-- What follows blanks, line breaks and comments. -/
def afterSpace (inComment : Bool) : List Char → List Char
  | [] => []
  | c :: rest =>
    if c = '\n' then afterSpace false rest
    else if inComment || isBlank c then afterSpace inComment rest
    else if c = '#' then afterSpace true rest
    else c :: rest

/-- What follows the line, if it holds nothing more than a comment. -/
def afterLine? (text : List Char) : Option (List Char) :=
  match afterBlank text with
  | [] => some []
  | '\n' :: rest => some rest
  | '#' :: rest => some (rest.dropWhile (· != '\n')).tail
  | _ => none

theorem length_afterBlank (text : List Char) : (afterBlank text).length ≤ text.length :=
  Text.length_dropWhile isBlank text

theorem length_afterSpace (inComment : Bool) (text : List Char) :
    (afterSpace inComment text).length ≤ text.length := by
  induction text generalizing inComment with
  | nil => simp [afterSpace]
  | cons c rest ih =>
    unfold afterSpace
    split
    · exact Nat.le_succ_of_le (ih _)
    · split
      · exact Nat.le_succ_of_le (ih _)
      · split
        · exact Nat.le_succ_of_le (ih _)
        · exact Nat.le_refl _

theorem length_afterLine? {text rest : List Char} (h : afterLine? text = some rest) :
    rest.length ≤ text.length := by
  have blank := length_afterBlank text
  unfold afterLine? at h
  split at h
  · cases h
    simp
  · rename_i eq
    cases h
    rw [eq] at blank
    exact Nat.le_of_succ_le blank
  · rename_i more eq
    cases h
    rw [eq] at blank
    have := Text.length_dropWhile (· != '\n') more
    simp only [List.length_tail, List.length_cons] at *
    omega
  · contradiction

end EventCodec.Toml
