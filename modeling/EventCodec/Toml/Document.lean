import EventCodec.Toml.Quoted
import EventCodec.Toml.Table

/-! # Documents

    A document is a row of lines: assignments, headers, comments and empty
    lines.  A value is a word, quoted text, an array, or a table on one
    line; arrays may go over several lines.

    Values may nest, and dotted keys may have parts, up to a limit. -/

namespace EventCodec.Toml

open Text (Front Reader)

/-! ### Keys -/

/-- Neither values nor the parts of a key go as deep as this. -/
def depthLimit : Nat := 80

/-- What names without quotes are made of. -/
def isBareChar (c : Char) : Bool :=
  c.isAlphanum || c == '_' || c == '-'

/-- One part of a key, with the blanks in front of it. -/
def keyPart : Reader String := fun text =>
  let rest := afterBlank text
  let part :=
    if rest.head? == some '"' || rest.head? == some '\'' then quotedLine rest
    else (Text.run isBareChar rest).map (·.map String.ofList)
  part.map (·.widen (length_afterBlank text))

/-- The rest of a key, points between its parts; `before` are the parts
    already read, the last one first. -/
def keyFrom (bound : Nat) (before : List String) (text : List Char) (fits : text.length ≤ bound) :
    Option (Front Path bound) :=
  match keyPart text with
  | none => none
  | some part =>
    have shorter : (afterBlank part.rest).length < text.length :=
      Nat.lt_of_le_of_lt (length_afterBlank part.rest) part.shorter
    match _next : afterBlank part.rest with
    | '.' :: rest =>
      keyFrom bound (part.value :: before) rest (by
        rw [_next, List.length_cons] at shorter
        omega)
    | rest =>
      if before.length + 1 < depthLimit then
        some {
          value := { tables := before.reverse, name := part.value }
          rest
          shorter := by
            rw [_next] at shorter
            omega }
      else none
termination_by text.length
decreasing_by
  rw [_next, List.length_cons] at shorter
  omega

/-- A key with the blanks around it. -/
def key : Reader Path := fun text =>
  keyFrom text.length [] text (Text.fits_self text)

/-! ### Values -/

/-- The rest of an array, its bracket or a comma read. -/
def arrayFrom (item : Reader Value) (bound : Nat) (text : List Char) (fits : text.length ≤ bound) :
    Option (Front Unit bound) :=
  match _start : afterSpace false text with
  | ']' :: rest =>
    some {
      value := ()
      rest
      shorter := by
        have := length_afterSpace false text
        rw [_start, List.length_cons] at this
        omega }
  | start =>
    match item start with
    | none => none
    | some front =>
      have shorter : (afterSpace false front.rest).length < text.length := by
        have := length_afterSpace false text
        have := length_afterSpace false front.rest
        have := front.shorter
        rw [_start] at *
        omega
      match _next : afterSpace false front.rest with
      | ']' :: rest =>
        some {
          value := ()
          rest
          shorter := by
            rw [_next, List.length_cons] at shorter
            omega }
      | ',' :: rest =>
        arrayFrom item bound rest (by
          rw [_next, List.length_cons] at shorter
          omega)
      | _ => none
termination_by text.length
decreasing_by
  rw [_next, List.length_cons] at shorter
  omega

/-- An array whose bracket has been read. -/
def array (item : Reader Value) : Reader Unit := fun text =>
  arrayFrom item text.length text (Text.fits_self text)

/-- A key, its equals sign, and a value. -/
def assignment (item : Reader Value) : Reader (Path × Value) := fun text =>
  match key text with
  | none => none
  | some k =>
    match eq : k.rest with
    | '=' :: rest =>
      have shorter : (afterBlank rest).length ≤ text.length := by
        have := length_afterBlank rest
        have := k.shorter
        rw [eq, List.length_cons] at this
        omega
      (item (afterBlank rest)).map fun v => (v.map (k.value, ·)).widen shorter
    | _ => none

/-- The rest of a table on one line, its brace or a comma read; the table
    holds what was assigned so far. -/
def inlineFrom (item : Reader Value) (bound : Nat) (t : Table) (text : List Char)
    (fits : text.length ≤ bound) : Option (Front Unit bound) :=
  match assignment item text with
  | none => none
  | some front =>
    match t.assign front.value.1 front.value.2 with
    | none => none
    | some t =>
      have shorter : (afterBlank front.rest).length < text.length :=
        Nat.lt_of_le_of_lt (length_afterBlank front.rest) front.shorter
      match _next : afterBlank front.rest with
      | '\x7d' :: rest =>
        some {
          value := ()
          rest
          shorter := by
            rw [_next, List.length_cons] at shorter
            omega }
      | ',' :: rest =>
        inlineFrom item bound t rest (by
          rw [_next, List.length_cons] at shorter
          omega)
      | _ => none
termination_by text.length
decreasing_by
  rw [_next, List.length_cons] at shorter
  omega

/-- A table on one line, its brace read. -/
def inline (item : Reader Value) : Reader Unit := fun text =>
  match eq : afterBlank text with
  | '\x7d' :: rest =>
    some {
      value := ()
      rest
      shorter := by
        have := length_afterBlank text
        rw [eq, List.length_cons] at this
        omega }
  | _ => inlineFrom item text.length .empty text (Text.fits_self text)

/-- A word, which for a date may go on with a time after one blank. -/
def word : Reader Value := fun text =>
  match Text.run isWordChar text with
  | none => none
  | some front =>
    match rest : front.rest with
    | ' ' :: more =>
      match Text.run isWordChar more with
      | some time =>
        if afterDate? front.value == some [] && isTimeOfDate time.value then
          some {
            value := .dateTime
            rest := time.rest
            shorter := by
              have := front.shorter
              have := time.shorter
              simp only [rest, List.length_cons] at *
              omega }
        else (valueOf? front.value).map fun v => front.map fun _ => v
      | none => (valueOf? front.value).map fun v => front.map fun _ => v
    | _ => (valueOf? front.value).map fun v => front.map fun _ => v

/-- A value inside which others nest up to a depth. -/
def valueWithin : Nat → Reader Value
  | depth, text =>
    match text with
    | '[' :: rest =>
      match depth with
      | 0 => none
      | depth + 1 =>
        (array (valueWithin depth) rest).map fun front =>
          (front.map fun _ => .array).afterOne
    | '\x7b' :: rest =>
      match depth with
      | 0 => none
      | depth + 1 =>
        (inline (valueWithin depth) rest).map fun front =>
          (front.map fun _ => .table).afterOne
    | '"' :: rest => (quoted ('"' :: rest)).map (·.map .text)
    | '\'' :: rest => (quoted ('\'' :: rest)).map (·.map .text)
    | text => word text

def value : Reader Value := valueWithin (depthLimit - 1)

/-! ### Lines -/

inductive Line where
  | assign (path : Path) (value : Value)
  | header (path : Path)
  /-- A header of the next table of a row. -/
  | nextHeader (path : Path)

theorem shorter_afterLine? {α : Type} {bound : Nat} {front : Front α bound} {rest : List Char}
    (h : afterLine? front.rest = some rest) : rest.length < bound := by
  have := length_afterLine? h
  have := front.shorter
  omega

/-- Takes the rest of the line away. -/
def toLineEnd {α : Type} {bound : Nat} (front : Front α bound) : Option (Front α bound) :=
  match eq : afterLine? front.rest with
  | none => none
  | some rest => some { value := front.value, rest, shorter := shorter_afterLine? eq }

/-- Takes closing brackets away. -/
def closed {α : Type} {bound : Nat} (brackets : Nat) (front : Front α bound) :
    Option (Front α bound) :=
  if front.rest.take brackets = List.replicate brackets ']' then
    some {
      value := front.value
      rest := front.rest.drop brackets
      shorter := by
        have := front.shorter
        simp only [List.length_drop]
        omega }
  else none

/-- A line that is not empty. -/
def line : Reader Line := fun text =>
  match text with
  | '[' :: '[' :: rest =>
    (key rest).bind fun k => (closed 2 k).bind fun k => (toLineEnd k).map fun k =>
      (k.map .nextHeader).widen (by simp only [List.length_cons]; omega)
  | '[' :: rest =>
    (key rest).bind fun k => (closed 1 k).bind fun k => (toLineEnd k).map fun k =>
      (k.map .header).afterOne
  | text =>
    (assignment value text).bind fun front => (toLineEnd front).map fun front =>
      front.map fun (path, v) => .assign path v

/-- The lines of the rest; `before` are those already read, the last one
    first. -/
def linesFrom (before : List Line) (text : List Char) : Option (List Line) :=
  match _start : afterBlank text with
  | [] => some before.reverse
  | c :: rest =>
    if c = '\n' then linesFrom before rest
    else if c = '#' then linesFrom before (rest.dropWhile (· != '\n'))
    else
      match line (c :: rest) with
      | none => none
      | some front => linesFrom (front.value :: before) front.rest
termination_by text.length
decreasing_by
  all_goals
    have := length_afterBlank text
    rw [_start, List.length_cons] at this
  · omega
  · have := Text.length_dropWhile (· != '\n') rest
    omega
  · exact Nat.lt_of_lt_of_le front.shorter this

/-! ### Documents -/

/-- A document being read: its table, and the table that assignments go
    to. -/
structure Draft where
  table : Table
  current : List String

namespace Draft

def take (d : Draft) : Line → Option Draft
  | .assign path value =>
    (d.table.changeAt false (Table.assign path value) d.current).map fun table =>
      { d with table }
  | .header path => (d.table.openTable path).map fun table => { table, current := path.all }
  | .nextHeader path => (d.table.openNext path).map fun table => { table, current := path.all }

end Draft

/-- The table a document stands for. -/
def read? (text : String) : Option Table := do
  let lines ← linesFrom [] (← plain? (withoutMark text.toList))
  let draft ← lines.foldlM Draft.take { table := .empty, current := [] }
  return draft.table

end EventCodec.Toml
