import EventCodec.Text.Based
import EventCodec.Toml.Plain

/-! # Quoted text

    Text stands between double quotes, where a backslash begins an escape,
    or between single quotes, where nothing does.  With one quote on
    either side it stays on its line.  With three it may go over several
    lines: a line break right after the opening is dropped, one or two
    quotes inside stand for themselves, and of the quotes before the
    closing up to two belong to the text. -/

namespace EventCodec.Toml

/-- How a piece of text is written. -/
structure Quoting where
  mark : Char
  /-- Whether a backslash begins an escape. -/
  escapes : Bool
  /-- Whether there are three quotes on either side. -/
  lines : Bool
deriving DecidableEq, Repr

/-! ### Escapes -/

/-- A character given by so many digits of its code point. -/
def codePoint? (digits : Nat) (text : List Char) : Option Char :=
  (Text.codeInFront? digits text).bind Text.charOf?

/-- What a backslash and the text after it stand for, and what is left.
    Where lines may break, a backslash at the end of a line stands for
    nothing and takes the blanks and line breaks that follow with it. -/
def escape? (lines : Bool) (text : List Char) : Option (List Char × List Char) :=
  if lines && (afterBlank text).head? == some '\n' then
    some ([], text.dropWhile fun c => isBlank c || c == '\n')
  else
    match text with
    | [] => none
    | c :: rest =>
      match c with
      | 'b' => some (['\x08'], rest)
      | 't' => some (['\t'], rest)
      | 'n' => some (['\n'], rest)
      | 'f' => some (['\x0c'], rest)
      | 'r' => some (['\r'], rest)
      | '"' => some (['"'], rest)
      | '\\' => some (['\\'], rest)
      | 'u' => (codePoint? 4 rest).map fun c => ([c], rest.drop 4)
      | 'U' => (codePoint? 8 rest).map fun c => ([c], rest.drop 8)
      | _ => none

theorem length_escape? {lines : Bool} {text value rest : List Char}
    (h : escape? lines text = some (value, rest)) : rest.length ≤ text.length := by
  unfold escape? at h
  split at h
  · cases h
    exact Text.length_dropWhile _ text
  · split at h
    · contradiction
    · split at h
      all_goals first
        | contradiction
        | (cases h; exact Nat.le_succ _)
        | (simp only [Option.map_eq_some_iff, Prod.mk.injEq] at h
           obtain ⟨c, -, -, rfl⟩ := h
           simp only [List.length_drop, List.length_cons]
           omega)

/-! ### Text -/

/-- The text up to the closing quotes, and what is left; `before` is what
    was read so far, the last character first. -/
def quotedFrom (q : Quoting) (before text : List Char) : Option (List Char × List Char) :=
  match text with
  | [] => none
  | c :: rest =>
    if c = q.mark then
      if q.lines then
        let marks := (rest.takeWhile (· == q.mark)).length + 1
        if marks < 3 then
          quotedFrom q (List.replicate marks q.mark ++ before) (rest.dropWhile (· == q.mark))
        else
          some ((List.replicate (min (marks - 3) 2) q.mark ++ before).reverse,
            rest.drop (min marks 5 - 1))
      else some (before.reverse, rest)
    else if c = '\\' && q.escapes then
      match _escape : escape? q.lines rest with
      | none => none
      | some (value, rest) => quotedFrom q (value.reverse ++ before) rest
    else if c = '\n' && !q.lines then none
    else quotedFrom q (c :: before) rest
termination_by text.length
decreasing_by
  · have := Text.length_dropWhile (· == q.mark) rest
    simp only [List.length_cons]
    omega
  · have := length_escape? _escape
    simp only [List.length_cons]
    omega
  · simp

theorem length_quotedFrom {q : Quoting} {before text value rest : List Char}
    (h : quotedFrom q before text = some (value, rest)) : rest.length < text.length := by
  fun_induction quotedFrom q before text with
  | case1 => contradiction
  | case2 before rest marks _ _ ih =>
    have := ih h
    have := Text.length_dropWhile (· == q.mark) rest
    simp only [List.length_cons]
    omega
  | case3 =>
    cases h
    simp only [List.length_drop, List.length_cons]
    omega
  | case4 =>
    cases h
    simp
  | case5 => contradiction
  | case6 before c rest _ _ value' rest' eq ih =>
    have := ih h
    have := length_escape? eq
    simp only [List.length_cons]
    omega
  | case7 => contradiction
  | case8 before c rest _ _ _ ih =>
    have := ih h
    simp only [List.length_cons]
    omega

/-- Text whose opening quotes have been read. -/
def quotedTail (q : Quoting) : Text.Reader String := fun text =>
  match h : quotedFrom q [] text with
  | none => none
  | some (value, rest) => some { value := String.ofList value, rest, shorter := length_quotedFrom h }

/-- Text on one line. -/
def quotedLine : Text.Reader String
  | '"' :: rest => (quotedTail ⟨'"', true, false⟩ rest).map (·.afterOne)
  | '\'' :: rest => (quotedTail ⟨'\'', false, false⟩ rest).map (·.afterOne)
  | _ => none

/-- Drops a line break at the beginning. -/
def afterBreak : List Char → List Char
  | '\n' :: rest => rest
  | text => text

theorem length_afterBreak (text : List Char) : (afterBreak text).length ≤ text.length := by
  unfold afterBreak
  split
  · simp
  · exact Nat.le_refl _

/-- Text over several lines, its opening quotes read. -/
def quotedLines (mark : Char) (escapes : Bool) : Text.Reader String := fun text =>
  (quotedTail ⟨mark, escapes, true⟩ (afterBreak text)).map (·.widen (length_afterBreak text))

/-- Text in any of the four forms. -/
def quoted : Text.Reader String := fun text =>
  match text with
  | '"' :: '"' :: '"' :: rest =>
    (quotedLines '"' true rest).map (·.widen (by simp only [List.length_cons]; omega))
  | '\'' :: '\'' :: '\'' :: rest =>
    (quotedLines '\'' false rest).map (·.widen (by simp only [List.length_cons]; omega))
  | text => quotedLine text

end EventCodec.Toml
