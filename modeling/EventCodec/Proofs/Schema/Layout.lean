import EventCodec.Proofs.Schema.Text
import Mathlib.Data.List.TakeWhile

/-! # Layouts of schema text

    A text is a layout of a row of tokens if it has their spellings one
    after the other, with any white space and comments around them, and
    words that follow each other do not touch (`IsLayout`).  A text is
    read as the tokens that it is a layout of, and refused if it is a
    layout of none (`reads_layouts`).

    The key idea: reading goes through a front that is laid out in full
    and does not care what stands behind it (`tokensFrom_front`), and every
    text has such a front up to its end, or up to a place where nothing can
    begin (`hasFront`). -/

namespace EventCodec.Schema

namespace Proto

/-! ### Separators -/

/-- What keeps tokens apart and means nothing. -/
inductive IsSeparator : List Char → Prop where
  | blank {c : Char} : Text.isBlank c = true → IsSeparator [c]
  /-- A comment up to the end of its line. -/
  | line {body : List Char} : '\n' ∉ body → IsSeparator ('/' :: '/' :: (body ++ ['\n']))
  /-- A comment up to the first closing mark. -/
  | block {body : List Char} : ¬ ['*', '/'] <:+: body →
      IsSeparator ('/' :: '*' :: (body ++ ['*', '/']))

/-- Separators one after the other. -/
inductive IsGap : List Char → Prop where
  | nil : IsGap []
  | cons {s gap : List Char} : IsSeparator s → IsGap gap → IsGap (s ++ gap)

/-! ### Tokens as they are written -/

def Token.isWord : Token → Bool
  | .word _ => true
  | _ => false

/-- A token and the characters that stand for it. -/
inductive Spells : Token → List Char → Prop where
  | word {w : String} : IsWord w → Spells (.word w) w.toList
  | quoted {mark : Char} {value : String} : isQuote mark = true → mark ∉ value.toList →
      Spells (.quoted value) (mark :: (value.toList ++ [mark]))
  | symbol {c : Char} : isSymbol c = true → Spells (.symbol c) [c]

/-- Tokens one after the other, each with a gap behind it that is not
    empty between two words. -/
inductive IsRow : List Token → List Char → Prop where
  | nil : IsRow [] []
  | cons {t : Token} {ts : List Token} {s gap row : List Char} : Spells t s → IsGap gap →
      (t.isWord = true → (∃ u ∈ ts.head?, u.isWord = true) → gap ≠ []) → IsRow ts row →
      IsRow (t :: ts) (s ++ (gap ++ row))

/-- Tokens with separators before, between and behind them. -/
def IsFront (ts : List Token) (front : List Char) : Prop :=
  ∃ gap row, IsGap gap ∧ IsRow ts row ∧ front = gap ++ row

/-- What may stand at the very end: a comment that lacks its line feed. -/
inductive IsTail : List Char → Prop where
  | nil : IsTail []
  | line {body : List Char} : '\n' ∉ body → IsTail ('/' :: '/' :: body)

/-- A front up to the end of the text. -/
def IsLayout (ts : List Token) (text : List Char) : Prop :=
  ∃ front tail, IsFront ts front ∧ IsTail tail ∧ text = front ++ tail

/-! ### Where reading ends -/

/-- Neither a token nor a separator begins here, and this is the error
    that says so. -/
inductive Fails : SyntaxError → List Char → Prop where
  | comment {body : List Char} : ¬ ['*', '/'] <:+: body →
      Fails .unclosedComment ('/' :: '*' :: body)
  | quoted {mark : Char} {value : List Char} : isQuote mark = true → mark ∉ value →
      Fails .unclosedString (mark :: value)
  | slash {rest : List Char} : rest.head? ≠ some '/' → rest.head? ≠ some '*' →
      Fails (.unexpectedChar '/') ('/' :: rest)
  | other {c : Char} {rest : List Char} : Text.isBlank c = false → c ≠ '/' → isQuote c = false →
      isSymbol c = false → isWordChar c = false → Fails (.unexpectedChar c) (c :: rest)

/-- A word would go on from one text into the next. -/
def Touches (front rest : List Char) : Prop :=
  ∃ before c d after, front = before ++ [c] ∧ rest = d :: after ∧
    isWordChar c = true ∧ isWordChar d = true

theorem Touches.append {front rest : List Char} (h : Touches front rest) (text : List Char) :
    Touches (text ++ front) rest := by
  obtain ⟨before, c, d, after, rfl, hrest, hc, hd⟩ := h
  exact ⟨text ++ before, c, d, after, (List.append_assoc ..).symm, hrest, hc, hd⟩

/-! ### How tokens and separators begin -/

theorem not_touches_of_head? {front rest : List Char}
    (h : ∀ c, rest.head? = some c → isWordChar c = false) : ¬ Touches front rest := by
  rintro ⟨-, -, d, after, -, rfl, -, hd⟩
  rw [h d rfl] at hd
  contradiction

theorem not_touches_nil {front : List Char} : ¬ Touches front [] :=
  not_touches_of_head? fun _ hc => by contradiction

theorem not_touches_cons {front rest : List Char} {c : Char} (h : isWordChar c = false) :
    ¬ Touches front (c :: rest) :=
  not_touches_of_head? fun _ hd => Option.some.inj hd ▸ h

variable {t : Token} {ts before : List Token} {s gap row front tail rest : List Char}
  {e : SyntaxError}

theorem isWordChar_of_isBlank {c : Char} (h : Text.isBlank c = true) : isWordChar c = false := by
  cases hword : isWordChar c with
  | false => rfl
  | true =>
    rw [isBlank_of_isWordChar hword] at h
    contradiction

theorem isWordChar_of_isQuote {c : Char} (h : isQuote c = true) : isWordChar c = false := by
  cases hword : isWordChar c with
  | false => rfl
  | true =>
    rw [isQuote_of_isWordChar hword] at h
    contradiction

theorem IsSeparator.exists_cons (h : IsSeparator s) :
    ∃ c cs, s = c :: cs ∧ isWordChar c = false := by
  cases h with
  | blank hblank => exact ⟨_, _, rfl, isWordChar_of_isBlank hblank⟩
  | line => exact ⟨_, _, rfl, by decide⟩
  | block => exact ⟨_, _, rfl, by decide⟩

theorem Spells.ofList_word {cs : List Char} (hnonempty : cs ≠ [])
    (hchars : ∀ c ∈ cs, isWordChar c = true) : Spells (.word (String.ofList cs)) cs := by
  have hword : IsWord (String.ofList cs) :=
    ⟨by simpa using hnonempty, by simpa using hchars⟩
  simpa using Spells.word hword

theorem Spells.ofList_quoted {mark : Char} {value : List Char} (hmark : isQuote mark = true)
    (hvalue : mark ∉ value) :
    Spells (.quoted (String.ofList value)) (mark :: (value ++ [mark])) := by
  have hspelled : mark ∉ (String.ofList value).toList := by simpa using hvalue
  simpa using Spells.quoted hmark hspelled

theorem Spells.exists_cons (h : Spells t s) : ∃ c cs, s = c :: cs ∧ isWordChar c = t.isWord := by
  cases h with
  | @word w hword =>
    obtain ⟨hnonempty, hchars⟩ := hword
    cases hlist : w.toList with
    | nil => contradiction
    | cons c cs =>
      rw [hlist, List.all_cons, Bool.and_eq_true] at hchars
      exact ⟨c, cs, rfl, hchars.1⟩
  | quoted hmark => exact ⟨_, _, rfl, isWordChar_of_isQuote hmark⟩
  | symbol hsymbol => exact ⟨_, _, rfl, (classes_of_isSymbol hsymbol).2.2.2⟩

/-- A word ends with a character of words. -/
theorem Spells.exists_concat (h : Spells t s) (hword : t.isWord = true) :
    ∃ cs c, s = cs ++ [c] ∧ isWordChar c = true := by
  cases h with
  | @word w hw =>
    refine ⟨_, _, (List.dropLast_concat_getLast hw.nonempty).symm, ?_⟩
    exact List.all_eq_true.mp hw.chars _ (List.getLast_mem hw.nonempty)
  | quoted => contradiction
  | symbol => contradiction

/-! ### Comments and strings -/

theorem afterLine_append {body : List Char} (h : '\n' ∉ body) :
    afterLine (body ++ '\n' :: rest) = rest := by
  induction body with
  | nil => rfl
  | cons c body ih =>
    obtain ⟨hc, hbody⟩ := not_or.mp (mt List.mem_cons.mpr h)
    rw [List.cons_append, afterLine, if_neg (Ne.symm hc), ih hbody]

theorem afterLine_of_not_mem {body : List Char} (h : '\n' ∉ body) : afterLine body = [] := by
  induction body with
  | nil => rfl
  | cons c body ih =>
    obtain ⟨hc, hbody⟩ := not_or.mp (mt List.mem_cons.mpr h)
    rw [afterLine, if_neg (Ne.symm hc), ih hbody]

theorem not_prefix_of_open {c : Char} {cs : List Char}
    (h : ∀ rest, c = '*' → cs = '/' :: rest → False) : ¬ ['*', '/'] <+: c :: cs := by
  rintro ⟨after, hafter⟩
  simp only [List.cons_append, List.nil_append, List.cons.injEq] at hafter
  obtain ⟨rfl, rfl⟩ := hafter
  exact h after rfl rfl

/-- A block comment ends at the first closing mark. -/
theorem afterBlock?_eq_some_iff {cs : List Char} :
    afterBlock? cs = some rest ↔
      ∃ body, ¬ ['*', '/'] <:+: body ∧ cs = body ++ '*' :: '/' :: rest := by
  fun_induction afterBlock? cs with
  | case1 => simp
  | case2 more =>
    constructor
    · intro h
      obtain rfl := Option.some.inj h
      exact ⟨[], by simp, rfl⟩
    · rintro ⟨body, hbody, hcs⟩
      -- the first closing mark is at the front, so the body is empty
      rcases body with _ | ⟨c, _ | ⟨d, body⟩⟩
      · exact congrArg some (by simpa using hcs)
      · simp at hcs
      · simp only [List.cons_append, List.cons.injEq] at hcs
        obtain ⟨rfl, rfl, -⟩ := hcs
        exact absurd (List.infix_append [] _ body) hbody
  | case3 c cs hopen ih =>
    rw [ih]
    constructor
    · rintro ⟨body, hbody, rfl⟩
      refine ⟨c :: body, ?_, rfl⟩
      rw [List.infix_cons_iff]
      rintro (hfront | hinside)
      · exact not_prefix_of_open hopen (hfront.trans (List.prefix_append (c :: body) _))
      · exact hbody hinside
    · rintro ⟨body, hbody, hcs⟩
      cases body with
      | nil =>
        obtain ⟨rfl, rfl⟩ := List.cons.inj hcs
        exact absurd rfl (hopen _ rfl)
      | cons d body =>
        obtain ⟨rfl, rfl⟩ := List.cons.inj hcs
        exact ⟨body, fun hinside => hbody (List.infix_cons hinside), rfl⟩

theorem afterBlock?_eq_none_iff {cs : List Char} :
    afterBlock? cs = none ↔ ¬ ['*', '/'] <:+: cs := by
  fun_induction afterBlock? cs with
  | case1 => simp
  | case2 more => simpa using List.infix_append [] ['*', '/'] more
  | case3 c cs hopen ih =>
    rw [ih, List.infix_cons_iff, not_or, and_iff_right (not_prefix_of_open hopen)]

/-- A string ends at the first mark of its kind. -/
theorem splitQuoted?_append {mark : Char} {value : List Char} (h : mark ∉ value) :
    splitQuoted? mark (value ++ mark :: rest) = some (value, rest) := by
  have hvalue : ∀ c ∈ value, (c != mark) = true := fun c hc =>
    bne_iff_ne.mpr fun hmark => h (hmark ▸ hc)
  rw [splitQuoted?, List.dropWhile_append_of_pos hvalue, List.takeWhile_append_of_pos hvalue,
    List.dropWhile_cons_of_neg (by simp), List.takeWhile_cons_of_neg (by simp), List.append_nil]

theorem splitQuoted?_eq_none_iff {mark : Char} {cs : List Char} :
    splitQuoted? mark cs = none ↔ mark ∉ cs := by
  constructor
  · intro hnone hmem
    obtain ⟨value, rest, rfl, hvalue⟩ := List.eq_append_cons_of_mem hmem
    rw [splitQuoted?_append hvalue] at hnone
    contradiction
  · intro hmem
    have hdrop : cs.dropWhile (· != mark) = [] :=
      List.dropWhile_eq_nil_iff.mpr fun c hc => bne_iff_ne.mpr fun hmark => hmem (hmark ▸ hc)
    rw [splitQuoted?, hdrop]

theorem splitQuoted?_eq_some {mark : Char} {cs value : List Char}
    (h : splitQuoted? mark cs = some (value, rest)) :
    mark ∉ value ∧ cs = value ++ mark :: rest := by
  have hmem : mark ∈ cs := by
    by_contra hmem
    rw [splitQuoted?_eq_none_iff.mpr hmem] at h
    contradiction
  obtain ⟨value', rest', rfl, hvalue⟩ := List.eq_append_cons_of_mem hmem
  rw [splitQuoted?_append hvalue] at h
  obtain ⟨rfl, rfl⟩ := Prod.mk.inj (Option.some.inj h)
  exact ⟨hvalue, rfl⟩

/-! ### Reading what has been laid out -/

theorem isBlank_slash : Text.isBlank '/' = false := by
  decide

theorem tokensFrom_line :
    tokensFrom before ('/' :: '/' :: rest) = tokensFrom before (afterLine rest) := by
  rw [tokensFrom.eq_def]
  rfl

theorem tokensFrom_block : tokensFrom before ('/' :: '*' :: rest) =
    match afterBlock? rest with
    | none => .error .unclosedComment
    | some after => tokensFrom before after := by
  rw [tokensFrom.eq_def]
  simp only [isBlank_slash, Bool.false_eq_true, if_false, if_true]
  cases afterBlock? rest <;> rfl

theorem tokensFrom_quoted {mark : Char} (hmark : isQuote mark = true) :
    tokensFrom before (mark :: rest) =
      match splitQuoted? mark rest with
      | none => .error .unclosedString
      | some (value, after) => tokensFrom (.quoted (String.ofList value) :: before) after := by
  have hother : Text.isBlank mark = false ∧ mark ≠ '/' := by
    simp only [isQuote, Bool.or_eq_true, beq_iff_eq] at hmark
    rcases hmark with rfl | rfl <;> decide
  rw [tokensFrom.eq_def]
  simp only [hother, hmark, Bool.false_eq_true, if_false, if_true]
  cases splitQuoted? mark rest <;> rfl

theorem tokensFrom_separator (h : IsSeparator s) :
    tokensFrom before (s ++ rest) = tokensFrom before rest := by
  cases h with
  | blank hblank => exact tokensFrom_blank hblank
  | @line body hbody =>
    rw [List.cons_append, List.cons_append, List.append_assoc, tokensFrom_line,
      List.singleton_append, afterLine_append hbody]
  | @block body hbody =>
    have hafter : afterBlock? (body ++ (['*', '/'] ++ rest)) = some rest :=
      afterBlock?_eq_some_iff.mpr ⟨body, hbody, rfl⟩
    rw [List.cons_append, List.cons_append, List.append_assoc, tokensFrom_block, hafter]

theorem tokensFrom_gap (h : IsGap gap) :
    tokensFrom before (gap ++ rest) = tokensFrom before rest := by
  induction h with
  | nil => rfl
  | cons hs _ ih => rw [List.append_assoc, tokensFrom_separator hs, ih]

theorem tokensFrom_spelling (h : Spells t s)
    (hend : t.isWord = true → ∀ c, rest.head? = some c → isWordChar c = false) :
    tokensFrom before (s ++ rest) = tokensFrom (t :: before) rest := by
  cases h with
  | word hword => exact tokensFrom_word_of_end hword (hend rfl)
  | @quoted mark value hmark hvalue =>
    rw [List.cons_append, List.append_assoc, List.singleton_append, tokensFrom_quoted hmark,
      splitQuoted?_append hvalue]
    simp only [String.ofList_toList]
  | symbol hsymbol => exact tokensFrom_symbol hsymbol

/-- Behind a word of a row comes no character of words: there is a
    separator, or another token, or what stands behind the row. -/
theorem IsRow.head?_behind (hs : Spells t s) (hgap : IsGap gap)
    (hapart : t.isWord = true → (∃ u ∈ ts.head?, u.isWord = true) → gap ≠ [])
    (hrow : IsRow ts row) (hrest : ¬ Touches (s ++ (gap ++ row)) rest) (hword : t.isWord = true) :
    ∀ c, (gap ++ row ++ rest).head? = some c → isWordChar c = false := by
  intro c hc
  cases hgap with
  | cons hseparator =>
    obtain ⟨d, ds, rfl, hd⟩ := hseparator.exists_cons
    obtain rfl : d = c := by simpa using hc
    exact hd
  | nil =>
    cases hrow with
    | @cons u us s' gap' row' hu =>
      obtain ⟨d, ds, rfl, hd⟩ := hu.exists_cons
      obtain rfl : d = c := by simpa using hc
      rw [hd, Bool.eq_false_iff]
      exact fun huword => hapart hword ⟨u, rfl, huword⟩ rfl
    | nil =>
      -- the word is the last token, and nothing separates it from the rest
      obtain ⟨cs, d, rfl, hd⟩ := hs.exists_concat hword
      cases rest with
      | nil => contradiction
      | cons e rest =>
        obtain rfl : e = c := by simpa using hc
        rw [Bool.eq_false_iff]
        exact fun he => hrest ⟨cs, d, e, rest, by simp, rfl, hd, he⟩

theorem tokensFrom_row (h : IsRow ts row) (hrest : ¬ Touches row rest) :
    tokensFrom before (row ++ rest) = tokensFrom (ts.reverse ++ before) rest := by
  induction h generalizing before with
  | nil => rfl
  | @cons t ts s gap row hs hgap hapart hrow ih =>
    have hbehind : ¬ Touches row rest := fun h => hrest ((h.append gap).append s)
    have hend := IsRow.head?_behind hs hgap hapart hrow hrest
    rw [List.append_assoc, tokensFrom_spelling hs hend, List.append_assoc, tokensFrom_gap hgap,
      ih hbehind, List.reverse_cons, List.append_assoc, List.singleton_append]

/-- A front gives its tokens, whatever stands behind it, unless a word
    goes on there. -/
theorem tokensFrom_front (h : IsFront ts front) (hrest : ¬ Touches front rest) :
    tokensFrom before (front ++ rest) = tokensFrom (ts.reverse ++ before) rest := by
  obtain ⟨gap, row, hgap, hrow, rfl⟩ := h
  rw [List.append_assoc, tokensFrom_gap hgap, tokensFrom_row hrow fun h => hrest (h.append gap)]

theorem tokensFrom_tail (h : IsTail tail) : tokensFrom before tail = .ok before.reverse := by
  cases h with
  | nil => rw [tokensFrom.eq_def]
  | line hbody => rw [tokensFrom_line, afterLine_of_not_mem hbody, tokensFrom.eq_def]

theorem tokensFrom_fails (h : Fails e rest) : tokensFrom before rest = .error e := by
  cases h with
  | comment hbody => rw [tokensFrom_block, afterBlock?_eq_none_iff.mpr hbody]
  | quoted hmark hvalue => rw [tokensFrom_quoted hmark, splitQuoted?_eq_none_iff.mpr hvalue]
  | @slash more hline hblock =>
    rw [tokensFrom.eq_def]
    simp only [isBlank_slash, Bool.false_eq_true, if_false, if_true]
    split
    · exact absurd rfl hline
    · exact absurd rfl hblock
    · rfl
  | other hblank hslash hquote hsymbol hword =>
    rw [tokensFrom.eq_def]
    simp only [hblank, hslash, hquote, hsymbol, hword, Bool.false_eq_true, if_false]

theorem not_touches_tail (h : IsTail tail) : ¬ Touches front tail := by
  cases h with
  | nil => exact not_touches_nil
  | line => exact not_touches_cons (by decide)

theorem not_touches_fails (h : Fails e rest) : ¬ Touches front rest := by
  cases h with
  | comment => exact not_touches_cons (by decide)
  | quoted hmark => exact not_touches_cons (isWordChar_of_isQuote hmark)
  | slash => exact not_touches_cons (by decide)
  | other _ _ _ _ hword => exact not_touches_cons hword

/-! ### Every text has a front -/

theorem IsFront.nil : IsFront [] [] :=
  ⟨[], [], .nil, .nil, rfl⟩

theorem IsFront.separator (hs : IsSeparator s) (h : IsFront ts front) :
    IsFront ts (s ++ front) := by
  obtain ⟨gap, row, hgap, hrow, rfl⟩ := h
  exact ⟨s ++ gap, row, .cons hs hgap, hrow, (List.append_assoc ..).symm⟩

theorem IsFront.token (hs : Spells t s) (h : IsFront ts front)
    (happart : t.isWord = true → ¬ Touches s front) : IsFront (t :: ts) (s ++ front) := by
  obtain ⟨gap, row, hgap, hrow, rfl⟩ := h
  refine ⟨[], s ++ (gap ++ row), .nil, .cons hs hgap ?_ hrow, rfl⟩
  -- with no gap between them two words would touch
  rintro hword ⟨u, hu, huword⟩ rfl
  cases hrow with
  | nil => contradiction
  | cons hu' =>
    obtain rfl := Option.some.inj hu
    obtain ⟨cs, c, rfl, hc⟩ := hs.exists_concat hword
    obtain ⟨d, ds, rfl, hd⟩ := hu'.exists_cons
    exact happart hword ⟨cs, c, d, _, rfl, rfl, hc, hd.trans huword⟩

/-- The text has a front behind which it ends, or nothing can begin. -/
def HasFront (text : List Char) : Prop :=
  ∃ ts front rest, IsFront ts front ∧ (IsTail rest ∨ ∃ e, Fails e rest) ∧ text = front ++ rest

theorem HasFront.of_tail (h : IsTail tail) : HasFront tail :=
  ⟨[], [], tail, .nil, .inl h, rfl⟩

theorem HasFront.of_fails (h : Fails e rest) : HasFront rest :=
  ⟨[], [], rest, .nil, .inr ⟨e, h⟩, rfl⟩

theorem HasFront.separator (hs : IsSeparator s) (h : HasFront rest) : HasFront (s ++ rest) := by
  obtain ⟨ts, front, after, hfront, hafter, rfl⟩ := h
  exact ⟨ts, s ++ front, after, hfront.separator hs, hafter, (List.append_assoc ..).symm⟩

theorem HasFront.token (hs : Spells t s) (h : HasFront rest)
    (hapart : t.isWord = true → ∀ c, rest.head? = some c → isWordChar c = false) :
    HasFront (s ++ rest) := by
  obtain ⟨ts, front, after, hfront, hafter, rfl⟩ := h
  refine ⟨t :: ts, s ++ front, after, hfront.token hs ?_, hafter, (List.append_assoc ..).symm⟩
  refine fun hword => not_touches_of_head? fun c hc => hapart hword c ?_
  rw [List.head?_append, hc, Option.some_or]

/-- Every text has a front, by the steps of the reading. -/
theorem hasFront (before : List Token) (text : List Char) : HasFront text := by
  fun_induction tokensFrom before text with
  | case1 => exact .of_tail .nil
  | case2 before c rest hblank ih => exact ih.separator (.blank hblank)
  | case3 before more _ ih =>
    by_cases hmem : '\n' ∈ more
    · obtain ⟨body, rest, rfl, hbody⟩ := List.eq_append_cons_of_mem hmem
      rw [afterLine_append hbody] at ih
      simpa using ih.separator (.line hbody)
    · exact .of_tail (.line hmem)
  | case4 before more hopen => exact .of_fails (.comment (afterBlock?_eq_none_iff.mp hopen))
  | case5 before more after hclosed _ ih =>
    obtain ⟨body, hbody, rfl⟩ := afterBlock?_eq_some_iff.mp hclosed
    simpa using ih.separator (.block hbody)
  | case6 before rest hline hblock =>
    refine .of_fails (.slash (fun hhead => ?_) (fun hhead => ?_))
    · obtain ⟨more, rfl⟩ := List.head?_eq_some_iff.mp hhead
      exact hline more rfl
    · obtain ⟨more, rfl⟩ := List.head?_eq_some_iff.mp hhead
      exact hblock more rfl
  | case7 before mark rest _ _ hmark hopen =>
    exact .of_fails (.quoted hmark (splitQuoted?_eq_none_iff.mp hopen))
  | case8 before mark rest _ _ hmark value after hclosed ih =>
    obtain ⟨hvalue, rfl⟩ := splitQuoted?_eq_some hclosed
    simpa using ih.token (.ofList_quoted hmark hvalue) (by simp [Token.isWord])
  | case9 before c rest _ _ _ hsymbol ih =>
    exact ih.token (.symbol hsymbol) (by simp [Token.isWord])
  | case10 before c rest _ _ _ _ hword ih =>
    have hchars : ∀ d ∈ c :: rest.takeWhile isWordChar, isWordChar d = true :=
      List.forall_mem_cons.mpr ⟨hword, fun d hd => List.mem_takeWhile_imp hd⟩
    have hend : ∀ d, (rest.dropWhile isWordChar).head? = some d → isWordChar d = false := by
      intro d hd
      simpa [hd] using List.head?_dropWhile_not isWordChar rest
    simpa using ih.token (.ofList_word (List.cons_ne_nil c _) hchars) fun _ => hend
  | case11 before c rest hblank hslash hquote hsymbol hword =>
    simp only [Bool.not_eq_true] at hblank hquote hsymbol hword
    exact .of_fails (.other hblank hslash hquote hsymbol hword)

/-! ### Texts and their tokens -/

variable {text : String}

theorem tokens_of_isLayout (h : IsLayout ts text.toList) : tokens text = .ok ts := by
  obtain ⟨front, tail, hfront, htail, htext⟩ := h
  rw [tokens, htext, tokensFrom_front hfront (not_touches_tail htail), tokensFrom_tail htail,
    List.append_nil, List.reverse_reverse]

theorem tokens_of_fails (htext : text.toList = front ++ rest) (hfront : IsFront ts front)
    (hfails : Fails e rest) : tokens text = .error e := by
  rw [tokens, htext, tokensFrom_front hfront (not_touches_fails hfails), tokensFrom_fails hfails]

theorem tokens_eq_ok_iff : tokens text = .ok ts ↔ IsLayout ts text.toList := by
  refine ⟨fun h => ?_, tokens_of_isLayout⟩
  obtain ⟨ts', front, rest, hfront, htail | ⟨e, hfails⟩, htext⟩ := hasFront [] text.toList
  · have hlayout : IsLayout ts' text.toList := ⟨front, rest, hfront, htail, htext⟩
    rw [tokens_of_isLayout hlayout] at h
    obtain rfl := Except.ok.inj h
    exact hlayout
  · rw [tokens_of_fails htext hfront hfails] at h
    contradiction

theorem tokens_eq_error_iff : tokens text = .error e ↔
    ∃ ts front rest, text.toList = front ++ rest ∧ IsFront ts front ∧ Fails e rest := by
  constructor
  · intro h
    obtain ⟨ts, front, rest, hfront, htail | ⟨e', hfails⟩, htext⟩ := hasFront [] text.toList
    · rw [tokens_of_isLayout ⟨front, rest, hfront, htail, htext⟩] at h
      contradiction
    · rw [tokens_of_fails htext hfront hfails] at h
      obtain rfl := Except.error.inj h
      exact ⟨ts, front, rest, htext, hfront, hfails⟩
  · rintro ⟨ts, front, rest, htext, hfront, hfails⟩
    exact tokens_of_fails htext hfront hfails

/-- What stands in front of a rest matters for its tokens only. -/
theorem tokens_of_fronts {other : List Char} (hfront : IsFront ts front) (hother : IsFront ts other)
    (hrest : ¬ Touches front rest) (hrest' : ¬ Touches other rest) :
    tokens (String.ofList (front ++ rest)) = tokens (String.ofList (other ++ rest)) := by
  simp only [tokens, String.toList_ofList, tokensFrom_front hfront hrest,
    tokensFrom_front hother hrest']

/-- Texts of the same tokens stand for the same descriptor, or are refused
    for the same reason. -/
theorem ofText_congr {u : String} (h : tokens text = tokens u) :
    Descriptor.ofText text = Descriptor.ofText u := by
  simp only [Descriptor.ofText, declared, h]

theorem ofText_of_tokens_error (h : tokens text = .error e) :
    Descriptor.ofText text = .error e.toSchema := by
  rw [Descriptor.ofText, declared, h]
  rfl

/-- **Layouts**: a text is read as the tokens that it is a layout of, and
    the error of one that is no layout is that of the place where its
    reading stops.  What separates tokens does not matter for the
    descriptor: not in a whole text, and not before a rest that need not
    be readable. -/
theorem reads_layouts :
    (∀ (text : String) (ts : List Token), tokens text = .ok ts ↔ IsLayout ts text.toList) ∧
      (∀ (text : String) (e : SyntaxError), tokens text = .error e ↔
        ∃ ts front rest, text.toList = front ++ rest ∧ IsFront ts front ∧ Fails e rest) ∧
      (∀ (t u : String) (ts : List Token), IsLayout ts t.toList → IsLayout ts u.toList →
        Descriptor.ofText t = Descriptor.ofText u) ∧
      (∀ (ts : List Token) (front other rest : List Char), IsFront ts front → IsFront ts other →
        ¬ Touches front rest → ¬ Touches other rest →
        Descriptor.ofText (String.ofList (front ++ rest)) =
          Descriptor.ofText (String.ofList (other ++ rest))) ∧
      ∀ (text : String) (ts : List Token) (front rest : List Char) (e : SyntaxError),
        text.toList = front ++ rest → IsFront ts front → Fails e rest →
        Descriptor.ofText text = .error e.toSchema := by
  refine ⟨fun _ _ => tokens_eq_ok_iff, fun _ _ => tokens_eq_error_iff, ?_, ?_, ?_⟩
  · intro t u ts ht hu
    exact ofText_congr ((tokens_of_isLayout ht).trans (tokens_of_isLayout hu).symm)
  · intro ts front other rest hfront hother hrest hrest'
    exact ofText_congr (tokens_of_fronts hfront hother hrest hrest')
  · intro text ts front rest e htext hfront hfails
    exact ofText_of_tokens_error (tokens_of_fails htext hfront hfails)

/-- A comment keeps words apart, and one mark does not both open and
    close it. -/
theorem reads_comment :
    tokens "a/**/b" = .ok [.word "a", .word "b"] ∧ tokens "a/*/" = .error .unclosedComment := by
  have ha : Spells (.word "a") ['a'] := .word ⟨by decide, by decide⟩
  have hb : Spells (.word "b") ['b'] := .word ⟨by decide, by decide⟩
  have hcomment : IsSeparator ['/', '*', '*', '/'] := .block (List.infix_nil.not.mpr (by decide))
  have hbehind : IsFront [.word "b"] ['/', '*', '*', '/', 'b'] :=
    (IsFront.nil.token hb fun _ => not_touches_nil).separator hcomment
  obtain ⟨hread, hrefused, -⟩ := reads_layouts
  refine ⟨(hread _ _).mpr ⟨"a/**/b".toList, [], ?_, .nil, rfl⟩, (hrefused _ _).mpr ?_⟩
  · exact hbehind.token ha fun _ => not_touches_cons (by decide)
  · exact ⟨[.word "a"], ['a'], ['/', '*', '/'], by decide,
      IsFront.nil.token ha fun _ => not_touches_nil, .comment (by decide)⟩

end Proto

end EventCodec.Schema
