import EventCodec.Schema.Error
import EventCodec.Text.Blank
import EventCodec.Text.Front

/-! # Tokens of schema text

    Schema text is read as a row of words, quoted strings and symbols.
    White space and both forms of comment separate tokens and mean
    nothing otherwise.

    Words are taken as long as they go on; numbers are words as well.  A
    quoted string ends at the next mark of the kind that opened it and
    has no escapes. -/

namespace EventCodec.Schema.Proto

/-! ### Tokens -/

inductive Token where
  | word (text : String)
  | quoted (value : String)
  | symbol (c : Char)
deriving DecidableEq, Repr

namespace Token

/-- A token as shown in messages. -/
def shown : Token → String
  | .word text => "Ident(" ++ Text.quoted text ++ ")"
  | .quoted value => "Str(" ++ Text.quoted value ++ ")"
  | .symbol c => "Symbol(" ++ Text.quotedChar c ++ ")"

/-- The token at a place where the text may already have ended. -/
def shownOption : Option Token → String
  | some t => "Some(" ++ t.shown ++ ")"
  | none => "None"

end Token

/-! ### Errors -/

/-- Why schema text cannot be read. -/
inductive SyntaxError where
  | unclosedComment
  | unclosedString
  | unexpectedChar (c : Char)
  /-- A symbol was due and something else, or the end, came. -/
  | expectedSymbol (symbol : Char) (found : Option Token)
  | expectedWord (found : Option Token)
  /-- A statement without its semicolon. -/
  | unterminatedStatement
  /-- A list of field options without its closing bracket. -/
  | unclosedOptions
  | unexpectedDeclaration (found : Token)
  | unexpectedMember (found : Option Token)
  | unsupportedVersion (found : Option Token)
  | secondMessage
  | noMessage
  | unsupportedDeclaration (word : String)
  | unsupportedMember (word : String)
  /-- A type with arguments in angle brackets. -/
  | typeArguments (typeName : String)
  | badNumber (text : String)
deriving DecidableEq, Repr

namespace SyntaxError

def message : SyntaxError → String
  | .unclosedComment => "块注释未闭合"
  | .unclosedString => "字符串未闭合"
  | .unexpectedChar c => "意外的字符 " ++ Text.quotedChar c
  | .expectedSymbol symbol found =>
    "期望 '" ++ String.ofList [symbol] ++ "'，实际为 " ++ Token.shownOption found
  | .expectedWord found => "期望标识符，实际为 " ++ Token.shownOption found
  | .unterminatedStatement => "语句缺少 ';'"
  | .unclosedOptions => "字段选项未闭合"
  | .unexpectedDeclaration found => "意外的记号 " ++ found.shown
  | .unexpectedMember found => "意外的记号 " ++ Token.shownOption found
  | .unsupportedVersion found => "仅支持 proto3，实际为 " ++ Token.shownOption found
  | .secondMessage => "只支持单个顶层消息"
  | .noMessage => "缺少 message 声明"
  | .unsupportedDeclaration word => "不支持的声明: " ++ word
  | .unsupportedMember word => "不支持的消息成员: " ++ word
  | .typeArguments typeName => "不支持的字段类型: " ++ typeName ++ "<...>"
  | .badNumber text => "非法字段编号: " ++ text

def toSchema (e : SyntaxError) : SchemaError :=
  .parse e.message

end SyntaxError

/-! ### Characters -/

/-- What a word is made of. -/
def isWordChar (c : Char) : Bool :=
  ('a' ≤ c && c ≤ 'z') || ('A' ≤ c && c ≤ 'Z') || ('0' ≤ c && c ≤ '9') ||
    c == '_' || c == '.' || c == '-'

def symbols : List Char :=
  ['\x7b', '\x7d', ';', '=', '<', '>', ',', '[', ']', '(', ')']

def isSymbol (c : Char) : Bool :=
  symbols.contains c

def isQuote (c : Char) : Bool :=
  c == '"' || c == '\''

/-! ### Comments and strings -/

/-- The text after a line comment: what follows the next line feed. -/
def afterLine : List Char → List Char
  | [] => []
  | c :: cs => if c = '\n' then cs else afterLine cs

/-- The text after a block comment, if it is closed. -/
def afterBlock? : List Char → Option (List Char)
  | [] => none
  | c :: cs =>
    match c, cs with
    | '*', '/' :: rest => some rest
    | _, cs => afterBlock? cs

/-- The value of a string whose opening mark has been read, and the text
    after its closing mark. -/
def splitQuoted? (mark : Char) (cs : List Char) : Option (List Char × List Char) :=
  match cs.dropWhile (· != mark) with
  | [] => none
  | _ :: rest => some (cs.takeWhile (· != mark), rest)

theorem length_afterLine_le (cs : List Char) : (afterLine cs).length ≤ cs.length := by
  induction cs with
  | nil => simp [afterLine]
  | cons c cs ih =>
    simp only [afterLine]
    split
    · simp
    · simp only [List.length_cons]
      omega

theorem length_afterBlock?_le {cs rest : List Char} (h : afterBlock? cs = some rest) :
    rest.length ≤ cs.length := by
  fun_induction afterBlock? cs with
  | case1 => contradiction
  | case2 => cases h; simp; omega
  | case3 c cs _ ih =>
    have := ih h
    simp only [List.length_cons]
    omega

theorem length_splitQuoted?_le {mark : Char} {cs value rest : List Char}
    (h : splitQuoted? mark cs = some (value, rest)) : rest.length ≤ cs.length := by
  unfold splitQuoted? at h
  split at h
  · contradiction
  · rename_i drop
    simp only [Option.some.injEq, Prod.mk.injEq] at h
    have := Text.length_dropWhile (· != mark) cs
    rw [drop] at this
    obtain ⟨-, rfl⟩ := h
    simp only [List.length_cons] at this
    omega

/-! ### Reading tokens -/

/-- Reads the tokens of the rest; `before` are those already read, the
    last one first. -/
def tokensFrom (before : List Token) (text : List Char) : Except SyntaxError (List Token) :=
  match text with
  | [] => .ok before.reverse
  | c :: rest =>
    if Text.isBlank c then tokensFrom before rest
    else if c = '/' then
      match rest with
      | '/' :: more => tokensFrom before (afterLine more)
      | '*' :: more =>
        match _block : afterBlock? more with
        | none => .error .unclosedComment
        | some after => tokensFrom before after
      | _ => .error (.unexpectedChar c)
    else if isQuote c then
      match _split : splitQuoted? c rest with
      | none => .error .unclosedString
      | some (value, after) => tokensFrom (.quoted (String.ofList value) :: before) after
    else if isSymbol c then tokensFrom (.symbol c :: before) rest
    else if isWordChar c then
      tokensFrom (.word (String.ofList (c :: rest.takeWhile isWordChar)) :: before)
        (rest.dropWhile isWordChar)
    else .error (.unexpectedChar c)
termination_by text.length
decreasing_by
  · simp
  · have := length_afterLine_le more
    simp only [List.length_cons]; omega
  · have := length_afterBlock?_le _block
    simp only [List.length_cons]; omega
  · have := length_splitQuoted?_le _split
    simp only [List.length_cons]; omega
  · simp
  · have := Text.length_dropWhile isWordChar rest
    simp only [List.length_cons]; omega

/-- The tokens of a text. -/
def tokens (text : String) : Except SyntaxError (List Token) :=
  tokensFrom [] text.toList

end EventCodec.Schema.Proto
