import EventCodec.Schema.Builder
import EventCodec.Schema.Proto.Token
import EventCodec.Text.Decimal

/-! # Reading schema text

    A text is a row of declarations: the version, which has to be the one
    supported, `package` and `option` statements, which are skipped up to
    their semicolon, and exactly one message.

    A message is a row of members: fields, and `reserved` and `option`
    statements, which are skipped too.  A field may carry a label and a
    list of options; of these only the label `repeated` has a meaning.

    Each step takes tokens from the front and hands back the rest, which
    is shorter. -/

namespace EventCodec.Schema.Proto

/-! ### Steps -/

def expectSymbol (symbol : Char) : List Token → Except SyntaxError (List Token)
  | .symbol c :: rest =>
    if c = symbol then .ok rest else .error (.expectedSymbol symbol (some (.symbol c)))
  | other => .error (.expectedSymbol symbol other.head?)

def expectWord : List Token → Except SyntaxError (String × List Token)
  | .word text :: rest => .ok (text, rest)
  | other => .error (.expectedWord other.head?)

/-- The tokens after the next occurrence of a symbol. -/
def after? (symbol : Char) : List Token → Option (List Token)
  | [] => none
  | t :: rest => if t = .symbol symbol then some rest else after? symbol rest

theorem length_expectSymbol {symbol : Char} {ts rest : List Token}
    (h : expectSymbol symbol ts = .ok rest) : rest.length < ts.length := by
  unfold expectSymbol at h
  split at h
  · split at h
    · cases h; simp
    · contradiction
  · contradiction

theorem length_expectWord {ts rest : List Token} {text : String}
    (h : expectWord ts = .ok (text, rest)) : rest.length < ts.length := by
  unfold expectWord at h
  split at h
  · cases h; simp
  · contradiction

theorem length_after? {symbol : Char} {ts rest : List Token} (h : after? symbol ts = some rest) :
    rest.length < ts.length := by
  induction ts with
  | nil => contradiction
  | cons t ts ih =>
    simp only [after?] at h
    split at h
    · cases h; simp
    · have := ih h
      simp only [List.length_cons]
      omega

/-- A step that succeeded did so after its first part had. -/
theorem bind_ok {ε α β : Type} {x : Except ε α} {f : α → Except ε β} {b : β}
    (h : (x >>= f) = .ok b) : ∃ a, x = .ok a ∧ f a = .ok b := by
  cases x with
  | error e => contradiction
  | ok a => exact ⟨a, rfl, h⟩

/-! ### Fields -/

/-- The label in front of a field, if the first word is one, and the name
    of its type. -/
def labelled (first : String) (ts : List Token) : Except SyntaxError ((Bool × String) × List Token) :=
  if first = "repeated" then do
    let (typeName, ts) ← expectWord ts
    return ((true, typeName), ts)
  else if first = "optional" then do
    let (typeName, ts) ← expectWord ts
    return ((false, typeName), ts)
  else return ((false, first), ts)

/-- A type must not be followed by arguments. -/
def refuseArguments (typeName : String) (ts : List Token) : Except SyntaxError Unit :=
  if ts.head? = some (.symbol '<') then .error (.typeArguments typeName) else .ok ()

/-- A field number is a row of digits that fits a word of 32 bits. -/
def fieldNumber (text : String) : Except SyntaxError UInt32 :=
  match Text.readDigits? 4294967296 text.toList with
  | some n => .ok (UInt32.ofNat n)
  | none => .error (.badNumber text)

/-- Skips the options of a field, if it has any. -/
def skipOptions (ts : List Token) : Except SyntaxError (List Token) :=
  if ts.head? = some (.symbol '[') then
    match after? ']' ts.tail with
    | some rest => .ok rest
    | none => .error .unclosedOptions
  else .ok ts

/-- A field whose first word has been read. -/
def fieldFrom (first : String) (ts : List Token) : Except SyntaxError (Declaration × List Token) := do
  let ((repeated, typeName), ts) ← labelled first ts
  refuseArguments typeName ts
  let (name, ts) ← expectWord ts
  let ts ← expectSymbol '=' ts
  let (text, ts) ← expectWord ts
  let number ← fieldNumber text
  let ts ← skipOptions ts
  let ts ← expectSymbol ';' ts
  return ({ number, name, kind := .ofName typeName, repeated }, ts)

theorem length_labelled {first : String} {ts rest : List Token} {label : Bool × String}
    (h : labelled first ts = .ok (label, rest)) : rest.length ≤ ts.length := by
  unfold labelled at h
  split at h
  · obtain ⟨⟨text, left⟩, word, h⟩ := bind_ok h
    cases h
    exact Nat.le_of_lt (length_expectWord word)
  · split at h
    · obtain ⟨⟨text, left⟩, word, h⟩ := bind_ok h
      cases h
      exact Nat.le_of_lt (length_expectWord word)
    · cases h
      exact Nat.le_refl _

theorem length_skipOptions {ts rest : List Token} (h : skipOptions ts = .ok rest) :
    rest.length ≤ ts.length := by
  unfold skipOptions at h
  split at h
  · split at h
    · rename_i found
      cases h
      have := length_after? found
      simp only [List.length_tail] at this
      omega
    · contradiction
  · cases h
    exact Nat.le_refl _

theorem length_fieldFrom {first : String} {ts rest : List Token} {d : Declaration}
    (h : fieldFrom first ts = .ok (d, rest)) : rest.length < ts.length := by
  unfold fieldFrom at h
  obtain ⟨⟨_, t1⟩, h1, h⟩ := bind_ok h
  obtain ⟨_, -, h⟩ := bind_ok h
  obtain ⟨⟨_, t2⟩, h2, h⟩ := bind_ok h
  obtain ⟨t3, h3, h⟩ := bind_ok h
  obtain ⟨⟨_, t4⟩, h4, h⟩ := bind_ok h
  obtain ⟨_, -, h⟩ := bind_ok h
  obtain ⟨t5, h5, h⟩ := bind_ok h
  obtain ⟨t6, h6, h⟩ := bind_ok h
  cases h
  have := length_labelled h1
  have := length_expectWord h2
  have := length_expectSymbol h3
  have := length_expectWord h4
  have := length_skipOptions h5
  have := length_expectSymbol h6
  omega

/-! ### Messages -/

/-- Statements that are skipped inside a message. -/
def skippedMembers : List String := ["reserved", "option"]

/-- Members that a message of scalar fields cannot have. -/
def refusedMembers : List String :=
  ["message", "enum", "oneof", "map", "extensions", "extend"]

/-- The members up to the closing brace; `taken` are the fields already
    read, the last one first. -/
def members (taken : List Declaration) (ts : List Token) :
    Except SyntaxError (List Declaration × List Token) :=
  match ts with
  | .symbol '\x7d' :: rest => .ok (taken.reverse, rest)
  | .symbol ';' :: rest => members taken rest
  | .word first :: rest =>
    if skippedMembers.contains first then
      match _skip : after? ';' rest with
      | none => .error .unterminatedStatement
      | some rest => members taken rest
    else if refusedMembers.contains first then .error (.unsupportedMember first)
    else
      match _field : fieldFrom first rest with
      | .error e => .error e
      | .ok (d, rest) => members (d :: taken) rest
  | other => .error (.unexpectedMember other.head?)
termination_by ts.length
decreasing_by
  · simp
  · have := length_after? _skip
    simp only [List.length_cons]; omega
  · have := length_fieldFrom _field
    simp only [List.length_cons]; omega

theorem length_members {taken ds : List Declaration} {ts rest : List Token}
    (h : members taken ts = .ok (ds, rest)) : rest.length < ts.length := by
  fun_induction members taken ts with
  | case1 => cases h; simp
  | case2 _ _ ih =>
    have := ih h
    simp only [List.length_cons]; omega
  | case3 => contradiction
  | case4 taken first rest _ rest' skip ih =>
    have := ih h
    have := length_after? skip
    simp only [List.length_cons]; omega
  | case5 => contradiction
  | case6 => contradiction
  | case7 taken first rest _ _ d rest' field ih =>
    have := ih h
    have := length_fieldFrom field
    simp only [List.length_cons]; omega
  | case8 => contradiction

/-- A message whose keyword has been read. -/
def message (ts : List Token) : Except SyntaxError (Builder × List Token) := do
  let (name, ts) ← expectWord ts
  let ts ← expectSymbol '\x7b' ts
  let (declarations, ts) ← members [] ts
  return ({ name, declarations }, ts)

theorem length_message {ts rest : List Token} {b : Builder} (h : message ts = .ok (b, rest)) :
    rest.length < ts.length := by
  unfold message at h
  obtain ⟨⟨_, t1⟩, h1, h⟩ := bind_ok h
  obtain ⟨t2, h2, h⟩ := bind_ok h
  obtain ⟨⟨_, t3⟩, h3, h⟩ := bind_ok h
  cases h
  have := length_expectWord h1
  have := length_expectSymbol h2
  have := length_members h3
  omega

/-! ### Files -/

/-- The only version of the language that is read. -/
def supportedVersion : String := "proto3"

/-- The version statement, its keyword already read. -/
def version (ts : List Token) : Except SyntaxError (List Token) := do
  let ts ← expectSymbol '=' ts
  if ts.head? = some (.quoted supportedVersion) then expectSymbol ';' ts.tail
  else .error (.unsupportedVersion ts.head?)

theorem length_version {ts rest : List Token} (h : version ts = .ok rest) :
    rest.length < ts.length := by
  unfold version at h
  obtain ⟨t1, h1, h⟩ := bind_ok h
  split at h
  · have := length_expectSymbol h1
    have := length_expectSymbol h
    simp only [List.length_tail] at this
    omega
  · contradiction

/-- Statements that are skipped at the top. -/
def skippedDeclarations : List String := ["package", "option"]

/-- The declarations of a text; `found` is the message among those
    already read. -/
def file (found : Option Builder) (ts : List Token) : Except SyntaxError Builder :=
  match ts with
  | [] =>
    match found with
    | some b => .ok b
    | none => .error .noMessage
  | .symbol ';' :: rest => file found rest
  | .word first :: rest =>
    if first = "syntax" then
      match _step : version rest with
      | .error e => .error e
      | .ok rest => file found rest
    else if skippedDeclarations.contains first then
      match _skip : after? ';' rest with
      | none => .error .unterminatedStatement
      | some rest => file found rest
    else if first = "message" then
      if found.isSome then .error .secondMessage
      else
        match _step : message rest with
        | .error e => .error e
        | .ok (b, rest) => file (some b) rest
    else .error (.unsupportedDeclaration first)
  | other :: _ => .error (.unexpectedDeclaration other)
termination_by ts.length
decreasing_by
  · simp
  · have := length_version _step
    simp only [List.length_cons]; omega
  · have := length_after? _skip
    simp only [List.length_cons]; omega
  · have := length_message _step
    simp only [List.length_cons]; omega

/-- The message a text declares, not yet checked. -/
def declared (text : String) : Except SyntaxError Builder := do
  file none (← tokens text)

end EventCodec.Schema.Proto

namespace EventCodec.Schema

/-- The descriptor that schema text stands for. -/
def Descriptor.ofText (text : String) : Except SchemaError Descriptor :=
  match Proto.declared text with
  | .error e => .error e.toSchema
  | .ok b => b.build

end EventCodec.Schema
