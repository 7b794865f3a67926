import EventCodec.Proofs.Schema.Descriptor
import EventCodec.Proofs.Text.Decimal
import EventCodec.Schema.Proto.Parser
import EventCodec.Schema.Proto.Printer

/-! # Schema text is read as it was written

    The text of a descriptor falls into the tokens one expects
    (`tokens_text`), and these declare the descriptor's fields
    (`declared_text`), from which the descriptor is built again.

    What a name spells does not matter.  The parser looks for keywords
    only where a declaration or a member begins, and there the text has a
    keyword of its own: that of the statement, the label, or the kind. -/

namespace EventCodec.Schema

namespace Proto

/-! ### Words and what separates them -/

theorem isBlank_of_isWordChar {c : Char} (h : isWordChar c = true) : Text.isBlank c = false := by
  have hbounds : 45 ≤ c.toNat ∧ c.toNat ≤ 122 := by
    simp only [isWordChar, Bool.or_eq_true, Bool.and_eq_true, decide_eq_true_eq, beq_iff_eq,
      Char.le_def, UInt32.le_iff_toNat_le] at h
    have hval : c.toNat = c.val.toNat := rfl
    rcases h with ((((⟨h₁, h₂⟩ | ⟨h₁, h₂⟩) | ⟨h₁, h₂⟩) | rfl) | rfl) | rfl
    · simp at h₁ h₂; omega
    · simp at h₁ h₂; omega
    · simp at h₁ h₂; omega
    all_goals decide
  simp only [Text.isBlank, Bool.or_eq_false_iff, Bool.and_eq_false_iff, decide_eq_false_iff_not,
    beq_eq_false_iff_ne]
  omega

/-- A symbol is nothing else. -/
theorem classes_of_isSymbol {c : Char} (h : isSymbol c = true) :
    Text.isBlank c = false ∧ c ≠ '/' ∧ isQuote c = false ∧ isWordChar c = false := by
  have hall : symbols.all (fun s => !Text.isBlank s && s != '/' && !isQuote s && !isWordChar s) := by
    decide
  have hc := List.all_eq_true.mp hall c (by simpa [isSymbol] using h)
  simpa [and_assoc] using hc

theorem isQuote_of_isWordChar {c : Char} (h : isWordChar c = true) : isQuote c = false := by
  cases hquote : isQuote c with
  | false => rfl
  | true =>
    simp only [isQuote, Bool.or_eq_true, beq_iff_eq] at hquote
    rcases hquote with rfl | rfl <;> contradiction

/-- What can be read as one word. -/
structure IsWord (w : String) : Prop where
  nonempty : w.toList ≠ []
  chars : w.toList.all isWordChar = true

theorem isWord_keyword (k : Scalar) : IsWord k.keyword := by
  cases k <;> exact ⟨by decide, by decide⟩

theorem isWord_toString (n : Nat) : IsWord (toString n) where
  nonempty := by simp
  chars := by
    refine List.all_eq_true.mpr fun c hc => ?_
    have hdigit := Text.isDigit_of_mem_toString hc
    rw [Text.isDigit] at hdigit
    simp only [isWordChar, hdigit, Bool.or_true, Bool.true_or]

theorem isWordChar_of_continuesIdentifier {c : Char} (h : continuesIdentifier c = true) :
    isWordChar c = true := by
  simp only [continuesIdentifier, startsIdentifier, isLetter, Bool.or_eq_true] at h
  rcases h with ((h | h) | h) | h <;> simp [isWordChar, h]

theorem isWord_of_isIdentifier {name : String} (h : isIdentifier name = true) : IsWord name := by
  unfold isIdentifier at h
  split at h
  · contradiction
  · next c cs hlist =>
    obtain ⟨hhead, htail⟩ := Bool.and_eq_true_iff.mp h
    refine ⟨by simp [hlist], List.all_eq_true.mpr ?_⟩
    intro d hd
    rw [hlist] at hd
    rcases List.mem_cons.mp hd with rfl | hd
    · exact isWordChar_of_continuesIdentifier (by simp [continuesIdentifier, hhead])
    · exact isWordChar_of_continuesIdentifier (List.all_eq_true.mp htail d hd)

/-! ### Reading one token -/

variable {before : List Token} {c : Char} {rest : List Char}

theorem tokensFrom_blank (h : Text.isBlank c = true) :
    tokensFrom before (c :: rest) = tokensFrom before rest := by
  rw [tokensFrom.eq_def]
  simp only [h, if_true]

theorem tokensFrom_symbol (h : isSymbol c = true) :
    tokensFrom before (c :: rest) = tokensFrom (.symbol c :: before) rest := by
  obtain ⟨hblank, hslash, hquote, -⟩ := classes_of_isSymbol h
  rw [tokensFrom.eq_def]
  simp only [hblank, hslash, hquote, h, Bool.false_eq_true, if_false, if_true]

/-- A word ends where something else begins, or the text ends. -/
theorem tokensFrom_word_of_end {w : String} (h : IsWord w)
    (hend : ∀ c, rest.head? = some c → isWordChar c = false) :
    tokensFrom before (w.toList ++ rest) = tokensFrom (.word w :: before) rest := by
  obtain ⟨hnonempty, hchars⟩ := h
  cases hlist : w.toList with
  | nil => contradiction
  | cons d ds =>
    rw [hlist, List.all_cons, Bool.and_eq_true] at hchars
    obtain ⟨hd, hall⟩ := hchars
    have hds : ∀ e ∈ ds, isWordChar e = true := List.all_eq_true.mp hall
    -- the first character begins nothing but a word
    have hslash : d ≠ '/' := by
      rintro rfl
      contradiction
    have hsymbol : isSymbol d = false := by
      cases hsymbol : isSymbol d with
      | false => rfl
      | true => rw [(classes_of_isSymbol hsymbol).2.2.2] at hd; contradiction
    have hstop : rest.takeWhile isWordChar = [] ∧ rest.dropWhile isWordChar = rest := by
      cases rest with
      | nil => exact ⟨rfl, rfl⟩
      | cons c rest =>
        have hc := hend c rfl
        exact ⟨List.takeWhile_cons_of_neg (by simp [hc]), List.dropWhile_cons_of_neg (by simp [hc])⟩
    have htake : (ds ++ rest).takeWhile isWordChar = ds := by
      rw [List.takeWhile_append_of_pos hds, hstop.1, List.append_nil]
    have hdrop : (ds ++ rest).dropWhile isWordChar = rest := by
      rw [List.dropWhile_append_of_pos hds, hstop.2]
    rw [List.cons_append, tokensFrom.eq_def]
    simp only [isBlank_of_isWordChar hd, hslash, isQuote_of_isWordChar hd, hsymbol, hd, htake, hdrop,
      Bool.false_eq_true, if_false, if_true]
    rw [← hlist, String.ofList_toList]

theorem tokensFrom_word {w : String} (h : IsWord w) (hc : isWordChar c = false) :
    tokensFrom before (w.toList ++ c :: rest) = tokensFrom (.word w :: before) (c :: rest) :=
  tokensFrom_word_of_end h (by simp [hc])

/-! ### The tokens of a descriptor's text -/

/-- The tokens of one field. -/
def fieldTokens (f : Field) : List Token :=
  (if f.repeated then [.word "repeated"] else []) ++
    [.word f.kind.keyword, .word f.name, .symbol '=', .word (toString f.number.toNat), .symbol ';']

/-- The tokens of the whole text. -/
def textTokens (d : Descriptor) : List Token :=
  [.word "syntax", .symbol '=', .quoted supportedVersion, .symbol ';', .word "message",
      .word d.name, .symbol '\x7b'] ++
    d.fields.toList.flatMap fieldTokens ++ [.symbol '\x7d']

/-- A field line after its label. -/
def unlabelledLine (f : Field) (rest : List Char) : List Char :=
  f.kind.keyword.toList ++ ' ' :: (f.name.toList ++ ' ' :: '=' :: ' ' ::
    ((toString f.number.toNat).toList ++ ';' :: '\n' :: rest))

theorem tokensFrom_unlabelledLine {f : Field} (h : f.IsLegal) :
    tokensFrom before (unlabelledLine f rest) =
      tokensFrom (.symbol ';' :: .word (toString f.number.toNat) :: .symbol '=' :: .word f.name ::
        .word f.kind.keyword :: before) rest := by
  unfold unlabelledLine
  rw [tokensFrom_word (isWord_keyword f.kind) (by decide), tokensFrom_blank (by decide),
    tokensFrom_word (isWord_of_isIdentifier h.name) (by decide), tokensFrom_blank (by decide),
    tokensFrom_symbol (by decide), tokensFrom_blank (by decide),
    tokensFrom_word (isWord_toString f.number.toNat) (by decide), tokensFrom_symbol (by decide),
    tokensFrom_blank (by decide)]

theorem tokensFrom_fieldLine {f : Field} (h : f.IsLegal) :
    tokensFrom before ((fieldLine f).toList ++ rest) =
      tokensFrom ((fieldTokens f).reverse ++ before) rest := by
  cases hrepeated : f.repeated with
  | false =>
    have hline : (fieldLine f).toList ++ rest = ' ' :: ' ' :: unlabelledLine f rest := by
      simp [fieldLine, Field.typeText, hrepeated, unlabelledLine]
    rw [hline, tokensFrom_blank (by decide), tokensFrom_blank (by decide),
      tokensFrom_unlabelledLine h]
    simp [fieldTokens, hrepeated]
  | true =>
    have hline : (fieldLine f).toList ++ rest =
        ' ' :: ' ' :: ("repeated".toList ++ ' ' :: unlabelledLine f rest) := by
      simp [fieldLine, Field.typeText, hrepeated, unlabelledLine]
    rw [hline, tokensFrom_blank (by decide), tokensFrom_blank (by decide),
      tokensFrom_word ⟨by decide, by decide⟩ (by decide), tokensFrom_blank (by decide),
      tokensFrom_unlabelledLine h]
    simp [fieldTokens, hrepeated]

theorem tokensFrom_fieldLines {fs : List Field} (h : ∀ f ∈ fs, f.IsLegal) :
    tokensFrom before (fs.flatMap (fun f => (fieldLine f).toList) ++ rest) =
      tokensFrom ((fs.flatMap fieldTokens).reverse ++ before) rest := by
  induction fs generalizing before with
  | nil => rfl
  | cons f fs ih =>
    rw [List.flatMap_cons, List.append_assoc, tokensFrom_fieldLine (h f (by simp)),
      ih fun g hg => h g (List.mem_cons_of_mem _ hg)]
    simp

theorem tokensFrom_versionLine :
    tokensFrom [] (versionLine.toList ++ rest) =
      tokensFrom [.symbol ';', .quoted supportedVersion, .symbol '=', .word "syntax"] rest := by
  have hline : versionLine.toList ++ rest =
      "syntax".toList ++ ' ' :: '=' :: ' ' :: '"' :: ("proto3".toList ++ '"' :: ';' :: '\n' :: '\n' ::
        rest) := by
    simp [versionLine]
  -- a quoted string is looked for up to its closing mark
  have hquoted : ∀ before cs, tokensFrom before ('"' :: ("proto3".toList ++ '"' :: cs)) =
      tokensFrom (.quoted supportedVersion :: before) cs := by
    intro before cs
    rw [tokensFrom.eq_def]
    rfl
  rw [hline, tokensFrom_word ⟨by decide, by decide⟩ (by decide), tokensFrom_blank (by decide),
    tokensFrom_symbol (by decide), tokensFrom_blank (by decide), hquoted,
    tokensFrom_symbol (by decide), tokensFrom_blank (by decide), tokensFrom_blank (by decide)]

/-- The text falls into the tokens it was made of. -/
theorem tokens_text (d : Descriptor) : tokens d.text = .ok (textTokens d) := by
  have hname := isWord_of_isIdentifier d.isIdentifier_name
  have htext : d.text.toList = versionLine.toList ++ ("message".toList ++ ' ' :: (d.name.toList ++
      ' ' :: '\x7b' :: '\n' :: (d.fields.toList.flatMap (fun f => (fieldLine f).toList) ++
        ['\x7d', '\n']))) := by
    simp [Descriptor.text, String.toList_join, List.flatMap_map]
  rw [tokens, htext, tokensFrom_versionLine, tokensFrom_word ⟨by decide, by decide⟩ (by decide),
    tokensFrom_blank (by decide), tokensFrom_word hname (by decide), tokensFrom_blank (by decide),
    tokensFrom_symbol (by decide), tokensFrom_blank (by decide),
    tokensFrom_fieldLines d.isFieldSet.legal, tokensFrom_symbol (by decide),
    tokensFrom_blank (by decide), tokensFrom.eq_def]
  simp [textTokens]

/-! ### The declarations in the tokens -/

@[simp] theorem expectWord_word (w : String) (ts : List Token) :
    expectWord (.word w :: ts) = .ok (w, ts) := rfl

@[simp] theorem expectSymbol_symbol (c : Char) (ts : List Token) :
    expectSymbol c (.symbol c :: ts) = .ok ts :=
  if_pos rfl

@[simp] theorem refuseArguments_word (typeName w : String) (ts : List Token) :
    refuseArguments typeName (.word w :: ts) = .ok () :=
  if_neg (by simp)

@[simp] theorem skipOptions_semicolon (ts : List Token) :
    skipOptions (.symbol ';' :: ts) = .ok (.symbol ';' :: ts) :=
  if_neg (by simp)

theorem fieldNumber_toString (n : UInt32) : fieldNumber (toString n.toNat) = .ok n := by
  unfold fieldNumber
  rw [Text.readDigits?_toString n.toNat_lt]
  exact congrArg Except.ok UInt32.ofNat_toNat

/-- The tokens of a field behind its kind. -/
def namedTokens (f : Field) (rest : List Token) : List Token :=
  .word f.name :: .symbol '=' :: .word (toString f.number.toNat) :: .symbol ';' :: rest

theorem fieldFrom_of_labelled {f : Field} {first : String} {ts rest : List Token}
    (h : labelled first ts = .ok ((f.repeated, f.kind.keyword), namedTokens f rest)) :
    fieldFrom first ts = .ok (f.declaration, rest) := by
  unfold fieldFrom
  rw [h]
  simp only [namedTokens, refuseArguments_word, expectWord_word, expectSymbol_symbol,
    fieldNumber_toString, skipOptions_semicolon, Kind.ofName_keyword, bind, Except.bind]
  rfl

/-- The word a field begins with stands for nothing but a field. -/
theorem fieldFrom_fieldTokens (f : Field) (rest : List Token) :
    ∃ first ts, fieldTokens f ++ rest = .word first :: ts ∧
      skippedMembers.contains first = false ∧ refusedMembers.contains first = false ∧
        fieldFrom first ts = .ok (f.declaration, rest) := by
  cases hrepeated : f.repeated with
  | false =>
    -- without a label the keyword of the kind comes first
    have hkeyword : skippedMembers.contains f.kind.keyword = false ∧
        refusedMembers.contains f.kind.keyword = false ∧
        f.kind.keyword ≠ "repeated" ∧ f.kind.keyword ≠ "optional" := by
      cases f.kind <;> decide
    obtain ⟨hskipped, hrefused, hrep, hopt⟩ := hkeyword
    refine ⟨f.kind.keyword, namedTokens f rest, ?_, hskipped, hrefused, ?_⟩
    · simp [fieldTokens, namedTokens, hrepeated]
    · apply fieldFrom_of_labelled
      rw [labelled, if_neg hrep, if_neg hopt, hrepeated]
      rfl
  | true =>
    refine ⟨"repeated", .word f.kind.keyword :: namedTokens f rest, ?_, by decide, by decide, ?_⟩
    · simp [fieldTokens, namedTokens, hrepeated]
    · apply fieldFrom_of_labelled
      rw [labelled, if_pos rfl, hrepeated]
      rfl

theorem members_fieldTokens (taken : List Declaration) (fs : List Field) (rest : List Token) :
    members taken (fs.flatMap fieldTokens ++ .symbol '\x7d' :: rest) =
      .ok (taken.reverse ++ fs.map Field.declaration, rest) := by
  induction fs generalizing taken with
  | nil =>
    rw [List.flatMap_nil, List.nil_append, members]
    simp
  | cons f fs ih =>
    -- the first word is no keyword of another member, so a field is read
    obtain ⟨first, ts, htokens, hskipped, hrefused, hfield⟩ :=
      fieldFrom_fieldTokens f (fs.flatMap fieldTokens ++ .symbol '\x7d' :: rest)
    rw [List.flatMap_cons, List.append_assoc, htokens, members.eq_def]
    simp only [hskipped, hrefused, Bool.false_eq_true, if_false]
    split
    · next hfail => rw [hfield] at hfail; contradiction
    · next d left hok =>
      rw [hfield] at hok
      obtain ⟨rfl, rfl⟩ := Prod.mk.inj (Except.ok.inj hok)
      rw [ih (f.declaration :: taken)]
      simp

theorem message_textTokens (d : Descriptor) (rest : List Token) :
    message (.word d.name :: .symbol '\x7b' ::
      (d.fields.toList.flatMap fieldTokens ++ .symbol '\x7d' :: rest)) = .ok (d.declared, rest) := by
  unfold message
  simp only [expectWord_word, expectSymbol_symbol, members_fieldTokens, bind, Except.bind]
  rfl

theorem version_supported (rest : List Token) :
    version (.symbol '=' :: .quoted supportedVersion :: .symbol ';' :: rest) = .ok rest := by
  simp only [version, expectSymbol_symbol, bind, Except.bind]
  exact (if_pos rfl).trans (expectSymbol_symbol ';' rest)

theorem file_version {found : Option Builder} {ts rest : List Token} (h : version ts = .ok rest) :
    file found (.word "syntax" :: ts) = file found rest := by
  rw [file.eq_def]
  simp only [if_true]
  grind

theorem file_message {ts rest : List Token} {b : Builder} (h : message ts = .ok (b, rest)) :
    file none (.word "message" :: ts) = file (some b) rest := by
  have hother : "message" ≠ "syntax" := by decide
  have hskipped : skippedDeclarations.contains "message" = false := by decide
  rw [file.eq_def]
  simp only [hother, hskipped, Option.isSome_none, Bool.false_eq_true, if_false, if_true]
  grind

/-- The tokens declare the descriptor's name and fields. -/
theorem file_textTokens (d : Descriptor) : file none (textTokens d) = .ok d.declared := by
  have htokens : textTokens d = .word "syntax" :: .symbol '=' :: .quoted supportedVersion ::
      .symbol ';' :: .word "message" :: .word d.name :: .symbol '\x7b' ::
      (d.fields.toList.flatMap fieldTokens ++ [.symbol '\x7d']) := rfl
  rw [htokens, file_version (version_supported _), file_message (message_textTokens d []),
    file.eq_def]

theorem declared_text (d : Descriptor) : declared d.text = .ok d.declared := by
  rw [declared, tokens_text]
  exact file_textTokens d

end Proto

namespace Descriptor

/-- A descriptor is read from its own text. -/
theorem ofText_text (d : Descriptor) : ofText d.text = .ok d := by
  rw [ofText, Proto.declared_text]
  exact d.build_declared

theorem text_injective : Function.Injective text := by
  intro d e htext
  have hread := ofText_text d
  rw [htext, ofText_text e] at hread
  exact (Except.ok.inj hread).symm

/-- **Round trip**: every descriptor that can be built is read from its
    own text.  So one text stands for one descriptor, and whatever text a
    descriptor was read from, its own text stands for it as well. -/
theorem text_round_trip :
    (∀ (b : Builder) (d : Descriptor), b.build = .ok d → ofText d.text = .ok d) ∧
      (∀ (b c : Builder) (d e : Descriptor), b.build = .ok d → c.build = .ok e →
        d.text = e.text → d = e) ∧
      ∀ (t : String) (d : Descriptor), ofText t = .ok d → ofText d.text = .ok d :=
  ⟨fun _ d _ => ofText_text d, fun _ _ _ _ _ _ h => text_injective h, fun _ d _ => ofText_text d⟩

/-- A message whose names are all keywords of the schema language. -/
def keywords : Descriptor where
  name := "message"
  fields :=
    #[{ number := 1, name := "repeated", kind := .string, repeated := true },
      { number := 2047, name := "reserved", kind := .bool, repeated := false },
      { number := 536870911, name := "int32", kind := .int32, repeated := false }]
  isIdentifier_name := by decide
  isFieldSet := by decide

theorem keywords_round_trip :
    keywords.declared.build = .ok keywords ∧ ofText keywords.text = .ok keywords ∧
      ∀ e : Descriptor, e.declared.build = .ok e → keywords.text = e.text → keywords = e := by
  obtain ⟨hread, hinj, -⟩ := text_round_trip
  have hbuild := keywords.build_declared
  exact ⟨hbuild, hread _ _ hbuild, fun e he => hinj _ _ _ e hbuild he⟩

end Descriptor

end EventCodec.Schema
