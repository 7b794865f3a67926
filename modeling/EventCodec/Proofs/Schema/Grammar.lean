import EventCodec.Proofs.Schema.Text

/-! # The grammar of schema text

    A text is a row of declarations, and a message a row of members.  The
    grammar says so without a parser: which tokens make a field, a
    message, a file, and which declarations they stand for.

    The parser reads exactly what the grammar derives
    (`file_eq_ok_iff`).  Each step of it comes with one equivalence: what
    it takes from the front of the tokens, whatever follows.  Behind a
    word the parser never has to choose: a member that begins with one is
    a statement to skip, a field, or refused, and the grammar keeps the
    three apart by that word.  So each loop is followed along its own
    recursion for one direction, and along the derivation for the other. -/

namespace EventCodec.Schema

namespace Proto

/-! ### The grammar -/

/-- A field number: digits of ASCII whose value fits a word of 32 bits. -/
def IsNumber (text : String) (number : UInt32) : Prop :=
  text.toList ≠ [] ∧ (∀ c ∈ text.toList, c.isDigit = true) ∧
    Nat.ofDigitChars 10 text.toList 0 = number.toNat

/-- Words that never are the type of a field without a label. -/
def memberKeywords : List String :=
  ["repeated", "optional", "reserved", "option", "message", "enum", "oneof", "map", "extensions",
    "extend"]

/-- What a field begins with: whether it is repeated, and its type. -/
inductive HeadText : List Token → Bool → String → Prop where
  | plain {typeName : String} : typeName ∉ memberKeywords →
      HeadText [.word typeName] false typeName
  | optional (typeName : String) : HeadText [.word "optional", .word typeName] false typeName
  | repeated (typeName : String) : HeadText [.word "repeated", .word typeName] true typeName

/-- The options of a field, which mean nothing. -/
inductive OptionsText : List Token → Prop where
  | none : OptionsText []
  | list {skipped : List Token} : .symbol ']' ∉ skipped →
      OptionsText (.symbol '[' :: skipped ++ [.symbol ']'])

/-- One field, with its semicolon. -/
inductive FieldText : List Token → Declaration → Prop where
  | mk {head options : List Token} {repeated : Bool} {typeName text : String} {number : UInt32}
      (name : String) : HeadText head repeated typeName → IsNumber text number →
      OptionsText options →
      FieldText (head ++ [.word name, .symbol '=', .word text] ++ options ++ [.symbol ';'])
        { number, name, kind := .ofName typeName, repeated }

/-- The members of a message, and the fields among them in their order. -/
inductive MembersText : List Token → List Declaration → Prop where
  | nil : MembersText [] []
  | empty {ts : List Token} {ds : List Declaration} :
      MembersText ts ds → MembersText (.symbol ';' :: ts) ds
  | skipped {keyword : String} {skipped ts : List Token} {ds : List Declaration} :
      keyword = "reserved" ∨ keyword = "option" → .symbol ';' ∉ skipped → MembersText ts ds →
      MembersText (.word keyword :: skipped ++ .symbol ';' :: ts) ds
  | field {front ts : List Token} {d : Declaration} {ds : List Declaration} :
      FieldText front d → MembersText ts ds → MembersText (front ++ ts) (d :: ds)

/-- The declarations of a text, and the messages among them in their
    order. -/
inductive FileText : List Token → List Builder → Prop where
  | nil : FileText [] []
  | empty {ts : List Token} {bs : List Builder} :
      FileText ts bs → FileText (.symbol ';' :: ts) bs
  | version {ts : List Token} {bs : List Builder} : FileText ts bs →
      FileText ([.word "syntax", .symbol '=', .quoted "proto3", .symbol ';'] ++ ts) bs
  | skipped {keyword : String} {skipped ts : List Token} {bs : List Builder} :
      keyword = "package" ∨ keyword = "option" → .symbol ';' ∉ skipped → FileText ts bs →
      FileText (.word keyword :: skipped ++ .symbol ';' :: ts) bs
  | message {body ts : List Token} {ds : List Declaration} {bs : List Builder} (name : String) :
      MembersText body ds → FileText ts bs →
      FileText ([.word "message", .word name, .symbol '\x7b'] ++ body ++ .symbol '\x7d' :: ts)
        ({ name, declarations := ds } :: bs)

/-! ### Single steps -/

section Steps

variable {c symbol : Char} {text name : String} {ts rest : List Token}

theorem expectSymbol_eq_ok_iff :
    expectSymbol symbol ts = .ok rest ↔ ts = .symbol symbol :: rest := by
  constructor
  · intro h
    unfold expectSymbol at h
    split at h
    · next c left =>
      split at h
      · next heq =>
        obtain rfl := Except.ok.inj h
        rw [heq]
      · contradiction
    · contradiction
  · rintro rfl
    exact expectSymbol_symbol symbol rest

theorem expectWord_eq_ok_iff : expectWord ts = .ok (text, rest) ↔ ts = .word text :: rest := by
  constructor
  · intro h
    unfold expectWord at h
    split at h
    · obtain ⟨rfl, rfl⟩ := Prod.mk.inj (Except.ok.inj h)
      rfl
    · contradiction
  · rintro rfl
    exact expectWord_word text rest

/-- Skipping ends at the first such symbol. -/
theorem after?_eq_some_iff :
    after? symbol ts = some rest ↔
      ∃ skipped, .symbol symbol ∉ skipped ∧ ts = skipped ++ .symbol symbol :: rest := by
  constructor
  · intro h
    induction ts with
    | nil => contradiction
    | cons t ts ih =>
      simp only [after?] at h
      by_cases ht : t = .symbol symbol
      · rw [if_pos ht] at h
        obtain rfl := Option.some.inj h
        exact ⟨[], by simp, by rw [ht]; rfl⟩
      · rw [if_neg ht] at h
        obtain ⟨skipped, hskipped, rfl⟩ := ih h
        refine ⟨t :: skipped, ?_, rfl⟩
        intro hmem
        rcases List.mem_cons.mp hmem with heq | hmem
        · exact ht heq.symm
        · exact hskipped hmem
  · rintro ⟨skipped, hskipped, rfl⟩
    induction skipped with
    | nil => simp [after?]
    | cons t skipped ih =>
      have ht : t ≠ .symbol symbol := fun heq => hskipped (heq ▸ List.mem_cons_self)
      have hrest : .symbol symbol ∉ skipped := fun hmem => hskipped (List.mem_cons_of_mem _ hmem)
      rw [List.cons_append, after?, if_neg ht]
      exact ih hrest

theorem fieldNumber_eq_ok_iff {number : UInt32} :
    fieldNumber text = .ok number ↔ IsNumber text number := by
  have hempty : text.toList.isEmpty = false ↔ text.toList ≠ [] := by
    rw [List.isEmpty_eq_false_iff]
  have hdigits : text.toList.all Text.isDigit = true ↔ ∀ c ∈ text.toList, c.isDigit = true :=
    List.all_eq_true
  unfold fieldNumber Text.readDigits? IsNumber
  rw [Text.digitsValue_eq]
  constructor
  · intro h
    split at h
    · next n hread =>
      obtain rfl := Except.ok.inj h
      split at hread
      · contradiction
      · next hrow =>
        dsimp only at hread
        split at hread
        · next hbound =>
          obtain rfl := Option.some.inj hread
          rw [Bool.or_eq_true, not_or, Bool.not_eq_true, Bool.not_eq_true, Bool.not_eq_false']
            at hrow
          refine ⟨hempty.mp hrow.1, hdigits.mp hrow.2, ?_⟩
          rw [UInt32.toNat_ofNat', Nat.mod_eq_of_lt hbound]
        · contradiction
    · contradiction
  · rintro ⟨hnonempty, hall, hvalue⟩
    have hrow : (text.toList.isEmpty || !text.toList.all Text.isDigit) = false := by
      rw [hempty.mpr hnonempty, hdigits.mpr hall]
      rfl
    rw [hrow, hvalue]
    simp only [Bool.false_eq_true, if_false, if_pos number.toNat_lt]
    exact congrArg Except.ok UInt32.ofNat_toNat

/-- Options are skipped up to the semicolon of their field. -/
theorem skipOptions_eq_ok_iff :
    skipOptions ts = .ok (.symbol ';' :: rest) ↔
      ∃ options, OptionsText options ∧ ts = options ++ .symbol ';' :: rest := by
  constructor
  · intro h
    unfold skipOptions at h
    split at h
    · next hopen =>
      split at h
      · next left hskip =>
        obtain rfl := Except.ok.inj h
        obtain ⟨inside, rfl⟩ := List.head?_eq_some_iff.mp hopen
        obtain ⟨skipped, hskipped, hinside⟩ := after?_eq_some_iff.mp hskip
        refine ⟨_, .list hskipped, ?_⟩
        rw [List.tail_cons] at hinside
        rw [hinside]
        simp
      · contradiction
    · obtain rfl := Except.ok.inj h
      exact ⟨[], .none, rfl⟩
  · rintro ⟨options, hoptions, rfl⟩
    cases hoptions with
    | none => exact skipOptions_semicolon rest
    | @list skipped hskipped =>
      have hskip : after? ']' (skipped ++ .symbol ']' :: .symbol ';' :: rest) =
          some (.symbol ';' :: rest) := after?_eq_some_iff.mpr ⟨skipped, hskipped, rfl⟩
      unfold skipOptions
      simp [hskip]

end Steps

/-! ### Fields -/

section Fields

variable {first typeName : String} {repeated : Bool} {d : Declaration} {ts rest : List Token}

/-- What follows a successful step decides about the whole. -/
theorem bind_eq_ok_iff {ε α β : Type} {x : Except ε α} {f : α → Except ε β} {b : β} :
    (x >>= f) = .ok b ↔ ∃ a, x = .ok a ∧ f a = .ok b := by
  constructor
  · exact bind_ok
  · rintro ⟨a, rfl, h⟩
    exact h

/-- The words that a member may not begin with, unless it is labelled. -/
theorem mem_memberKeywords_iff :
    first ∈ memberKeywords ↔
      first = "repeated" ∨ first = "optional" ∨ first ∈ skippedMembers ∨ first ∈ refusedMembers := by
  simp only [memberKeywords, skippedMembers, refusedMembers, List.mem_cons, List.not_mem_nil,
    or_false, or_assoc]

/-- A label is read, or the type stands alone. -/
theorem labelled_eq_ok_iff (hskipped : first ∉ skippedMembers) (hrefused : first ∉ refusedMembers) :
    labelled first ts = .ok ((repeated, typeName), rest) ↔
      ∃ head, HeadText head repeated typeName ∧ .word first :: ts = head ++ rest := by
  constructor
  · intro h
    unfold labelled at h
    split at h
    · next hlabel =>
      obtain ⟨⟨name, left⟩, hword, h⟩ := bind_ok h
      obtain ⟨hhead, rfl⟩ := Prod.mk.inj (Except.ok.inj h)
      obtain ⟨rfl, rfl⟩ := Prod.mk.inj hhead
      refine ⟨_, .repeated name, ?_⟩
      rw [hlabel, expectWord_eq_ok_iff.mp hword]
      rfl
    · next hrepeated =>
      split at h
      · next hlabel =>
        obtain ⟨⟨name, left⟩, hword, h⟩ := bind_ok h
        obtain ⟨hhead, rfl⟩ := Prod.mk.inj (Except.ok.inj h)
        obtain ⟨rfl, rfl⟩ := Prod.mk.inj hhead
        refine ⟨_, .optional name, ?_⟩
        rw [hlabel, expectWord_eq_ok_iff.mp hword]
        rfl
      · next hoptional =>
        obtain ⟨hhead, rfl⟩ := Prod.mk.inj (Except.ok.inj h)
        obtain ⟨rfl, rfl⟩ := Prod.mk.inj hhead
        have hplain : first ∉ memberKeywords := by
          rw [mem_memberKeywords_iff]
          simp [hrepeated, hoptional, hskipped, hrefused]
        exact ⟨_, .plain hplain, rfl⟩
  · rintro ⟨head, hhead, heq⟩
    cases hhead with
    | plain hplain =>
      obtain ⟨hfirst, rfl⟩ := List.cons.inj heq
      obtain rfl := Token.word.inj hfirst
      rw [mem_memberKeywords_iff, not_or, not_or] at hplain
      obtain ⟨hrepeated, hoptional, -⟩ := hplain
      rw [labelled, if_neg hrepeated, if_neg hoptional]
      rfl
    | optional =>
      obtain ⟨hfirst, rfl⟩ := List.cons.inj heq
      obtain rfl := Token.word.inj hfirst
      rfl
    | repeated =>
      obtain ⟨hfirst, rfl⟩ := List.cons.inj heq
      obtain rfl := Token.word.inj hfirst
      rfl

/-- Behind a word that begins no other member, exactly the fields are
    read. -/
theorem fieldFrom_eq_ok_iff (hskipped : first ∉ skippedMembers)
    (hrefused : first ∉ refusedMembers) :
    fieldFrom first ts = .ok (d, rest) ↔
      ∃ front, FieldText front d ∧ .word first :: ts = front ++ rest := by
  constructor
  · intro h
    unfold fieldFrom at h
    obtain ⟨⟨⟨repeated, typeName⟩, t1⟩, hlabel, h⟩ := bind_ok h
    obtain ⟨_, -, h⟩ := bind_ok h
    obtain ⟨⟨name, t2⟩, hname, h⟩ := bind_ok h
    obtain ⟨t3, hequals, h⟩ := bind_ok h
    obtain ⟨⟨text, t4⟩, htext, h⟩ := bind_ok h
    obtain ⟨number, hnumber, h⟩ := bind_ok h
    obtain ⟨t5, hoptions, h⟩ := bind_ok h
    obtain ⟨t6, hend, h⟩ := bind_ok h
    obtain ⟨rfl, rfl⟩ := Prod.mk.inj (Except.ok.inj h)
    obtain ⟨head, hhead, hfirst⟩ := (labelled_eq_ok_iff hskipped hrefused).mp hlabel
    rw [expectSymbol_eq_ok_iff] at hequals hend
    rw [expectWord_eq_ok_iff] at hname htext
    rw [hend] at hoptions
    obtain ⟨options, hskip, ht4⟩ := skipOptions_eq_ok_iff.mp hoptions
    refine ⟨_, .mk name hhead (fieldNumber_eq_ok_iff.mp hnumber) hskip, ?_⟩
    rw [hfirst, hname, hequals, htext, ht4]
    simp
  · rintro ⟨front, hfield, hfront⟩
    cases hfield with
    | @mk head options repeated typeName text number name hhead hnumber hoptions =>
      -- what is left behind the head
      let named := .word name :: .symbol '=' :: .word text :: (options ++ .symbol ';' :: rest)
      have hlabel : labelled first ts = .ok ((repeated, typeName), named) := by
        refine (labelled_eq_ok_iff hskipped hrefused).mpr ⟨head, hhead, ?_⟩
        rw [hfront]
        simp [named]
      have hskip : skipOptions (options ++ .symbol ';' :: rest) = .ok (.symbol ';' :: rest) :=
        skipOptions_eq_ok_iff.mpr ⟨options, hoptions, rfl⟩
      unfold fieldFrom
      rw [hlabel]
      simp only [named, refuseArguments_word, expectWord_word, expectSymbol_symbol,
        fieldNumber_eq_ok_iff.mpr hnumber, hskip, bind, Except.bind]
      rfl

/-- A field begins with a word that begins no other member. -/
theorem FieldText.exists_first {front : List Token} (h : FieldText front d) :
    ∃ first tail, front = .word first :: tail ∧ first ∉ skippedMembers ∧ first ∉ refusedMembers := by
  cases h with
  | mk name hhead _ _ =>
    cases hhead with
    | plain hplain =>
      rw [mem_memberKeywords_iff, not_or, not_or, not_or] at hplain
      exact ⟨_, _, rfl, hplain.2.2⟩
    | optional => exact ⟨_, _, rfl, by decide, by decide⟩
    | repeated => exact ⟨_, _, rfl, by decide, by decide⟩

end Fields

/-! ### Messages -/

section Messages

variable {keyword : String} {d : Declaration} {taken ds : List Declaration} {b : Builder}
  {ts rest : List Token}

theorem contains_skippedMembers_iff :
    skippedMembers.contains keyword = true ↔ keyword = "reserved" ∨ keyword = "option" := by
  simp [skippedMembers]

theorem members_empty : members taken (.symbol ';' :: ts) = members taken ts := by
  rw [members]

theorem members_skipped (hkeyword : skippedMembers.contains keyword = true)
    (hskip : after? ';' ts = some rest) :
    members taken (.word keyword :: ts) = members taken rest := by
  rw [members.eq_def]
  simp only [hkeyword, if_true]
  grind

theorem members_field {first : String} (hskipped : first ∉ skippedMembers)
    (hrefused : first ∉ refusedMembers) (hfield : fieldFrom first ts = .ok (d, rest)) :
    members taken (.word first :: ts) = members (d :: taken) rest := by
  rw [members.eq_def]
  simp only [List.contains_eq_mem, hskipped, hrefused, decide_false, Bool.false_eq_true, if_false]
  grind

/-- The members are read up to the first brace that can close the
    message, whatever follows. -/
theorem members_eq_ok_iff :
    members taken ts = .ok (ds, rest) ↔
      ∃ body fields, MembersText body fields ∧ ts = body ++ .symbol '\x7d' :: rest ∧
        ds = taken.reverse ++ fields := by
  constructor
  · intro h
    fun_induction members taken ts with
    | case1 taken left =>
      -- the closing brace
      obtain ⟨rfl, rfl⟩ := Prod.mk.inj (Except.ok.inj h)
      exact ⟨[], [], .nil, rfl, by simp⟩
    | case2 taken left ih =>
      -- an empty member
      obtain ⟨body, fields, hbody, rfl, rfl⟩ := ih h
      exact ⟨_, fields, .empty hbody, rfl, rfl⟩
    | case4 taken first left hskipped after hskip ih =>
      -- a statement that is skipped
      obtain ⟨body, fields, hbody, rfl, rfl⟩ := ih h
      obtain ⟨skipped, hnone, rfl⟩ := after?_eq_some_iff.mp hskip
      refine ⟨_, fields, .skipped (contains_skippedMembers_iff.mp hskipped) hnone hbody, ?_, rfl⟩
      simp
    | case7 taken first left hskipped hrefused d after hfield ih =>
      -- a field
      obtain ⟨body, fields, hbody, rfl, rfl⟩ := ih h
      rw [List.contains_iff_mem] at hskipped hrefused
      obtain ⟨front, hfront, heq⟩ := (fieldFrom_eq_ok_iff hskipped hrefused).mp hfield
      refine ⟨front ++ body, d :: fields, .field hfront hbody, ?_, ?_⟩
      · rw [heq, List.append_assoc]
      · simp
    | _ => contradiction
  · rintro ⟨body, fields, hbody, rfl, rfl⟩
    induction hbody generalizing taken with
    | nil => rw [List.nil_append, members, List.append_nil]
    | empty _ ih => exact members_empty.trans ih
    | @skipped keyword skipped ts ds hkeyword hnone _ ih =>
      have hskip : after? ';' (skipped ++ .symbol ';' :: (ts ++ .symbol '\x7d' :: rest)) =
          some (ts ++ .symbol '\x7d' :: rest) := after?_eq_some_iff.mpr ⟨skipped, hnone, rfl⟩
      rw [List.append_assoc, List.cons_append, List.cons_append,
        members_skipped (contains_skippedMembers_iff.mpr hkeyword) hskip]
      exact ih
    | @field front ts d ds hfield _ ih =>
      obtain ⟨first, tail, rfl, hskipped, hrefused⟩ := hfield.exists_first
      have hfrom : fieldFrom first (tail ++ (ts ++ .symbol '\x7d' :: rest)) =
          .ok (d, ts ++ .symbol '\x7d' :: rest) :=
        (fieldFrom_eq_ok_iff hskipped hrefused).mpr ⟨_, hfield, by simp⟩
      rw [List.append_assoc, List.cons_append, members_field hskipped hrefused hfrom, ih]
      simp

/-- A message is its name and its members between braces. -/
theorem message_eq_ok_iff :
    message ts = .ok (b, rest) ↔
      ∃ body, MembersText body b.declarations ∧
        ts = [.word b.name, .symbol '\x7b'] ++ body ++ .symbol '\x7d' :: rest := by
  constructor
  · intro h
    unfold message at h
    obtain ⟨⟨name, t1⟩, hname, h⟩ := bind_ok h
    obtain ⟨t2, hopen, h⟩ := bind_ok h
    obtain ⟨⟨declarations, t3⟩, hmembers, h⟩ := bind_ok h
    obtain ⟨rfl, rfl⟩ := Prod.mk.inj (Except.ok.inj h)
    obtain ⟨body, fields, hbody, rfl, rfl⟩ := members_eq_ok_iff.mp hmembers
    refine ⟨body, hbody, ?_⟩
    rw [expectWord_eq_ok_iff.mp hname, expectSymbol_eq_ok_iff.mp hopen]
    rfl
  · rintro ⟨body, hbody, rfl⟩
    have hmembers : members [] (body ++ .symbol '\x7d' :: rest) = .ok (b.declarations, rest) :=
      members_eq_ok_iff.mpr ⟨body, b.declarations, hbody, rfl, rfl⟩
    show message (.word b.name :: .symbol '\x7b' :: (body ++ .symbol '\x7d' :: rest)) = _
    unfold message
    simp only [expectWord_word, expectSymbol_symbol, hmembers, bind, Except.bind]
    rfl

end Messages

/-! ### Files -/

section Files

variable {keyword : String} {found : Option Builder} {b : Builder} {ts rest : List Token}

theorem version_eq_ok_iff :
    version ts = .ok rest ↔ ts = [.symbol '=', .quoted "proto3", .symbol ';'] ++ rest := by
  constructor
  · intro h
    unfold version at h
    obtain ⟨left, hequals, h⟩ := bind_ok h
    split at h
    · next hquoted =>
      obtain ⟨tail, rfl⟩ := List.head?_eq_some_iff.mp hquoted
      rw [List.tail_cons, expectSymbol_eq_ok_iff] at h
      rw [expectSymbol_eq_ok_iff.mp hequals, h]
      rfl
    · contradiction
  · rintro rfl
    exact version_supported rest

theorem file_empty : file found (.symbol ';' :: ts) = file found ts := by
  rw [file]

theorem contains_skippedDeclarations_iff :
    skippedDeclarations.contains keyword = true ↔ keyword = "package" ∨ keyword = "option" := by
  simp [skippedDeclarations]

theorem file_skipped (hkeyword : skippedDeclarations.contains keyword = true)
    (hskip : after? ';' ts = some rest) :
    file found (.word keyword :: ts) = file found rest := by
  have hversion : keyword ≠ "syntax" := by
    rintro rfl
    contradiction
  rw [file.eq_def]
  simp only [hversion, hkeyword, if_false, if_true]
  grind

/-- With the message that has been found, the rest of a file has one. -/
theorem file_eq_ok_iff :
    file found ts = .ok b ↔ ∃ bs, FileText ts bs ∧ found.toList ++ bs = [b] := by
  constructor
  · intro h
    fun_induction file found ts with
    | case1 b' =>
      -- the end, with a message
      obtain rfl := Except.ok.inj h
      exact ⟨[], .nil, rfl⟩
    | case3 found left ih =>
      obtain ⟨bs, hbs, hone⟩ := ih h
      exact ⟨bs, .empty hbs, hone⟩
    | case5 found left after hstep ih =>
      obtain ⟨bs, hbs, hone⟩ := ih h
      refine ⟨bs, ?_, hone⟩
      rw [version_eq_ok_iff.mp hstep]
      exact .version hbs
    | case7 found first left _ hskipped after hskip ih =>
      obtain ⟨bs, hbs, hone⟩ := ih h
      obtain ⟨skipped, hnone, rfl⟩ := after?_eq_some_iff.mp hskip
      exact ⟨bs, .skipped (contains_skippedDeclarations_iff.mp hskipped) hnone hbs, hone⟩
    | case10 found left hfound b' after hstep _ _ ih =>
      -- the first message, and no other after it
      obtain ⟨bs, hbs, hone⟩ := ih h
      obtain rfl : found = none := by simpa using hfound
      obtain ⟨body, hbody, rfl⟩ := message_eq_ok_iff.mp hstep
      exact ⟨b' :: bs, .message b'.name hbody hbs, hone⟩
    | _ => contradiction
  · rintro ⟨bs, hbs, hone⟩
    induction hbs generalizing found with
    | nil =>
      rw [List.append_nil] at hone
      obtain rfl : found = some b := by simpa [Option.toList_eq_singleton_iff] using hone
      rw [file.eq_def]
    | empty _ ih => exact file_empty.trans (ih hone)
    | version _ ih => exact (file_version (version_eq_ok_iff.mpr rfl)).trans (ih hone)
    | @skipped keyword skipped ts bs hkeyword hnone _ ih =>
      have hskip : after? ';' (skipped ++ .symbol ';' :: ts) = some ts :=
        after?_eq_some_iff.mpr ⟨skipped, hnone, rfl⟩
      have hstep : file found (.word keyword :: (skipped ++ .symbol ';' :: ts)) = file found ts :=
        file_skipped (contains_skippedDeclarations_iff.mpr hkeyword) hskip
      exact hstep.trans (ih hone)
    | @message body ts ds bs name hbody _ ih =>
      -- none has been found before, and none is left
      cases found with
      | some b' =>
        have hlength := congrArg List.length hone
        simp at hlength
      | none =>
        have hstep : message ([.word name, .symbol '\x7b'] ++ body ++ .symbol '\x7d' :: ts) =
            .ok ({ name, declarations := ds }, ts) := message_eq_ok_iff.mpr ⟨body, hbody, rfl⟩
        exact (file_message hstep).trans (ih hone)

end Files

end Proto

/-! ### Texts -/

/-- **The grammar**: a text is read as a descriptor exactly if it falls
    into tokens, these derive a file with one message, and that message
    can be built.  The name and the fields are all the message has:
    versions, skipped statements, field options, the label `optional` and
    stray semicolons leave nothing behind. -/
theorem Descriptor.ofText_eq_ok_iff {text : String} {d : Descriptor} :
    ofText text = .ok d ↔
      ∃ ts b, Proto.tokens text = .ok ts ∧ Proto.FileText ts [b] ∧ b.build = .ok d := by
  have hdeclared : ∀ b, Proto.declared text = .ok b ↔
      ∃ ts, Proto.tokens text = .ok ts ∧ Proto.FileText ts [b] := by
    intro b
    unfold Proto.declared
    rw [Proto.bind_eq_ok_iff]
    apply exists_congr
    intro ts
    apply and_congr_right
    intro _
    rw [Proto.file_eq_ok_iff]
    constructor
    · rintro ⟨bs, hfile, rfl⟩
      exact hfile
    · intro hfile
      exact ⟨[b], hfile, rfl⟩
  unfold ofText
  constructor
  · intro h
    split at h
    · contradiction
    · next b hread =>
      obtain ⟨ts, htokens, hfile⟩ := (hdeclared b).mp hread
      exact ⟨ts, b, htokens, hfile, h⟩
  · rintro ⟨ts, b, htokens, hfile, hbuild⟩
    rw [(hdeclared b).mpr ⟨ts, htokens, hfile⟩]
    exact hbuild

end EventCodec.Schema
