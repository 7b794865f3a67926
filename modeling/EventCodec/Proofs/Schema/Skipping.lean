import EventCodec.Proofs.Schema.Builder
import EventCodec.Proofs.Schema.Grammar

/-! # What the parser skips

    A text declares one message, and a second one is refused where the
    parser comes upon it.  It does not come upon all that stands in the
    text: a statement that means nothing is skipped up to the next
    semicolon, and the options of a field up to the next bracket, whatever
    stands between.  A statement without its semicolon takes with it what
    follows, be it a field or a message.

    The places where skipping begins are said by the grammar (`SkipsAt`),
    and what lies behind one of them, without the symbol that ends it
    between, is hidden (`HiddenBy`).  Of the messages that an accepted text
    declares exactly one is in view, and its fields are the ones in view;
    what is hidden can be exchanged and nobody notices
    (`Descriptor.ofText_sees`).  So a message behind a statement without
    its semicolon is not refused (`Descriptor.not_refused`). -/

namespace EventCodec.Schema

namespace Proto

/-! ### Declarations of messages -/

/-- Behind `front` the tokens declare a message: its keyword, its name and
    a brace. -/
def DeclaresBehind (front : List Token) (name : String) (ts : List Token) : Prop :=
  ∃ rest, ts = front ++ .word "message" :: .word name :: .symbol '\x7b' :: rest

/-- How many braces the tokens leave open. -/
def depth (ts : List Token) : Int :=
  ts.count (.symbol '\x7b') - ts.count (.symbol '\x7d')

/-! ### Where skipping begins -/

/-- Among the members of a message: the token that begins what is skipped,
    and the symbol that ends it. -/
inductive SkipsInside : List Token → Token → Char → Prop where
  | statement {front : List Token} {ds : List Declaration} {keyword : String} :
      MembersText front ds → keyword = "reserved" ∨ keyword = "option" →
      SkipsInside front (.word keyword) ';'
  | options {front head : List Token} {ds : List Declaration} {repeated : Bool}
      {typeName text : String} {number : UInt32} (name : String) :
      MembersText front ds → HeadText head repeated typeName → IsNumber text number →
      SkipsInside (front ++ (head ++ [.word name, .symbol '=', .word text])) (.symbol '[') ']'

/-- In a text: at the top, or inside a message that has not ended. -/
inductive SkipsAt : List Token → Token → Char → Prop where
  | statement {front : List Token} {bs : List Builder} {keyword : String} :
      FileText front bs → keyword = "package" ∨ keyword = "option" →
      SkipsAt front (.word keyword) ';'
  | inside {before front : List Token} {bs : List Builder} {opener : Token} {closer : Char}
      (name : String) : FileText before bs → SkipsInside front opener closer →
      SkipsAt (before ++ .word "message" :: .word name :: .symbol '\x7b' :: front) opener closer

/-- Whatever comes next is skipped: skipping has begun and not ended. -/
def HiddenBy (Skips : List Token → Token → Char → Prop) (ts : List Token) : Prop :=
  ∃ front opener closer inside, Skips front opener closer ∧ .symbol closer ∉ inside ∧
    ts = front ++ opener :: inside

/-- Behind `front` a message is declared, and not hidden. -/
def InView (front : List Token) (name : String) (ts : List Token) : Prop :=
  DeclaresBehind front name ts ∧ ¬ HiddenBy SkipsAt front

/-- A field among the members of a message, none of them skipped to reach
    it but whole statements. -/
def HasField (d : Declaration) (ts : List Token) : Prop :=
  ∃ before bs name members ds field rest,
    FileText before bs ∧ MembersText members ds ∧ FieldText field d ∧
      ts = before ++ .word "message" :: .word name :: .symbol '\x7b' :: (members ++ (field ++ rest))

/-- A stretch hides what it declares: a declaration that begins in it is
    hidden, and every other begins behind it. -/
def Hides (Skips : List Token → Token → Char → Prop) (stretch : List Token) : Prop :=
  ∀ front name rest, DeclaresBehind front name (stretch ++ rest) →
    HiddenBy Skips front ∨
      ∃ front', front = stretch ++ front' ∧ DeclaresBehind front' name rest

/-- A stretch declares no message: every declaration begins behind it. -/
def IsPlain (stretch : List Token) : Prop :=
  ∀ front name rest, DeclaresBehind front name (stretch ++ rest) →
    ∃ front', front = stretch ++ front' ∧ DeclaresBehind front' name rest

/-! ### Rows behind rows -/

section Rows

variable {before front ts us : List Token} {opener : Token} {closer : Char}

theorem MembersText.append {ds es : List Declaration} (h : MembersText ts ds)
    (h' : MembersText us es) : MembersText (ts ++ us) (ds ++ es) := by
  induction h with
  | nil => exact h'
  | empty _ ih => exact .empty ih
  | skipped hkeyword hskipped _ ih =>
    rw [List.append_assoc, List.cons_append]
    exact .skipped hkeyword hskipped ih
  | field hfield _ ih =>
    rw [List.append_assoc]
    exact .field hfield ih

theorem FileText.append {bs cs : List Builder} (h : FileText ts bs) (h' : FileText us cs) :
    FileText (ts ++ us) (bs ++ cs) := by
  induction h with
  | nil => exact h'
  | empty _ ih => exact .empty ih
  | version _ ih => exact .version ih
  | skipped hkeyword hskipped _ ih =>
    rw [List.append_assoc, List.cons_append]
    exact .skipped hkeyword hskipped ih
  | message name hbody _ ih =>
    rw [List.append_assoc, List.cons_append]
    exact .message name hbody ih

theorem SkipsInside.behind {ds : List Declaration} (h : SkipsInside front opener closer)
    (hbefore : MembersText before ds) : SkipsInside (before ++ front) opener closer := by
  cases h with
  | statement hfront hkeyword => exact .statement (hbefore.append hfront) hkeyword
  | options name hfront hhead hnumber =>
    rw [← List.append_assoc]
    exact .options name (hbefore.append hfront) hhead hnumber

theorem SkipsAt.behind {bs : List Builder} (h : SkipsAt front opener closer)
    (hbefore : FileText before bs) : SkipsAt (before ++ front) opener closer := by
  cases h with
  | statement hfront hkeyword => exact .statement (hbefore.append hfront) hkeyword
  | inside name hfront hinside =>
    rw [← List.append_assoc]
    exact .inside name (hbefore.append hfront) hinside

end Rows

/-! ### Stretches that hide what they declare -/

section Stretches

variable {front ts stretch more : List Token} {name : String} {t opener : Token} {closer : Char}
  {Skips Skips' : List Token → Token → Char → Prop}

theorem declaresBehind_cons :
    DeclaresBehind front name (t :: ts) ↔
      (front = [] ∧ t = .word "message" ∧ ∃ rest, ts = .word name :: .symbol '\x7b' :: rest) ∨
        ∃ front', front = t :: front' ∧ DeclaresBehind front' name ts := by
  unfold DeclaresBehind
  cases front with
  | nil => simp
  | cons u front => simp [and_assoc, eq_comm]

/-- A message is declared in the first part, or behind it. -/
theorem DeclaresBehind.append (h : DeclaresBehind front name (stretch ++ ts)) :
    front <+: stretch ∨ ∃ front', front = stretch ++ front' ∧ DeclaresBehind front' name ts := by
  obtain ⟨rest, heq⟩ := h
  rcases List.append_eq_append_iff.mp heq with ⟨more, rfl, hts⟩ | ⟨more, rfl, -⟩
  · exact .inr ⟨more, rfl, rest, hts⟩
  · exact .inl ⟨more, rfl⟩

theorem IsPlain.nil : IsPlain [] :=
  fun front _ _ h => ⟨front, rfl, h⟩

theorem IsPlain.cons (hnone : ∀ name rest, ¬ DeclaresBehind [] name (t :: stretch ++ rest))
    (h : IsPlain stretch) : IsPlain (t :: stretch) := by
  intro front name rest hdeclares
  cases front with
  | nil => exact absurd hdeclares (hnone name rest)
  | cons u front =>
    rcases declaresBehind_cons.mp hdeclares with ⟨heq, -, -⟩ | ⟨front', heq, hbehind⟩
    · contradiction
    · obtain ⟨last, rfl, hrest⟩ := h front' name rest hbehind
      exact ⟨last, heq, hrest⟩

/-- Where the keyword does not stand no message is declared. -/
theorem isPlain_of_not_mem (hword : .word "message" ∉ stretch) : IsPlain stretch := by
  induction stretch with
  | nil => exact .nil
  | cons t stretch ih =>
    refine .cons ?_ (ih (mt (List.mem_cons_of_mem t) hword))
    rintro name rest h
    rcases declaresBehind_cons.mp h with ⟨-, rfl, -⟩ | ⟨front', heq, -⟩
    · exact hword List.mem_cons_self
    · contradiction

theorem isPlain_semicolon : IsPlain [.symbol ';'] :=
  isPlain_of_not_mem (by simp)

theorem IsPlain.hides (h : IsPlain stretch) : Hides Skips stretch :=
  fun front name rest hdeclares => .inr (h front name rest hdeclares)

/-- What is skipped is hidden. -/
theorem Hides.skipped {skipped : List Token} (hat : Skips [] opener closer)
    (hopener : opener ≠ .word "message") (hskipped : .symbol closer ∉ skipped) :
    Hides Skips (opener :: skipped ++ [.symbol closer]) := by
  intro front name rest h
  have hsplit : opener :: skipped ++ [.symbol closer] ++ rest =
      opener :: (skipped ++ .symbol closer :: rest) := by simp
  rw [hsplit] at h
  rcases declaresBehind_cons.mp h with ⟨-, heq, -⟩ | ⟨inside, rfl, hinside⟩
  · exact absurd heq hopener
  rcases hinside.append with hfirst | ⟨last, rfl, hlast⟩
  · exact .inl ⟨[], opener, closer, inside, hat, fun hmem => hskipped (hfirst.subset hmem), rfl⟩
  · rcases declaresBehind_cons.mp hlast with ⟨-, heq, -⟩ | ⟨behind, rfl, hrest⟩
    · contradiction
    · exact .inr ⟨behind, by simp, hrest⟩

/-- What is hidden in a part is hidden in the whole. -/
theorem HiddenBy.behind (h : HiddenBy Skips' ts) {before : List Token}
    (hskips : ∀ {front opener closer}, Skips' front opener closer →
      Skips (before ++ front) opener closer) : HiddenBy Skips (before ++ ts) := by
  obtain ⟨front, opener, closer, inside, hat, hinside, rfl⟩ := h
  exact ⟨before ++ front, opener, closer, inside, hskips hat, hinside, by simp⟩

theorem Hides.append (h : Hides Skips stretch) (h' : Hides Skips' more)
    (hskips : ∀ {front opener closer}, Skips' front opener closer →
      Skips (stretch ++ front) opener closer) : Hides Skips (stretch ++ more) := by
  intro front name rest hdeclares
  rw [List.append_assoc] at hdeclares
  rcases h _ _ _ hdeclares with hhidden | ⟨front', rfl, hmore⟩
  · exact .inl hhidden
  rcases h' _ _ _ hmore with hhidden | ⟨last, rfl, hrest⟩
  · exact .inl (hhidden.behind hskips)
  · exact .inr ⟨last, by simp, hrest⟩

end Stretches

section Grammar

variable {ts body : List Token}

/-- The word of a number is no keyword. -/
theorem IsNumber.ne_message {text : String} {number : UInt32} (h : IsNumber text number) :
    text ≠ "message" := by
  rintro rfl
  have hdigit := h.2.1 'm' (by decide)
  contradiction

/-- Up to its number a field declares nothing. -/
theorem HeadText.isPlain {head : List Token} {repeated : Bool} {typeName text : String}
    {number : UInt32} (h : HeadText head repeated typeName) (hnumber : IsNumber text number)
    (name : String) : IsPlain (head ++ [.word name, .symbol '=', .word text]) := by
  have htext : IsPlain [.symbol '=', .word text] :=
    isPlain_of_not_mem (by simp [hnumber.ne_message.symm])
  -- neither type nor name has another word and a brace behind it
  have hname : IsPlain [.word name, .symbol '=', .word text] :=
    .cons (by simp [DeclaresBehind]) htext
  have htype : IsPlain [.word typeName, .word name, .symbol '=', .word text] :=
    .cons (by simp [DeclaresBehind]) hname
  cases h with
  | plain => exact htype
  | optional => exact .cons (by simp [DeclaresBehind]) htype
  | repeated => exact .cons (by simp [DeclaresBehind]) htype

/-- A field declares no message but in its options. -/
theorem FieldText.hides {d : Declaration} (h : FieldText ts d) : Hides SkipsInside ts := by
  cases h with
  | @mk head options repeated typeName text number name hhead hnumber hoptions =>
    -- skipping may begin behind the number
    let Here : List Token → Token → Char → Prop := fun front opener closer =>
      front = [] ∧ opener = .symbol '[' ∧ closer = ']'
    have hend : Hides (fun _ _ _ => False) [.symbol ';'] := isPlain_semicolon.hides
    have hrest : Hides Here (options ++ [.symbol ';']) := by
      cases hoptions with
      | none => exact isPlain_semicolon.hides
      | @list skipped hskipped =>
        have hlist : Hides Here (.symbol '[' :: skipped ++ [.symbol ']']) :=
          Hides.skipped ⟨rfl, rfl, rfl⟩ (by simp) hskipped
        exact hlist.append hend False.elim
    have hfront : Hides SkipsInside (head ++ [.word name, .symbol '=', .word text]) :=
      (hhead.isPlain hnumber name).hides
    have hfield := hfront.append hrest ?here
    · rwa [← List.append_assoc] at hfield
    case here =>
      rintro _ _ _ ⟨rfl, rfl, rfl⟩
      rw [List.append_nil]
      exact SkipsInside.options name MembersText.nil hhead hnumber

/-- A statement that is skipped hides what it declares. -/
theorem Hides.statement {Skips : List Token → Token → Char → Prop} {keyword : String}
    {skipped : List Token} (hat : Skips [] (.word keyword) ';') (hkeyword : keyword ≠ "message")
    (hskipped : .symbol ';' ∉ skipped) :
    Hides Skips (.word keyword :: skipped ++ [.symbol ';']) :=
  Hides.skipped hat (fun heq => hkeyword (Token.word.inj heq)) hskipped

/-- Behind members that hide theirs come other members. -/
theorem MembersText.hides_append {ds : List Declaration} (hrow : MembersText body ds)
    (h : Hides SkipsInside body) (hrest : Hides SkipsInside ts) : Hides SkipsInside (body ++ ts) :=
  h.append hrest fun h => h.behind hrow

theorem FileText.hides_append {front : List Token} {bs : List Builder} (hrow : FileText front bs)
    (h : Hides SkipsAt front) (hrest : Hides SkipsAt ts) : Hides SkipsAt (front ++ ts) :=
  h.append hrest fun h => h.behind hrow

/-- Members declare no message but in what is skipped. -/
theorem MembersText.hides {ds : List Declaration} (h : MembersText body ds) :
    Hides SkipsInside body := by
  induction h with
  | nil => exact IsPlain.nil.hides
  | empty _ ih => exact (MembersText.empty .nil).hides_append isPlain_semicolon.hides ih
  | @skipped keyword skipped ts ds hkeyword hskipped _ ih =>
    have hother : keyword ≠ "message" := by
      rcases hkeyword with rfl | rfl <;> decide
    have hrow : MembersText (.word keyword :: skipped ++ [.symbol ';']) [] :=
      .skipped hkeyword hskipped .nil
    have hhides : Hides SkipsInside (.word keyword :: skipped ++ [.symbol ';']) :=
      .statement (.statement .nil hkeyword) hother hskipped
    rw [List.append_cons]
    exact hrow.hides_append hhides ih
  | @field front ts d ds hfield _ ih =>
    have hrow : MembersText (front ++ []) [d] := .field hfield .nil
    rw [List.append_nil] at hrow
    exact hrow.hides_append hfield.hides ih

/-- A row without a message declares none but in what is skipped. -/
theorem FileText.hides (h : FileText ts []) : Hides SkipsAt ts := by
  generalize hbs : ([] : List Builder) = bs at h
  induction h with
  | nil => exact IsPlain.nil.hides
  | empty _ ih => exact (FileText.empty .nil).hides_append isPlain_semicolon.hides (ih hbs)
  | version _ ih =>
    have hplain : IsPlain [.word "syntax", .symbol '=', .quoted "proto3", .symbol ';'] :=
      isPlain_of_not_mem (by simp)
    exact (FileText.version .nil).hides_append hplain.hides (ih hbs)
  | @skipped keyword skipped ts bs hkeyword hskipped _ ih =>
    have hother : keyword ≠ "message" := by
      rcases hkeyword with rfl | rfl <;> decide
    have hrow : FileText (.word keyword :: skipped ++ [.symbol ';']) [] :=
      .skipped hkeyword hskipped .nil
    have hhides : Hides SkipsAt (.word keyword :: skipped ++ [.symbol ';']) :=
      .statement (.statement .nil hkeyword) hother hskipped
    rw [List.append_cons]
    exact hrow.hides_append hhides (ih hbs)
  | message => contradiction

end Grammar

/-! ### The message in view -/

section View

variable {ts front rest : List Token} {b : Builder}

/-- A text with one message: the message and what is around it. -/
theorem FileText.exists_message (h : FileText ts [b]) :
    ∃ front body back, FileText front [] ∧ MembersText body b.declarations ∧ FileText back [] ∧
      ts = front ++ (.word "message" :: .word b.name :: .symbol '\x7b' ::
        (body ++ .symbol '\x7d' :: back)) := by
  generalize hbs : [b] = bs at h
  induction h with
  | nil => contradiction
  | empty _ ih =>
    obtain ⟨front, body, back, hfront, hbody, hback, rfl⟩ := ih hbs
    exact ⟨_, body, back, .empty hfront, hbody, hback, rfl⟩
  | version _ ih =>
    obtain ⟨front, body, back, hfront, hbody, hback, rfl⟩ := ih hbs
    exact ⟨_, body, back, .version hfront, hbody, hback, rfl⟩
  | skipped hkeyword hskipped _ ih =>
    obtain ⟨front, body, back, hfront, hbody, hback, rfl⟩ := ih hbs
    exact ⟨_, body, back, .skipped hkeyword hskipped hfront, hbody, hback, by simp⟩
  | @message body ts ds bs name hbody hback _ =>
    obtain ⟨rfl, rfl⟩ := List.cons.inj hbs
    exact ⟨[], body, ts, .nil, hbody, hback, by simp⟩

/-- Every other declaration is hidden. -/
theorem FileText.exists_front (h : FileText ts [b]) :
    ∃ front, FileText front [] ∧ DeclaresBehind front b.name ts ∧
      ∀ front' name, DeclaresBehind front' name ts → front' = front ∨ HiddenBy SkipsAt front' := by
  obtain ⟨front, body, back, hfront, hbody, hback, rfl⟩ := h.exists_message
  refine ⟨front, hfront, ⟨_, rfl⟩, ?_⟩
  intro front' name hdeclares
  rcases hfront.hides _ _ _ hdeclares with hhidden | ⟨front', rfl, hmessage⟩
  · exact .inr hhidden
  -- the message itself, or in its body, or behind it
  rcases declaresBehind_cons.mp hmessage with ⟨rfl, -, -⟩ | ⟨opened, rfl, hopened⟩
  · exact .inl (List.append_nil front)
  refine .inr ?_
  have hopening : IsPlain [.word b.name, .symbol '\x7b'] :=
    .cons (by simp [DeclaresBehind]) (isPlain_of_not_mem (by simp))
  obtain ⟨inside, rfl, hinside⟩ := hopening _ _ _ hopened
  rcases hbody.hides _ _ _ hinside with hhidden | ⟨closed, rfl, hclosed⟩
  · have hskips : HiddenBy SkipsAt
        (front ++ [.word "message", .word b.name, .symbol '\x7b'] ++ inside) :=
      hhidden.behind fun h => by simpa using SkipsAt.inside b.name hfront h
    simpa using hskips
  rcases declaresBehind_cons.mp hclosed with ⟨-, heq, -⟩ | ⟨behind, rfl, hbehind⟩
  · contradiction
  rcases hback.hides behind name [] (by rwa [List.append_nil]) with hhidden | ⟨_, -, hnone⟩
  · have hmessage := hfront.append (FileText.message b.name hbody .nil)
    have hskips : HiddenBy SkipsAt _ := hhidden.behind fun h => h.behind hmessage
    simpa using hskips
  · obtain ⟨_, heq⟩ := hnone
    simp at heq

end View

/-! ### Running the parser over a row -/

section Run

variable {front ts us rest : List Token} {found : Option Builder} {b : Builder}
  {taken ds : List Declaration} {e : SyntaxError} {keyword : String}

/-- A second message is refused. -/
theorem file_second : file (some b) (.word "message" :: ts) = .error .secondMessage := by
  rw [file.eq_def]
  simp [skippedDeclarations]

theorem file_refused (h : message ts = .error e) :
    file none (.word "message" :: ts) = .error e := by
  have hother : "message" ≠ "syntax" := by decide
  have hskipped : skippedDeclarations.contains "message" = false := by decide
  rw [file.eq_def]
  simp only [hother, hskipped, Option.isSome_none, Bool.false_eq_true, if_false, if_true]
  grind

theorem file_unterminated (hkeyword : skippedDeclarations.contains keyword = true)
    (hskip : after? ';' ts = none) :
    file found (.word keyword :: ts) = .error .unterminatedStatement := by
  have hversion : keyword ≠ "syntax" := by
    rintro rfl
    contradiction
  rw [file.eq_def]
  simp only [hversion, hkeyword, if_false, if_true]
  grind

/-- A message is what its members are. -/
theorem message_eq (name : String) (ts : List Token) :
    message (.word name :: .symbol '\x7b' :: ts) = do
      let (declarations, rest) ← members [] ts
      return ({ name, declarations }, rest) := by
  unfold message
  simp only [expectWord_word, expectSymbol_symbol, bind, Except.bind]

theorem members_refused {first : String} (hskipped : first ∉ skippedMembers)
    (hrefused : first ∉ refusedMembers) (hfield : fieldFrom first ts = .error e) :
    members taken (.word first :: ts) = .error e := by
  rw [members.eq_def]
  simp only [List.contains_eq_mem, hskipped, hrefused, decide_false, Bool.false_eq_true, if_false]
  grind

/-- Behind a row of declarations the parser goes on with the message it
    has, unless it has met two. -/
theorem file_append {bs : List Builder} (h : FileText front bs) :
    file found (front ++ rest) =
      match found.toList ++ bs with
      | [] => file none rest
      | [b] => file (some b) rest
      | _ => .error .secondMessage := by
  induction h generalizing found with
  | nil => cases found <;> rfl
  | empty _ ih => exact file_empty.trans ih
  | version _ ih => exact (file_version (version_eq_ok_iff.mpr rfl)).trans ih
  | @skipped keyword skipped ts bs hkeyword hnone _ ih =>
    have hskip : after? ';' (skipped ++ .symbol ';' :: (ts ++ rest)) = some (ts ++ rest) :=
      after?_eq_some_iff.mpr ⟨skipped, hnone, rfl⟩
    rw [List.append_assoc, List.cons_append, List.cons_append,
      file_skipped (contains_skippedDeclarations_iff.mpr hkeyword) hskip]
    exact ih
  | @message body ts ds bs name hbody _ ih =>
    cases found with
    | some b => exact file_second
    | none =>
      have hstep : message ([.word name, .symbol '\x7b'] ++ body ++
          .symbol '\x7d' :: (ts ++ rest)) = .ok ({ name, declarations := ds }, ts ++ rest) :=
        message_eq_ok_iff.mpr ⟨body, hbody, rfl⟩
      have hmessage := (file_message hstep).trans ih
      simpa using hmessage

/-- So does it among members. -/
theorem members_append (h : MembersText front ds) :
    members taken (front ++ rest) = members (ds.reverse ++ taken) rest := by
  induction h generalizing taken with
  | nil => rfl
  | empty _ ih => exact members_empty.trans ih
  | @skipped keyword skipped ts ds hkeyword hnone _ ih =>
    have hskip : after? ';' (skipped ++ .symbol ';' :: (ts ++ rest)) = some (ts ++ rest) :=
      after?_eq_some_iff.mpr ⟨skipped, hnone, rfl⟩
    rw [List.append_assoc, List.cons_append, List.cons_append,
      members_skipped (contains_skippedMembers_iff.mpr hkeyword) hskip]
    exact ih
  | @field front ts d ds hfield _ ih =>
    obtain ⟨first, tail, rfl, hskipped, hrefused⟩ := hfield.exists_first
    have hfrom : fieldFrom first (tail ++ (ts ++ rest)) = .ok (d, ts ++ rest) :=
      (fieldFrom_eq_ok_iff hskipped hrefused).mpr ⟨_, hfield, by simp⟩
    rw [List.append_assoc, List.cons_append, members_field hskipped hrefused hfrom, ih]
    simp

/-- A row that is complete is not hidden. -/
theorem FileText.not_hidden (h : FileText front []) : ¬ HiddenBy SkipsAt front := by
  rintro ⟨f, opener, closer, inside, hat, hinside, rfl⟩
  -- behind a message nothing in the row is refused
  let b : Builder := .new ""
  have hread : file (some b) (f ++ opener :: inside) = .ok b := by
    have hend : file (some b) [] = .ok b := by rw [file]
    have hrow : file (some b) (f ++ opener :: inside ++ []) = file (some b) [] := file_append h
    rw [← hend, ← hrow, List.append_nil]
  cases hat with
  | statement hfront hkeyword =>
    have hskip : after? ';' inside = none := by
      rw [Option.eq_none_iff_forall_ne_some]
      intro after hafter
      obtain ⟨skipped, -, rfl⟩ := after?_eq_some_iff.mp hafter
      simp at hinside
    rw [file_append hfront] at hread
    split at hread
    · simp_all
    · rw [file_unterminated (contains_skippedDeclarations_iff.mpr hkeyword) hskip] at hread
      contradiction
    · contradiction
  | inside name hbefore hskips =>
    rw [List.append_assoc, file_append hbefore] at hread
    split at hread
    · simp_all
    · rw [List.cons_append, file_second] at hread
      contradiction
    · contradiction

end Run

/-! ### What is read of a text -/

section Fields

variable {body ts : List Token} {b : Builder} {d : Declaration} {ds : List Declaration}

/-- Each field of a row has its place in it. -/
theorem MembersText.exists_field (h : MembersText body ds) (hd : d ∈ ds) :
    ∃ members es field rest, MembersText members es ∧ FieldText field d ∧
      body = members ++ (field ++ rest) := by
  induction h with
  | nil => contradiction
  | empty _ ih =>
    obtain ⟨members, es, field, rest, hmembers, hfield, rfl⟩ := ih hd
    exact ⟨_, es, field, rest, .empty hmembers, hfield, rfl⟩
  | skipped hkeyword hskipped _ ih =>
    obtain ⟨members, es, field, rest, hmembers, hfield, rfl⟩ := ih hd
    exact ⟨_, es, field, rest, .skipped hkeyword hskipped hmembers, hfield, by simp⟩
  | @field front ts e ds hfront _ ih =>
    rcases List.mem_cons.mp hd with rfl | hd
    · exact ⟨[], [], front, ts, .nil, hfront, rfl⟩
    · obtain ⟨members, es, field, rest, hmembers, hfield, rfl⟩ := ih hd
      exact ⟨_, _, field, rest, .field hfront hmembers, hfield, by simp⟩

/-- Behind a row of declarations a message can be read only if it is the
    first, and then it is the message of the file. -/
theorem message_of_file {front rest : List Token} {bs : List Builder}
    (h : FileText front bs) (hread : file none (front ++ .word "message" :: rest) = .ok b) :
    bs = [] ∧ ∃ left, message rest = .ok (b, left) := by
  rw [file_append h] at hread
  match bs with
  | [] =>
    cases hmessage : message rest with
    | error e =>
      have hrefused := file_refused hmessage
      rw [hrefused] at hread
      contradiction
    | ok result =>
      obtain ⟨b', left⟩ := result
      have hrest : file (some b') left = .ok b := (file_message hmessage).symm.trans hread
      obtain ⟨_, -, hone⟩ := file_eq_ok_iff.mp hrest
      obtain ⟨rfl, -⟩ := List.cons.inj hone
      exact ⟨rfl, left, rfl⟩
  | [b'] =>
    have hrefused : file (some b') (.word "message" :: rest) = .ok b := hread
    rw [file_second] at hrefused
    contradiction
  | _ :: _ :: _ => contradiction

/-- The fields that are read are the fields in view. -/
theorem mem_declarations_iff (h : FileText ts [b]) : d ∈ b.declarations ↔ HasField d ts := by
  constructor
  · intro hd
    obtain ⟨front, body, back, hfront, hbody, -, rfl⟩ := h.exists_message
    obtain ⟨members, es, field, rest, hmembers, hfield, rfl⟩ := hbody.exists_field hd
    exact ⟨front, [], b.name, members, es, field, _, hfront, hmembers, hfield, by
      rw [List.append_assoc, List.append_assoc]⟩
  · rintro ⟨before, bs, name, members, ds, field, rest, hbefore, hmembers, hfield, rfl⟩
    obtain ⟨-, left, hmessage⟩ := message_of_file hbefore (file_eq_ok_iff.mpr ⟨[b], h, rfl⟩)
    rw [message_eq] at hmessage
    obtain ⟨⟨es, left⟩, hread, heq⟩ := bind_ok hmessage
    obtain ⟨rfl, -⟩ := Prod.mk.inj (Except.ok.inj heq)
    -- the members before the field, and the field, come first
    have hfront : MembersText (members ++ (field ++ [])) (ds ++ [d]) :=
      hmembers.append (.field hfield .nil)
    have hsplit : members ++ (field ++ rest) = members ++ (field ++ []) ++ rest := by simp
    rw [hsplit, members_append hfront] at hread
    obtain ⟨_, _, -, -, rfl⟩ := members_eq_ok_iff.mp hread
    simp

end Fields

/-! ### What is hidden does not matter -/

section Hidden

variable {front ts ts' rest inside inside' : List Token} {opener : Token} {closer : Char}
  {taken : List Declaration} {first : String}

/-- Behind a word that begins a field the members depend on that field. -/
theorem members_congr (hskipped : first ∉ skippedMembers) (hrefused : first ∉ refusedMembers)
    (h : fieldFrom first ts = fieldFrom first ts') :
    members taken (.word first :: ts) = members taken (.word first :: ts') := by
  cases hfield : fieldFrom first ts' with
  | error e =>
    rw [members_refused hskipped hrefused hfield,
      members_refused hskipped hrefused (h.trans hfield)]
  | ok result =>
    obtain ⟨d, left⟩ := result
    rw [members_field hskipped hrefused hfield,
      members_field hskipped hrefused (h.trans hfield)]

/-- A file depends on how its message is read. -/
theorem file_congr (h : message ts = message ts') :
    file none (.word "message" :: ts) = file none (.word "message" :: ts') := by
  cases hread : message ts' with
  | error e => rw [file_refused hread, file_refused (h.trans hread)]
  | ok result =>
    obtain ⟨b, left⟩ := result
    rw [file_message hread, file_message (h.trans hread)]

/-- A field with options ends as what follows the options says. -/
theorem fieldFrom_options {head : List Token} {repeated : Bool} {typeName text : String}
    {number : UInt32} {name : String} (hhead : HeadText head repeated typeName)
    (hnumber : IsNumber text number) (hskipped : first ∉ skippedMembers)
    (hrefused : first ∉ refusedMembers)
    (hfirst : head ++ [.word name, .symbol '=', .word text] = .word first :: ts)
    (hinside : .symbol ']' ∉ inside) :
    fieldFrom first (ts ++ .symbol '[' :: (inside ++ .symbol ']' :: rest)) =
      (expectSymbol ';' rest).map fun left =>
        ({ number, name, kind := .ofName typeName, repeated }, left) := by
  let named := .word name :: .symbol '=' :: .word text ::
    .symbol '[' :: (inside ++ .symbol ']' :: rest)
  have hlabel : labelled first (ts ++ .symbol '[' :: (inside ++ .symbol ']' :: rest)) =
      .ok ((repeated, typeName), named) := by
    refine (labelled_eq_ok_iff hskipped hrefused).mpr ⟨head, hhead, ?_⟩
    rw [← List.cons_append, ← hfirst]
    simp [named]
  have hskip : skipOptions (.symbol '[' :: (inside ++ .symbol ']' :: rest)) = .ok rest := by
    have hafter : after? ']' (inside ++ .symbol ']' :: rest) = some rest :=
      after?_eq_some_iff.mpr ⟨inside, hinside, rfl⟩
    simp [skipOptions, hafter]
  unfold fieldFrom
  rw [hlabel]
  simp only [named, refuseArguments_word, expectWord_word, expectSymbol_symbol,
    fieldNumber_eq_ok_iff.mpr hnumber, hskip, bind, Except.bind]
  cases expectSymbol ';' rest <;> rfl

theorem members_hidden (h : SkipsInside front opener closer) (hinside : .symbol closer ∉ inside)
    (hinside' : .symbol closer ∉ inside') :
    members taken (front ++ opener :: (inside ++ .symbol closer :: rest)) =
      members taken (front ++ opener :: (inside' ++ .symbol closer :: rest)) := by
  cases h with
  | statement hfront hkeyword =>
    have hkeyword := contains_skippedMembers_iff.mpr hkeyword
    rw [members_append hfront, members_append hfront,
      members_skipped hkeyword (after?_eq_some_iff.mpr ⟨inside, hinside, rfl⟩),
      members_skipped hkeyword (after?_eq_some_iff.mpr ⟨inside', hinside', rfl⟩)]
  | @options front head ds repeated typeName text number name hfront hhead hnumber =>
    -- the word a field begins with does not depend on its options
    have hplain := FieldText.mk name hhead hnumber .none
    obtain ⟨first, tail, heq, hskipped, hrefused⟩ := hplain.exists_first
    obtain ⟨ts, hfirst⟩ :
        ∃ ts, head ++ [.word name, .symbol '=', .word text] = .word first :: ts := by
      cases hhead <;> simp_all
    have hsame : fieldFrom first (ts ++ .symbol '[' :: (inside ++ .symbol ']' :: rest)) =
        fieldFrom first (ts ++ .symbol '[' :: (inside' ++ .symbol ']' :: rest)) := by
      rw [fieldFrom_options hhead hnumber hskipped hrefused hfirst hinside,
        fieldFrom_options hhead hnumber hskipped hrefused hfirst hinside']
    rw [hfirst, List.append_assoc, List.append_assoc, members_append hfront, members_append hfront]
    exact members_congr hskipped hrefused hsame

/-- Whatever is skipped can be exchanged for anything else that does not
    end the skipping. -/
theorem file_hidden (h : SkipsAt front opener closer) (hinside : .symbol closer ∉ inside)
    (hinside' : .symbol closer ∉ inside') :
    file none (front ++ opener :: (inside ++ .symbol closer :: rest)) =
      file none (front ++ opener :: (inside' ++ .symbol closer :: rest)) := by
  cases h with
  | @statement front bs keyword hfront hkeyword =>
    have hkeyword := contains_skippedDeclarations_iff.mpr hkeyword
    rw [file_append hfront, file_append hfront]
    have hsame : ∀ found, file found (.word keyword :: (inside ++ .symbol ';' :: rest)) =
        file found (.word keyword :: (inside' ++ .symbol ';' :: rest)) := by
      intro found
      rw [file_skipped hkeyword (after?_eq_some_iff.mpr ⟨inside, hinside, rfl⟩),
        file_skipped hkeyword (after?_eq_some_iff.mpr ⟨inside', hinside', rfl⟩)]
    match bs with
    | [] => exact hsame none
    | [b] => exact hsame (some b)
    | _ :: _ :: _ => rfl
  | @inside before front bs opener closer name hbefore hskips =>
    rw [List.append_assoc, List.append_assoc, file_append hbefore, file_append hbefore]
    match bs with
    | [] =>
      apply file_congr
      show message (.word name :: .symbol '\x7b' :: (front ++ _)) =
        message (.word name :: .symbol '\x7b' :: (front ++ _))
      rw [message_eq, message_eq, members_hidden hskips hinside hinside']
    | [b] => exact file_second.trans file_second.symm
    | _ :: _ :: _ => rfl

end Hidden

end Proto

/-! ### Texts -/

namespace Descriptor

open Proto

variable {text : String} {ts : List Token} {d : Descriptor}

theorem ofText_eq (htokens : tokens text = .ok ts) :
    ofText text =
      match file none ts with
      | .error e => .error e.toSchema
      | .ok b => b.build := by
  have hdeclared : Proto.declared text = file none ts := by
    rw [Proto.declared, htokens]
    rfl
  cases hread : file none ts with
  | error e => simp only [ofText, hdeclared, hread]
  | ok b => simp only [ofText, hdeclared, hread]

/-- An accepted text is a file with one message. -/
theorem exists_file (htokens : tokens text = .ok ts) (h : ofText text = .ok d) :
    ∃ b, FileText ts [b] ∧ b.build = .ok d := by
  obtain ⟨ts', b, htokens', hfile, hbuild⟩ := ofText_eq_ok_iff.mp h
  obtain rfl := Except.ok.inj (htokens.symm.trans htokens')
  exact ⟨b, hfile, hbuild⟩

/-- **What is seen of a text**: of the messages that an accepted text
    declares, at whatever depth, exactly one is in view, and the descriptor
    has its name; its fields are exactly the fields in view.  A text with
    two messages in view is refused.

    All else is hidden in what is skipped, and there anything can stand:
    exchanging it for tokens that do not end the skipping either changes
    neither the descriptor nor the error. -/
theorem ofText_sees (htokens : tokens text = .ok ts) :
    (∀ d, ofText text = .ok d →
      (∃ front, InView front d.name ts ∧
        ∀ front' name, DeclaresBehind front' name ts →
          front' = front ∨ HiddenBy SkipsAt front') ∧
      ∀ decl, decl ∈ d.fields.toList.map Field.declaration ↔ HasField decl ts) ∧
    (∀ front name front' name', InView front name ts → InView front' name' ts → front ≠ front' →
      ∃ e, ofText text = .error e) ∧
    ∀ front opener closer inside inside' rest text', SkipsAt front opener closer →
      .symbol closer ∉ inside → .symbol closer ∉ inside' →
      ts = front ++ opener :: (inside ++ .symbol closer :: rest) →
      tokens text' = .ok (front ++ opener :: (inside' ++ .symbol closer :: rest)) →
      ofText text' = ofText text := by
  have hone : ∀ d, ofText text = .ok d → ∃ front, InView front d.name ts ∧
      ∀ front' name, DeclaresBehind front' name ts → front' = front ∨ HiddenBy SkipsAt front' := by
    intro d h
    obtain ⟨b, hfile, hbuild⟩ := exists_file htokens h
    obtain ⟨front, hfront, hdeclares, hothers⟩ := hfile.exists_front
    rw [(Builder.build_eq_ok hbuild).1]
    exact ⟨front, ⟨hdeclares, hfront.not_hidden⟩, hothers⟩
  refine ⟨fun d h => ⟨hone d h, ?fields⟩, ?two, ?hidden⟩
  case fields =>
    intro decl
    obtain ⟨b, hfile, hbuild⟩ := exists_file htokens h
    rw [(Builder.perm_of_build hbuild).mem_iff]
    exact mem_declarations_iff hfile
  case two =>
    intro front name front' name' hview hview' hne
    cases h : ofText text with
    | error e => exact ⟨e, rfl⟩
    | ok d =>
      obtain ⟨only, -, hothers⟩ := hone d h
      have hfront : front = only := (hothers _ _ hview.1).resolve_right hview.2
      have hfront' : front' = only := (hothers _ _ hview'.1).resolve_right hview'.2
      exact absurd (hfront.trans hfront'.symm) hne
  case hidden =>
    intro front opener closer inside inside' rest text' hat hinside hinside' heq htokens'
    subst heq
    rw [ofText_eq htokens, ofText_eq htokens', file_hidden hat hinside hinside']

/-! ### A statement without its semicolon -/

/-- An option that lacks its semicolon, and a second message behind it. -/
def openOption : String :=
  "message A \x7b\x7d option message B \x7b\x7d ;"

/-- The same with a row of reserved numbers, and a field behind it. -/
def openReserved : String :=
  "message A \x7b reserved 4, 5 int64 id = 1; \x7d"

/-- The tokens of the message that is read. -/
def firstMessage : List Token :=
  [.word "message", .word "A", .symbol '\x7b', .symbol '\x7d']

/-- What is left of a result when its error does not matter decides
    whether it is a success. -/
theorem eq_ok_of_toOption {ε α : Type} {x : Except ε α} {a : α} (h : x.toOption = some a) :
    x = .ok a := by
  cases x with
  | error e => contradiction
  | ok b => exact congrArg Except.ok (Option.some.inj h)

theorem tokens_openOption :
    tokens openOption = .ok (firstMessage ++ .word "option" ::
      [.word "message", .word "B", .symbol '\x7b', .symbol '\x7d', .symbol ';']) :=
  eq_ok_of_toOption (by decide +kernel)

theorem tokens_openReserved :
    tokens openReserved = .ok ([.word "message", .word "A", .symbol '\x7b', .word "reserved",
      .word "4", .symbol ',', .word "5"] ++ ([.word "int64", .word "id", .symbol '=', .word "1",
        .symbol ';'] ++ [.symbol '\x7d'])) :=
  eq_ok_of_toOption (by decide +kernel)

/-- **The rule is broken**: a text with two messages is not always
    refused, nor is a field always read that stands in an accepted text. -/
theorem not_refused :
    (¬ ∀ text ts front name front' name', tokens text = .ok ts →
      DeclaresBehind front name ts → depth front = 0 → IsIdentifier name →
      DeclaresBehind front' name' ts → depth front' = 0 → IsIdentifier name' → front ≠ front' →
      ∃ e, ofText text = .error e) ∧
    ¬ ∀ text ts front field rest decl d, tokens text = .ok ts → FieldText field decl →
      ts = front ++ (field ++ rest) → ofText text = .ok d →
      ∃ f ∈ d.fields.toList, f.name = decl.name := by
  constructor
  · intro h
    obtain ⟨e, he⟩ := h openOption _ [] "A" (firstMessage ++ [.word "option"]) "B"
      tokens_openOption ⟨_, rfl⟩ (by decide) (isIdentifier_iff.mp (by decide))
      ⟨[.symbol '\x7d', .symbol ';'], rfl⟩ (by decide) (isIdentifier_iff.mp (by decide)) (by decide)
    have haccepted : (ofText openOption).isOk = true := by decide +kernel
    rw [he] at haccepted
    contradiction
  · intro h
    have hempty : (ofText openReserved).toOption.map (·.fields.toList) = some [] := by
      decide +kernel
    obtain ⟨d, hread, hfields⟩ := Option.map_eq_some_iff.mp hempty
    have hplain : HeadText [.word "int64"] false "int64" := .plain (by decide)
    have hnumber : IsNumber "1" 1 :=
      fieldNumber_eq_ok_iff.mp (eq_ok_of_toOption (by decide +kernel))
    obtain ⟨f, hf, -⟩ := h openReserved _ _ _ _ _ d tokens_openReserved
      (.mk "id" hplain hnumber .none) rfl (eq_ok_of_toOption hread)
    rw [hfields] at hf
    contradiction

/-- The same text with another statement in the place of the second
    message. -/
def closedOption : String :=
  "message A \x7b\x7d option x;"

theorem tokens_closedOption :
    tokens closedOption = .ok (firstMessage ++ .word "option" :: ([.word "x"] ++ [.symbol ';'])) :=
  eq_ok_of_toOption (by decide +kernel)

/-- The second message stands in what the option skips, and might as well
    be something else. -/
theorem openOption_sees :
    ∃ ts d, tokens openOption = .ok ts ∧ ofText openOption = .ok d ∧ InView [] d.name ts ∧
      DeclaresBehind (firstMessage ++ [.word "option"]) "B" ts ∧
      HiddenBy SkipsAt (firstMessage ++ [.word "option"]) ∧ ofText closedOption = .ok d := by
  have haccepted : (ofText openOption).toOption.map (·.name) = some "A" := by decide +kernel
  obtain ⟨d, hread, -⟩ := Option.map_eq_some_iff.mp haccepted
  have hread := eq_ok_of_toOption hread
  obtain ⟨hone, -, hhidden⟩ := ofText_sees tokens_openOption
  obtain ⟨⟨front, hview, hothers⟩, -⟩ := hone d hread
  have hat : SkipsAt firstMessage (.word "option") ';' :=
    .statement (.message "A" .nil .nil) (.inr rfl)
  have hfront : [] = front := by
    refine (hothers [] "A" ⟨_, rfl⟩).resolve_right ?_
    rintro ⟨before, opener, closer, inside, -, -, heq⟩
    simp at heq
  subst hfront
  refine ⟨_, d, tokens_openOption, hread, hview, ⟨_, rfl⟩, ⟨_, _, _, [], hat, by simp, rfl⟩, ?_⟩
  rw [← hread]
  exact hhidden firstMessage (.word "option") ';'
    [.word "message", .word "B", .symbol '\x7b', .symbol '\x7d'] [.word "x"] [] closedOption hat
    (by decide) (by decide) rfl tokens_closedOption

end Descriptor

end EventCodec.Schema
