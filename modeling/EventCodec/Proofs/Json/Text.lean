import EventCodec.Json.Record
import EventCodec.Proofs.Text.Decimal

/-! # JSON is read as it was written

    Values are written without white space.  A reader takes a written
    value off the front of a text, whatever follows that does not go on
    with a word (`Takes`).  So a row of written values is read value by
    value, and a value that was written alone is the value of its text. -/

namespace EventCodec.Json

open Text (Reader Front)

/-! ### Writing -/

def numberText (n : Nat) : List Char :=
  (toString n).toList

def arrayText (items : List (List Char)) : List Char :=
  '[' :: [','].intercalate items ++ [']']

def memberText (name : String) (value : List Char) : List Char :=
  (quoted name).toList ++ ':' :: value

def objectText (members : List (String × List Char)) : List Char :=
  '\x7b' :: [','].intercalate (members.map fun m => memberText m.1 m.2) ++ ['\x7d']

/-! ### Taking values off the front -/

/-- A text does not go on with a word. -/
def EndsWord (rest : List Char) : Prop :=
  ∀ c ∈ rest.head?, isWordChar c = false

/-- The characters that values start with. -/
def startsValue (c : Char) : Bool :=
  isWordChar c || c == '"' || c == '[' || c == '\x7b'

/-- A text that a reader takes off the front as a value. -/
structure Takes {α : Type} (reader : Reader α) (text : List Char) (value : α) : Prop where
  starts : ∃ c ∈ text.head?, startsValue c = true
  takes : ∀ rest, EndsWord rest → ∃ h, reader (text ++ rest) = some ⟨value, rest, h⟩

theorem endsWord_nil : EndsWord [] := by
  intro c hc
  contradiction

theorem endsWord_cons {c : Char} (h : isWordChar c = false) (rest : List Char) :
    EndsWord (c :: rest) := by
  intro d hd
  obtain rfl := Option.mem_some.mp hd
  exact h

theorem isSpace_of_startsValue {c : Char} (h : startsValue c = true) : isSpace c = false := by
  rw [Bool.eq_false_iff]
  intro hspace
  simp only [isSpace, Bool.or_eq_true, beq_iff_eq] at hspace
  rcases hspace with ((rfl | rfl) | rfl) | rfl
  all_goals contradiction

section

variable {α : Type} {reader : Reader α} {text : List Char} {value : α}

theorem Takes.exists_cons (h : Takes reader text value) :
    ∃ c tail, text = c :: tail ∧ startsValue c = true := by
  obtain ⟨c, hc, hstarts⟩ := h.starts
  cases text with
  | nil => contradiction
  | cons d tail =>
    obtain rfl := Option.mem_some.mp hc
    exact ⟨d, tail, rfl, hstarts⟩

theorem Takes.afterSpace_eq (h : Takes reader text value) (rest : List Char) :
    afterSpace (text ++ rest) = text ++ rest := by
  obtain ⟨c, tail, rfl, hstarts⟩ := h.exists_cons
  rw [afterSpace, List.cons_append, List.dropWhile_cons, isSpace_of_startsValue hstarts]
  rfl

end

theorem afterSpace_cons {c : Char} (h : isSpace c = false) (rest : List Char) :
    afterSpace (c :: rest) = c :: rest := by
  rw [afterSpace, List.dropWhile_cons, h]
  rfl

/-! ### Numbers -/

/-- Written digits do not start with a zero unless they are one. -/
theorem isWhole_numberText (n : Nat) : isWhole (numberText n) = true := by
  have hdigits : (numberText n).all Text.isDigit = true :=
    List.all_eq_true.mpr fun c hc => Text.isDigit_of_mem_toString hc
  by_cases hzero : n = 0
  · subst hzero
    decide
  · have hhead : (numberText n).head? ≠ some '0' := Text.head?_toString (Nat.pos_of_ne_zero hzero)
    unfold isWhole
    split
    · next hnil => simp [numberText] at hnil
    · next rest hcons =>
      rw [hcons] at hhead
      exact absurd rfl hhead
    · exact hdigits

theorem isWordChar_of_isDigit {c : Char} (h : Text.isDigit c = true) : isWordChar c = true := by
  simp [isWordChar, h]

theorem ofWord?_numberText (n : Nat) : ofWord? (numberText n) = some (.natural n) := by
  have hdigit : ∀ c ∈ numberText n, Text.isDigit c = true :=
    fun c hc => Text.isDigit_of_mem_toString hc
  -- the three words hold letters, which are no digits
  have hword : ∀ word : List Char, word.any (!Text.isDigit ·) = true → numberText n ≠ word := by
    rintro word hletter rfl
    obtain ⟨c, hc, hno⟩ := List.any_eq_true.mp hletter
    rw [hdigit c hc] at hno
    contradiction
  rw [ofWord?, if_neg (hword _ (by decide)), if_neg (hword _ (by decide)),
    if_neg (hword _ (by decide)), if_pos (isWhole_numberText n), numberText,
    Text.digitsValue_toString]

/-- A word is taken off the front whole. -/
theorem run_append {p : Char → Bool} {word rest : List Char} (hword : word ≠ [])
    (hall : ∀ c ∈ word, p c = true) (hrest : ∀ c ∈ rest.head?, p c = false) :
    ∃ h, Text.run p (word ++ rest) = some ⟨word, rest, h⟩ := by
  have htake : (word ++ rest).takeWhile p = word := by
    rw [List.takeWhile_append_of_pos hall]
    cases rest with
    | nil => simp
    | cons c rest => simp [hrest c rfl]
  have hdrop : (word ++ rest).dropWhile p = rest := by
    rw [List.dropWhile_append_of_pos hall]
    cases rest with
    | nil => rfl
    | cons c rest => simp [hrest c rfl]
  cases word with
  | nil => contradiction
  | cons c word =>
    have hc : p c = true := hall c List.mem_cons_self
    rw [List.cons_append, List.takeWhile_cons, if_pos hc] at htake
    rw [List.cons_append, List.dropWhile_cons, if_pos hc] at hdrop
    refine ⟨by simp only [List.length_append, List.length_cons]; omega, ?_⟩
    simp only [List.cons_append, Text.run, if_pos hc, htake, hdrop]

/-- The value of what neither a bracket nor a quote starts is that of its
    first word. -/
theorem takes_word {depth : Nat} {word : List Char} {value : Json} (hword : word ≠ [])
    (hall : ∀ c ∈ word, isWordChar c = true) (hvalue : ofWord? word = some value) :
    Takes (valueWithin depth) word value := by
  obtain ⟨c, tail, rfl⟩ := List.exists_cons_of_ne_nil hword
  have hc : isWordChar c = true := hall c List.mem_cons_self
  refine ⟨⟨c, rfl, by simp [startsValue, hc]⟩, ?_⟩
  intro rest hrest
  obtain ⟨h, hrun⟩ := run_append hword hall hrest
  refine ⟨h, ?_⟩
  -- a character of a word is no bracket and no quote
  have hmark : ∀ d, isWordChar d = false → ∀ more, c :: tail ++ rest = d :: more → False := by
    intro d hd more heq
    obtain ⟨rfl, -⟩ := List.cons.inj heq
    rw [hc] at hd
    contradiction
  rw [valueWithin.eq_6 _ _ (hmark '[' (by decide)) (hmark '\x7b' (by decide))
    (hmark '"' (by decide)), hrun, Option.bind_some, hvalue]
  rfl

theorem takes_number (depth n : Nat) : Takes (valueWithin depth) (numberText n) (.natural n) := by
  refine takes_word ?_ ?_ (ofWord?_numberText n)
  · simp [numberText]
  · intro c hc
    exact isWordChar_of_isDigit (Text.isDigit_of_mem_toString hc)

/-! ### Strings -/

/-- An escape is read as what it stands for. -/
theorem stringFrom_escape {text rest : List Char} {c : Char}
    (h : escape? text = some (some c, rest)) (before : List Char) :
    stringFrom (some before) ('\\' :: text) = stringFrom (some (c :: before)) rest := by
  rw [stringFrom, if_neg (by decide), if_pos rfl]
  split
  · next hnone =>
    rw [h] at hnone
    contradiction
  · next hsome =>
    rw [h] at hsome
    obtain ⟨rfl, rfl⟩ := Prod.mk.inj (Option.some.inj hsome)
    rfl

/-- A control character is read from its code unit. -/
theorem escape?_control {c : Char} (h : c.toNat < 0x20) (more : List Char) :
    escape? ('u' :: '0' :: '0' :: Bytes.hexDigit (UInt8.ofNat c.toNat / 16) ::
      Bytes.hexDigit (UInt8.ofNat c.toNat % 16) :: more) = some (some c, more) := by
  have hunit : ∀ k : Fin 32, Text.basedValue? 16 ['0', '0', Bytes.hexDigit (UInt8.ofNat k / 16),
      Bytes.hexDigit (UInt8.ofNat k % 16)] = some k.val := by
    decide
  have hvalue : unit? ('0' :: '0' :: Bytes.hexDigit (UInt8.ofNat c.toNat / 16) ::
      Bytes.hexDigit (UInt8.ofNat c.toNat % 16) :: more) = some c.toNat :=
    hunit ⟨c.toNat, h⟩
  have hchar : Text.charOf? c.toNat = some c := by
    rw [Text.charOf?, dif_pos (show c.toNat.isValidChar from c.valid)]
    rfl
  have hlow : (decide (0xD800 ≤ c.toNat) && decide (c.toNat ≤ 0xDBFF)) = false := by
    rw [decide_eq_false (by omega)]
    rfl
  simp only [escape?, unitEscape?, hvalue, Option.map_some, hlow, hchar]
  rfl

/-- A character is read from how it stands inside quotes. -/
theorem stringFrom_escaped (before : List Char) (c : Char) (more : List Char) :
    stringFrom (some before) (escaped c ++ more) = stringFrom (some (c :: before)) more := by
  -- seven characters have an escape of their own
  unfold escaped
  split
  · next h => subst h; exact stringFrom_escape rfl before
  split
  · next h => subst h; exact stringFrom_escape rfl before
  split
  · next h => subst h; exact stringFrom_escape rfl before
  split
  · next h => subst h; exact stringFrom_escape rfl before
  split
  · next h => subst h; exact stringFrom_escape rfl before
  split
  · next h => subst h; exact stringFrom_escape rfl before
  split
  · next h => subst h; exact stringFrom_escape rfl before
  split
  · next h => exact stringFrom_escape (escape?_control h more) before
  · next hquote hslash _ _ _ _ _ hcontrol =>
    rw [List.singleton_append, stringFrom, if_neg hquote, if_neg hslash, if_neg hcontrol]
    rfl

theorem stringFrom_flatMap (text before more : List Char) :
    stringFrom (some before) (text.flatMap escaped ++ '"' :: more) =
      some (some (before.reverse ++ text), more) := by
  induction text generalizing before with
  | nil =>
    rw [List.flatMap_nil, List.nil_append, stringFrom, if_pos rfl, List.append_nil]
    rfl
  | cons c text ih =>
    rw [List.flatMap_cons, List.append_assoc, stringFrom_escaped, ih, List.reverse_cons,
      List.append_assoc, List.singleton_append]

/-- A quoted text is read whole, its first quote aside. -/
theorem stringTail_quoted (text : String) (more : List Char) :
    ∃ h, stringTail (text.toList.flatMap escaped ++ '"' :: more) = some ⟨some text, more, h⟩ := by
  refine ⟨by simp only [List.length_append, List.length_cons]; omega, ?_⟩
  have hread := stringFrom_flatMap text.toList [] more
  unfold stringTail
  split
  · next hnone =>
    rw [hread] at hnone
    contradiction
  · next hsome =>
    rw [hread] at hsome
    obtain ⟨rfl, rfl⟩ := Prod.mk.inj (Option.some.inj hsome)
    simp

theorem toList_quoted (text : String) :
    (quoted text).toList = '"' :: (text.toList.flatMap escaped ++ ['"']) := by
  rw [quoted, String.toList_ofList]
  rfl

theorem takes_quoted (depth : Nat) (text : String) :
    Takes (valueWithin depth) (quoted text).toList (.string (some text)) := by
  rw [toList_quoted]
  refine ⟨⟨'"', rfl, by decide⟩, ?_⟩
  intro rest _
  obtain ⟨h, htail⟩ := stringTail_quoted text rest
  rw [List.cons_append, List.append_assoc, List.singleton_append]
  refine ⟨by simp only [List.length_append, List.length_cons]; omega, ?_⟩
  rw [valueWithin, htail]
  rfl

/-! ### Rows -/

section Rows

variable {α : Type} {item : Reader α} {close : Char} {text rest : List Char} {value : α}

/-- What is taken off the front of a text that may have come by skipping
    space. -/
theorem Takes.read (h : Takes item text value) (hrest : EndsWord rest) {t : List Char}
    (ht : t = text ++ rest) :
    ∃ front, item t = some front ∧ front.value = value ∧ front.rest = rest := by
  subst ht
  obtain ⟨_, htakes⟩ := h.takes rest hrest
  exact ⟨_, htakes, rfl, rfl⟩

/-- A bracket closes a row after its last item. -/
theorem rowFrom_close (h : Takes item text value) (hword : isWordChar close = false)
    (hspace : isSpace close = false) {bound : Nat} (before : List α)
    (fits : (text ++ close :: rest).length ≤ bound) :
    ∃ h, rowFrom item close bound before (text ++ close :: rest) fits =
      some ⟨(value :: before).reverse, rest, h⟩ := by
  have hends : EndsWord (close :: rest) := endsWord_cons hword rest
  refine ⟨by simp only [List.length_append, List.length_cons] at fits; omega, ?_⟩
  obtain ⟨front, hfront, hvalue, hrest⟩ := h.read hends (h.afterSpace_eq _)
  have hnext : afterSpace front.rest = close :: rest := by rw [hrest, afterSpace_cons hspace]
  rw [rowFrom, hfront]
  dsimp only
  split
  · next hnil =>
    rw [hnext] at hnil
    contradiction
  · next hcons =>
    rw [hnext] at hcons
    obtain ⟨rfl, rfl⟩ := List.cons.inj hcons
    simp [hvalue]

/-- After a comma a row goes on. -/
theorem rowFrom_comma (h : Takes item text value) (hclose : close ≠ ',') {bound : Nat}
    (before : List α) (fits : (text ++ ',' :: rest).length ≤ bound) :
    ∃ fits', rowFrom item close bound before (text ++ ',' :: rest) fits =
      rowFrom item close bound (value :: before) rest fits' := by
  have hends : EndsWord (',' :: rest) := endsWord_cons (by decide) rest
  refine ⟨by simp only [List.length_append, List.length_cons] at fits; omega, ?_⟩
  obtain ⟨front, hfront, hvalue, hrest⟩ := h.read hends (h.afterSpace_eq _)
  have hnext : afterSpace front.rest = ',' :: rest := by
    rw [hrest, afterSpace_cons (by decide)]
  rw [rowFrom, hfront]
  dsimp only
  split
  · next hnil =>
    rw [hnext] at hnil
    contradiction
  · next hcons =>
    rw [hnext] at hcons
    obtain ⟨rfl, rfl⟩ := List.cons.inj hcons
    rw [if_neg (Ne.symm hclose), if_pos rfl]
    simp only [hvalue]

/-- Written items are read one after the other. -/
theorem rowFrom_entries (hword : isWordChar close = false) (hspace : isSpace close = false)
    (hcomma : close ≠ ',') {entries : List (List Char × α)} (hsome : entries ≠ [])
    (hitems : ∀ e ∈ entries, Takes item e.1 e.2) {bound : Nat} (before : List α)
    (htext : text = [','].intercalate (entries.map Prod.fst) ++ close :: rest)
    (fits : text.length ≤ bound) :
    ∃ h, rowFrom item close bound before text fits =
      some ⟨before.reverse ++ entries.map Prod.snd, rest, h⟩ := by
  induction entries generalizing before text with
  | nil => contradiction
  | cons e more ih =>
    obtain ⟨he, hmore⟩ := List.forall_mem_cons.mp hitems
    -- the last item is closed by the bracket, any other by a comma
    cases more with
    | nil =>
      have hlast : text = e.1 ++ close :: rest := by rw [htext]; simp
      subst hlast
      obtain ⟨h, hread⟩ := rowFrom_close he hword hspace before fits
      rw [List.reverse_cons] at hread
      exact ⟨h, hread⟩
    | cons next more =>
      have hfirst : text = e.1 ++ ',' ::
          ([','].intercalate ((next :: more).map Prod.fst) ++ close :: rest) := by
        rw [htext]
        simp
      subst hfirst
      obtain ⟨fits', hread⟩ := rowFrom_comma he hcomma before fits
      obtain ⟨h, hrest⟩ := ih (List.cons_ne_nil _ _) hmore (e.2 :: before) rfl fits'
      rw [List.reverse_cons, List.append_assoc] at hrest
      exact ⟨h, hread.trans hrest⟩

/-- A written row is read item by item, its first bracket aside. -/
theorem row_entries (close : Char) (hword : isWordChar close = false) (hspace : isSpace close = false)
    (hcomma : close ≠ ',') (hstart : startsValue close = false) {entries : List (List Char × α)}
    (hitems : ∀ e ∈ entries, Takes item e.1 e.2) (rest : List Char) :
    ∃ h, row item close ([','].intercalate (entries.map Prod.fst) ++ close :: rest) =
      some ⟨entries.map Prod.snd, rest, h⟩ := by
  cases entries with
  | nil =>
    refine ⟨by simp, ?_⟩
    unfold row
    split
    · next hnil =>
      simp [afterSpace_cons hspace] at hnil
    · next hcons =>
      simp only [List.map_nil, List.intercalate_nil, List.nil_append, afterSpace_cons hspace] at hcons
      obtain ⟨rfl, rfl⟩ := List.cons.inj hcons
      rw [if_pos rfl]
      rfl
  | cons e more =>
    -- the row does not start with its closing bracket
    obtain ⟨c, tail, htext, hc⟩ := (hitems e List.mem_cons_self).exists_cons
    have hfirst : ∃ tail', [','].intercalate ((e :: more).map Prod.fst) ++ close :: rest =
        c :: tail' := by
      rw [List.map_cons, htext, List.intercalate_cons_cons_left]
      exact ⟨_, rfl⟩
    obtain ⟨h, hread⟩ := rowFrom_entries hword hspace hcomma (List.cons_ne_nil e more) hitems [] rfl
      (Text.fits_self ([','].intercalate ((e :: more).map Prod.fst) ++ close :: rest))
    refine ⟨h, ?_⟩
    obtain ⟨tail', hfirst⟩ := hfirst
    unfold row
    split
    · next hnil =>
      rw [hfirst, afterSpace_cons (isSpace_of_startsValue hc)] at hnil
      contradiction
    · next hcons =>
      rw [hfirst, afterSpace_cons (isSpace_of_startsValue hc)] at hcons
      obtain ⟨rfl, rfl⟩ := List.cons.inj hcons
      have hopen : c ≠ close := by
        rintro rfl
        rw [hstart] at hc
        contradiction
      rw [if_neg hopen]
      exact hread

end Rows

/-! ### Arrays and objects -/

theorem takes_array {depth : Nat} {entries : List (List Char × Json)}
    (hitems : ∀ e ∈ entries, Takes (valueWithin depth) e.1 e.2) :
    Takes (valueWithin (depth + 1)) (arrayText (entries.map Prod.fst))
      (.array (entries.map Prod.snd)) := by
  refine ⟨⟨'[', rfl, by decide⟩, ?_⟩
  intro rest _
  have htext : arrayText (entries.map Prod.fst) ++ rest =
      '[' :: ([','].intercalate (entries.map Prod.fst) ++ ']' :: rest) := by
    simp [arrayText]
  obtain ⟨_, hrow⟩ := row_entries ']' (by decide) (by decide) (by decide) (by decide)
    hitems rest
  rw [htext]
  refine ⟨by simp only [List.length_append, List.length_cons]; omega, ?_⟩
  rw [valueWithin, hrow]
  rfl

theorem takes_member {depth : Nat} {text : List Char} {value : Json}
    (h : Takes (valueWithin depth) text value) (name : String) :
    Takes (member (valueWithin depth)) (memberText name text) (some name, value) := by
  have hname : memberText name text = '"' :: (name.toList.flatMap escaped ++ '"' :: ':' :: text) := by
    simp [memberText, toList_quoted]
  rw [hname]
  refine ⟨⟨'"', rfl, by decide⟩, ?_⟩
  intro rest hrest
  obtain ⟨_, htail⟩ := stringTail_quoted name (':' :: text ++ rest)
  have htext : '"' :: (name.toList.flatMap escaped ++ '"' :: ':' :: text) ++ rest =
      '"' :: (name.toList.flatMap escaped ++ '"' :: (':' :: text ++ rest)) := by
    simp
  rw [htext]
  refine ⟨by simp only [List.length_append, List.length_cons]; omega, ?_⟩
  simp only [member, htail]
  have hcolon : afterSpace (':' :: text ++ rest) = ':' :: (text ++ rest) :=
    afterSpace_cons (by decide) (text ++ rest)
  split
  · next more hmore =>
    rw [hcolon] at hmore
    obtain ⟨-, rfl⟩ := List.cons.inj hmore
    obtain ⟨front, hfront, hvalue, hrest⟩ := h.read hrest (h.afterSpace_eq _)
    rw [hfront]
    simp [Front.map, Front.widen, hvalue, hrest]
  · next hno => exact absurd hcolon (hno _)

theorem takes_object {depth : Nat} {entries : List (String × List Char × Json)}
    (hvalues : ∀ e ∈ entries, Takes (valueWithin depth) e.2.1 e.2.2) :
    Takes (valueWithin (depth + 1)) (objectText (entries.map fun e => (e.1, e.2.1)))
      (.object (entries.map fun e => (some e.1, e.2.2))) := by
  refine ⟨⟨'\x7b', rfl, by decide⟩, ?_⟩
  intro rest _
  have hmembers : ∀ e ∈ entries.map (fun e => (memberText e.1 e.2.1, (some e.1, e.2.2))),
      Takes (member (valueWithin depth)) e.1 e.2 := by
    rw [List.forall_mem_map]
    intro e he
    exact takes_member (hvalues e he) e.1
  obtain ⟨_, hrow⟩ := row_entries '\x7d' (by decide) (by decide) (by decide) (by decide)
    hmembers rest
  have htext : objectText (entries.map fun e => (e.1, e.2.1)) ++ rest =
      '\x7b' :: ([','].intercalate
        ((entries.map fun e => (memberText e.1 e.2.1, (some e.1, e.2.2))).map Prod.fst) ++
          '\x7d' :: rest) := by
    simp [objectText, Function.comp_def]
  rw [htext]
  refine ⟨by simp only [List.length_append, List.length_cons]; omega, ?_⟩
  rw [valueWithin, hrow]
  simp [Front.map, Front.afterOne, Front.widen, Function.comp_def]

/-! ### Whole texts -/

/-- A value that was written alone is the value of its text. -/
theorem ofText?_ofList {text : List Char} {value : Json}
    (h : ∀ depth, Takes (valueWithin (depth + 1)) text value) :
    ofText? (String.ofList text) = some value := by
  -- the depth that is left is the length of the text
  obtain ⟨c, tail, htext, _⟩ := (h 0).exists_cons
  have hlength : (String.ofList text).length = tail.length + 1 := by
    rw [htext, String.length_ofList, List.length_cons]
  have hstart : afterSpace (String.ofList text).toList = text ++ [] := by
    rw [String.toList_ofList, ← (h 0).afterSpace_eq [], List.append_nil]
  obtain ⟨front, hfront, hvalue, hrest⟩ := (h tail.length).read endsWord_nil hstart
  rw [ofText?, hlength, hfront]
  simp only [hvalue, hrest]
  rfl

theorem ofText?_array (entries : List (List Char × Json))
    (h : ∀ e ∈ entries, ∀ depth, Takes (valueWithin depth) e.1 e.2) :
    ofText? (String.ofList (arrayText (entries.map Prod.fst))) =
      some (.array (entries.map Prod.snd)) :=
  ofText?_ofList fun depth => takes_array fun e he => h e he depth

theorem ofText?_object (entries : List (String × List Char × Json))
    (h : ∀ e ∈ entries, ∀ depth, Takes (valueWithin depth) e.2.1 e.2.2) :
    ofText? (String.ofList (objectText (entries.map fun e => (e.1, e.2.1)))) =
      some (.object (entries.map fun e => (some e.1, e.2.2))) :=
  ofText?_ofList fun depth => takes_object fun e he => h e he depth

end EventCodec.Json
