import EventCodec.Proofs.Url.Percent

/-! # Where a segment goes that is added to a path

    A segment is added in an encoded form that is no dot unless it is one
    (`isDot_segmentOf`, `isDoubleDot_segmentOf`) and holds no slash, so
    that it stays one segment and is read back as it was.

    Three kinds of text do something else.  One or two dots alone add
    nothing.  A text that becomes one dot without its layout adds an empty
    segment.  And one that becomes two dots takes the segment before it
    away (`appendSegment_eq`). -/

namespace EventCodec.Url

/-! ### Segments in their encoded form -/

theorem segmentOf_injective {text other : List Char} (h : segmentOf text = segmentOf other) :
    text = other :=
  encode_injective isReadable_segment (String.ofList_injective h)

/-- A segment is read as the text it was made of. -/
theorem decodeText?_segmentOf (text : List Char) :
    decodeText? (segmentOf text) = some (String.ofList text) :=
  decodeText?_encode isReadable_segment text

/-- A text whose encoded form stands for another text is that text. -/
theorem eq_of_segmentOf {text other : List Char} {form : String} (h : segmentOf text = form)
    (hread : decodeText? form = some (String.ofList other)) : text = other := by
  rw [← h, decodeText?_segmentOf] at hread
  exact String.ofList_injective (Option.some.inj hread)

theorem isDot_segmentOf (text : List Char) : isDot (segmentOf text) = true ↔ text = ['.'] := by
  constructor
  · intro hdot
    simp only [isDot, List.contains_iff_mem, List.mem_cons, List.not_mem_nil, or_false] at hdot
    rcases hdot with hform | hform | hform
    all_goals exact eq_of_segmentOf hform (by decide)
  · rintro rfl
    decide

theorem isDoubleDot_segmentOf (text : List Char) :
    isDoubleDot (segmentOf text) = true ↔ text = ['.', '.'] := by
  constructor
  · intro hdots
    simp only [isDoubleDot, List.contains_iff_mem, List.mem_cons, List.not_mem_nil, or_false]
      at hdots
    rcases hdots with hform | hform | hform | hform | hform | hform | hform | hform | hform
    all_goals exact eq_of_segmentOf hform (by decide)
  · rintro rfl
    decide

/-- A refused character is not in an encoded segment, unless it marks or
    is a digit of an encoded byte. -/
theorem not_mem_segmentOf {mark : Char} (hrefused : isRefusedInSegment mark = true)
    (hpercent : mark ≠ '%') (hdigit : ∀ n : Fin 16, mark ≠ upperDigit (UInt8.ofNat n))
    (text : List Char) : mark ∉ (segmentOf text).toList := by
  rw [segmentOf, String.toList_ofList, encode, List.mem_flatMap]
  rintro ⟨c, -, hmem⟩
  split at hmem
  · obtain ⟨b, -, hbyte⟩ := List.mem_flatMap.mp hmem
    have hhigh := forall_digit (P := fun n => mark ≠ upperDigit n) hdigit (highDigit_lt b)
    have hlow := forall_digit (P := fun n => mark ≠ upperDigit n) hdigit (lowDigit_lt b)
    simp [encodeByte, hpercent, hhigh, hlow] at hbyte
  · next hkept =>
    obtain rfl := List.mem_singleton.mp hmem
    exact absurd hrefused hkept

theorem slash_not_mem_segmentOf (text : List Char) : '/' ∉ (segmentOf text).toList :=
  not_mem_segmentOf (by decide) (by decide) (by decide) text

theorem question_not_mem_segmentOf (text : List Char) : '?' ∉ (segmentOf text).toList :=
  not_mem_segmentOf (by decide) (by decide) (by decide) text

/-! ### Adding one segment -/

/-- What becomes of a segment that is added. -/
inductive Addition where
  /-- It is left out. -/
  | nothing
  /-- It is the last segment, and is read back as this text. -/
  | segment (text : List Char)
  /-- It takes the segment before it away. -/
  | removal
deriving DecidableEq

/-- What a text does as a segment. -/
def additionOf (text : String) : Addition :=
  if text = "." ∨ text = ".." then .nothing
  else
    let shown := text.toList.filter (!isLayout ·)
    if shown = ['.', '.'] then .removal
    else if shown = ['.'] then .segment []
    else .segment shown

/-- A text without layout is a segment of its own, unless it is dots. -/
theorem additionOf_of_noLayout {text : String} (hlayout : ∀ c ∈ text.toList, isLayout c = false)
    (hdot : text ≠ ".") (hdots : text ≠ "..") : additionOf text = .segment text.toList := by
  have hshown : text.toList.filter (!isLayout ·) = text.toList := by
    rw [List.filter_eq_self]
    intro c hc
    rw [hlayout c hc]
    rfl
  have hlone : text.toList ≠ ['.'] := fun heq => hdot (String.toList_inj.mp heq)
  have hpair : text.toList ≠ ['.', '.'] := fun heq => hdots (String.toList_inj.mp heq)
  rw [additionOf, if_neg (not_or.mpr ⟨hdot, hdots⟩), hshown]
  dsimp only
  rw [if_neg hpair, if_neg hlone]

/-- The path without its end, as far as something can be added to it. -/
def openEnd (path : Path) : Path :=
  if path = rootPath then [] else path

theorem resolve_doubleDot {segment : String} (hdots : isDoubleDot segment = true) (path : Path) :
    resolve path [segment] = (withoutLast path.reverse).reverse ++ [""] := by
  simp [resolve, resolveFrom, hdots]

theorem resolve_dot {segment : String} (hdot : isDot segment = true)
    (hdots : isDoubleDot segment = false) (path : Path) :
    resolve path [segment] = path ++ [""] := by
  simp [resolve, resolveFrom, hdot, hdots]

theorem resolve_segment {segment : String} (hdot : isDot segment = false)
    (hdots : isDoubleDot segment = false) (path : Path) :
    resolve path [segment] = path ++ [segment] := by
  simp [resolve, resolveFrom, hdot, hdots]

theorem appendSegment_eq (path : Path) (text : String) :
    appendSegment path text =
      match additionOf text with
      | .nothing => path
      | .segment shown => openEnd path ++ [segmentOf shown]
      | .removal => (withoutLast (openEnd path).reverse).reverse ++ [""] := by
  unfold appendSegment additionOf
  by_cases hnothing : text = "." ∨ text = ".."
  · rw [if_pos (by simpa using hnothing), if_pos hnothing]
  · rw [if_neg (by simpa using hnothing), if_neg hnothing, ← openEnd]
    dsimp only
    -- the form of what is left without layout decides
    have hdot := isDot_segmentOf (text.toList.filter (!isLayout ·))
    have hdots := isDoubleDot_segmentOf (text.toList.filter (!isLayout ·))
    generalize text.toList.filter (!isLayout ·) = shown at hdot hdots ⊢
    by_cases hremoval : shown = ['.', '.']
    · rw [if_pos hremoval, resolve_doubleDot (hdots.mpr hremoval)]
    · have hkept : isDoubleDot (segmentOf shown) = false := by simpa [hremoval] using hdots
      rw [if_neg hremoval]
      by_cases hempty : shown = ['.']
      · rw [if_pos hempty, resolve_dot (hdot.mpr hempty) hkept]
        rfl
      · rw [if_neg hempty, resolve_segment (by simpa [hempty] using hdot) hkept]

/-! ### Adding words -/

/-- A word of a path that means itself. -/
structure IsWord (word : String) : Prop where
  addition : additionOf word = .segment word.toList
  encoded : segmentOf word.toList = word
  nonempty : word ≠ ""

theorem isRefused_of_isLayout {c : Char} (h : isLayout c = true) : isRefusedInSegment c = true := by
  simp only [isLayout, Bool.or_eq_true, beq_iff_eq] at h
  rcases h with (rfl | rfl) | rfl <;> decide

/-- A word is kept as it is where no character of it is refused and none
    is a dot. -/
theorem isWord_of_kept {word : String} (hkept : ∀ c ∈ word.toList, isRefusedInSegment c = false)
    (hdot : '.' ∉ word.toList) (hne : word ≠ "") : IsWord word where
  addition := by
    refine additionOf_of_noLayout ?_ ?_ ?_
    · intro c hc
      rw [Bool.eq_false_iff]
      intro hlayout
      exact Bool.false_ne_true ((hkept c hc).symm.trans (isRefused_of_isLayout hlayout))
    · rintro rfl
      exact hdot (by decide)
    · rintro rfl
      exact hdot (by decide)
  encoded := by
    have hsame : ∀ text : List Char, (∀ c ∈ text, isRefusedInSegment c = false) →
        encode isRefusedInSegment text = text := by
      intro text htext
      induction text with
      | nil => rfl
      | cons c text ih =>
        obtain ⟨hc, htext⟩ := List.forall_mem_cons.mp htext
        rw [encode, List.flatMap_cons, ← encode, ih htext, hc]
        rfl
    rw [segmentOf, hsame _ hkept, String.ofList_toList]
  nonempty := hne

theorem IsWord.appendSegment {word : String} (h : IsWord word) (path : Path) :
    appendSegment path word = openEnd path ++ [word] := by
  rw [appendSegment_eq, h.addition]
  show openEnd path ++ [segmentOf word.toList] = openEnd path ++ [word]
  rw [h.encoded]

/-- A path whose last segment is not empty is open. -/
theorem openEnd_concat {path : Path} {segment : String} (h : segment ≠ "") :
    openEnd (path ++ [segment]) = path ++ [segment] := by
  refine if_neg ?_
  intro hroot
  have hlast := congrArg List.getLast? hroot
  rw [List.getLast?_concat] at hlast
  exact h (Option.some.inj hlast)

theorem foldl_appendSegment {words : List String} (h : ∀ w ∈ words, IsWord w) (path : Path) :
    words.foldl Url.appendSegment path = if words = [] then path else openEnd path ++ words := by
  induction words generalizing path with
  | nil => rfl
  | cons w rest ih =>
    have hw : IsWord w := h w List.mem_cons_self
    rw [List.foldl_cons, hw.appendSegment, ih fun v hv => h v (List.mem_cons_of_mem w hv)]
    rw [openEnd_concat hw.nonempty, if_neg (List.cons_ne_nil w rest)]
    split
    · next hrest => rw [hrest]
    · rw [List.append_assoc]
      rfl

/-! ### Paths as text -/

/-- The characters of a path: each segment with a slash in front. -/
def slashed (path : Path) : List Char :=
  path.flatMap fun segment => '/' :: segment.toList

theorem slashed_cons (segment : String) (rest : Path) :
    slashed (segment :: rest) = '/' :: (segment.toList ++ slashed rest) := by
  rw [slashed, List.flatMap_cons]
  rfl

theorem slashed_append (path other : Path) : slashed (path ++ other) = slashed path ++ slashed other :=
  List.flatMap_append

theorem toList_pathText {path : Path} (h : path ≠ []) : (pathText path).toList = slashed path := by
  have hjoin : ∀ (segment : String) (rest : Path),
      ['/'].intercalate ((segment :: rest).map String.toList) = segment.toList ++ slashed rest := by
    intro segment rest
    induction rest generalizing segment with
    | nil => simp [slashed]
    | cons next rest ih =>
      rw [List.map_cons, List.map_cons, List.intercalate_cons_cons, ← List.map_cons, ih next,
        slashed_cons]
      simp
  cases path with
  | nil => contradiction
  | cons segment rest =>
    rw [pathText, String.toList_append, String.toList_intercalate, slashed_cons]
    exact congrArg ('/' :: ·) (hjoin segment rest)

theorem piecesFrom_append {separator : Char} {word : List Char} (h : separator ∉ word)
    (before : List (List Char)) (piece rest : List Char) :
    Domain.piecesFrom separator before piece (word ++ rest) =
      Domain.piecesFrom separator before (word.reverse ++ piece) rest := by
  induction word generalizing piece with
  | nil => rfl
  | cons c word ih =>
    rw [List.mem_cons, not_or] at h
    obtain ⟨hc, hword⟩ := h
    rw [List.cons_append, Domain.piecesFrom, if_neg (Ne.symm hc), ih hword, List.reverse_cons,
      List.append_assoc]
    rfl

/-- What stands between the slashes of a path are its segments. -/
theorem piecesFrom_slashed {word : List Char} {rest : Path} (hword : '/' ∉ word)
    (hrest : ∀ s ∈ rest, '/' ∉ s.toList) (before : List (List Char)) :
    Domain.piecesFrom '/' before [] (word ++ slashed rest) =
      before.reverse ++ word :: rest.map String.toList := by
  induction rest generalizing word before with
  | nil =>
    rw [piecesFrom_append hword]
    simp [slashed, Domain.piecesFrom]
  | cons segment rest ih =>
    obtain ⟨hsegment, hrest⟩ := List.forall_mem_cons.mp hrest
    rw [piecesFrom_append hword, slashed_cons, Domain.piecesFrom, if_pos rfl, ih hsegment hrest]
    simp

/-- Where segments hold no slash, a path is told by its text. -/
theorem slashed_injective {path other : Path} (hpath : ∀ s ∈ path, '/' ∉ s.toList)
    (hother : ∀ s ∈ other, '/' ∉ s.toList) (h : slashed path = slashed other) : path = other := by
  -- both are the pieces between the slashes of the same text
  have hpieces := piecesFrom_slashed (List.not_mem_nil (a := '/')) hpath []
  rw [h, piecesFrom_slashed List.not_mem_nil hother] at hpieces
  have hsegments : other.map String.toList = path.map String.toList := by simpa using hpieces
  exact ((List.map_inj_right fun _ _ => String.toList_inj.mp).mp hsegments).symm

end EventCodec.Url
