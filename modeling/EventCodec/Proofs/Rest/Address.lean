import EventCodec.Proofs.Url.Path
import EventCodec.Rest.Client

/-! # Which subject a URL names

    The URLs of a subject are told apart by what the subject does as a
    segment and by nothing else (`subjects_told_apart`).  A subject
    without layout that is not one or two dots is a segment of its own, so
    its URLs are those of no other such subject.

    The others are not addressed as themselves.  Layout is lost, dots
    alone leave the collection of all subjects, and two dots with layout
    leave the collection as well and address what is beside it. -/

namespace EventCodec

open Url (Path Addition additionOf segmentOf openEnd withoutEmptyEnd IsWord slashed)

namespace Url

/-! ### Texts of URLs -/

/-- Everything before the path. -/
def siteText (u : Url) : String :=
  u.scheme.name ++ "://" ++ u.user.elim "" User.text ++ u.host.text ++
    u.portNumber.elim "" (fun n => ":" ++ toString n)

def queryText (u : Url) : String :=
  u.query.elim "" ("?" ++ ·)

theorem target_eq (u : Url) : u.target = u.siteText ++ (pathText u.path ++ u.queryText) := by
  rw [target, resourceText, ← siteText, String.append_assoc]
  rfl

/-- What a request for a URL names: all but the user. -/
def named (u : Url) : String :=
  u.takeUser.2.target

/-- Who signs in does not depend on what is asked for. -/
theorem takeUser_path_query (u : Url) (path : Path) (query : Option String) :
    ({ u with path, query } : Url).takeUser.2 = { u.takeUser.2 with path, query } := by
  unfold takeUser
  dsimp only
  split
  · rfl
  · split <;> rfl

theorem path_takeUser (u : Url) : u.takeUser.2.path = u.path := by
  have hpath := congrArg Url.path (u.takeUser_path_query u.path u.query)
  exact hpath

theorem query_takeUser (u : Url) : u.takeUser.2.query = u.query := by
  have hquery := congrArg Url.query (u.takeUser_path_query u.path u.query)
  exact hquery

theorem takeUser_append (u : Url) (segments : List String) :
    (u.append segments).takeUser.2 = u.takeUser.2.append segments := by
  show ({ u with path := appendSegments u.path segments, query := u.query } : Url).takeUser.2 = _
  rw [takeUser_path_query, append, path_takeUser, ← query_takeUser]

theorem named_append (u : Url) (segments : List String) :
    (u.append segments).named = (u.takeUser.2.append segments).target := by
  rw [named, takeUser_append]

theorem toList_named (u : Url) (h : u.path ≠ []) :
    u.named.toList = u.takeUser.2.siteText.toList ++ (slashed u.path ++ u.queryText.toList) := by
  rw [named, target_eq, String.toList_append, String.toList_append, path_takeUser,
    toList_pathText h, queryText, queryText, query_takeUser]

/-- With one path or another, a URL reads the same only if the paths do. -/
theorem target_append_eq_iff (u : Url) {segments other : List String}
    (h : appendSegments u.path segments ≠ []) (hother : appendSegments u.path other ≠ []) :
    (u.append segments).target = (u.append other).target ↔
      slashed (appendSegments u.path segments) = slashed (appendSegments u.path other) := by
  rw [target_eq, target_eq, ← toList_pathText h, ← toList_pathText hother]
  show u.siteText ++ (pathText (appendSegments u.path segments) ++ u.queryText) =
    u.siteText ++ (pathText (appendSegments u.path other) ++ u.queryText) ↔ _
  rw [← String.toList_inj]
  simp only [String.toList_append, List.append_cancel_left_eq, List.append_cancel_right_eq]

/-- No segment is longer than its URL. -/
theorem length_le_text {u : Url} {segment : String} (h : segment ∈ u.path) :
    segment.length ≤ u.text.utf8ByteSize := by
  obtain ⟨before, rest, hpath⟩ := List.append_of_mem h
  have hne : u.path ≠ [] := List.ne_nil_of_mem h
  have hlength : segment.length ≤ (pathText u.path).length := by
    rw [← String.length_toList, ← String.length_toList, toList_pathText hne, hpath, slashed_append,
      slashed_cons]
    simp only [List.length_append, List.length_cons]
    omega
  have htext := length_le_utf8ByteSize (pathText u.path)
  rw [text, target_eq]
  simp only [String.utf8ByteSize_append]
  omega

end Url

namespace Rest

/-! ### Paths of subjects -/

/-- The segments in front of those that a client adds. -/
def Client.site (c : Client) : Path :=
  openEnd (withoutEmptyEnd c.base.path)

/-- The segments of a subject, and what follows them, behind those of the
    base. -/
def subjectSegments (atRoot : Bool) (rest : List String) : Addition → List String
  | .nothing => "subjects" :: rest
  | .segment shown => "subjects" :: segmentOf shown :: rest
  | .removal => if atRoot && !rest.isEmpty then rest else "" :: rest

theorem isWord_subjects : IsWord "subjects" := ⟨by decide, by decide, by decide⟩

theorem isWord_versions : IsWord "versions" := ⟨by decide, by decide, by decide⟩

theorem isWord_latest : IsWord "latest" := ⟨by decide, by decide, by decide⟩

theorem openEnd_of_two (path : Path) (first second : String) :
    openEnd (path ++ [first, second]) = path ++ [first, second] := by
  refine if_neg ?_
  intro hroot
  have hlength := congrArg List.length hroot
  simp [Url.rootPath] at hlength

theorem appendSegments_subject (base : Path) (subject : String) {rest : List String}
    (hrest : ∀ w ∈ rest, IsWord w) :
    Url.appendSegments base ("subjects" :: subject :: rest) =
      openEnd (withoutEmptyEnd base) ++
        subjectSegments (openEnd (withoutEmptyEnd base)).isEmpty rest (additionOf subject) := by
  rw [Url.appendSegments, List.foldl_cons, List.foldl_cons, isWord_subjects.appendSegment,
    Url.foldl_appendSegment hrest, Url.appendSegment_eq]
  generalize openEnd (withoutEmptyEnd base) = site
  have hopen : openEnd (site ++ ["subjects"]) = site ++ ["subjects"] :=
    Url.openEnd_concat isWord_subjects.nonempty
  rw [hopen]
  cases additionOf subject with
  | nothing =>
    dsimp only [subjectSegments]
    rw [hopen]
    split
    · next hnone => rw [hnone]
    · rw [List.append_assoc]
      rfl
  | segment shown =>
    dsimp only [subjectSegments]
    rw [List.append_assoc, List.singleton_append, openEnd_of_two]
    split
    · next hnone => rw [hnone]
    · rw [List.append_assoc]
      rfl
  | removal =>
    -- the collection is no drive, so it goes
    have hgone : (Url.withoutLast (site ++ ["subjects"]).reverse).reverse = site := by
      rw [List.reverse_append, List.reverse_singleton, List.singleton_append, Url.withoutLast,
        if_neg (by decide), List.reverse_reverse]
    dsimp only [subjectSegments]
    rw [hgone]
    cases rest with
    | nil =>
      rw [if_pos rfl, List.isEmpty_nil, Bool.not_true, Bool.and_false]
      rfl
    | cons w rest =>
      rw [if_neg (List.cons_ne_nil w rest)]
      cases site with
      | nil => rfl
      | cons first site =>
        have hkept : openEnd (first :: site ++ [""]) = first :: site ++ [""] :=
          if_neg (by simp [Url.rootPath])
        rw [hkept, List.append_assoc]
        rfl

/-- The segments of a subject hold no slash. -/
theorem slash_not_mem_subjectSegments {atRoot : Bool} {rest : List String}
    (hrest : ∀ w ∈ rest, '/' ∉ w.toList) (addition : Addition) :
    ∀ segment ∈ subjectSegments atRoot rest addition, '/' ∉ segment.toList := by
  have hsubjects : '/' ∉ "subjects".toList := by decide
  cases addition with
  | nothing =>
    show ∀ segment ∈ "subjects" :: rest, '/' ∉ segment.toList
    exact List.forall_mem_cons.mpr ⟨hsubjects, hrest⟩
  | segment shown =>
    show ∀ segment ∈ "subjects" :: segmentOf shown :: rest, '/' ∉ segment.toList
    refine List.forall_mem_cons.mpr ⟨hsubjects, List.forall_mem_cons.mpr ⟨?_, hrest⟩⟩
    exact Url.slash_not_mem_segmentOf shown
  | removal =>
    dsimp only [subjectSegments]
    split
    · exact hrest
    · exact List.forall_mem_cons.mpr ⟨by simp, hrest⟩

/-- A subject that takes the collection away leaves other segments than
    one that leaves it alone. -/
theorem removal_ne {atRoot : Bool} {rest : List String} {b : Addition} (hb : b ≠ .removal) :
    subjectSegments atRoot rest .removal ≠ subjectSegments atRoot rest b := by
  intro h
  have hlength := congrArg List.length h
  have hhead := congrArg List.head? h
  cases b with
  | nothing =>
    -- as many segments, the first of them another, or one less
    dsimp only [subjectSegments] at hlength hhead
    split at hlength
    · simp at hlength
    · next hfew => simp [hfew] at hhead
  | segment shown =>
    dsimp only [subjectSegments] at hlength
    split at hlength
    · simp only [List.length_cons] at hlength
      omega
    · simp at hlength
  | removal => exact hb rfl

/-- What a subject does as a segment can be told from the segments. -/
theorem subjectSegments_injective {atRoot : Bool} {rest : List String} {a b : Addition}
    (h : subjectSegments atRoot rest a = subjectSegments atRoot rest b) : a = b := by
  by_cases ha : a = .removal
  · subst ha
    by_cases hb : b = .removal
    · exact hb.symm
    · exact absurd h (removal_ne hb)
  · by_cases hb : b = .removal
    · subst hb
      exact absurd h.symm (removal_ne ha)
    · cases a with
      | removal => exact absurd rfl ha
      | nothing =>
        cases b with
        | removal => exact absurd rfl hb
        | nothing => rfl
        | segment shown => simpa [subjectSegments] using congrArg List.length h
      | segment shown =>
        cases b with
        | removal => exact absurd rfl hb
        | nothing => simpa [subjectSegments] using congrArg List.length h
        | segment other =>
          have hsegments : segmentOf shown = segmentOf other := by
            simpa [subjectSegments] using h
          rw [Url.segmentOf_injective hsegments]

theorem subjectSegments_ne_nil {atRoot : Bool} {rest : List String} (a : Addition) :
    subjectSegments atRoot rest a ≠ [] := by
  cases a with
  | nothing => exact List.cons_ne_nil _ _
  | segment shown => exact List.cons_ne_nil _ _
  | removal =>
    dsimp only [subjectSegments]
    split
    · next hmany =>
      rintro rfl
      simp at hmany
    · exact List.cons_ne_nil _ _

/-- The URLs behind a base are the same for subjects that do the same as a
    segment. -/
theorem named_subject_eq_iff (base : Url) (s t : String) {rest : List String}
    (hrest : ∀ w ∈ rest, IsWord w) (hslash : ∀ w ∈ rest, '/' ∉ w.toList) :
    (base.append ("subjects" :: s :: rest)).named =
        (base.append ("subjects" :: t :: rest)).named ↔
      additionOf s = additionOf t := by
  rw [Url.named_append, Url.named_append]
  generalize base.takeUser.2 = base
  have hs := appendSegments_subject base.path s hrest
  have ht := appendSegments_subject base.path t hrest
  generalize openEnd (withoutEmptyEnd base.path) = site at hs ht
  have hsome (a : Addition) : site ++ subjectSegments site.isEmpty rest a ≠ [] :=
    List.append_ne_nil_of_right_ne_nil site (subjectSegments_ne_nil a)
  rw [Url.target_append_eq_iff base (by rw [hs]; exact hsome _) (by rw [ht]; exact hsome _), hs, ht,
    Url.slashed_append, Url.slashed_append, List.append_cancel_left_eq]
  constructor
  · intro h
    apply subjectSegments_injective
    exact Url.slashed_injective (slash_not_mem_subjectSegments hslash _)
      (slash_not_mem_subjectSegments hslash _) h
  · intro h
    rw [h]

/-- Dots alone are left out, so that they address all subjects. -/
theorem append_subjects (base : Url) :
    base.append ["subjects"] = base.append ["subjects", "."] :=
  rfl

/-! ### Subjects without layout -/

/-- A subject that is a segment of its own. -/
structure IsPlain (subject : String) : Prop where
  noLayout : ∀ c ∈ subject.toList, Url.isLayout c = false
  notDot : subject ≠ "."
  notDots : subject ≠ ".."

namespace IsPlain

variable {subject : String}

theorem additionOf_eq (h : IsPlain subject) : additionOf subject = .segment subject.toList :=
  Url.additionOf_of_noLayout h.noLayout h.notDot h.notDots

theorem path_append (h : IsPlain subject) (c : Client) {rest : List String}
    (hrest : ∀ w ∈ rest, IsWord w) :
    (c.base.append ("subjects" :: subject :: rest)).path =
      c.site ++ "subjects" :: segmentOf subject.toList :: rest := by
  show Url.appendSegments c.base.path ("subjects" :: subject :: rest) = _
  rw [appendSegments_subject c.base.path subject hrest, h.additionOf_eq]
  rfl

end IsPlain

/-! ### Main result -/

theorem isWord_after {words : List String} (h : words ⊆ ["versions", "latest"]) :
    ∀ w ∈ words, IsWord w := by
  intro w hw
  have hmem := h hw
  simp only [List.mem_cons, List.not_mem_nil, or_false] at hmem
  rcases hmem with rfl | rfl
  · exact isWord_versions
  · exact isWord_latest

/-- Requests about two subjects name the same URL if and only if both do
    the same as a segment, and a deletion names all subjects if and only if
    its subject does nothing.  A plain subject is one segment behind the
    path of the base that is read back as the subject, and other plain
    subjects are other segments. -/
theorem subjects_told_apart (c : Client) :
    (∀ s t : String,
      ((c.registerUrl s).named = (c.registerUrl t).named ↔ additionOf s = additionOf t) ∧
      ((c.latestUrl s).named = (c.latestUrl t).named ↔ additionOf s = additionOf t) ∧
      ((c.subjectUrl s).named = (c.subjectUrl t).named ↔ additionOf s = additionOf t) ∧
      (((c.subjectUrl s).addQuery "permanent" "true").named =
          ((c.subjectUrl t).addQuery "permanent" "true").named ↔
        additionOf s = additionOf t) ∧
      ((c.subjectUrl s).named = c.subjectsUrl.named ↔ additionOf s = .nothing)) ∧
    (∀ s : String, IsPlain s →
      (c.registerUrl s).path = c.site ++ ["subjects", segmentOf s.toList, "versions"] ∧
      (c.latestUrl s).path = c.site ++ ["subjects", segmentOf s.toList, "versions", "latest"] ∧
      (c.subjectUrl s).path = c.site ++ ["subjects", segmentOf s.toList] ∧
      Url.decodeText? (segmentOf s.toList) = some s ∧
      additionOf s ≠ .nothing ∧
      ∀ t : String, IsPlain t → (additionOf s = additionOf t ↔ s = t)) := by
  have hversions : ∀ w ∈ ["versions"], IsWord w := isWord_after (by simp)
  have hlatest : ∀ w ∈ ["versions", "latest"], IsWord w := isWord_after (by simp)
  have hnone : ∀ w ∈ ([] : List String), IsWord w := isWord_after (by simp)
  constructor
  · intro s t
    refine ⟨?_, ?_, ?_, ?_, ?_⟩
    · exact named_subject_eq_iff c.base s t hversions (by decide)
    · exact named_subject_eq_iff c.base s t hlatest (by decide)
    · exact named_subject_eq_iff c.base s t hnone (by decide)
    · exact named_subject_eq_iff (c.base.addQuery "permanent" "true") s t hnone (by decide)
    · rw [Client.subjectsUrl, append_subjects]
      exact named_subject_eq_iff c.base s "." hnone (by decide)
  · intro s hs
    refine ⟨?_, ?_, ?_, ?_, ?_, ?_⟩
    · exact hs.path_append c hversions
    · exact hs.path_append c hlatest
    · exact hs.path_append c hnone
    · rw [Url.decodeText?_segmentOf, String.ofList_toList]
    · rw [hs.additionOf_eq]
      exact nofun
    · intro t ht
      rw [hs.additionOf_eq, ht.additionOf_eq, Addition.segment.injEq, String.toList_inj]

/-- Two subjects of which only one ends in a tab are deleted under one URL,
    and the deletion of one dot names all subjects. -/
theorem not_told_apart : ∃ c : Client,
    (∀ names, Client.ofConfigBy names (Config.ofUrl "http://[::1]:8081") = .ok c) ∧
    (c.subjectUrl "a\t").named = (c.subjectUrl "a").named ∧
    (c.registerUrl "a\t").named = (c.registerUrl "a").named ∧
    (c.latestUrl "a\t").named = (c.latestUrl "a").named ∧
    (c.subjectUrl ".").named = c.subjectsUrl.named := by
  refine ⟨⟨Config.ofUrl "http://[::1]:8081", ?_⟩, ?_, ?_⟩
  · exact {
      scheme := .http, user := none, host := .ipv6 [0, 0, 0, 0, 0, 0, 0, 1]
      portNumber := some 8081, path := [""], query := none, fragment := none }
  · exact fun _ => rfl
  · decide

end Rest

end EventCodec
