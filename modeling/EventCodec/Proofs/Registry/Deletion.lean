import EventCodec.Proofs.Codec.Expiry
import EventCodec.Proofs.Registry.Overrun
import Mathlib.Data.List.Nodup
import Mathlib.Data.List.Perm.Subperm

/-! # Deleting removes exactly one subject

    A deletion forgets the subject and those of its schemas that no other
    subject refers to (`Memory.Frees`).  Nothing else is touched, so that
    the other subjects and whoever reads their schemas do not notice
    (`Memory.IsWithout`).

    That nothing is left behind needs every schema to have a subject.
    All requests keep that, also beyond the point where the counter of IDs
    runs over (`isTidy_run`).  What two deletions forget does not depend
    on which of them comes first: an ID that both subjects share, and no
    other, goes with the second one (`frees_or_frees`). -/

namespace EventCodec

open Schema
open Registry (Request)

attribute [ext] Memory

namespace Memory

variable {m m' : Memory} {subject other text : String} {id : UInt32} {versions : List UInt32}

/-! ### Every schema has a subject -/

theorem isTidy_empty : empty.IsTidy :=
  isConsistent_empty.isTidy

/-- Giving a text its ID makes no other ID live. -/
theorem text?_assign_cases {t : String} (h : (m.assign text).2.text? id = some t) :
    id = (m.assign text).1 ∨ m.text? id = some t := by
  unfold assign at h ⊢
  cases hid : m.id? text with
  | some _ =>
    rw [hid] at h
    exact .inr h
  | none =>
    rw [hid] at h
    have hstored : (m.store text).text? id = some t := h
    rw [text?_store] at hstored
    split at hstored
    · next hnext => exact .inl hnext
    · exact .inr hstored

theorem IsTidy.register (h : m.IsTidy) (subject : String) (d : Descriptor) :
    (m.register subject d).2.IsTidy := by
  rcases m.register_cases subject d with ⟨_, -, -, heq⟩ | ⟨e, -, heq⟩ | ⟨-, -, heq⟩
  · rw [heq]; exact h
  · rw [heq]; exact h
  · rw [heq]
    exact h.setVersions (fun _ _ => text?_assign_cases) subjects_assign

theorem IsTidy.delete (h : m.IsTidy) (subject : String) : (m.delete subject).2.IsTidy := by
  unfold Memory.delete
  cases hversions : m.versions? subject with
  | none => exact h
  | some versions => exact h.without hversions

theorem IsTidy.perform (h : m.IsTidy) (request : Request) : (m.perform request).2.IsTidy := by
  cases request with
  | register subject d => exact h.register subject d
  | delete subject => exact h.delete subject
  | fetch | latest | subjects => exact h

/-! ### What a deletion forgets -/

/-- No other subject refers to this version of the subject. -/
def Frees (m : Memory) (subject : String) (id : UInt32) : Prop :=
  id ∈ m.versionsOf subject ∧ (m.dropSubject subject).isReferenced id = false

instance : Decidable (m.Frees subject id) :=
  inferInstanceAs (Decidable (_ ∧ _))

/-- The text of such a version. -/
def FreesText (m : Memory) (subject text : String) : Prop :=
  ∃ id ∈ m.versionsOf subject,
    (m.dropSubject subject).isReferenced id = false ∧ m.text? id = some text

instance : Decidable (m.FreesText subject text) :=
  inferInstanceAs (Decidable (∃ id ∈ _, _))

theorem freesText_iff : m.FreesText subject text ↔ ∃ id, m.Frees subject id ∧ m.text? id = some text := by
  simp only [FreesText, Frees, and_assoc]

theorem versionsOf_of_versions? (h : m.versions? subject = some versions) :
    m.versionsOf subject = versions := by
  rw [versionsOf, h]
  rfl

theorem versionsOf_dropSubject (hne : other ≠ subject) :
    (m.dropSubject subject).versionsOf other = m.versionsOf other := by
  rw [versionsOf, versions?_dropSubject, if_neg hne, versionsOf]

theorem versionsOf_dropSubject_self : (m.dropSubject subject).versionsOf subject = [] := by
  rw [versionsOf, versions?_dropSubject, if_pos rfl]
  rfl

/-- Somebody refers to an ID if it is a version of some subject. -/
theorem isReferenced_iff_mem (h : Ordered.IsSorted m.subjects) :
    m.isReferenced id = true ↔ ∃ subject, id ∈ m.versionsOf subject := by
  rw [isReferenced_iff h]
  constructor
  · rintro ⟨subject, versions, hversions, hmem⟩
    exact ⟨subject, (versionsOf_of_versions? hversions).symm ▸ hmem⟩
  · rintro ⟨subject, hmem⟩
    cases hversions : m.versions? subject with
    | none =>
      rw [versionsOf, hversions] at hmem
      contradiction
    | some versions => exact ⟨subject, versions, hversions, versionsOf_of_versions? hversions ▸ hmem⟩

theorem frees_iff (h : Ordered.IsSorted m.subjects) :
    m.Frees subject id ↔
      id ∈ m.versionsOf subject ∧ ∀ other, other ≠ subject → id ∉ m.versionsOf other := by
  have hdropped : Ordered.IsSorted (m.dropSubject subject).subjects := h.erase
  unfold Frees
  rw [← Bool.not_eq_true, isReferenced_iff_mem hdropped, not_exists]
  apply and_congr_right
  intro _
  constructor
  · intro hfree other hother
    rw [← versionsOf_dropSubject hother]
    exact hfree other
  · intro hfree other
    by_cases hother : other = subject
    · rw [hother, versionsOf_dropSubject_self]
      exact List.not_mem_nil
    · rw [versionsOf_dropSubject hother]
      exact hfree other hother

/-! ### What is left -/

/-- A subject that is not there has no versions to release. -/
theorem delete_eq_without : (m.delete subject).2 = m.without subject (m.versionsOf subject) := by
  unfold delete versionsOf
  cases hversions : m.versions? subject with
  | some versions => rfl
  | none =>
    have hsame : Ordered.erase subject m.subjects = m.subjects := Table.erase_eq_self hversions
    show m = m.dropSubject subject
    rw [dropSubject, hsame]

theorem subjects_delete : (m.delete subject).2.subjects = Ordered.erase subject m.subjects := by
  rw [delete_eq_without]
  exact subjects_releaseAll _ _

theorem versions?_delete (other : String) :
    (m.delete subject).2.versions? other = if other = subject then none else m.versions? other := by
  rw [versions?, subjects_delete]
  exact Ordered.get?_erase other

theorem versionsOf_delete_self : (m.delete subject).2.versionsOf subject = [] := by
  rw [versionsOf, versions?_delete, if_pos rfl]
  rfl

theorem text?_delete (id : UInt32) :
    (m.delete subject).2.text? id = if m.Frees subject id then none else m.text? id := by
  rw [delete_eq_without]
  exact text?_releaseAll _ _ id

theorem subjectNames_delete :
    (m.delete subject).2.subjectNames = m.subjectNames.filter (· != subject) := by
  rw [subjectNames, subjects_delete, subjectNames, List.filter_map]
  rfl

theorem schemas_release :
    (m.release id).schemas =
      m.schemas.filter fun e => ¬ (e.1 = id ∧ m.isReferenced id = false) := by
  unfold release
  cases hreferenced : m.isReferenced id with
  | true => simp
  | false =>
    simp only [Bool.false_eq_true, if_false, and_true]
    cases htext : m.text? id with
    | some t => exact Table.erase_eq_filter
    | none =>
      -- there is nothing to forget
      have hsame : Table.erase id m.schemas = m.schemas := Table.erase_eq_self htext
      rw [← Table.erase_eq_filter, hsame]

theorem schemas_releaseAll (ids : List UInt32) (m : Memory) :
    (ids.foldl Memory.release m).schemas =
      m.schemas.filter fun e => ¬ (e.1 ∈ ids ∧ m.isReferenced e.1 = false) := by
  induction ids generalizing m with
  | nil => simp
  | cons id ids ih =>
    rw [List.foldl_cons, ih, schemas_release, List.filter_filter]
    apply List.filter_congr
    intro e _
    rw [isReferenced_release]
    by_cases he : e.1 = id
    · cases hreferenced : m.isReferenced id <;> simp [he, hreferenced]
    · simp [he]

theorem ids_release :
    (m.release id).ids =
      m.ids.filter fun e => ¬ (m.isReferenced id = false ∧ m.text? id = some e.1) := by
  unfold release
  cases hreferenced : m.isReferenced id with
  | true => simp
  | false =>
    cases htext : m.text? id with
    | some t =>
      simp only [Bool.false_eq_true, if_false, true_and, Option.some.injEq, eq_comm (a := t)]
      exact Table.erase_eq_filter
    | none => simp

theorem ids_releaseAll (ids : List UInt32) (m : Memory) :
    (ids.foldl Memory.release m).ids =
      m.ids.filter fun e => ¬ ∃ id ∈ ids, m.isReferenced id = false ∧ m.text? id = some e.1 := by
  induction ids generalizing m with
  | nil => simp
  | cons id ids ih =>
    rw [List.foldl_cons, ih, ids_release, List.filter_filter]
    apply List.filter_congr
    intro e _
    rw [Bool.eq_iff_iff]
    simp only [isReferenced_release, text?_release, Bool.and_eq_true, decide_eq_true_eq]
    rw [← not_or, not_iff_not]
    constructor
    · rintro (⟨other, hmem, hfree, htext⟩ | ⟨hfree, htext⟩)
      · split at htext
        · contradiction
        · exact ⟨other, List.mem_cons_of_mem _ hmem, hfree, htext⟩
      · exact ⟨id, List.mem_cons_self, hfree, htext⟩
    · rintro ⟨other, hmem, hfree, htext⟩
      -- the text goes with the first ID that it has
      by_cases hother : other = id
      · exact .inr ⟨hother ▸ hfree, hother ▸ htext⟩
      · refine .inl ⟨other, List.mem_of_ne_of_mem hother hmem, hfree, ?_⟩
        rw [if_neg fun h => hother h.1]
        exact htext

theorem schemas_delete :
    (m.delete subject).2.schemas = m.schemas.filter fun e => ¬ m.Frees subject e.1 := by
  rw [delete_eq_without]
  exact schemas_releaseAll _ _

theorem ids_delete :
    (m.delete subject).2.ids = m.ids.filter fun e => ¬ m.FreesText subject e.1 := by
  rw [delete_eq_without]
  exact ids_releaseAll _ _

/-! ### Two deletions -/

/-- Two deletions free what no third subject refers to. -/
theorem frees_or_frees (h : m.IsTidy) (hne : other ≠ subject) :
    (m.Frees subject id ∨ (m.delete subject).2.Frees other id) ↔
      (id ∈ m.versionsOf subject ∨ id ∈ m.versionsOf other) ∧
        ∀ third, third ≠ subject → third ≠ other → id ∉ m.versionsOf third := by
  rw [frees_iff h.sorted, frees_iff (h.delete subject).sorted, versionsOf_delete hne]
  constructor
  · rintro (⟨hmem, hfree⟩ | ⟨hmem, hfree⟩)
    · exact ⟨.inl hmem, fun third hthird _ => hfree third hthird⟩
    · refine ⟨.inr hmem, ?_⟩
      intro third hsubject hother
      rw [← versionsOf_delete hsubject]
      exact hfree third hother
  · rintro ⟨hmem, hfree⟩
    by_cases hother : id ∈ m.versionsOf other
    · -- the first deletion has left the ID to the second
      refine .inr ⟨hother, ?_⟩
      intro third hthird
      by_cases hsubject : third = subject
      · rw [hsubject, versionsOf_delete_self]
        exact List.not_mem_nil
      · rw [versionsOf_delete hsubject]
        exact hfree third hsubject hthird
    · refine .inl ⟨hmem.resolve_right hother, ?_⟩
      intro third hthird
      by_cases hthird' : third = other
      · rw [hthird']
        exact hother
      · exact hfree third hthird hthird'

theorem frees_comm (h : m.IsTidy) (hne : other ≠ subject) :
    (m.Frees subject id ∨ (m.delete subject).2.Frees other id) ↔
      (m.Frees other id ∨ (m.delete other).2.Frees subject id) := by
  rw [frees_or_frees h hne, frees_or_frees h hne.symm, or_comm]
  apply and_congr_right
  intro _
  exact ⟨fun hfree third ho hs => hfree third hs ho, fun hfree third hs ho => hfree third ho hs⟩

/-- What is freed by the second deletion had its text before the first. -/
theorem freesText_or_freesText :
    (m.FreesText subject text ∨ (m.delete subject).2.FreesText other text) ↔
      ∃ id, (m.Frees subject id ∨ (m.delete subject).2.Frees other id) ∧
        m.text? id = some text := by
  simp only [freesText_iff, text?_delete]
  constructor
  · rintro (⟨id, hfrees, htext⟩ | ⟨id, hfrees, htext⟩)
    · exact ⟨id, .inl hfrees, htext⟩
    · split at htext
      · contradiction
      · exact ⟨id, .inr hfrees, htext⟩
  · rintro ⟨id, hfrees, htext⟩
    by_cases hfirst : m.Frees subject id
    · exact .inl ⟨id, hfirst, htext⟩
    · exact .inr ⟨id, hfrees.resolve_left hfirst, (if_neg hfirst).trans htext⟩

/-- It does not matter which of two subjects is deleted first. -/
theorem IsTidy.delete_comm (h : m.IsTidy) (hne : other ≠ subject) :
    ((m.delete subject).2.delete other).2 = ((m.delete other).2.delete subject).2 := by
  have hnext : ((m.delete subject).2.delete other).2.nextId =
      ((m.delete other).2.delete subject).2.nextId := by
    simp only [nextId_delete]
  have hschemas : ((m.delete subject).2.delete other).2.schemas =
      ((m.delete other).2.delete subject).2.schemas := by
    simp only [schemas_delete, List.filter_filter]
    apply List.filter_congr
    intro e _
    rw [Bool.eq_iff_iff, Bool.and_eq_true, Bool.and_eq_true]
    simp only [decide_eq_true_eq]
    rw [and_comm, ← not_or, and_comm, ← not_or, frees_comm h hne]
  have hids : ((m.delete subject).2.delete other).2.ids =
      ((m.delete other).2.delete subject).2.ids := by
    simp only [ids_delete, List.filter_filter]
    apply List.filter_congr
    intro e _
    rw [Bool.eq_iff_iff, Bool.and_eq_true, Bool.and_eq_true]
    simp only [decide_eq_true_eq]
    rw [and_comm, ← not_or, and_comm, ← not_or, freesText_or_freesText, freesText_or_freesText]
    simp only [frees_comm h hne]
  have hsubjects : ((m.delete subject).2.delete other).2.subjects =
      ((m.delete other).2.delete subject).2.subjects := by
    simp only [subjects_delete, Ordered.erase, List.filter_filter]
    apply List.filter_congr
    intro e _
    exact Bool.and_comm _ _
  exact Memory.ext hnext hschemas hids hsubjects

/-! ### A subject and nothing else -/

/-- The second memory is the first without a subject. -/
structure IsWithout (m m' : Memory) (subject : String) : Prop where
  gone : subject ∉ m'.subjectNames
  latest : m'.latest subject = .error (.subjectNotFound subject)
  /-- The other subjects are as they were. -/
  others : ∀ other, other ≠ subject →
    m'.versions? other = m.versions? other ∧ m'.latest other = m.latest other ∧
      (other ∈ m'.subjectNames ↔ other ∈ m.subjectNames)
  /-- What another subject refers to is still there. -/
  kept : ∀ id other, other ≠ subject → id ∈ m.versionsOf other → m'.fetch id = m.fetch id
  /-- Nothing else is. -/
  forgotten : ∀ id, (∀ other, other ≠ subject → id ∉ m.versionsOf other) →
    m'.fetch id = .error (.schemaNotFound id)

theorem fetch_congr (h : m'.text? id = m.text? id) : m'.fetch id = m.fetch id := by
  rw [fetch, h, fetch]

/-- The newest version is looked at, and it is among the versions. -/
theorem latest_congr (hversions : m'.versions? subject = m.versions? subject)
    (hkept : ∀ id ∈ m.versionsOf subject, m'.text? id = m.text? id) :
    m'.latest subject = m.latest subject := by
  unfold latest
  rw [hversions]
  cases hfound : m.versions? subject with
  | none => rfl
  | some versions =>
    cases hlast : versions.getLast? with
    | none => simp only [hlast]
    | some id =>
      have hmem : id ∈ m.versionsOf subject :=
        (versionsOf_of_versions? hfound).symm ▸ List.mem_of_getLast? hlast
      simp only [hlast, hkept id hmem]

/-- An ID that another subject refers to is not freed. -/
theorem text?_delete_of_mem (h : m.IsTidy) (hne : other ≠ subject)
    (hmem : id ∈ m.versionsOf other) : (m.delete subject).2.text? id = m.text? id := by
  have hkept : ¬ m.Frees subject id := by
    intro hfrees
    exact ((frees_iff h.sorted).mp hfrees).2 other hne hmem
  rw [text?_delete, if_neg hkept]

theorem IsTidy.isWithout_delete (h : m.IsTidy) (subject : String) :
    m.IsWithout (m.delete subject).2 subject where
  gone := by
    rw [subjectNames_delete, List.mem_filter]
    intro hmem
    simp at hmem
  latest := by
    have hgone : (m.delete subject).2.versions? subject = none :=
      (versions?_delete subject).trans (if_pos rfl)
    rw [Memory.latest, hgone]
  others := by
    intro other hne
    have hversions : (m.delete subject).2.versions? other = m.versions? other :=
      (versions?_delete other).trans (if_neg hne)
    refine ⟨hversions, ?_, ?_⟩
    · apply latest_congr hversions
      intro id hmem
      exact text?_delete_of_mem h hne hmem
    · rw [subjectNames_delete, List.mem_filter]
      simp [hne]
  kept := by
    intro id other hne hmem
    exact fetch_congr (text?_delete_of_mem h hne hmem)
  forgotten := by
    intro id hfree
    apply fetch_of_gone
    rw [text?_delete]
    by_cases hmem : id ∈ m.versionsOf subject
    · exact if_pos ((frees_iff h.sorted).mpr ⟨hmem, hfree⟩)
    · -- no subject at all refers to the ID, so it was not there either
      split
      · rfl
      · cases htext : m.text? id with
        | none => rfl
        | some text =>
          obtain ⟨owner, versions, hversions, hid⟩ := h.referenced id text htext
          rw [← versionsOf_of_versions? hversions] at hid
          by_cases howner : owner = subject
          · exact absurd (howner ▸ hid) hmem
          · exact absurd hid (hfree owner howner)

/-! ### The numbers of the versions -/

theorem map_versionNumbers {n : Nat} (hn : n < 2 ^ 32) :
    (versionNumbers n).map UInt32.toNat = List.range' 1 n := by
  have hlength : (UInt32.ofNat n).toNat = n := by
    rw [UInt32.toNat_ofNat']
    exact Nat.mod_eq_of_lt hn
  rw [versionNumbers, hlength, List.map_map, List.range'_eq_map_range]
  apply List.map_congr_left
  intro i hi
  have hlt : i < n := List.mem_range.mp hi
  show (UInt32.ofNat (i + 1)).toNat = 1 + i
  rw [UInt32.toNat_ofNat', Nat.mod_eq_of_lt (by omega)]
  omega

/-- As long as IDs are given out once, a subject has fewer versions than
    there are IDs. -/
theorem IsConsistent.length_lt (h : m.IsConsistent)
    (hversions : m.versions? subject = some versions) : versions.length < 2 ^ 32 := by
  have hhistory := h.history subject versions hversions
  have hnodup : (versions.map UInt32.toNat).Nodup :=
    List.Nodup.map (fun _ _ heq => UInt32.toNat_inj.mp heq) hhistory.nodup
  have hsubset : versions.map UInt32.toNat ⊆ List.range' 1 (2 ^ 32 - 1) := by
    intro n hn
    obtain ⟨id, hid, rfl⟩ := List.mem_map.mp hn
    obtain ⟨text, htext⟩ := hhistory.live id hid
    have hpositive : 1 ≤ id.toNat := UInt32.le_iff_toNat_le.mp (h.bounded id text htext).1
    have hlt : id.toNat < 2 ^ 32 := id.toNat_lt
    rw [List.mem_range'_1]
    omega
  have hlength := (hnodup.subperm hsubset).length_le
  rw [List.length_map, List.length_range'] at hlength
  omega

end Memory

/-! ### Runs -/

namespace Staged

variable {s : Staged}

theorem IsQuiet.isTidy_run (h : s.IsQuiet) (htidy : s.memory.IsTidy) (visits : List Visit) :
    (Staged.run visits s).memory.IsTidy :=
  h.memory_along htidy (fun _ request ht => ht.perform request) visits

/-- A deletion that is not cancelled is one in the memory. -/
theorem IsQuiet.delete_of_live (h : s.IsQuiet) {ctx : Context}
    (hlive : ctx.isCancelled s.now = false) (subject : String) :
    (registry.delete subject ctx s).1 = (s.memory.delete subject).1 ∧
      (registry.delete subject ctx s).2.memory = (s.memory.delete subject).2 :=
  Prod.mk.inj ((h.serves_delete subject ctx).of_live hlive)

/-- **Deleting removes exactly one subject**: after any run of calls on a
    fresh registry a subject is deleted by a call that is not cancelled.
    The call answers with the numbers of its versions, from one on.  A
    number in the answer is a word of 32 bits, so a list of `2 ^ 32`
    versions or more has no such answer and is left out of that clause,
    which is all that depends on it; no list is that long as long as the
    counter of IDs has not run over.  What is left is the memory without that subject, with all that the others
    refer to and nothing besides.  And two subjects can be deleted in
    either order. -/
theorem delete_removes_subject (visits : List Visit) (ctx : Context) (subject : String)
    (versions : List UInt32) (hlive : ctx.isCancelled (run visits .empty).now = false)
    (hversions : (run visits .empty).memory.versions? subject = some versions) :
    let s := run visits .empty
    let deleted := registry.delete subject ctx s
    (∃ numbers, deleted.1 = .ok numbers ∧
      (versions.length < 2 ^ 32 → numbers.map UInt32.toNat = List.range' 1 versions.length)) ∧
    (allocations visits .empty < 2 ^ 32 - 1 → versions.length < 2 ^ 32) ∧
    s.memory.IsWithout deleted.2.memory subject ∧
    ∀ (other : String) (ctx' : Context), other ≠ subject → ctx'.isCancelled s.now = false →
      (registry.delete other ctx' deleted.2).2.memory =
        (registry.delete subject ctx (registry.delete other ctx' s).2).2.memory := by
  intro s deleted
  have hquiet : s.IsQuiet := isQuiet_empty.run visits
  have htidy : s.memory.IsTidy := isQuiet_empty.isTidy_run Memory.isTidy_empty visits
  obtain ⟨hanswer, hmemory⟩ := hquiet.delete_of_live hlive subject
  refine ⟨?numbers, ?bounded, ?without, ?commute⟩
  case numbers =>
    refine ⟨Memory.versionNumbers versions.length, ?_, Memory.map_versionNumbers⟩
    show deleted.1 = _
    rw [hanswer, Memory.delete, hversions]
  case bounded =>
    intro hroom
    exact (run_isConsistent visits hroom).1.length_lt hversions
  case without =>
    rw [hmemory]
    exact htidy.isWithout_delete subject
  case commute =>
    intro other ctx' hne hlive'
    have hfirst := hquiet.serves_delete subject ctx
    have hsecond := hquiet.serves_delete other ctx'
    -- neither deletion takes time, so both are live in either place
    obtain ⟨-, hafter⟩ := hfirst.quiet.delete_of_live (hfirst.now ▸ hlive') other
    obtain ⟨-, hafter'⟩ := hsecond.quiet.delete_of_live (hsecond.now ▸ hlive) subject
    obtain ⟨-, hmemory'⟩ := hquiet.delete_of_live hlive' other
    rw [hafter, hafter', hmemory, hmemory']
    exact htidy.delete_comm hne

/-- A message that says nothing. -/
def silence : Descriptor where
  name := "Silence"
  fields := #[]
  isIdentifier_name := by decide
  isFieldSet := .nil

/-- A subject with a schema of another one and with one of its own. -/
def copying (d e : Descriptor) : List Request :=
  [.register "orders" d, .register "copies" d, .register "copies" e]

theorem performAll_copying {d e : Descriptor} (htext : d.text ≠ e.text)
    (hcompatible : checkCompatible d e = .ok ()) :
    Memory.empty.performAll (copying d e) =
      { nextId := 3
        schemas := [(1, d.text), (2, e.text)]
        ids := [(d.text, 1), (e.text, 2)]
        subjects := [("copies", [1, 2]), ("orders", [1])] } := by
  have hother : ("orders" == "copies") = false := by decide
  have hbefore : "copies" < "orders" := by decide
  simp [Memory.performAll, copying, Memory.perform, Memory.empty, Memory.register,
    Memory.versions?, Ordered.get?, hother, hbefore, Memory.add, Memory.assign, Memory.id?,
    Table.get?, htext, Memory.store, Memory.setVersions, Table.insert, Table.erase, Ordered.insert,
    Memory.checkLatest, Memory.text?, Descriptor.ofText_text, hcompatible]

/-- A registry with such a subject. -/
def copied : Staged :=
  run ((copying .keywords silence).map .atOnce) .empty

theorem memory_copied :
    copied.memory =
      { nextId := 3
        schemas := [(1, Descriptor.keywords.text), (2, silence.text)]
        ids := [(Descriptor.keywords.text, 1), (silence.text, 2)]
        subjects := [("copies", [1, 2]), ("orders", [1])] } := by
  have htext : Descriptor.keywords.text ≠ silence.text := by
    intro htext
    have hname := congrArg Descriptor.name (Descriptor.text_injective htext)
    contradiction
  have hcompatible : checkCompatible .keywords silence = .ok () := rfl
  exact (isQuiet_empty.memory_run _).2.trans (performAll_copying htext hcompatible)

/-- The schema of its own goes with it, and the other one stays. -/
theorem copies_removed :
    copied.memory.versions? "copies" = some [1, 2] ∧
      (∃ numbers, (registry.delete "copies" .unbounded copied).1 = .ok numbers ∧
        numbers.map UInt32.toNat = [1, 2]) ∧
      (registry.delete "copies" .unbounded copied).2.memory.fetch 1 = copied.memory.fetch 1 ∧
      (registry.delete "copies" .unbounded copied).2.memory.fetch 2 =
        .error (.schemaNotFound 2) := by
  have hversions : copied.memory.versions? "copies" = some [1, 2] := by
    rw [memory_copied]
    rfl
  have horders : 1 ∈ copied.memory.versionsOf "orders" := by
    rw [memory_copied]
    decide
  have hown : ∀ other, other ≠ "copies" → 2 ∉ copied.memory.versionsOf other := by
    intro other hother
    rw [memory_copied]
    by_cases horders : other = "orders"
    · rw [horders]
      decide
    · simp [Memory.versionsOf, Memory.versions?, Ordered.get?, Ne.symm hother, Ne.symm horders]
  have hcopied : run ((copying .keywords silence).map .atOnce) .empty = copied := rfl
  have hremoved :=
    delete_removes_subject ((copying .keywords silence).map .atOnce) .unbounded "copies" [1, 2]
      rfl hversions
  rw [hcopied] at hremoved
  obtain ⟨⟨numbers, hanswer, hnumbers⟩, -, hwithout, -⟩ := hremoved
  have hfew : [1, 2].length < 2 ^ 32 := by decide
  exact ⟨hversions, ⟨numbers, hanswer, hnumbers hfew⟩,
    hwithout.kept 1 "orders" (by decide) horders, hwithout.forgotten 2 hown⟩

end Staged

end EventCodec
