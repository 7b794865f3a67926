import EventCodec.Proofs.Maps
import EventCodec.Proofs.Schema.Text
import EventCodec.Registry.Memory
import Mathlib.Algebra.Group.Nat.Defs
import Mathlib.Data.List.Chain

/-! # The registry in memory keeps its maps together

    Three maps and a counter have to agree: texts by ID, IDs by text, and
    the versions of each subject, with all IDs below the counter.

    The invariant comes in two halves.  A memory is sound if whatever the
    maps refer to is there (`IsSound`); each single change keeps it sound,
    also between the changes one call makes.  It is consistent if besides
    nothing is there that no subject refers to (`IsConsistent`); that is
    true only between calls, since a schema is assigned before a subject
    refers to it and released after the last subject has gone. -/

namespace EventCodec.Memory

open Schema

/-! ### The invariant -/

/-- The newer schema can read what was written with the older one. -/
def Follows (m : Memory) (older newer : UInt32) : Prop :=
  ∃ d e : Descriptor, m.text? older = some d.text ∧ m.text? newer = some e.text ∧
    checkCompatible d e = .ok ()

/-- What the versions of a subject satisfy. -/
structure IsHistory (m : Memory) (versions : List UInt32) : Prop where
  nonempty : versions ≠ []
  nodup : versions.Nodup
  live : ∀ id ∈ versions, ∃ text, m.text? id = some text
  compatible : versions.IsChain m.Follows

/-- Whatever the maps refer to is there. -/
structure IsSound (m : Memory) : Prop where
  /-- The two maps of schemas are inverse to each other. -/
  inverse : ∀ id text, m.text? id = some text ↔ m.id? text = some id
  sorted : Ordered.IsSorted m.subjects
  history : ∀ subject versions, m.versions? subject = some versions → m.IsHistory versions
  positive : 1 ≤ m.nextId
  bounded : ∀ id text, m.text? id = some text → 1 ≤ id ∧ id < m.nextId
  described : ∀ id text, m.text? id = some text → ∃ d : Descriptor, text = d.text

/-- Besides, every schema is one that a subject refers to. -/
structure IsConsistent (m : Memory) : Prop extends m.IsSound where
  referenced : ∀ id text, m.text? id = some text →
    ∃ subject versions, m.versions? subject = some versions ∧ id ∈ versions

variable {m m' : Memory} {subject text : String} {id : UInt32} {versions : List UInt32}
  {d : Descriptor}

theorem isConsistent_empty : empty.IsConsistent where
  inverse := by
    intro id text
    constructor <;> intro h <;> contradiction
  sorted := .nil
  history := by intro subject versions h; contradiction
  positive := by decide
  bounded := by intro id text h; contradiction
  described := by intro id text h; contradiction
  referenced := by intro id text h; contradiction

theorem IsHistory.mono (h : m.IsHistory versions)
    (hkept : ∀ id ∈ versions, ∀ text, m.text? id = some text → m'.text? id = some text) :
    m'.IsHistory versions where
  nonempty := h.nonempty
  nodup := h.nodup
  live := by
    intro id hid
    obtain ⟨text, htext⟩ := h.live id hid
    exact ⟨text, hkept id hid text htext⟩
  compatible := by
    refine h.compatible.imp_of_mem_imp fun older newer holder hnewer hfollows => ?_
    obtain ⟨d, e, hd, he, hcompatible⟩ := hfollows
    exact ⟨d, e, hkept older holder _ hd, hkept newer hnewer _ he, hcompatible⟩

/-- A version that is new and can read the newest one is added. -/
theorem IsHistory.concat (h : versions ≠ [] → m.IsHistory versions)
    (hid : m.text? id = some text) (hnew : id ∉ versions)
    (hfollows : ∀ last, versions.getLast? = some last → m.Follows last id) :
    m.IsHistory (versions ++ [id]) := by
  by_cases hempty : versions = []
  · subst hempty
    exact ⟨by simp, by simp, by simpa using ⟨text, hid⟩, .singleton id⟩
  · have hversions := h hempty
    refine ⟨by simp, ?_, ?_, ?_⟩
    · refine List.nodup_append.mpr ⟨hversions.nodup, by simp, ?_⟩
      intro older holder newer hnewer heq
      rw [List.mem_singleton] at hnewer
      exact hnew (hnewer ▸ heq ▸ holder)
    · intro other hother
      rcases List.mem_append.mp hother with hother | hother
      · exact hversions.live other hother
      · exact ⟨text, List.mem_singleton.mp hother ▸ hid⟩
    · refine hversions.compatible.append (.singleton id) ?_
      intro last hlast newer hnewer
      obtain rfl : id = newer := by simpa using hnewer
      exact hfollows last hlast

/-- Whether a subject refers to an ID can be told from the versions that
    are found. -/
theorem isReferenced_iff (h : Ordered.IsSorted m.subjects) :
    m.isReferenced id = true ↔
      ∃ subject versions, m.versions? subject = some versions ∧ id ∈ versions := by
  unfold isReferenced versions?
  simp only [List.any_eq_true, List.contains_iff_mem, Ordered.get?_eq_some_iff h, Prod.exists]

/-- Every schema is one that a subject refers to.  This half of being
    consistent does not need the counter to stay below its limit. -/
structure IsTidy (m : Memory) : Prop where
  sorted : Ordered.IsSorted m.subjects
  referenced : ∀ id text, m.text? id = some text →
    ∃ subject versions, m.versions? subject = some versions ∧ id ∈ versions

theorem IsConsistent.isTidy (h : m.IsConsistent) : m.IsTidy :=
  ⟨h.sorted, h.referenced⟩

/-! ### Giving a text its ID -/

theorem text?_store (other : UInt32) :
    (m.store text).text? other = if other = m.nextId then some text else m.text? other :=
  Table.get?_insert other

theorem id?_store (other : String) :
    (m.store text).id? other = if other = text then some m.nextId else m.id? other :=
  Table.get?_insert other

/-- The next ID is not taken. -/
theorem IsSound.text?_nextId (h : m.IsSound) : m.text? m.nextId = none := by
  cases htext : m.text? m.nextId with
  | none => rfl
  | some text => exact absurd (h.bounded _ _ htext).2 (UInt32.lt_irrefl _)

/-- A live schema stays where it is when another one is stored. -/
theorem IsSound.text?_store_of_live (h : m.IsSound) {t : String} (ht : m.text? id = some t) :
    (m.store text).text? id = some t := by
  have hne : id ≠ m.nextId := by
    rintro rfl
    rw [h.text?_nextId] at ht
    contradiction
  rw [text?_store, if_neg hne, ht]

theorem toNat_next (h : m.nextId.toNat + 1 < 2 ^ 32) :
    (m.nextId + 1).toNat = m.nextId.toNat + 1 := by
  rw [UInt32.toNat_add]
  exact Nat.mod_eq_of_lt h

/-- A new text is stored; the counter must not run over. -/
theorem IsSound.store (h : m.IsSound) (hnew : m.id? d.text = none)
    (hroom : m.nextId.toNat + 1 < 2 ^ 32) : (m.store d.text).IsSound where
  inverse := by
    intro id t
    rw [text?_store, id?_store]
    -- the new entries are inverse to each other and to none of the old ones
    by_cases hid : id = m.nextId <;> by_cases ht : t = d.text
    · simp [hid, ht]
    · have hfree : m.id? t ≠ some m.nextId := by
        intro hfound
        rw [← h.inverse, h.text?_nextId] at hfound
        contradiction
      simp [hid, ht, Ne.symm ht, hfree]
    · have hfree : m.text? id ≠ some d.text := by
        intro hfound
        rw [h.inverse, hnew] at hfound
        contradiction
      simp [hid, ht, Ne.symm hid, hfree]
    · simpa [hid, ht] using h.inverse id t
  sorted := h.sorted
  history := by
    intro subject versions hversions
    exact (h.history subject versions hversions).mono fun _ _ _ ht => h.text?_store_of_live ht
  positive := by
    rw [UInt32.le_iff_toNat_le]
    exact toNat_next hroom ▸ Nat.le_add_left 1 _
  bounded := by
    intro id t ht
    have hnext : m.nextId < m.nextId + 1 := by
      rw [UInt32.lt_iff_toNat_lt, toNat_next hroom]
      exact Nat.lt_succ_self _
    rw [text?_store] at ht
    split at ht
    · next hid => exact hid ▸ ⟨h.positive, hnext⟩
    · obtain ⟨hlow, hhigh⟩ := h.bounded id t ht
      exact ⟨hlow, UInt32.lt_trans hhigh hnext⟩
  described := by
    intro id t ht
    rw [text?_store] at ht
    split at ht
    · exact ⟨d, (Option.some.inj ht).symm⟩
    · exact h.described id t ht

theorem subjects_assign : (m.assign text).2.subjects = m.subjects := by
  unfold assign
  cases m.id? text <;> rfl

/-- What giving a text its ID comes to. -/
structure IsAssigned (m m' : Memory) (text : String) (id : UInt32) : Prop where
  sound : m'.IsSound
  text? : m'.text? id = some text
  kept : ∀ other t, m.text? other = some t → m'.text? other = some t
  only : ∀ other t, m'.text? other = some t → other = id ∨ m.text? other = some t
  subjects : m'.subjects = m.subjects

theorem IsSound.assign (h : m.IsSound) (d : Descriptor)
    (hroom : m.id? d.text = none → m.nextId.toNat + 1 < 2 ^ 32) :
    IsAssigned m (m.assign d.text).2 d.text (m.assign d.text).1 := by
  unfold Memory.assign
  cases hid : m.id? d.text with
  | some id =>
    exact ⟨h, (h.inverse id d.text).mpr hid, fun _ _ ht => ht, fun _ _ ht => .inr ht, rfl⟩
  | none =>
    refine ⟨h.store hid (hroom hid), ?_, fun _ _ ht => h.text?_store_of_live ht, ?_, rfl⟩
    · simp [text?_store]
    · intro other t ht
      rw [text?_store] at ht
      split at ht
      · next hother => exact .inl hother
      · exact .inr ht

/-! ### Registering -/

theorem versions?_setVersions (other : String) :
    (m.setVersions subject versions).versions? other =
      if other = subject then some versions else m.versions? other :=
  Ordered.get?_insert other

theorem IsSound.setVersions (h : m.IsSound) (hversions : m.IsHistory versions) :
    (m.setVersions subject versions).IsSound where
  inverse := h.inverse
  sorted := h.sorted.insert
  history := by
    intro other vs hvs
    rw [versions?_setVersions] at hvs
    split at hvs
    · obtain rfl := Option.some.inj hvs
      exact hversions.mono fun _ _ _ ht => ht
    · exact (h.history other vs hvs).mono fun _ _ _ ht => ht
  positive := h.positive
  bounded := h.bounded
  described := h.described

/-- The versions a subject has, none if there is no such subject. -/
def versionsOf (m : Memory) (subject : String) : List UInt32 :=
  (m.versions? subject).getD []

theorem IsSound.isHistory_versionsOf (h : m.IsSound) (hne : m.versionsOf subject ≠ []) :
    m.IsHistory (m.versionsOf subject) := by
  unfold versionsOf at hne ⊢
  cases hversions : m.versions? subject with
  | none => rw [hversions] at hne; contradiction
  | some versions => exact h.history subject versions hversions

/-- The newest version is always there, and its text can be read. -/
theorem IsSound.checkLatest_eq (h : m.IsSound) {last : UInt32}
    (hlast : (m.versionsOf subject).getLast? = some last) :
    ∃ e : Descriptor, m.text? last = some e.text ∧
      m.checkLatest subject (m.versionsOf subject) d =
        (checkCompatible e d).mapError fun c => .incompatible subject c.message := by
  have hmem : last ∈ m.versionsOf subject := List.mem_of_getLast? hlast
  obtain ⟨text, htext⟩ := (h.isHistory_versionsOf (List.ne_nil_of_mem hmem)).live last hmem
  obtain ⟨e, rfl⟩ := h.described last text htext
  refine ⟨e, htext, ?_⟩
  simp only [checkLatest, hlast, Option.bind_some, htext, Descriptor.ofText_text]
  cases checkCompatible e d <;> rfl

/-- If nothing but one ID is new and the subject gets it as a version,
    every schema still has a subject. -/
theorem IsTidy.setVersions (h : m.IsTidy)
    (honly : ∀ other t, m'.text? other = some t → other = id ∨ m.text? other = some t)
    (hsubjects : m'.subjects = m.subjects) :
    (m'.setVersions subject (m.versionsOf subject ++ [id])).IsTidy where
  sorted := by
    show Ordered.IsSorted (Ordered.insert _ _ m'.subjects)
    rw [hsubjects]
    exact h.sorted.insert
  referenced := by
    -- the new ID is referred to from here, the others from where they were
    intro other t ht
    rcases honly other t ht with rfl | hold
    · exact ⟨subject, _, by rw [versions?_setVersions, if_pos rfl], by simp⟩
    · obtain ⟨s, vs, hvs, hmem⟩ := h.referenced other t hold
      by_cases hs : s = subject
      · refine ⟨subject, _, by rw [versions?_setVersions, if_pos rfl], ?_⟩
        rw [versionsOf, ← hs, hvs]
        exact List.mem_append_left _ hmem
      · refine ⟨s, vs, ?_, hmem⟩
        rw [versions?_setVersions, if_neg hs, versions?, hsubjects]
        exact hvs

/-- Registering finds the version, is refused, or adds one that is new. -/
theorem register_cases (m : Memory) (subject : String) (d : Descriptor) :
    (∃ id ∈ m.versionsOf subject, m.id? d.text = some id ∧
      m.register subject d = (.ok (.already id), m)) ∨
    (∃ e, m.checkLatest subject (m.versionsOf subject) d = .error e ∧
      m.register subject d = (.error e, m)) ∨
    ((∀ id, m.id? d.text = some id → id ∉ m.versionsOf subject) ∧
      m.checkLatest subject (m.versionsOf subject) d = .ok () ∧
      m.register subject d =
        (.ok (.added (m.add subject d.text (m.versionsOf subject)).1),
          (m.add subject d.text (m.versionsOf subject)).2)) := by
  unfold register versionsOf
  cases hversions : m.versions? subject with
  | none => exact .inr (.inr ⟨fun id _ => by simp, rfl, rfl⟩)
  | some versions =>
    simp only [Option.getD_some]
    cases hfound : (m.id? d.text).filter versions.contains with
    | some id =>
      obtain ⟨hid, hmem⟩ := Option.filter_eq_some_iff.mp hfound
      exact .inl ⟨id, List.contains_iff_mem.mp hmem, hid, rfl⟩
    | none =>
      have hnew : ∀ id, m.id? d.text = some id → id ∉ versions := by
        intro id hid hmem
        rw [hid, Option.filter_some, if_pos (List.contains_iff_mem.mpr hmem)] at hfound
        contradiction
      cases hcheck : m.checkLatest subject versions d with
      | error e => exact .inr (.inl ⟨e, rfl, rfl⟩)
      | ok _ => exact .inr (.inr ⟨hnew, rfl, rfl⟩)

theorem nextId_add :
    (m.add subject text versions).2.nextId =
      if m.id? text = none then m.nextId + 1 else m.nextId := by
  unfold add assign
  cases m.id? text with
  | none => rfl
  | some id => rfl

/-- A version is added that can read the newest one. -/
theorem IsConsistent.add (h : m.IsConsistent)
    (hnew : ∀ id, m.id? d.text = some id → id ∉ m.versionsOf subject)
    (hcheck : m.checkLatest subject (m.versionsOf subject) d = .ok ())
    (hroom : m.id? d.text = none → m.nextId.toNat + 1 < 2 ^ 32) :
    (m.add subject d.text (m.versionsOf subject)).2.IsConsistent := by
  have hassigned := h.assign d hroom
  unfold Memory.add
  generalize m.assign d.text = assigned at hassigned ⊢
  obtain ⟨id, m'⟩ := assigned
  dsimp only at hassigned ⊢
  -- an ID among the versions is live, so it would be the one of the text
  have hfresh : id ∉ m.versionsOf subject := by
    intro hmem
    obtain ⟨t, ht⟩ := (h.isHistory_versionsOf (List.ne_nil_of_mem hmem)).live id hmem
    obtain rfl : d.text = t := Option.some.inj (hassigned.text?.symm.trans (hassigned.kept id t ht))
    exact hnew id ((h.inverse id d.text).mp ht) hmem
  have hfollows : ∀ last, (m.versionsOf subject).getLast? = some last → m'.Follows last id := by
    intro last hlast
    obtain ⟨e, he, hlatest⟩ := h.checkLatest_eq (d := d) hlast
    refine ⟨e, d, hassigned.kept last e.text he, hassigned.text?, ?_⟩
    rw [hlatest] at hcheck
    cases hcompatible : checkCompatible e d with
    | ok _ => rfl
    | error c => rw [hcompatible] at hcheck; contradiction
  have hhistory : m'.IsHistory (m.versionsOf subject ++ [id]) :=
    .concat (fun hne => (h.isHistory_versionsOf hne).mono fun other _ => hassigned.kept other)
      hassigned.text? hfresh hfollows
  exact ⟨hassigned.sound.setVersions hhistory, (h.isTidy.setVersions hassigned.only
    hassigned.subjects).referenced⟩

/-- Registering keeps the memory consistent as long as the counter does
    not run over. -/
theorem IsConsistent.register (h : m.IsConsistent) (subject : String) (d : Descriptor)
    (hroom : (m.register subject d).2.nextId ≠ m.nextId → m.nextId.toNat + 1 < 2 ^ 32) :
    (m.register subject d).2.IsConsistent := by
  rcases m.register_cases subject d with ⟨id, -, -, heq⟩ | ⟨e, -, heq⟩ | ⟨hnew, hcheck, heq⟩
  · rw [heq]; exact h
  · rw [heq]; exact h
  · rw [heq] at hroom ⊢
    refine h.add hnew hcheck fun hnone => hroom ?_
    simp [nextId_add, hnone]

/-- Registering never finds a text it cannot read. -/
theorem IsSound.register_ne_invalidSchema (h : m.IsSound) (subject : String) (d : Descriptor)
    (message : String) : (m.register subject d).1 ≠ .error (.invalidSchema message) := by
  rcases m.register_cases subject d with ⟨id, -, -, heq⟩ | ⟨e, hcheck, heq⟩ | ⟨-, -, heq⟩
  · rw [heq]; simp
  · rw [heq]
    intro herror
    obtain rfl : e = .invalidSchema message := by simpa using herror
    cases hlast : (m.versionsOf subject).getLast? with
    | none => simp [checkLatest, hlast] at hcheck
    | some last =>
      obtain ⟨e, -, hlatest⟩ := h.checkLatest_eq (d := d) hlast
      rw [hlatest] at hcheck
      cases hcompatible : checkCompatible e d with
      | ok _ => rw [hcompatible] at hcheck; contradiction
      | error c => rw [hcompatible] at hcheck; simp [Except.mapError] at hcheck
  · rw [heq]; simp

/-! ### Looking up -/

/-- The newest version of a subject is always there. -/
theorem IsSound.latest_ne_schemaNotFound (h : m.IsSound) (subject : String) (id : UInt32) :
    m.latest subject ≠ .error (.schemaNotFound id) := by
  unfold latest
  cases hversions : m.versions? subject with
  | none => simp
  | some versions =>
    cases hlast : versions.getLast? with
    | none => simp [hlast]
    | some last =>
      obtain ⟨text, htext⟩ :=
        (h.history subject versions hversions).live last (List.mem_of_getLast? hlast)
      simp [hlast, htext]

/-! ### Deleting -/

theorem versions?_dropSubject (other : String) :
    (m.dropSubject subject).versions? other =
      if other = subject then none else m.versions? other :=
  Ordered.get?_erase other

theorem IsSound.dropSubject (h : m.IsSound) : (m.dropSubject subject).IsSound where
  inverse := h.inverse
  sorted := h.sorted.erase
  history := by
    intro other versions hversions
    rw [versions?_dropSubject] at hversions
    split at hversions
    · contradiction
    · exact (h.history other versions hversions).mono fun _ _ _ ht => ht
  positive := h.positive
  bounded := h.bounded
  described := h.described

theorem text?_remove (other : UInt32) :
    (m.remove id text).text? other = if other = id then none else m.text? other :=
  Table.get?_erase other

theorem id?_remove (other : String) :
    (m.remove id text).id? other = if other = text then none else m.id? other :=
  Table.get?_erase other

/-- A schema that no subject refers to is removed from both maps. -/
theorem IsSound.remove (h : m.IsSound) (hfree : m.isReferenced id = false)
    (htext : m.text? id = some text) : (m.remove id text).IsSound where
  inverse := by
    intro other t
    rw [text?_remove, id?_remove]
    by_cases hother : other = id
    · have hne : ∀ s, m.id? s = some id → s = text := by
        intro s hs
        rw [← h.inverse, htext] at hs
        exact (Option.some.inj hs).symm
      by_cases ht : t = text
      · simp [hother, ht]
      · simpa [hother, ht] using mt (hne t) ht
    · by_cases ht : t = text
      · have hne : m.text? other ≠ some text := by
          intro hfound
          rw [h.inverse, (h.inverse id text).mp htext] at hfound
          exact hother (Option.some.inj hfound).symm
        simpa [hother, ht] using hne
      · simpa [hother, ht] using h.inverse other t
  sorted := h.sorted
  history := by
    intro subject versions hversions
    refine (h.history subject versions hversions).mono fun other hmem t ht => ?_
    -- a version of a subject is referred to, and the ID is not
    have hne : other ≠ id := by
      rintro rfl
      have hreferenced := (isReferenced_iff h.sorted).mpr ⟨subject, versions, hversions, hmem⟩
      rw [hfree] at hreferenced
      contradiction
    rw [text?_remove, if_neg hne, ht]
  positive := h.positive
  bounded := by
    intro other t ht
    rw [text?_remove] at ht
    split at ht
    · contradiction
    · exact h.bounded other t ht
  described := by
    intro other t ht
    rw [text?_remove] at ht
    split at ht
    · contradiction
    · exact h.described other t ht

theorem IsSound.release (h : m.IsSound) : (m.release id).IsSound := by
  unfold Memory.release
  split
  · exact h
  · next hfree =>
    split
    · exact h
    · next text htext => exact h.remove (by simpa using hfree) htext

theorem subjects_release : (m.release id).subjects = m.subjects := by
  unfold release
  split
  · rfl
  · split <;> rfl

theorem nextId_release : (m.release id).nextId = m.nextId := by
  unfold release
  split
  · rfl
  · split <;> rfl

theorem isReferenced_release (other : UInt32) :
    (m.release id).isReferenced other = m.isReferenced other := by
  rw [isReferenced, subjects_release, isReferenced]

theorem text?_release (other : UInt32) :
    (m.release id).text? other =
      if other = id ∧ m.isReferenced id = false then none else m.text? other := by
  unfold release
  cases hreferenced : m.isReferenced id with
  | true => simp
  | false =>
    cases htext : m.text? id with
    | none =>
      by_cases hother : other = id
      · simp [hother, htext]
      · simp [hother]
    | some t => simpa using text?_remove other

/-- Releasing one ID after the other releases each that is not referred
    to, in whatever order they come. -/
theorem text?_releaseAll (ids : List UInt32) (m : Memory) (other : UInt32) :
    (ids.foldl Memory.release m).text? other =
      if other ∈ ids ∧ m.isReferenced other = false then none else m.text? other := by
  -- who is referred to does not change on the way
  induction ids generalizing m with
  | nil => simp
  | cons id ids ih =>
    rw [List.foldl_cons, ih, isReferenced_release, text?_release]
    by_cases hother : other = id
    · subst hother
      cases m.isReferenced other <;> simp
    · simp [hother]

theorem subjects_releaseAll (ids : List UInt32) (m : Memory) :
    (ids.foldl Memory.release m).subjects = m.subjects := by
  induction ids generalizing m with
  | nil => rfl
  | cons id ids ih => rw [List.foldl_cons, ih, subjects_release]

theorem nextId_releaseAll (ids : List UInt32) (m : Memory) :
    (ids.foldl Memory.release m).nextId = m.nextId := by
  induction ids generalizing m with
  | nil => rfl
  | cons id ids ih => rw [List.foldl_cons, ih, nextId_release]

theorem IsSound.releaseAll (ids : List UInt32) (h : m.IsSound) :
    (ids.foldl Memory.release m).IsSound := by
  induction ids generalizing m with
  | nil => exact h
  | cons id ids ih => exact ih h.release

/-- Without a subject, the schemas only it referred to are gone, and all
    others are still there. -/
theorem IsTidy.without (h : m.IsTidy) (hversions : m.versions? subject = some versions) :
    (m.without subject versions).IsTidy := by
  have hsubjects : (m.without subject versions).subjects = (m.dropSubject subject).subjects :=
    subjects_releaseAll versions _
  have hdropped : Ordered.IsSorted (m.dropSubject subject).subjects := h.sorted.erase
  refine ⟨hsubjects ▸ hdropped, ?_⟩
  intro id text htext
  rw [Memory.without, text?_releaseAll] at htext
  split at htext
  · contradiction
  · next hkept =>
    -- what is still there was not among the versions, or has another subject
    have hreferenced : (m.dropSubject subject).isReferenced id = true := by
      obtain ⟨s, vs, hvs, hmem⟩ := h.referenced id text htext
      by_cases hs : s = subject
      · obtain rfl : vs = versions := by
          rw [hs, hversions] at hvs
          exact (Option.some.inj hvs).symm
        cases hfree : (m.dropSubject subject).isReferenced id with
        | true => rfl
        | false => exact absurd ⟨hmem, hfree⟩ hkept
      · refine (isReferenced_iff hdropped).mpr ⟨s, vs, ?_, hmem⟩
        rw [versions?_dropSubject, if_neg hs, hvs]
    obtain ⟨s, vs, hvs, hmem⟩ := (isReferenced_iff hdropped).mp hreferenced
    refine ⟨s, vs, ?_, hmem⟩
    rw [versions?, hsubjects]
    exact hvs

theorem IsConsistent.without (h : m.IsConsistent) (hversions : m.versions? subject = some versions) :
    (m.without subject versions).IsConsistent :=
  ⟨h.dropSubject.releaseAll versions, (h.isTidy.without hversions).referenced⟩

theorem IsConsistent.delete (h : m.IsConsistent) (subject : String) :
    (m.delete subject).2.IsConsistent := by
  unfold Memory.delete
  cases hversions : m.versions? subject with
  | none => exact h
  | some versions => exact h.without hversions

/-- Deleting gives no ID out. -/
theorem nextId_delete : (m.delete subject).2.nextId = m.nextId := by
  unfold Memory.delete
  cases m.versions? subject with
  | none => rfl
  | some versions => exact nextId_releaseAll versions (m.dropSubject subject)

theorem nextId_register (m : Memory) (subject : String) (d : Descriptor) :
    (m.register subject d).2.nextId = m.nextId ∨
      (m.register subject d).2.nextId = m.nextId + 1 := by
  rcases m.register_cases subject d with ⟨id, -, -, heq⟩ | ⟨e, -, heq⟩ | ⟨-, -, heq⟩
  · rw [heq]; exact .inl rfl
  · rw [heq]; exact .inl rfl
  · rw [heq]
    dsimp only
    rw [nextId_add]
    split
    · exact .inr rfl
    · exact .inl rfl

/-! ### Registering and deleting again -/

/-- The memory as it was, but for the counter. -/
structure IsLike (m m' : Memory) : Prop where
  schemas : m'.schemas = m.schemas
  ids : m'.ids = m.ids
  subjects : m'.subjects = m.subjects

/-- Releasing a text right after it was assigned takes back what assigning
    added: nothing if some subject refers to the text, all of it if none
    does. -/
theorem IsConsistent.release_assign (h : m.IsConsistent) (text : String) :
    m.IsLike ((m.assign text).2.release (m.assign text).1) := by
  unfold Memory.assign
  cases hid : m.id? text with
  | some id =>
    -- the text is there, so a subject refers to it
    have hlive : m.text? id = some text := (h.inverse id text).mpr hid
    have hreferenced : m.isReferenced id = true :=
      (isReferenced_iff h.sorted).mpr (h.referenced id text hlive)
    show m.IsLike (m.release id)
    rw [Memory.release, if_pos hreferenced]
    exact ⟨rfl, rfl, rfl⟩
  | none =>
    -- a subject that refers to the new ID would have found it live
    have hfree : m.isReferenced m.nextId = false := by
      cases hreferenced : m.isReferenced m.nextId with
      | false => rfl
      | true =>
        obtain ⟨s, vs, hvs, hmem⟩ := (isReferenced_iff h.sorted).mp hreferenced
        obtain ⟨t, ht⟩ := (h.history s vs hvs).live _ hmem
        rw [h.text?_nextId] at ht
        contradiction
    have hfree' : (m.store text).isReferenced m.nextId = false := hfree
    have htext : (m.store text).text? m.nextId = some text := (text?_store _).trans (if_pos rfl)
    show m.IsLike ((m.store text).release m.nextId)
    rw [Memory.release, hfree', if_neg Bool.false_ne_true, htext]
    exact ⟨Table.erase_insert h.text?_nextId, Table.erase_insert hid, rfl⟩

/-- A new subject gets its schema, and is gone without a trace when it is
    deleted. -/
theorem IsConsistent.delete_register (h : m.IsConsistent) (hnew : m.versions? subject = none) :
    (m.register subject d).1 = .ok (.added (m.assign d.text).1) ∧
      m.IsLike ((m.register subject d).2.delete subject).2 := by
  have hregister : m.register subject d =
      (.ok (.added (m.assign d.text).1),
        (m.assign d.text).2.setVersions subject [(m.assign d.text).1]) := by
    rw [Memory.register, hnew]
    rfl
  rw [hregister]
  refine ⟨rfl, ?_⟩
  have hversions : ((m.assign d.text).2.setVersions subject [(m.assign d.text).1]).versions? subject =
      some [(m.assign d.text).1] := (versions?_setVersions subject).trans (if_pos rfl)
  -- dropping the subject leaves what assigning the text had come to
  have hdrop : ((m.assign d.text).2.setVersions subject [(m.assign d.text).1]).dropSubject subject =
      (m.assign d.text).2 := by
    have hnone : Ordered.get? subject (m.assign d.text).2.subjects = none := by
      rw [subjects_assign]
      exact hnew
    have herase : Ordered.erase subject
        (Ordered.insert subject [(m.assign d.text).1] (m.assign d.text).2.subjects) =
          (m.assign d.text).2.subjects := Ordered.erase_insert hnone
    unfold Memory.dropSubject Memory.setVersions
    rw [herase]
  show m.IsLike (((m.assign d.text).2.setVersions subject [_]).delete subject).2
  rw [Memory.delete, hversions]
  show m.IsLike (Memory.release (Memory.dropSubject _ subject) _)
  rw [hdrop]
  exact h.release_assign d.text

end EventCodec.Memory
