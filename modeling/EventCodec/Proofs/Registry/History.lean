import EventCodec.Proofs.Registry.Overrun

/-! # What a registry keeps of its past

    An ID is given out once.  From then on it stands for the schema it was
    given to, until that schema is deleted; afterwards it stands for
    nothing.

    This is a relation between a memory and every later one (`Precedes`):
    whatever a later memory knows under an ID that had been given out
    before, the earlier one knew as well.  Each request keeps it, so whole
    runs do, and registering can be looked at from its two ends: what it
    has just answered (`IsSound.register_spec`), and what it will answer
    to the same descriptor later on.

    That a subject keeps its descriptors does not depend on IDs that are
    given out once (`Lists`); it is so even after the counter of IDs has
    run over, while all the rest is not (`not_identifies`). -/

namespace EventCodec

open Schema
open Registry (Request Reply)

namespace Memory

variable {m m' m'' : Memory} {subject text : String} {id : UInt32} {versions : List UInt32}
  {d e : Descriptor} {r : Registered}

/-! ### Earlier and later -/

/-- The second memory can come after the first. -/
structure Precedes (m m' : Memory) : Prop where
  nextId : m.nextId ≤ m'.nextId
  /-- No ID that had been given out stands for something new. -/
  text? : ∀ id text, id < m.nextId → m'.text? id = some text → m.text? id = some text

theorem Precedes.refl (m : Memory) : m.Precedes m where
  nextId := UInt32.le_refl _
  text? := fun _ _ _ htext => htext

theorem Precedes.trans (h : m.Precedes m') (h' : m'.Precedes m'') : m.Precedes m'' where
  nextId := UInt32.le_trans h.nextId h'.nextId
  text? := by
    intro id text hid htext
    have hid' : id < m'.nextId := Std.lt_of_lt_of_le hid h.nextId
    exact h.text? id text hid (h'.text? id text hid' htext)

/-- An ID that has gone never comes back. -/
theorem Precedes.text?_eq_none (h : m.Precedes m') (hid : id < m.nextId)
    (hgone : m.text? id = none) : m'.text? id = none := by
  cases htext : m'.text? id with
  | none => rfl
  | some text =>
    have hbefore := h.text? id text hid htext
    rw [hgone] at hbefore
    contradiction

/-! ### What an ID stands for -/

/-- The ID has been given out, and stands for the descriptor or for
    nothing any more. -/
structure Vouches (m : Memory) (id : UInt32) (d : Descriptor) : Prop where
  given : id < m.nextId
  text : ∀ text, m.text? id = some text → text = d.text

theorem Vouches.later (hd : m.Vouches id d) (h : m.Precedes m') : m'.Vouches id d where
  given := Std.lt_of_lt_of_le hd.given h.nextId
  text := fun text htext => hd.text text (h.text? id text hd.given htext)

/-- A live ID stands for its descriptor. -/
theorem IsSound.vouches (h : m.IsSound) (hid : m.text? id = some d.text) : m.Vouches id d where
  given := (h.bounded id d.text hid).2
  text := fun _ htext => Option.some.inj (htext.symm.trans hid)

/-- It stands for no other. -/
theorem Vouches.eq_of_text? (hd : m.Vouches id d) (hid : m.text? id = some e.text) : e = d :=
  Descriptor.text_injective (hd.text e.text hid)

/-- The ID stands for something. -/
def IsLive (m : Memory) (id : UInt32) : Prop :=
  ∃ text, m.text? id = some text

theorem Vouches.text?_of_isLive (hd : m.Vouches id d) (hlive : m.IsLive id) :
    m.text? id = some d.text := by
  obtain ⟨text, htext⟩ := hlive
  rw [htext, hd.text text htext]

/-- What is fetched under a live ID has the descriptor the ID stands
    for. -/
theorem fetch_of_text? (hid : m.text? id = some d.text) :
    ∃ schema, m.fetch id = .ok schema ∧ schema.descriptor = .ok d := by
  rw [fetch, hid]
  exact ⟨_, rfl, d.ofText_text⟩

theorem fetch_of_gone (hgone : m.text? id = none) : m.fetch id = .error (.schemaNotFound id) := by
  rw [fetch, hgone]

theorem text?_of_fetch (h : m.fetch id = .error (.schemaNotFound id)) : m.text? id = none := by
  cases htext : m.text? id with
  | none => rfl
  | some text => simp [fetch, htext] at h

/-! ### Each request -/

theorem text?_assign (h : m.IsSound) : (m.assign text).2.text? (m.assign text).1 = some text := by
  unfold assign
  cases hid : m.id? text with
  | some id => exact (h.inverse id text).mpr hid
  | none => exact (text?_store m.nextId).trans (if_pos rfl)

theorem precedes_assign (hroom : m.id? text = none → m.nextId.toNat + 1 < 2 ^ 32) :
    m.Precedes (m.assign text).2 := by
  unfold assign
  cases hid : m.id? text with
  | some id => exact .refl m
  | none =>
    have hnext : (m.nextId + 1).toNat = m.nextId.toNat + 1 := toNat_next (hroom hid)
    refine ⟨?_, fun other t hother ht => ?_⟩
    · show m.nextId ≤ m.nextId + 1
      rw [UInt32.le_iff_toNat_le, hnext]
      omega
    · -- the new text is not under an ID that had been given out
      have hne : other ≠ m.nextId := by
        rintro rfl
        exact UInt32.lt_irrefl _ hother
      rw [text?_store, if_neg hne] at ht
      exact ht

theorem precedes_register (m : Memory) (subject : String) (d : Descriptor)
    (hroom : (m.register subject d).2.nextId ≠ m.nextId → m.nextId.toNat + 1 < 2 ^ 32) :
    m.Precedes (m.register subject d).2 := by
  rcases m.register_cases subject d with ⟨id, -, -, heq⟩ | ⟨e, -, heq⟩ | ⟨-, -, heq⟩
  · rw [heq]; exact .refl m
  · rw [heq]; exact .refl m
  · rw [heq] at hroom ⊢
    have hassign : m.Precedes (m.assign d.text).2 := by
      refine precedes_assign fun hnone => hroom ?_
      simp [nextId_add, hnone]
    exact ⟨hassign.nextId, hassign.text?⟩

theorem precedes_delete (m : Memory) (subject : String) : m.Precedes (m.delete subject).2 := by
  refine ⟨nextId_delete ▸ UInt32.le_refl _, fun id text _ htext => ?_⟩
  unfold delete at htext
  cases hversions : m.versions? subject with
  | none =>
    rw [hversions] at htext
    exact htext
  | some versions =>
    -- what is still there has not been released
    rw [hversions] at htext
    have hleft : (versions.foldl release (m.dropSubject subject)).text? id = some text := htext
    rw [text?_releaseAll] at hleft
    split at hleft
    · contradiction
    · exact hleft

theorem precedes_perform (m : Memory) (request : Request)
    (hroom : (m.perform request).2.nextId ≠ m.nextId → m.nextId.toNat + 1 < 2 ^ 32) :
    m.Precedes (m.perform request).2 := by
  cases request with
  | register subject d => exact m.precedes_register subject d hroom
  | delete subject => exact m.precedes_delete subject
  | fetch | latest | subjects => exact .refl m

/-! ### Registering from its two ends -/

theorem versionsOf_add (subject' : String) :
    (m.add subject text versions).2.versionsOf subject' =
      if subject' = subject then versions ++ [(m.assign text).1] else m.versionsOf subject' := by
  have hadd : (m.add subject text versions).2.versions? subject' =
      if subject' = subject then some (versions ++ [(m.assign text).1])
      else (m.assign text).2.versions? subject' := versions?_setVersions subject'
  rw [versionsOf, hadd]
  split
  · rfl
  · rw [versionsOf, versions?, subjects_assign, versions?]

/-- What has come of a registration that went well, be it the first of its
    text or not: the text is under the ID that it has or gets, and the ID is
    one of the subject's. -/
theorem register_of_ok (hok : (m.register subject d).1 = .ok r) :
    r.id = (m.assign d.text).1 ∧ r.id ∈ (m.register subject d).2.versionsOf subject ∧
      (m.register subject d).2.schemas = (m.assign d.text).2.schemas ∧
      (m.register subject d).2.ids = (m.assign d.text).2.ids := by
  rcases m.register_cases subject d with ⟨id, hmem, hid, heq⟩ | ⟨e, -, heq⟩ | ⟨-, -, heq⟩
  · have hassign : m.assign d.text = (id, m) := by rw [assign, hid]
    rw [heq] at hok ⊢
    obtain rfl := Except.ok.inj hok
    rw [hassign]
    exact ⟨rfl, hmem, rfl, rfl⟩
  · rw [heq] at hok
    contradiction
  · rw [heq] at hok ⊢
    obtain rfl := Except.ok.inj hok
    refine ⟨rfl, ?_, rfl, rfl⟩
    rw [versionsOf_add, if_pos rfl]
    exact List.mem_append_right _ List.mem_cons_self

/-- Whatever the subject, a descriptor is registered under the ID its text
    has or gets. -/
theorem id_of_register (hok : (m.register subject d).1 = .ok r) : r.id = (m.assign d.text).1 :=
  (register_of_ok hok).1

/-- A registration that is refused changes nothing. -/
theorem register_of_error {e : RegistryError} (h : (m.register subject d).1 = .error e) :
    (m.register subject d).2 = m := by
  rcases m.register_cases subject d with ⟨_, -, -, heq⟩ | ⟨e, -, heq⟩ | ⟨-, -, heq⟩
  · rw [heq]
  · rw [heq]
  · rw [heq] at h
    contradiction

/-- What was registered is among the versions of its subject. -/
theorem mem_versionsOf_of_register (hok : (m.register subject d).1 = .ok r) :
    r.id ∈ (m.register subject d).2.versionsOf subject :=
  (register_of_ok hok).2.1

/-- The answer to a registration is live and stands for the descriptor. -/
theorem IsSound.register_spec (h : m.IsSound) (hok : (m.register subject d).1 = .ok r) :
    (m.register subject d).2.text? r.id = some d.text := by
  obtain ⟨hid, -, hschemas, -⟩ := register_of_ok hok
  rw [hid, text?, hschemas]
  exact text?_assign h

theorem IsSound.text?_of_register (h : m.IsSound) (hregister : m.register subject d = (.ok r, m')) :
    m'.text? r.id = some d.text := by
  have hspec := h.register_spec (congrArg Prod.fst hregister)
  rwa [hregister] at hspec

/-- Texts get the same ID exactly if they are the same. -/
theorem IsSound.id_assign_eq_iff (h : m.IsSound) (hid : m.text? id = some d.text) :
    (m.assign e.text).1 = id ↔ e = d := by
  have hfound : m.id? d.text = some id := (h.inverse id d.text).mp hid
  constructor
  · intro heq
    unfold Memory.assign at heq
    cases hother : m.id? e.text with
    | some other =>
      rw [hother] at heq
      obtain rfl : other = id := heq
      have htext : m.text? other = some e.text := (h.inverse other e.text).mpr hother
      exact (h.vouches hid).eq_of_text? htext
    | none =>
      -- a text without an ID gets one that nothing has
      rw [hother] at heq
      obtain rfl : m.nextId = id := heq
      rw [h.text?_nextId] at hid
      contradiction
  · rintro rfl
    rw [Memory.assign, hfound]

/-! ### The versions of a subject -/

theorem isReferenced_of_mem (hmem : id ∈ m.versionsOf subject) : m.isReferenced id = true := by
  unfold versionsOf versions? Ordered.get? at hmem
  cases hentry : m.subjects.find? fun e => e.1 == subject with
  | none =>
    rw [hentry] at hmem
    contradiction
  | some e =>
    rw [hentry] at hmem
    exact List.any_eq_true.mpr
      ⟨e, List.mem_of_find?_eq_some hentry, List.contains_iff_mem.mpr hmem⟩

/-- Registering takes no version away, of whatever subject. -/
theorem mem_versionsOf_register {other : String} {d : Descriptor} (hmem : id ∈ m.versionsOf other) :
    id ∈ (m.register subject d).2.versionsOf other := by
  rcases m.register_cases subject d with ⟨_, -, -, heq⟩ | ⟨e, -, heq⟩ | ⟨-, -, heq⟩
  · rw [heq]; exact hmem
  · rw [heq]; exact hmem
  · rw [heq, versionsOf_add]
    split
    · next hsame => exact List.mem_append_left _ (hsame ▸ hmem)
    · exact hmem

/-- Deleting takes only the versions of the subject itself away. -/
theorem versionsOf_delete {other : String} (hne : other ≠ subject) :
    (m.delete subject).2.versionsOf other = m.versionsOf other := by
  unfold delete
  cases hversions : m.versions? subject with
  | none => rfl
  | some versions =>
    have hsubjects : (m.without subject versions).subjects = (m.dropSubject subject).subjects :=
      subjects_releaseAll versions _
    have hversions : (m.without subject versions).versions? other =
        (m.dropSubject subject).versions? other := by
      rw [versions?, hsubjects, versions?]
    show (m.without subject versions).versionsOf other = _
    rw [versionsOf, hversions, versions?_dropSubject, if_neg hne, versionsOf]

/-! ### The texts of the versions -/

/-- A text that is there is found under its ID.  As for being tidy, the
    counter need not stay below its limit for that. -/
def IsIndexed (m : Memory) : Prop :=
  ∀ id text, m.text? id = some text → m.id? text = some id

theorem isIndexed_empty : empty.IsIndexed := by
  intro id text htext
  contradiction

theorem IsIndexed.store (h : m.IsIndexed) (hnew : m.id? text = none) : (m.store text).IsIndexed := by
  intro id t ht
  rw [text?_store] at ht
  rw [id?_store]
  split at ht
  · next hid =>
    obtain rfl := Option.some.inj ht
    rw [if_pos rfl, hid]
  · -- a text that was there is not the new one
    have hold := h id t ht
    have hne : t ≠ text := by
      rintro rfl
      rw [hnew] at hold
      contradiction
    rw [if_neg hne, hold]

theorem IsIndexed.assign (h : m.IsIndexed) (text : String) : (m.assign text).2.IsIndexed := by
  unfold Memory.assign
  cases hid : m.id? text with
  | some id => exact h
  | none => exact h.store hid

theorem IsIndexed.remove (h : m.IsIndexed) (htext : m.text? id = some text) :
    (m.remove id text).IsIndexed := by
  intro other t ht
  rw [text?_remove] at ht
  rw [id?_remove]
  split at ht
  · contradiction
  · next hother =>
    -- a text is under one ID only
    have hne : t ≠ text := by
      rintro rfl
      exact hother (Option.some.inj ((h other t ht).symm.trans (h id t htext)))
    rw [if_neg hne, h other t ht]

theorem IsIndexed.release (h : m.IsIndexed) (id : UInt32) : (m.release id).IsIndexed := by
  unfold Memory.release
  split
  · exact h
  · split
    · exact h
    · next htext => exact h.remove htext

theorem IsIndexed.releaseAll (ids : List UInt32) (h : m.IsIndexed) :
    (ids.foldl Memory.release m).IsIndexed := by
  induction ids generalizing m with
  | nil => exact h
  | cons id ids ih => exact ih (h.release id)

theorem IsIndexed.perform (h : m.IsIndexed) (request : Request) :
    (m.perform request).2.IsIndexed := by
  cases request with
  | register subject d =>
    show (m.register subject d).2.IsIndexed
    rcases m.register_cases subject d with ⟨_, -, -, heq⟩ | ⟨_, -, heq⟩ | ⟨-, -, heq⟩
    · rw [heq]; exact h
    · rw [heq]; exact h
    · rw [heq]; exact h.assign d.text
  | delete subject =>
    show (m.delete subject).2.IsIndexed
    unfold Memory.delete
    cases m.versions? subject with
    | none => exact h
    | some versions => exact IsIndexed.releaseAll versions h
  | fetch | latest | subjects => exact h

/-- What some subject refers to is not released. -/
theorem IsIndexed.id?_releaseAll (h : m.IsIndexed) (hid : m.id? text = some id)
    (hreferenced : m.isReferenced id = true) (ids : List UInt32) :
    (ids.foldl Memory.release m).id? text = some id := by
  induction ids generalizing m with
  | nil => exact hid
  | cons other ids ih =>
    refine ih (h.release other) ?_ (by rwa [isReferenced_release])
    unfold Memory.release
    split
    · exact hid
    · next hfree =>
      split
      · exact hid
      · next t ht =>
        have hne : text ≠ t := by
          rintro rfl
          obtain rfl := Option.some.inj (hid.symm.trans (h other text ht))
          exact hfree hreferenced
        rw [id?_remove, if_neg hne, hid]

/-- The subject has the descriptor among its versions, under the ID its
    text is found under. -/
structure Lists (m : Memory) (subject : String) (d : Descriptor) (id : UInt32) : Prop where
  known : m.id? d.text = some id
  listed : id ∈ m.versionsOf subject

theorem id?_assign (text : String) : (m.assign text).2.id? text = some (m.assign text).1 := by
  unfold assign
  cases hid : m.id? text with
  | some id => exact hid
  | none => exact (id?_store text).trans (if_pos rfl)

/-- A text that has an ID keeps it when another one gets one. -/
theorem id?_assign_of_some {t : String} (hid : m.id? t = some id) :
    (m.assign text).2.id? t = some id := by
  unfold assign
  cases hnew : m.id? text with
  | some _ => exact hid
  | none =>
    have hne : t ≠ text := by
      rintro rfl
      rw [hnew] at hid
      contradiction
    exact (id?_store t).trans ((if_neg hne).trans hid)

theorem lists_register (hok : (m.register subject d).1 = .ok r) :
    (m.register subject d).2.Lists subject d r.id := by
  obtain ⟨hid, hmem, -, hids⟩ := register_of_ok hok
  refine ⟨?_, hmem⟩
  rw [hid, id?, hids]
  exact id?_assign d.text

/-- A subject that has a descriptor is not changed by registering it once
    more, however old the version. -/
theorem Lists.register_again (h : m.Lists subject d id) :
    m.register subject d = (.ok (.already id), m) := by
  have hmem := h.listed
  unfold versionsOf at hmem
  unfold register
  cases hversions : m.versions? subject with
  | none =>
    rw [hversions] at hmem
    contradiction
  | some versions =>
    rw [hversions, Option.getD_some] at hmem
    have hfilter : (m.id? d.text).filter versions.contains = some id := by
      rw [h.known, Option.filter_some, if_pos (List.contains_iff_mem.mpr hmem)]
    simp only [hfilter]

theorem Lists.register (h : m.Lists subject d id) (other : String) (e : Descriptor) :
    (m.register other e).2.Lists subject d id := by
  -- no registration takes an ID away from a text
  refine ⟨?_, mem_versionsOf_register h.listed⟩
  rcases m.register_cases other e with ⟨_, -, -, heq⟩ | ⟨_, -, heq⟩ | ⟨-, -, heq⟩
  · rw [heq]; exact h.known
  · rw [heq]; exact h.known
  · rw [heq]; exact id?_assign_of_some h.known

theorem Lists.delete (h : m.Lists subject d id) (hindexed : m.IsIndexed) {other : String}
    (hne : subject ≠ other) : (m.delete other).2.Lists subject d id := by
  refine ⟨?_, by rw [versionsOf_delete hne]; exact h.listed⟩
  unfold Memory.delete
  cases hversions : m.versions? other with
  | none => exact h.known
  | some versions =>
    -- the subject still refers to the ID
    have hmem : id ∈ (m.dropSubject other).versionsOf subject := by
      rw [versionsOf, versions?_dropSubject, if_neg hne]
      exact h.listed
    have hreferenced : (m.dropSubject other).isReferenced id = true := isReferenced_of_mem hmem
    have hdropped : (m.dropSubject other).IsIndexed := hindexed
    exact hdropped.id?_releaseAll h.known hreferenced versions

/-- A version stays unless its subject is deleted. -/
theorem Lists.perform {request : Request} (h : m.Lists subject d id) (hindexed : m.IsIndexed)
    (hspared : request = .delete subject → ∃ e, (m.perform request).1 = .error e) :
    (m.perform request).2.Lists subject d id := by
  cases request with
  | register other e => exact h.register other e
  | delete other =>
    by_cases hother : subject = other
    · subst hother
      obtain ⟨e, he⟩ := hspared rfl
      -- the subject has versions, so that its deletion could not have failed
      have hmem := h.listed
      cases hversions : m.versions? subject with
      | none =>
        rw [versionsOf, hversions] at hmem
        contradiction
      | some versions =>
        simp [Memory.perform, Registry.reply, Memory.delete, hversions, Except.map] at he
    · exact h.delete hindexed hother
  | fetch | latest | subjects => exact h

end Memory

/-! ### Runs -/

namespace Staged

variable {s s' : Staged} {v : Visit} {visits : List Visit} {subject : String} {id id' : UInt32}
  {d d' : Descriptor}

theorem run_append (before after : List Visit) (s : Staged) :
    run (before ++ after) s = run after (run before s) := by
  induction before generalizing s with
  | nil => rfl
  | cons v before ih => exact ih (s.visit v).2

theorem allocations_append (before after : List Visit) (s : Staged) :
    allocations (before ++ after) s = allocations before s + allocations after (run before s) := by
  induction before generalizing s with
  | nil => exact (Nat.zero_add _).symm
  | cons v before ih =>
    simp only [List.cons_append, allocations, run, ih]
    omega

theorem Advances.precedes (h : s.Advances s') (hroom : s.memory.HasRoom s'.memory) :
    s.memory.Precedes s'.memory := by
  rcases h.memory with hmemory | ⟨request, hmemory⟩
  · rw [hmemory]
    exact .refl _
  · rw [hmemory] at hroom ⊢
    exact s.memory.precedes_perform request hroom

/-- The memory at the start of a run precedes the one at its end. -/
theorem IsOrderly.precedes_run (h : s.IsOrderly) (visits : List Visit) {later : Nat}
    (hroom : s.memory.nextId.toNat + (allocations visits s + later) < 2 ^ 32) :
    (Staged.run visits s).IsOrderly ∧ s.memory.Precedes (Staged.run visits s).memory ∧
      (Staged.run visits s).memory.nextId.toNat + later < 2 ^ 32 := by
  let comesAfter (t : Staged) : Prop := s.memory.Precedes t.memory
  have hstart : comesAfter s := .refl _
  refine h.along hstart (fun t v ht hvisit hbefore => ?_) visits hroom
  exact hbefore.trans ((ht.quiet.advances_visit v).precedes hvisit)

/-- No visit deletes the subject. -/
def Spares (subject : String) : List Visit → Staged → Prop
  | [], _ => True
  | v :: rest, s =>
    (v.request = .delete subject → ∃ e, (s.visit v).1 = .error e) ∧ Spares subject rest (s.visit v).2

theorem IsQuiet.lists_visit (h : s.IsQuiet) (hindexed : s.memory.IsIndexed)
    (hlists : s.memory.Lists subject d id)
    (hspared : v.request = .delete subject → ∃ e, (s.visit v).1 = .error e) :
    (s.visit v).2.memory.Lists subject d id := by
  have hresult := (h.visit_spec v).result
  rw [h.memory_passTo] at hresult
  split at hresult
  · obtain ⟨-, hmemory⟩ := Prod.mk.inj hresult
    rw [hmemory]
    exact hlists
  · obtain ⟨hanswer, hmemory⟩ := Prod.mk.inj hresult
    rw [hmemory]
    rw [hanswer] at hspared
    exact hlists.perform hindexed hspared

/-- A version stays as long as its subject does. -/
theorem IsQuiet.lists_run (h : s.IsQuiet) (hindexed : s.memory.IsIndexed)
    (hlists : s.memory.Lists subject d id) (hspares : Spares subject visits s) :
    (Staged.run visits s).memory.Lists subject d id := by
  induction visits generalizing s with
  | nil => exact hlists
  | cons v rest ih =>
    obtain ⟨hspared, hrest⟩ := hspares
    have hindexed' : (s.visit v).2.memory.IsIndexed :=
      h.memory_along hindexed (fun _ request hm => hm.perform request) [v]
    exact ih (h.visit_spec v).quiet hindexed' (h.lists_visit hindexed hlists hspared) hrest

theorem isIndexed_run (visits : List Visit) : (run visits .empty).memory.IsIndexed :=
  isQuiet_empty.memory_along Memory.isIndexed_empty (fun _ request h => h.perform request) visits

/-! ### Registering, and what comes of it -/

/-- A registration that has been answered went well in the memory. -/
theorem IsQuiet.visit_register_of_ok (h : s.IsQuiet) (hrequest : v.request = .register subject d)
    (hanswer : (s.visit v).1 = .ok (.id id)) :
    ∃ r, (s.memory.register subject d).1 = .ok r ∧ r.id = id ∧
      (s.visit v).2.memory = (s.memory.register subject d).2 := by
  have hperform := h.visit_of_ok hanswer
  rw [hrequest, Memory.perform, Prod.mk.injEq] at hperform
  obtain ⟨hreply, hmemory⟩ := hperform
  cases hregister : (s.memory.register subject d).1 with
  | error e =>
    rw [hregister] at hreply
    contradiction
  | ok r =>
    rw [hregister] at hreply
    exact ⟨r, rfl, Reply.id.inj (Except.ok.inj hreply), hmemory.symm⟩

/-- A stage on which a registration has been answered. -/
theorem IsOrderly.text?_of_register (h : s.IsOrderly) (hrequest : v.request = .register subject d)
    (hanswer : (s.visit v).1 = .ok (.id id)) :
    (s.visit v).2.memory.text? id = some d.text := by
  obtain ⟨r, hregister, rfl, hmemory⟩ := h.quiet.visit_register_of_ok hrequest hanswer
  rw [hmemory]
  exact h.consistent.register_spec hregister

theorem IsQuiet.lists_of_register (h : s.IsQuiet) (hrequest : v.request = .register subject d)
    (hanswer : (s.visit v).1 = .ok (.id id)) : (s.visit v).2.memory.Lists subject d id := by
  obtain ⟨r, hregister, rfl, hmemory⟩ := h.visit_register_of_ok hrequest hanswer
  rw [hmemory]
  exact Memory.lists_register hregister

/-- A schema that is there is fetched with its descriptor. -/
theorem IsQuiet.visit_fetch (h : s.IsQuiet) (hid : s.memory.text? id = some d.text)
    (hrequest : v.request = .fetch id) (hlive : v.IsLive s) :
    ∃ schema, (s.visit v).1 = .ok (.schema schema) ∧ schema.descriptor = .ok d := by
  obtain ⟨schema, hfetch, hdescriptor⟩ := Memory.fetch_of_text? hid
  refine ⟨schema, ?_, hdescriptor⟩
  have hperform := congrArg Prod.fst (h.visit_of_live hlive)
  rw [hrequest, Memory.perform, hfetch] at hperform
  exact hperform

/-- A descriptor that the subject has is registered under the same ID, and
    nothing changes. -/
theorem IsQuiet.visit_register_again (h : s.IsQuiet) (hlists : s.memory.Lists subject d id)
    (hrequest : v.request = .register subject d) (hlive : v.IsLive s) :
    (s.visit v).1 = .ok (.id id) ∧ (s.visit v).2.memory = s.memory := by
  have hperform := h.visit_of_live hlive
  rw [hrequest, Memory.perform, hlists.register_again] at hperform
  exact Prod.ext_iff.mp hperform

/-- While an ID is live, it is the answer to its own descriptor and to no
    other. -/
theorem IsOrderly.visit_register_eq_iff (h : s.IsOrderly) (hid : s.memory.text? id = some d.text)
    (hrequest : v.request = .register subject d') (hanswer : (s.visit v).1 = .ok (.id id')) :
    id' = id ↔ d' = d := by
  obtain ⟨r, hregister, rfl, -⟩ := h.quiet.visit_register_of_ok hrequest hanswer
  rw [Memory.id_of_register hregister]
  exact h.consistent.id_assign_eq_iff hid

/-- A registration on a fresh registry, some visits later, as long as there
    are IDs to give out. -/
theorem precedes_of_register {t : Staged} {before after : List Visit}
    (hroom : allocations (before ++ v :: after) .empty < 2 ^ 32 - 1)
    (hrequest : v.request = .register subject d)
    (hanswer : (run before .empty).visit v = (.ok (.id id), t)) :
    t.memory.text? id = some d.text ∧ (run after t).IsOrderly ∧
      (run after t).memory.Vouches id d := by
  have hnext : (empty.memory.nextId).toNat = 1 := rfl
  rw [allocations_append] at hroom
  have hroom' : empty.memory.nextId.toNat +
      (allocations before empty + allocations (v :: after) (run before empty)) < 2 ^ 32 := by
    omega
  obtain ⟨hbefore, -, hrest⟩ := isOrderly_empty.precedes_run before hroom'
  rw [allocations] at hrest
  obtain ⟨hvisit, hafter⟩ := Memory.room_of_step (hbefore.quiet.nextId_visit v) hrest
  have ht := hbefore.visit v hvisit
  have hid := hbefore.text?_of_register hrequest (congrArg Prod.fst hanswer)
  rw [hanswer] at ht hid hafter
  obtain ⟨hu, hprecedes, -⟩ := @IsOrderly.precedes_run t ht after 0 hafter
  exact ⟨hid, hu, (ht.consistent.vouches hid).later hprecedes⟩

/-- **Identity**: the ID that a registration is answered with stands for
    the descriptor that was registered.  It is fetched with it at once.  As
    long as the subject is not deleted, registering the descriptor again
    comes to the same ID and changes nothing, be there IDs left or not.
    And while the ID is live, under whatever subject a descriptor is
    registered, it gets this ID exactly if it is the same.

    For the first and the last the counter of IDs must not have run over,
    by the registration and by the end of the run. -/
theorem register_identifies {t : Staged} (before after : List Visit)
    (hrequest : v.request = .register subject d)
    (hanswer : (run before .empty).visit v = (.ok (.id id), t)) :
    (allocations (before ++ [v]) .empty < 2 ^ 32 - 1 →
      ∀ w : Visit, w.request = .fetch id → w.IsLive t →
        ∃ schema, (t.visit w).1 = .ok (.schema schema) ∧ schema.descriptor = .ok d) ∧
    (Spares subject after t →
      ∀ w : Visit, w.request = .register subject d → w.IsLive (run after t) →
        ((run after t).visit w).1 = .ok (.id id) ∧
          ((run after t).visit w).2.memory = (run after t).memory) ∧
    (allocations (before ++ v :: after) .empty < 2 ^ 32 - 1 → (run after t).memory.IsLive id →
      ∀ (w : Visit) (subject' : String) (d' : Descriptor) (id' : UInt32),
        w.request = .register subject' d' → ((run after t).visit w).1 = .ok (.id id') →
        (id' = id ↔ d' = d)) := by
  have hbefore : (run before .empty).IsQuiet := isQuiet_empty.run before
  have ht : t.IsQuiet := by
    have hvisit := (hbefore.visit_spec v).quiet
    rwa [hanswer] at hvisit
  refine ⟨?fetched, ?again, ?told⟩
  case fetched =>
    intro hroom w hfetch hlive
    obtain ⟨hid, -⟩ := precedes_of_register hroom hrequest hanswer
    exact ht.visit_fetch hid hfetch hlive
  case again =>
    -- what the subject lists does not depend on how many IDs were given out
    intro hspares w hagain hlive
    have hlists := hbefore.lists_of_register hrequest (congrArg Prod.fst hanswer)
    have hindexed : t.memory.IsIndexed := by
      have hboth := isIndexed_run (before ++ [v])
      rw [run_append] at hboth
      rwa [run, hanswer] at hboth
    rw [hanswer] at hlists
    exact (ht.run after).visit_register_again (ht.lists_run hindexed hlists hspares) hagain hlive
  case told =>
    -- at the end of the run the ID still stands for the descriptor, if it is live
    intro hroom hlive w subject' d' id' hother hanswer'
    obtain ⟨-, hu, hvouches⟩ := precedes_of_register hroom hrequest hanswer
    exact hu.visit_register_eq_iff (hvouches.text?_of_isLive hlive) hother hanswer'

def order (d : Descriptor) : Visit :=
  { idle := 0, context := .unbounded, request := .register "orders" d }

/-- A second subject has the schema for a while, and an attempt to delete
    the first one is cancelled. -/
def meanwhile (d : Descriptor) : List Visit :=
  [{ idle := 5, context := .unbounded, request := .register "copies" d },
    { idle := 0, context := { Context.unbounded with cancelAt := some 0 },
      request := .delete "orders" },
    { idle := 0, context := .unbounded, request := .delete "copies" }]

/-- Long after, the ID still stands for the schema and for no other. -/
theorem order_identified :
    ∃ t, (run [] .empty).visit (order .keywords) = (.ok (.id 1), t) ∧
      (∃ schema, (t.visit (.atOnce (.fetch 1))).1 = .ok (.schema schema) ∧
        schema.descriptor = .ok .keywords) ∧
      Spares "orders" (meanwhile .keywords) t ∧
      ((run (meanwhile .keywords) t).visit (order .keywords)).1 = .ok (.id 1) ∧
      ((run (meanwhile .keywords) t).visit (order .keywords)).2.memory =
        (run (meanwhile .keywords) t).memory ∧
      (run (meanwhile .keywords) t).memory.IsLive 1 ∧
      ∀ d' id', ((run (meanwhile .keywords) t).visit (.atOnce (.register "signals" d'))).1 =
        .ok (.id id') → (id' = 1 ↔ d' = .keywords) := by
  let t := (Staged.empty.visit (order .keywords)).2
  have hregister : (run [] .empty).visit (order .keywords) = (.ok (.id 1), t) := rfl
  have hfirst : allocations ([] ++ [order .keywords]) .empty < 2 ^ 32 - 1 :=
    Nat.lt_of_le_of_lt (allocations_le_length _ _) (by decide)
  have hroom : allocations ([] ++ order .keywords :: meanwhile .keywords) .empty < 2 ^ 32 - 1 :=
    Nat.lt_of_le_of_lt (allocations_le_length _ _) (by decide)
  have hquiet : (run ((meanwhile .keywords).take 1) t).IsQuiet :=
    isQuiet_empty.run (order .keywords :: (meanwhile .keywords).take 1)
  have hspares : Spares "orders" (meanwhile .keywords) t :=
    ⟨by simp, fun _ => ⟨.cancelled, hquiet.visit_of_isCancelled (by simp [Context.isCancelled])⟩,
      by simp, trivial⟩
  have hlive : (run (meanwhile .keywords) t).memory.IsLive 1 :=
    Option.isSome_iff_exists.mp (by decide +kernel)
  obtain ⟨hfetched, hagain, htold⟩ := register_identifies [] (meanwhile .keywords) rfl hregister
  obtain ⟨hanswer, hmemory⟩ := hagain hspares (order .keywords) rfl rfl
  exact ⟨t, hregister, hfetched hfirst (.atOnce (.fetch 1)) rfl rfl, hspares, hanswer, hmemory,
    hlive, fun d' id' => htold hroom hlive _ "signals" d' id' rfl⟩

/-- A look at a schema by somebody who has cancelled. -/
def turnedAway (id : UInt32) : Visit :=
  { idle := 0
    context := { Context.unbounded with cancelAt := some 0 }
    request := .fetch id }

/-- Once the counter of IDs has run over, an ID may be given out that stands
    for nothing, or that stands for another schema.  And who has cancelled
    does not see what an ID stands for. -/
theorem not_identifies :
    (∃ t, (frayed .keywords .signal (2 ^ 32 - 1)).visit (.atOnce (.register "a" .keywords)) =
        (.ok (.id 1), t) ∧
      (t.visit (.atOnce (.fetch 1))).1 = .error (.schemaNotFound 1)) ∧
    (∃ t, Staged.empty.visit (.atOnce (.register "a" .keywords)) = (.ok (.id 1), t) ∧
      (passed .signal (2 ^ 32 - 1) t).memory.IsLive 1 ∧
      ((passed .signal (2 ^ 32 - 1) t).visit (.atOnce (.register "b" .signal))).1 = .ok (.id 1) ∧
      Descriptor.signal ≠ .keywords) ∧
    ∃ t, Staged.empty.visit (order .keywords) = (.ok (.id 1), t) ∧
      (t.visit (turnedAway 1)).1 = .error .cancelled := by
  have htext := Descriptor.text_keywords_ne
  have hn : 2 ^ 32 - 1 + 1 = 2 ^ 32 := by decide
  obtain ⟨t, hregister, hlive, hanswer⟩ := visit_round htext hn
  have hother : Descriptor.signal ≠ .keywords :=
    fun heq => htext (congrArg Descriptor.text heq).symm
  let ordered := (Staged.empty.visit (order .keywords)).2
  have hordered : Staged.empty.visit (order .keywords) = (.ok (.id 1), ordered) := rfl
  exact ⟨visit_frayed htext hn, ⟨t, hregister, ⟨_, hlive⟩, hanswer, hother⟩, ordered, hordered, rfl⟩

end Staged

end EventCodec
