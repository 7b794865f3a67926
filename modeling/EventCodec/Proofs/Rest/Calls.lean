import EventCodec.Proofs.Registry.Run
import EventCodec.Proofs.Rest.Exchange

/-! # Calls to the service

    Each call of a client to a service that holds a memory leaves it with
    the memory that the same call leaves (`Agrees`), and is answered
    alike.  Only a newest schema that is lost is something else for a client
    than for the memory (`seen`). -/

namespace EventCodec

open Schema
open Registry (Reply)

namespace Memory

variable {m : Memory} {subject : String}

/-- A registration fails over the subject or over its newest schema. -/
theorem covers_of_register {d : Descriptor} {e : RegistryError}
    (h : (m.register subject d).1 = .error e) : (Rest.Target.subject subject).covers e := by
  have hcheck : ∀ versions, m.checkLatest subject versions d = .error e →
      (Rest.Target.subject subject).covers e := by
    intro versions hcheck
    unfold checkLatest at hcheck
    split at hcheck
    · contradiction
    · split at hcheck
      · obtain rfl := Except.error.inj hcheck
        exact trivial
      · split at hcheck
        · obtain rfl := Except.error.inj hcheck
          exact rfl
        · contradiction
  rcases m.register_cases subject d with ⟨id, _, _, heq⟩ | ⟨e', he, heq⟩ | ⟨_, _, heq⟩
  · rw [heq] at h
    contradiction
  · rw [heq] at h
    obtain rfl := Except.error.inj h
    exact hcheck _ he
  · rw [heq] at h
    contradiction

theorem covers_of_delete {e : RegistryError} (h : (m.delete subject).1 = .error e) :
    (Rest.Target.subject subject).covers e := by
  unfold delete at h
  split at h
  · obtain rfl := Except.error.inj h
    exact rfl
  · contradiction

theorem covers_of_fetch {id : UInt32} {e : RegistryError} (h : m.fetch id = .error e) :
    (Rest.Target.schema id).covers e := by
  unfold fetch at h
  split at h
  · obtain rfl := Except.error.inj h
    exact rfl
  · contradiction

/-- The newest schema is missing with its subject, or else by itself. -/
theorem covers_of_latest {e : RegistryError} (h : m.latest subject = .error e) :
    (Rest.Target.subject subject).covers e ∨ ∃ id, e = .schemaNotFound id := by
  unfold latest at h
  split at h
  · obtain rfl := Except.error.inj h
    exact .inl rfl
  · split at h
    · obtain rfl := Except.error.inj h
      exact .inl rfl
    · split at h
      · obtain rfl := Except.error.inj h
        exact .inr ⟨_, rfl⟩
      · contradiction

theorem eq_of_fetch {id : UInt32} {schema : RegisteredSchema} (h : m.fetch id = .ok schema) :
    schema = { id, subject := none, version := none
               schemaType := .protobuf, text := schema.text } := by
  unfold fetch at h
  split at h
  · contradiction
  · obtain rfl := Except.ok.inj h
    rfl

theorem eq_of_latest {schema : RegisteredSchema} (h : m.latest subject = .ok schema) :
    ∃ version, schema.version = some version ∧
      schema = { id := schema.id, subject := some subject, version := some version
                 schemaType := .protobuf, text := schema.text } := by
  unfold latest at h
  split at h
  · contradiction
  · split at h
    · contradiction
    · split at h
      · contradiction
      · obtain rfl := Except.ok.inj h
        exact ⟨_, rfl, rfl⟩

end Memory

namespace Rest

open Url (segmentOf)
open Facade

variable {c : Client} {f : Facade} {m : Memory} {now : Nat} {ctx : Context} {α : Type}

/-! ### The state of the service -/

/-- Nothing is planned for the service, and it has a memory. -/
structure Facade.Holds (f : Facade) (m : Memory) (now : Nat) : Prop where
  quiet : f.stage.IsQuiet
  memory : f.stage.memory = m
  now : f.stage.now = now

theorem Facade.Holds.note (h : f.Holds m now) (address : List Char) (e : Journal.Entry) :
    ((peer address).note e f).Holds m now :=
  ⟨h.quiet.note e, h.memory, h.now⟩

/-- Time that passes changes nothing else. -/
theorem Facade.Holds.passTo (h : f.Holds m now) (address : List Char) (idle : Nat) :
    ((peer address).passTo (f.stage.now + idle) f).Holds m (now + idle) := by
  refine ⟨h.quiet.passTo _, (h.quiet.memory_passTo _).trans h.memory, ?_⟩
  show (f.stage.passTo (f.stage.now + idle)).now = now + idle
  rw [h.quiet.now_passTo, h.now, Nat.max_eq_right (Nat.le_add_right _ _)]

/-- A call of the service does what the memory does. -/
theorem Facade.Holds.asked (h : f.Holds m now) {outcome : Except RegistryError α × Staged}
    {does : Except RegistryError α × Memory} (hserves : f.stage.Serves .unbounded outcome does)
    (deleted : List (String × List UInt32)) :
    outcome.1 = does.1 ∧ Facade.Holds { stage := outcome.2, deleted } does.2 now := by
  obtain ⟨hresult, hmemory⟩ := Prod.mk.inj (hserves.of_live rfl)
  exact ⟨hresult, hserves.quiet, hmemory, hserves.now.trans h.now⟩

/-- A call of a client ends as a call to the memory does. -/
structure Agrees (via : Except RegistryError α × Facade) (does : Except RegistryError α × Memory)
    (now : Nat) : Prop where
  answer : SameAnswer via.1 does.1
  holds : via.2.Holds does.2 now

/-- What a client makes of the answer to a call.  That the newest schema
    of a subject is lost is not about the subject, so it is an error of the
    service. -/
def seen : Registry.Request → Except RegistryError α → Except RegistryError α
  | .latest _, .error (.schemaNotFound id) =>
    .error (.server 404 (RegistryError.schemaNotFound id).message)
  | _, result => result

theorem map_seen {β : Type} (request : Registry.Request) (result : Except RegistryError α)
    (kind : α → β) : (seen request result).map kind = seen request (result.map kind) := by
  cases request with
  | latest subject =>
    cases result with
    | error e => cases e <;> rfl
    | ok a => rfl
  | register | fetch | delete | subjects => rfl

/-- An error over the subject or over its newest schema is relayed. -/
theorem sameAnswer_seen {subject : String} {result : Except RegistryError α}
    (h : ∀ e, result = .error e →
      (Target.subject subject).covers e ∨ ∃ id, e = .schemaNotFound id) :
    SameAnswer (result.mapError (relayed (.subject subject))) (seen (.latest subject) result) := by
  by_cases hlost : ∃ id, result = .error (.schemaNotFound id)
  · obtain ⟨id, rfl⟩ := hlost
    exact congrArg Except.error rfl
  · have hcovers : ∀ e, result = .error e → (Target.subject subject).covers e := by
      intro e he
      refine (h e he).resolve_right ?_
      rintro ⟨id, rfl⟩
      exact hlost ⟨id, he⟩
    have hseen : seen (.latest subject) result = result := by
      cases result with
      | ok a => rfl
      | error e =>
        cases e with
        | schemaNotFound id => exact absurd ⟨id, rfl⟩ hlost
        | _ => rfl
    rw [hseen]
    exact sameAnswer_relayed hcovers

/-- A call of a client ends as the service answers what it was asked. -/
theorem Facade.IsAskable.send {method : Method} {url : Url} {body : Option String}
    {segments : List String} {resource : Resource} {write : α → List Char}
    {result : Except RegistryError α} {f' : Facade} (h : IsAskable ctx url)
    (read? : Json → Option α) (target : Target) (hlive : IsLive ctx f.stage.now)
    (hnames : Names c url segments) (hwhole : IsWhole segments)
    (hresource : resource? segments = some resource)
    (hserve : ∀ request, IsRequest request method url body →
      f.serve request (url.query.getD "").toList resource = (answer write result, f'))
    (hread : ∀ a, result = .ok a → Reads (write a) read? a) :
    c.send (peer (addressOf c)) read? target method url body ctx f =
      (result.mapError (relayed target), f') := by
  obtain ⟨request, hbuilt, hrequest⟩ := h.exists_request c method body
  refine send_answer hlive hbuilt ?_ hread
  rw [deliver_names hrequest.url hnames hwhole hresource f]
  exact hserve request hrequest

/-- So it does where the service asks its registry. -/
theorem Facade.IsAskable.ask {method : Method} {url : Url} {body : Option String}
    {segments : List String} {resource : Resource} {write : α → List Char}
    {call : Staged → Except RegistryError α × Staged} {does : Except RegistryError α × Memory}
    (h : IsAskable ctx url) (read? : Json → Option α) (target : Target) (hf : f.Holds m now)
    (hlive : IsLive ctx now) (hnames : Names c url segments) (hwhole : IsWhole segments)
    (hresource : resource? segments = some resource)
    (hserve : ∀ request query, IsRequest request method url body →
      f.serve request query resource = f.ask write call)
    (hserves : f.stage.Serves .unbounded (call f.stage) does)
    (hread : ∀ a, does.1 = .ok a → Reads (write a) read? a) :
    ∃ f', c.send (peer (addressOf c)) read? target method url body ctx f =
        (does.1.mapError (relayed target), f') ∧
      f'.Holds does.2 now ∧ f'.deleted = f.deleted := by
  obtain ⟨hresult, hholds⟩ := hf.asked hserves f.deleted
  have hanswer : f.ask write call = (answer write does.1, { f with stage := (call f.stage).2 }) := by
    rw [← hresult]
    rfl
  exact ⟨_, h.send read? target (hf.now ▸ hlive) hnames hwhole hresource
    (fun request hrequest => (hserve request _ hrequest).trans hanswer) hread, hholds, rfl⟩

/-! ### One call -/

theorem subjects_agrees (h : f.Holds m now) (hlive : IsLive ctx now)
    (hasks : IsAskable ctx c.subjectsUrl) :
    Agrees (c.subjects (peer (addressOf c)) ctx f) (.ok m.subjectNames, m) now := by
  have hserves := h.quiet.serves_subjects .unbounded
  rw [h.memory] at hserves
  have hserve : ∀ request query, IsRequest request .get c.subjectsUrl none →
      f.serve request query .subjects = f.ask namesText (Staged.registry.subjects .unbounded) :=
    fun request query hrequest => serve_subjects hrequest.method
  obtain ⟨f', hsend, hholds, -⟩ := hasks.ask subjects? .registry h hlive names_subjects
    (by simp [IsWhole]) rfl hserve hserves (fun names _ => reads_names names)
  rw [Client.subjects, hsend]
  exact ⟨rfl, hholds⟩

theorem fetch_agrees (h : f.Holds m now) (hlive : IsLive ctx now) {id : UInt32}
    (hasks : IsAskable ctx (c.schemaUrl id)) :
    Agrees (c.fetch (peer (addressOf c)) id ctx f) (m.fetch id, m) now := by
  have hserves := h.quiet.serves_fetch id .unbounded
  rw [h.memory] at hserves
  have hserve : ∀ request query, IsRequest request .get (c.schemaUrl id) none →
      f.serve request query (.schema (toString id.toNat)) =
        f.ask schemaText (Staged.registry.fetch id .unbounded) :=
    fun request query hrequest => serve_schema hrequest.method id
  have hread : ∀ schema, m.fetch id = .ok schema → Reads (schemaText schema) (schema? id) schema := by
    intro schema hschema
    have hreads := reads_schema id schema
    rwa [← Memory.eq_of_fetch hschema] at hreads
  obtain ⟨f', hsend, hholds, -⟩ := hasks.ask (schema? id) (.schema id) h hlive
    (names_schema id) (isWhole_schema id) (resource?_schema id) hserve hserves hread
  rw [Client.fetch, hsend]
  cases hfetch : m.fetch id with
  | error e =>
    have hcovers := Memory.covers_of_fetch hfetch
    exact ⟨congrArg Except.error (wordless_relayed hcovers), hholds⟩
  | ok schema => exact ⟨rfl, hholds.note (addressOf c) _⟩

section Subjects

variable {subject : String}

/-- A subject that can be asked for fits a URL. -/
theorem Facade.IsNamed.length_le_longestUrl (h : IsNamed subject) {rest : List String}
    (hrest : ∀ w ∈ rest, Url.IsWord w)
    (hasks : IsAskable ctx (c.base.append ("subjects" :: subject :: rest))) :
    subject.length ≤ Client.longestUrl := by
  have hmem : segmentOf subject.toList ∈
      (c.base.append ("subjects" :: subject :: rest)).takeUser.2.path := by
    rw [Url.path_takeUser, h.plain.path_append c hrest]
    simp
  have htext := Url.length_le_text hmem
  have hsegment := Url.length_le_encode Url.isRefusedInSegment subject.toList
  have hurl := hasks.url
  simp only [Client.isRequestable, Bool.and_eq_true, decide_eq_true_eq] at hurl
  rw [segmentOf, String.length_ofList] at htext
  rw [String.length_toList] at hsegment
  omega

theorem latest_agrees (h : f.Holds m now) (hlive : IsLive ctx now) (hnamed : IsNamed subject)
    (hasks : IsAskable ctx (c.latestUrl subject)) :
    Agrees (c.latest (peer (addressOf c)) subject ctx f)
      (seen (.latest subject) (m.latest subject), m) now := by
  have hserves := h.quiet.serves_latest subject .unbounded
  rw [h.memory] at hserves
  have hserve : ∀ request query, IsRequest request .get (c.latestUrl subject) none →
      f.serve request query (.latest (segmentOf subject.toList)) =
        f.ask (latestText subject) (Staged.registry.latest subject .unbounded) :=
    fun request query hrequest => serve_latest hrequest.method subject
  have hread : ∀ schema, m.latest subject = .ok schema →
      Reads (latestText subject schema) latest? schema := by
    intro schema hschema
    obtain ⟨version, hversion, heq⟩ := Memory.eq_of_latest hschema
    have hreads := reads_latest subject hversion
    rwa [← heq] at hreads
  obtain ⟨f', hsend, hholds, -⟩ := hasks.ask latest? (.subject subject) h hlive
    (hnamed.names (isWord_after (by simp))) (isWhole_subject _ (by simp [IsWhole]))
    hnamed.resource?_latest hserve hserves hread
  rw [Client.latest, hsend]
  exact ⟨sameAnswer_seen fun e he => Memory.covers_of_latest he, hholds⟩

/-- A registration leaves alone what the service remembers. -/
theorem register_spec (h : f.Holds m now) (hlive : IsLive ctx now) (hnamed : IsNamed subject)
    (hasks : IsAskable ctx (c.registerUrl subject)) (d : Descriptor) :
    Agrees (c.register (peer (addressOf c)) subject d ctx f)
        ((m.register subject d).1.map Memory.Registered.id, (m.register subject d).2) now ∧
      (c.register (peer (addressOf c)) subject d ctx f).2.deleted = f.deleted := by
  have hserves := h.quiet.serves_register subject d .unbounded
  rw [h.memory] at hserves
  have hserve : ∀ request query,
      IsRequest request .post (c.registerUrl subject) (some (Client.registerBody d)) →
      f.serve request query (.versions (segmentOf subject.toList)) =
        f.ask idText (Staged.registry.register subject d .unbounded) := by
    intro request query hrequest
    rw [serve_versions hrequest.method, register_eq (hrequest.json rfl) hrequest.body]
  obtain ⟨f', hsend, hholds, hdeleted⟩ := hasks.ask registeredId? (.subject subject) h hlive
    (hnamed.names (isWord_after (by simp))) (isWhole_subject _ (by simp [IsWhole]))
    hnamed.resource?_versions hserve hserves (fun id _ => reads_id id)
  -- a registration that fails is about the subject
  rw [Client.register, hsend]
  cases hregister : (m.register subject d).1 with
  | error e =>
    have hcovers := Memory.covers_of_register hregister
    exact ⟨⟨congrArg Except.error (wordless_relayed hcovers), hholds⟩, hdeleted⟩
  | ok r => exact ⟨⟨rfl, hholds.note (addressOf c) _⟩, hdeleted⟩

/-- The first step of a deletion is remembered. -/
theorem Facade.Holds.delete (h : f.Holds m now) {query : List Char}
    (hquery : isForGood query = false) (subject : String) :
    ∃ f', f.delete subject query = (answer versionsText (m.delete subject).1, f') ∧
      f'.Holds (m.delete subject).2 now ∧
      ∀ versions, (m.delete subject).1 = .ok versions →
        Table.get? subject f'.deleted = some versions := by
  have hserves := h.quiet.serves_delete subject .unbounded
  rw [h.memory] at hserves
  have hasked := h.asked hserves
  unfold Facade.delete
  rw [hquery]
  generalize Staged.registry.delete subject .unbounded f.stage = outcome at hasked
  -- a deletion that fails leaves nothing to remember
  rcases outcome with ⟨e | versions, stage⟩
  · obtain ⟨hresult, hholds⟩ := hasked f.deleted
    rw [← hresult]
    exact ⟨_, rfl, hholds, nofun⟩
  · obtain ⟨hresult, hholds⟩ := hasked (Table.insert subject versions f.deleted)
    rw [← hresult]
    refine ⟨_, rfl, hholds, ?_⟩
    intro versions' hversions
    obtain rfl := Except.ok.inj hversions
    rw [Table.get?_insert, if_pos rfl]

/-- The second step names the versions once more and forgets them. -/
theorem Facade.delete_forGood {query : List Char} (hquery : isForGood query = true)
    {versions : List UInt32} (hdeleted : Table.get? subject f.deleted = some versions) :
    f.delete subject query =
      (answer versionsText (.ok versions),
        { f with deleted := Table.erase subject f.deleted }) := by
  rw [Facade.delete, hquery, hdeleted]
  rfl

/-- What it does not remember it cannot name. -/
theorem Facade.delete_unknown {query : List Char} (hquery : isForGood query = true)
    (hdeleted : Table.get? subject f.deleted = none) :
    f.delete subject query = (answer versionsText (.error (.subjectNotFound subject)), f) := by
  rw [Facade.delete, hquery, hdeleted]
  rfl

theorem delete_agrees (h : f.Holds m now) (hlive : IsLive ctx now) (hnamed : IsNamed subject)
    (hquery : isForGood (c.base.query.getD "").toList = false)
    (hasks : IsAskable ctx (c.subjectUrl subject))
    (hgood : c.config.permanentDelete = true →
      IsAskable ctx ((c.subjectUrl subject).addQuery "permanent" "true")) :
    Agrees (c.delete (peer (addressOf c)) subject ctx f) (m.delete subject) now := by
  have hnames : Names c (c.subjectUrl subject) ["subjects", segmentOf subject.toList] :=
    hnamed.names (isWord_after (by simp))
  have hwhole : IsWhole ["subjects", segmentOf subject.toList] :=
    isWhole_subject _ (by simp [IsWhole])
  obtain ⟨f', hdelete, hholds, hremembers⟩ := h.delete hquery subject
  have hsend := hasks.send versions? (.subject subject) (h.now ▸ hlive) hnames hwhole
    hnamed.resource?_subject
    (fun request (hrequest : IsRequest request .delete _ none) =>
      (serve_subject hrequest.method subject).trans hdelete)
    (fun versions _ => reads_versions versions)
  rw [Client.delete, hsend]
  cases hresult : (m.delete subject).1 with
  | error e =>
    have hcovers := Memory.covers_of_delete hresult
    refine ⟨?_, hholds⟩
    rw [hresult]
    exact congrArg Except.error (wordless_relayed hcovers)
  | ok versions =>
    have hok : (Except.ok versions).mapError (relayed (.subject subject)) = .ok versions := rfl
    rw [hok]
    dsimp only
    rw [Client.deleteForGood]
    by_cases hpermanent : c.config.permanentDelete = true
    · -- the service has what the first step remembered
      have hserved := delete_forGood (isForGood_addQuery (c.subjectUrl subject))
        (hremembers versions hresult)
      have hsecond := (hgood hpermanent).send versions? (.subject subject) (hholds.now ▸ hlive)
        (hnames.addQuery "permanent" "true") hwhole hnamed.resource?_subject
        (fun request (hrequest : IsRequest request .delete _ none) =>
          (serve_subject hrequest.method subject).trans hserved)
        (fun versions _ => reads_versions versions)
      rw [if_pos hpermanent, hsecond]
      exact ⟨congrArg _ hresult.symm, hholds.quiet.note _, hholds.memory, hholds.now⟩
    · rw [if_neg hpermanent]
      exact ⟨congrArg _ hresult.symm, hholds.note (addressOf c) _⟩

/-- Where the base asks for good, the first step finds nothing to
    delete. -/
theorem delete_of_forGood (hlive : IsLive ctx f.stage.now) (hnamed : IsNamed subject)
    (hquery : isForGood (c.base.query.getD "").toList = true)
    (hasks : IsAskable ctx (c.subjectUrl subject))
    (hdeleted : Table.get? subject f.deleted = none) :
    (c.delete (peer (addressOf c)) subject ctx f).1 =
      .error (relayed (.subject subject) (.subjectNotFound subject)) := by
  have hnames : Names c (c.subjectUrl subject) ["subjects", segmentOf subject.toList] :=
    hnamed.names (isWord_after (by simp))
  have hsend := hasks.send versions? (.subject subject) hlive hnames
    (isWhole_subject _ (by simp [IsWhole])) hnamed.resource?_subject
    (fun request (hrequest : IsRequest request .delete _ none) =>
      (serve_subject hrequest.method subject).trans (delete_unknown hquery hdeleted))
    (fun versions _ => reads_versions versions)
  rw [Client.delete, hsend]
  rfl

end Subjects

end Rest

end EventCodec
