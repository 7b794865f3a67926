import EventCodec.Proofs.Registry.Memory
import EventCodec.Registry.Staged

/-! # Runs of the registry in memory

    Calls are made one after the other, each under a context of its own
    and some time after the one before.  As long as nothing is planned on
    the stage, a call is either cancelled and changes nothing, or does
    what the memory does (`visit_spec`).  So what the memory's operations
    preserve holds after every run. -/

namespace EventCodec

open Schema

/-! ### Requests -/

namespace Registry

/-- A call with what it is given. -/
inductive Request where
  | register (subject : String) (d : Descriptor)
  | fetch (id : UInt32)
  | delete (subject : String)
  | latest (subject : String)
  | subjects

inductive Reply where
  | id (id : UInt32)
  | schema (schema : RegisteredSchema)
  | versions (versions : List UInt32)
  | subjects (names : List String)

/-- The answer of a call as a reply. -/
def reply {α σ : Type} (kind : α → Reply) (answer : Except RegistryError α × σ) :
    Except RegistryError Reply × σ :=
  (answer.1.map kind, answer.2)

/-- What was registered is shown by its ID. -/
theorem map_registered (result : Except RegistryError Memory.Registered) :
    (result.map Memory.Registered.id).map Reply.id = result.map fun r => Reply.id r.id := by
  cases result <;> rfl

/-- Makes a call. -/
def send {σ : Type} (r : Registry σ) (ctx : Context) (s : σ) :
    Request → Except RegistryError Reply × σ
  | .register subject d => reply .id (r.register subject d ctx s)
  | .fetch id => reply .schema (r.fetch id ctx s)
  | .delete subject => reply .versions (r.delete subject ctx s)
  | .latest subject => reply .schema (r.latest subject ctx s)
  | .subjects => reply .subjects (r.subjects ctx s)

end Registry

open Registry (Request Reply)

namespace Memory

/-- What a request comes to. -/
def perform (m : Memory) : Request → Except RegistryError Reply × Memory
  | .register subject d =>
    ((m.register subject d).1.map fun r => .id r.id, (m.register subject d).2)
  | .fetch id => ((m.fetch id).map .schema, m)
  | .delete subject => Registry.reply .versions (m.delete subject)
  | .latest subject => ((m.latest subject).map .schema, m)
  | .subjects => (.ok (.subjects m.subjectNames), m)

variable {m : Memory} {request : Request}

theorem IsConsistent.perform (h : m.IsConsistent)
    (hroom : (m.perform request).2.nextId ≠ m.nextId → m.nextId.toNat + 1 < 2 ^ 32) :
    (m.perform request).2.IsConsistent := by
  cases request with
  | register subject d => exact h.register subject d hroom
  | delete subject => exact h.delete subject
  | fetch | latest | subjects => exact h

theorem nextId_perform (m : Memory) (request : Request) :
    (m.perform request).2.nextId = m.nextId ∨ (m.perform request).2.nextId = m.nextId + 1 := by
  cases request with
  | register subject d => exact m.nextId_register subject d
  | delete subject => exact .inl nextId_delete
  | fetch | latest | subjects => exact .inl rfl

/-- The counter does not run over between one memory and the next. -/
def HasRoom (m m' : Memory) : Prop :=
  m'.nextId ≠ m.nextId → m.nextId.toNat + 1 < 2 ^ 32

/-- While the counter and the IDs still to be given out stay below the
    limit, a step that gives one out has room for it, and leaves room for
    the others. -/
theorem room_of_step {m m' : Memory} {later : Nat}
    (hnext : m'.nextId = m.nextId ∨ m'.nextId = m.nextId + 1)
    (hroom : m.nextId.toNat + ((if m'.nextId = m.nextId then 0 else 1) + later) < 2 ^ 32) :
    m.HasRoom m' ∧ m'.nextId.toNat + later < 2 ^ 32 := by
  rcases hnext with hsame | hnext
  · rw [if_pos hsame] at hroom
    refine ⟨fun hfresh => absurd hsame hfresh, ?_⟩
    rw [hsame]
    omega
  · have hfresh : m'.nextId ≠ m.nextId := by
      rw [hnext]
      simp
    rw [if_neg hfresh] at hroom
    refine ⟨fun _ => by omega, ?_⟩
    rw [hnext, toNat_next (by omega)]
    omega

end Memory

/-! ### Calls on a stage -/

namespace Staged

/-- Nothing is planned: calls take no time and do not fail, and there is
    nothing but the memory behind them. -/
structure IsQuiet (s : Staged) : Prop where
  delay : ∀ call, (s.plans.get call).delay = 0
  failure : ∀ call, (s.plans.get call).failure = none
  planted : s.planted = []
  background : s.background = []

/-- The stage after a call has been counted. -/
def counted (s : Staged) (call : Call) : Staged :=
  { s with plans := s.plans.modify (fun p => { p with count := p.count + 1 }) call }

variable {s s' : Staged} {α : Type}

theorem isQuiet_empty : empty.IsQuiet where
  delay := by intro call; cases call <;> rfl
  failure := by intro call; cases call <;> rfl
  planted := rfl
  background := rfl

theorem IsQuiet.counted (h : s.IsQuiet) (call : Call) : (s.counted call).IsQuiet where
  delay := by
    intro other
    have hdelay := h.delay other
    cases call <;> cases other <;> exact hdelay
  failure := by
    intro other
    have hfailure := h.failure other
    cases call <;> cases other <;> exact hfailure
  planted := h.planted
  background := h.background

theorem IsQuiet.passTo_eq (h : s.IsQuiet) (instant : Nat) :
    s.passTo instant = { s with now := max s.now instant } := by
  simp only [passTo, h.background, List.length_nil, settle]

theorem IsQuiet.passTo (h : s.IsQuiet) (instant : Nat) : (s.passTo instant).IsQuiet := by
  rw [h.passTo_eq]
  exact ⟨h.delay, h.failure, h.planted, h.background⟩

theorem IsQuiet.memory_passTo (h : s.IsQuiet) (instant : Nat) :
    (s.passTo instant).memory = s.memory := by
  rw [h.passTo_eq]

theorem IsQuiet.now_passTo (h : s.IsQuiet) (instant : Nat) :
    (s.passTo instant).now = max s.now instant := by
  rw [h.passTo_eq]

/-- A call is counted, and its work is done. -/
theorem IsQuiet.perform_eq (h : s.IsQuiet) (call : Call) (ctx : Context)
    (work : Staged → Except RegistryError α × Staged) :
    perform call ctx work s = work (s.counted call) := by
  have hstart : s.start call ctx = ((.ok (), s.now), s.counted call) := by
    rw [start, h.delay call]
    rfl
  have hpass : (s.counted call).passTo s.now = s.counted call := by
    rw [(h.counted call).passTo_eq]
    show { s.counted call with now := max s.now s.now } = _
    rw [Nat.max_self]
    rfl
  have htake : (s.counted call).takeFailure call = (none, s.counted call) := by
    rw [takeFailure, (h.counted call).failure call]
  rw [perform, hstart]
  simp only [hpass, finish, htake]

/-- Work that is done at once is done unless it is cancelled. -/
theorem atOnce_eq (s : Staged) (ctx : Context)
    (work : Staged → Except RegistryError α × Staged) :
    s.atOnce ctx work = if ctx.isCancelled s.now then (.error .cancelled, s) else work s := by
  rw [atOnce, Context.wait_zero]
  cases ctx.isCancelled s.now <;> rfl

/-- A call is answered: it was cancelled and changed nothing, or it came to
    what it should (`does`).  Either way it took no time and left nothing
    planned. -/
structure Serves (s : Staged) (ctx : Context) (answer : Except RegistryError α × Staged)
    (does : Except RegistryError α × Memory) : Prop where
  quiet : answer.2.IsQuiet
  now : answer.2.now = s.now
  result : (answer.1, answer.2.memory) =
    if ctx.isCancelled s.now then (.error .cancelled, s.memory) else does

/-- What the work of a call comes to when nobody cancels it. -/
structure Does (s : Staged) (answer : Except RegistryError α × Staged)
    (does : Except RegistryError α × Memory) : Prop where
  quiet : answer.2.IsQuiet
  now : answer.2.now = s.now
  result : (answer.1, answer.2.memory) = does

theorem IsQuiet.setMemory (h : s.IsQuiet) (memory : Memory) :
    ({ s with memory } : Staged).IsQuiet :=
  ⟨h.delay, h.failure, h.planted, h.background⟩

theorem IsQuiet.note (h : s.IsQuiet) (entry : Journal.Entry) : (s.note entry).IsQuiet :=
  ⟨h.delay, h.failure, h.planted, h.background⟩

/-- It is enough to look at the work of a call. -/
theorem IsQuiet.serves_perform (h : s.IsQuiet) (call : Call) (ctx : Context)
    {work : Staged → Except RegistryError α × Staged} {does : Except RegistryError α × Memory}
    (hwork : (s.counted call).Does (work (s.counted call)) does) :
    s.Serves ctx (perform call ctx (atOnce ctx work) s) does := by
  rw [h.perform_eq, atOnce_eq]
  -- being counted takes no time
  have hnow : (s.counted call).now = s.now := rfl
  rw [hnow]
  by_cases hcancelled : ctx.isCancelled s.now = true
  · rw [if_pos hcancelled]
    refine ⟨h.counted call, rfl, ?_⟩
    rw [if_pos hcancelled]
    rfl
  · rw [if_neg hcancelled]
    refine ⟨hwork.quiet, hwork.now, ?_⟩
    rw [if_neg hcancelled]
    exact hwork.result

theorem IsQuiet.serves_register (h : s.IsQuiet) (subject : String) (d : Descriptor)
    (ctx : Context) :
    s.Serves ctx (registry.register subject d ctx s)
      ((s.memory.register subject d).1.map Memory.Registered.id,
        (s.memory.register subject d).2) := by
  refine h.serves_perform .register ctx ?_
  have hcounted := h.counted .register
  have hmemory : (s.counted .register).memory = s.memory := rfl
  unfold doRegister
  rw [hmemory]
  rcases s.memory.register subject d with ⟨e | r, memory⟩
  · exact ⟨hcounted.setMemory memory, rfl, rfl⟩
  · exact ⟨(hcounted.setMemory memory).note _, rfl, rfl⟩

theorem IsQuiet.does_doDelete (h : s.IsQuiet) (subject : String) :
    s.Does (doDelete subject s) (s.memory.delete subject) := by
  unfold doDelete
  rcases s.memory.delete subject with ⟨e | versions, memory⟩
  · exact ⟨h.setMemory memory, rfl, rfl⟩
  · exact ⟨(h.setMemory memory).note _, rfl, rfl⟩

theorem IsQuiet.serves_delete (h : s.IsQuiet) (subject : String) (ctx : Context) :
    s.Serves ctx (registry.delete subject ctx s) (s.memory.delete subject) := by
  refine h.serves_perform .delete ctx ?_
  exact (h.counted .delete).does_doDelete subject

theorem IsQuiet.serves_fetch (h : s.IsQuiet) (id : UInt32) (ctx : Context) :
    s.Serves ctx (registry.fetch id ctx s) (s.memory.fetch id, s.memory) := by
  -- nothing is planted, so the memory is asked
  have hfetch : perform .fetch ctx (doFetch id ctx) s =
      perform .fetch ctx (atOnce ctx fun s => (s.memory.fetch id, s)) s := by
    rw [h.perform_eq, h.perform_eq, doFetch, (h.counted .fetch).planted]
    rfl
  show s.Serves ctx (perform .fetch ctx (doFetch id ctx) s) _
  rw [hfetch]
  exact h.serves_perform .fetch ctx ⟨h.counted .fetch, rfl, rfl⟩

theorem IsQuiet.serves_latest (h : s.IsQuiet) (subject : String) (ctx : Context) :
    s.Serves ctx (registry.latest subject ctx s) (s.memory.latest subject, s.memory) :=
  h.serves_perform .latest ctx ⟨h.counted .latest, rfl, rfl⟩

theorem IsQuiet.serves_subjects (h : s.IsQuiet) (ctx : Context) :
    s.Serves ctx (registry.subjects ctx s) (.ok s.memory.subjectNames, s.memory) :=
  h.serves_perform .subjects ctx ⟨h.counted .subjects, rfl, rfl⟩

section Answers

variable {ctx : Context} {outcome : Except RegistryError α × Staged}
  {does : Except RegistryError α × Memory}

/-- The answer of a call may be seen as a reply. -/
theorem Serves.reply (h : s.Serves ctx outcome does) (kind : α → Reply) :
    s.Serves ctx (Registry.reply kind outcome) (does.1.map kind, does.2) := by
  refine ⟨h.quiet, h.now, ?_⟩
  have hresult := congrArg (fun r => (r.1.map kind, r.2)) h.result
  rw [apply_ite (fun r : Except RegistryError α × Memory => (r.1.map kind, r.2))] at hresult
  exact hresult

/-- A call leaves the memory as it is or does what it should. -/
theorem Serves.memory (h : s.Serves ctx outcome does) :
    outcome.2.memory = s.memory ∨ outcome.2.memory = does.2 := by
  have hmemory := congrArg Prod.snd h.result
  split at hmemory
  · exact .inl hmemory
  · exact .inr hmemory

/-- Only what is cancelled is answered otherwise than it should. -/
theorem Serves.answer (h : s.Serves ctx outcome does) :
    outcome.1 = .error .cancelled ∨ outcome.1 = does.1 := by
  have hanswer := congrArg Prod.fst h.result
  split at hanswer
  · exact .inl hanswer
  · exact .inr hanswer

/-- What is not cancelled is done. -/
theorem Serves.of_live (h : s.Serves ctx outcome does) (hlive : ctx.isCancelled s.now = false) :
    (outcome.1, outcome.2.memory) = does := by
  have hresult := h.result
  rw [hlive] at hresult
  exact hresult

/-- What is answered well has been done. -/
theorem Serves.of_ok {a : α} (h : s.Serves ctx outcome does) (hanswer : outcome.1 = .ok a) :
    does = (.ok a, outcome.2.memory) := by
  have hresult := h.result
  rw [hanswer] at hresult
  split at hresult
  · obtain ⟨hcancelled, -⟩ := Prod.mk.inj hresult
    contradiction
  · exact hresult.symm

end Answers

/-- What is answered with an ID has been registered under it. -/
theorem IsQuiet.register_of_ok (h : s.IsQuiet) {subject : String} {d : Descriptor} {ctx : Context}
    {id : UInt32} (hanswer : (registry.register subject d ctx s).1 = .ok id) :
    ∃ r : Memory.Registered, r.id = id ∧
      s.memory.register subject d = (.ok r, (registry.register subject d ctx s).2.memory) := by
  have hdone := (h.serves_register subject d ctx).of_ok hanswer
  obtain ⟨hreply, hmemory⟩ := Prod.mk.inj hdone
  cases houtcome : (s.memory.register subject d).1 with
  | error e =>
    rw [houtcome] at hreply
    contradiction
  | ok r =>
    rw [houtcome] at hreply
    exact ⟨r, Except.ok.inj hreply, Prod.ext houtcome hmemory⟩

/-- A call to the stage is a call to its memory. -/
theorem IsQuiet.serves_send (h : s.IsQuiet) (ctx : Context) (request : Request) :
    s.Serves ctx (registry.send ctx s request) (s.memory.perform request) := by
  cases request with
  | register subject d =>
    have hserves := (h.serves_register subject d ctx).reply .id
    rwa [Registry.map_registered] at hserves
  | fetch id => exact (h.serves_fetch id ctx).reply .schema
  | delete subject => exact (h.serves_delete subject ctx).reply .versions
  | latest subject => exact (h.serves_latest subject ctx).reply .schema
  | subjects => exact (h.serves_subjects ctx).reply .subjects

/-- A cancelled call leaves the memory as it is. -/
theorem IsQuiet.send_of_isCancelled (h : s.IsQuiet) {ctx : Context}
    (hcancelled : ctx.isCancelled s.now = true) (request : Request) :
    (registry.send ctx s request).1 = .error .cancelled ∧
      (registry.send ctx s request).2.memory = s.memory := by
  have hresult := (h.serves_send ctx request).result
  rw [if_pos hcancelled] at hresult
  exact Prod.mk.inj hresult

/-- At most one request was made of the memory. -/
structure Advances (s s' : Staged) : Prop where
  quiet : s'.IsQuiet
  memory : s'.memory = s.memory ∨ ∃ request, s'.memory = (s.memory.perform request).2

theorem Advances.nextId (h : s.Advances s') :
    s'.memory.nextId = s.memory.nextId ∨ s'.memory.nextId = s.memory.nextId + 1 := by
  rcases h.memory with hmemory | ⟨request, hmemory⟩ <;> rw [hmemory]
  · exact .inl rfl
  · exact s.memory.nextId_perform request

/-! ### Runs -/

/-- A call, some time after the one before. -/
structure Visit where
  /-- The time that passes first. -/
  idle : Nat
  context : Context
  request : Request

def visit (s : Staged) (v : Visit) : Except RegistryError Reply × Staged :=
  registry.send v.context (s.passTo (s.now + v.idle)) v.request

/-- The stage after some visits. -/
def run : List Visit → Staged → Staged
  | [], s => s
  | v :: rest, s => run rest (s.visit v).2

/-- How many new IDs are given out on the way. -/
def allocations : List Visit → Staged → Nat
  | [], _ => 0
  | v :: rest, s =>
    (if (s.visit v).2.memory.nextId = s.memory.nextId then 0 else 1) +
      allocations rest (s.visit v).2

theorem allocations_le_length (visits : List Visit) (s : Staged) :
    allocations visits s ≤ visits.length := by
  induction visits generalizing s with
  | nil => exact Nat.le_refl 0
  | cons v rest ih =>
    have hrest := ih (s.visit v).2
    simp only [allocations, List.length_cons]
    split <;> omega

/-- Nobody has cancelled the call by the time it is made. -/
def Visit.IsLive (v : Visit) (s : Staged) : Prop :=
  v.context.isCancelled (s.now + v.idle) = false

/-- All a visit can do. -/
theorem IsQuiet.visit_spec (h : s.IsQuiet) (v : Visit) :
    (s.passTo (s.now + v.idle)).Serves v.context (s.visit v) (s.memory.perform v.request) := by
  have hserves := (h.passTo (s.now + v.idle)).serves_send v.context v.request
  rwa [h.memory_passTo] at hserves

theorem IsQuiet.advances_visit (h : s.IsQuiet) (v : Visit) : s.Advances (s.visit v).2 := by
  have hspec := h.visit_spec v
  have hmemory := hspec.memory
  rw [h.memory_passTo] at hmemory
  refine ⟨hspec.quiet, ?_⟩
  rcases hmemory with hsame | hdone
  · exact .inl hsame
  · exact .inr ⟨v.request, hdone⟩

theorem IsQuiet.visit_answer (h : s.IsQuiet) (v : Visit) :
    (s.visit v).1 = .error .cancelled ∨
      (s.visit v).1 = (s.memory.perform v.request).1 :=
  (h.visit_spec v).answer

/-- A visit that went well has done what the memory does. -/
theorem IsQuiet.visit_of_ok (h : s.IsQuiet) {v : Visit} {reply : Reply}
    (hanswer : (s.visit v).1 = .ok reply) :
    s.memory.perform v.request = (.ok reply, (s.visit v).2.memory) :=
  (h.visit_spec v).of_ok hanswer

/-- So has every visit that is not cancelled. -/
theorem IsQuiet.visit_of_live (h : s.IsQuiet) {v : Visit} (hlive : v.IsLive s) :
    ((s.visit v).1, (s.visit v).2.memory) = s.memory.perform v.request := by
  refine (h.visit_spec v).of_live ?_
  rw [h.now_passTo, Nat.max_eq_right (Nat.le_add_right _ _)]
  exact hlive

/-- A visit that is cancelled by the time it is made is told so. -/
theorem IsQuiet.visit_of_isCancelled (h : s.IsQuiet) {v : Visit}
    (hcancelled : v.context.isCancelled (s.now + v.idle) = true) :
    (s.visit v).1 = .error .cancelled := by
  refine ((h.passTo (s.now + v.idle)).send_of_isCancelled ?_ v.request).1
  rw [h.now_passTo, Nat.max_eq_right (Nat.le_add_right _ _)]
  exact hcancelled

/-- The counter rises by one or not at all. -/
theorem IsQuiet.nextId_visit (h : s.IsQuiet) (v : Visit) :
    (s.visit v).2.memory.nextId = s.memory.nextId ∨
      (s.visit v).2.memory.nextId = s.memory.nextId + 1 :=
  (h.advances_visit v).nextId

theorem IsQuiet.run (h : s.IsQuiet) (visits : List Visit) : (run visits s).IsQuiet := by
  induction visits generalizing s with
  | nil => exact h
  | cons v rest ih => exact ih (h.advances_visit v).quiet

/-- What every request keeps of the memory, runs keep. -/
theorem IsQuiet.memory_along {P : Memory → Prop} (h : s.IsQuiet) (hs : P s.memory)
    (hstep : ∀ (m : Memory) (request : Request), P m → P (m.perform request).2)
    (visits : List Visit) : P (Staged.run visits s).memory := by
  induction visits generalizing s with
  | nil => exact hs
  | cons v rest ih =>
    have hvisit := h.advances_visit v
    apply ih hvisit.quiet
    rcases hvisit.memory with hmemory | ⟨request, hmemory⟩
    · rw [hmemory]
      exact hs
    · rw [hmemory]
      exact hstep s.memory request hs

/-- A stage on which nothing is planned, with a consistent memory. -/
structure IsOrderly (s : Staged) : Prop where
  quiet : s.IsQuiet
  consistent : s.memory.IsConsistent

theorem isOrderly_empty : empty.IsOrderly :=
  ⟨isQuiet_empty, Memory.isConsistent_empty⟩

theorem Advances.isOrderly (h : s.Advances s') (hs : s.IsOrderly)
    (hroom : s.memory.HasRoom s'.memory) : s'.IsOrderly := by
  refine ⟨h.quiet, ?_⟩
  rcases h.memory with hmemory | ⟨request, hmemory⟩
  · exact hmemory ▸ hs.consistent
  · rw [hmemory] at hroom ⊢
    exact hs.consistent.perform hroom

theorem IsOrderly.visit (h : s.IsOrderly) (v : Visit)
    (hroom : s.memory.HasRoom (s.visit v).2.memory) : (s.visit v).2.IsOrderly :=
  (h.quiet.advances_visit v).isOrderly h hroom

/-- What every visit keeps that has room on an orderly stage, a run keeps
    as long as there are IDs to give out, and leaves those for later. -/
theorem IsOrderly.along {P : Staged → Prop} {later : Nat} (h : s.IsOrderly) (hs : P s)
    (hstep : ∀ (t : Staged) (v : Visit), t.IsOrderly → t.memory.HasRoom (t.visit v).2.memory →
      P t → P (t.visit v).2)
    (visits : List Visit)
    (hroom : s.memory.nextId.toNat + (allocations visits s + later) < 2 ^ 32) :
    (run visits s).IsOrderly ∧ P (run visits s) ∧
      (run visits s).memory.nextId.toNat + later < 2 ^ 32 := by
  -- the counter and the IDs still to be given out stay below the limit
  induction visits generalizing s with
  | nil =>
    rw [allocations, Nat.zero_add] at hroom
    exact ⟨h, hs, hroom⟩
  | cons v rest ih =>
    rw [allocations, Nat.add_assoc] at hroom
    obtain ⟨hvisit, hrest⟩ := Memory.room_of_step (h.quiet.nextId_visit v) hroom
    exact ih (h.visit v hvisit) (hstep s v h hvisit hs) hrest

/-- Visits keep a stage orderly as long as there are IDs to give out. -/
theorem IsOrderly.run (h : s.IsOrderly) (visits : List Visit)
    (hroom : s.memory.nextId.toNat + allocations visits s < 2 ^ 32) :
    (run visits s).IsOrderly := by
  -- nothing else is kept, and nothing is left for later
  have hboth := @along s (fun _ => True) 0 h trivial (fun _ _ _ _ _ => trivial) visits hroom
  exact hboth.1

/-- A subject that is there has its newest schema. -/
theorem IsOrderly.visit_latest (h : s.IsOrderly) {v : Visit} {subject : String}
    (hrequest : v.request = .latest subject) (id : UInt32) :
    (s.visit v).1 ≠ .error (.schemaNotFound id) := by
  have hlatest := h.consistent.latest_ne_schemaNotFound subject id
  rcases h.quiet.visit_answer v with hanswer | hanswer <;> rw [hanswer]
  · simp
  · rw [hrequest, Memory.perform]
    cases hresult : s.memory.latest subject with
    | ok schema => simp [Except.map]
    | error e => simpa [Except.map, hresult] using hlatest

/-- A registered text can always be read. -/
theorem IsOrderly.visit_register (h : s.IsOrderly) {v : Visit} {subject : String} {d : Descriptor}
    (hrequest : v.request = .register subject d) (message : String) :
    (s.visit v).1 ≠ .error (.invalidSchema message) := by
  have hregister := h.consistent.register_ne_invalidSchema subject d message
  rcases h.quiet.visit_answer v with hanswer | hanswer <;> rw [hanswer]
  · simp
  · rw [hrequest, Memory.perform]
    cases hresult : (s.memory.register subject d).1 with
    | ok r => simp [Except.map]
    | error e => simpa [Except.map, hresult] using hregister

/-- **Consistency**: whatever visits a fresh registry has had, its memory
    is consistent as long as the counter of IDs has not run over.  So the
    newest version of a subject is there whenever the subject is, and
    registering can read it. -/
theorem run_isConsistent (visits : List Visit)
    (hroom : allocations visits .empty < 2 ^ 32 - 1) :
    (run visits .empty).memory.IsConsistent ∧
      ∀ v : Visit,
        (∀ subject id, v.request = .latest subject →
          ((run visits .empty).visit v).1 ≠ .error (.schemaNotFound id)) ∧
        (∀ subject d message, v.request = .register subject d →
          ((run visits .empty).visit v).1 ≠ .error (.invalidSchema message)) := by
  have hnext : (empty.memory.nextId).toNat = 1 := rfl
  have horderly : (run visits .empty).IsOrderly := isOrderly_empty.run visits (by omega)
  exact ⟨horderly.consistent, fun v => ⟨fun _ id hrequest => horderly.visit_latest hrequest id,
    fun _ _ message hrequest => horderly.visit_register hrequest message⟩⟩

/-- A schema under two subjects, one of which is deleted again, and a call
    that is cancelled. -/
def sharing (d : Descriptor) : List Visit :=
  [{ idle := 0, context := .unbounded, request := .register "orders" d },
    { idle := 5, context := .unbounded, request := .register "copies" d },
    { idle := 0, context := { Context.unbounded with cancelAt := some 0 },
      request := .delete "copies" },
    { idle := 0, context := .unbounded, request := .delete "orders" }]

theorem sharing_isConsistent :
    allocations (sharing Descriptor.keywords) .empty < 2 ^ 32 - 1 ∧
      (run (sharing Descriptor.keywords) .empty).memory.IsConsistent := by
  have hroom : allocations (sharing Descriptor.keywords) .empty < 2 ^ 32 - 1 :=
    Nat.lt_of_le_of_lt (allocations_le_length _ _) (by decide)
  exact ⟨hroom, (run_isConsistent (sharing Descriptor.keywords) hroom).1⟩

end Staged

end EventCodec
