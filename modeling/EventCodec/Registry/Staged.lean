import EventCodec.Registry.Memory

/-! # A staged registry

    A registry in memory behind a stage on which calls can be delayed and
    made to fail, and on which schemas can be planted that nobody
    registered.  Time passes only where something waits.

    A call has two halves.  It is counted and waits out its delay under
    its context; then it meets the planned failure, if there is one, a
    planted schema, or the registry itself.  Between the halves other
    calls may run, and deletions in the background come to their end when
    their instant is reached. -/

namespace EventCodec

open Schema

/-! ### Plans -/

/-- The calls of a registry. -/
inductive Call where
  | register
  | fetch
  | delete
  | latest
  | subjects
deriving DecidableEq, Repr

namespace Call

def all : List Call := [.register, .fetch, .delete, .latest, .subjects]

end Call

/-- A failure that calls meet. -/
structure Planned where
  error : RegistryError
  /-- How many calls meet it, if not all of them. -/
  times : Option Nat
deriving DecidableEq, Repr

/-- What happens to the calls of one kind. -/
structure Plan where
  /-- How many calls there were. -/
  count : Nat
  delay : Nat
  failure : Option Planned
deriving DecidableEq, Repr

def Plan.none : Plan :=
  { count := 0, delay := 0, failure := Option.none }

/-- One plan for each kind of call. -/
structure Plans where
  register : Plan
  fetch : Plan
  delete : Plan
  latest : Plan
  subjects : Plan
deriving DecidableEq, Repr

namespace Plans

def none : Plans :=
  { register := .none, fetch := .none, delete := .none, latest := .none, subjects := .none }

def get (p : Plans) : Call → Plan
  | .register => p.register
  | .fetch => p.fetch
  | .delete => p.delete
  | .latest => p.latest
  | .subjects => p.subjects

def modify (p : Plans) (f : Plan → Plan) : Call → Plans
  | .register => { p with register := f p.register }
  | .fetch => { p with fetch := f p.fetch }
  | .delete => { p with delete := f p.delete }
  | .latest => { p with latest := f p.latest }
  | .subjects => { p with subjects := f p.subjects }

end Plans

/-- A deletion in the background that waits out its delay. -/
structure Deletion where
  subject : String
  /-- The instant at which the delay ends. -/
  due : Nat
deriving DecidableEq, Repr

/-! ### The stage -/

structure Staged where
  memory : Memory
  now : Nat
  plans : Plans
  /-- The schemas that were planted, the latest first. -/
  planted : List RegisteredSchema
  /-- The deletions that wait, in the order they were started. -/
  background : List Deletion
  /-- The journal, the latest entry first. -/
  journal : List Journal.Entry

namespace Staged

def empty : Staged :=
  { memory := .empty, now := 0, plans := .none, planted := [], background := [], journal := [] }

def note (e : Journal.Entry) (s : Staged) : Staged :=
  { s with journal := e :: s.journal }

/-! ### The two halves of a call -/

/-- Counts a call and finds out how its delay ends, and when. -/
def start (s : Staged) (call : Call) (ctx : Context) :
    (Except RegistryError Unit × Nat) × Staged :=
  let delay := (s.plans.get call).delay
  let outcome := if delay = 0 then (.ok (), s.now) else ctx.wait s.now delay
  (outcome, { s with plans := s.plans.modify (fun p => { p with count := p.count + 1 }) call })

/-- The planned failure a call meets, which thereby has one time less. -/
def takeFailure (s : Staged) (call : Call) : Option RegistryError × Staged :=
  match (s.plans.get call).failure with
  | none => (none, s)
  | some p =>
    match p.times with
    | none => (some p.error, s)
    | some 0 => (none, s)
    | some (n + 1) =>
      let failure := if n = 0 then none else some { p with times := some n }
      (some p.error, { s with plans := s.plans.modify (fun q => { q with failure }) call })

/-- The second half of a call that waited in vain, met a planned failure,
    or goes through to `work`. -/
def finish {α : Type} (s : Staged) (call : Call) (waited : Except RegistryError Unit)
    (work : Staged → Except RegistryError α × Staged) : Except RegistryError α × Staged :=
  match waited with
  | .error e => (.error e, s)
  | .ok () =>
    match s.takeFailure call with
    | (some e, s) => (.error e, s)
    | (none, s) => work s

/-- Runs work of the registry that is done at once. -/
def atOnce {α : Type} (ctx : Context) (work : Staged → Except RegistryError α × Staged)
    (s : Staged) : Except RegistryError α × Staged :=
  match ctx.wait s.now 0 with
  | (.error e, _) => (.error e, s)
  | (.ok (), _) => work s

/-! ### What the registry does -/

def registered (subject : String) : Memory.Registered → Journal.Entry
  | .already id =>
    { level := .debug, message := "schema already registered under subject"
      details := [("subject", subject), Journal.number "schema_id" id.toNat] }
  | .added id =>
    { level := .debug, message := "registered schema in memory registry"
      details := [("subject", subject), Journal.number "schema_id" id.toNat] }

def deleted (subject : String) (versions : Nat) : Journal.Entry :=
  { level := .debug, message := "deleted subject from memory registry"
    details := [("subject", subject), Journal.number "versions" versions] }

def doRegister (subject : String) (d : Descriptor) (s : Staged) :
    Except RegistryError UInt32 × Staged :=
  match s.memory.register subject d with
  | (.error e, memory) => (.error e, { s with memory })
  | (.ok r, memory) => (.ok r.id, { s with memory }.note (registered subject r))

def doDelete (subject : String) (s : Staged) : Except RegistryError (List UInt32) × Staged :=
  match s.memory.delete subject with
  | (.error e, memory) => (.error e, { s with memory })
  | (.ok versions, memory) =>
    (.ok versions, { s with memory }.note (deleted subject versions.length))

/-- A planted schema comes before the registry's own. -/
def doFetch (id : UInt32) (ctx : Context) (s : Staged) :
    Except RegistryError RegisteredSchema × Staged :=
  match s.planted.find? fun p => p.id == id with
  | some planted => (.ok planted, s)
  | none => s.atOnce ctx fun s => (s.memory.fetch id, s)

/-! ### Time and the background -/

/-- The second half of a deletion in the background. -/
def finishDeletion (d : Deletion) (waited : Except RegistryError Unit) (s : Staged) : Staged :=
  match s.finish .delete waited fun s => s.atOnce .unbounded (doDelete d.subject) with
  | (.ok _, s) => s
  | (.error e, s) =>
    s.note {
      level := .warn
      message := "background subject deletion failed"
      details := [("subject", d.subject), ("error", e.message)] }

/-- The waiting deletion that is due first, and the others. -/
def firstDue? : List Deletion → Option (Deletion × List Deletion)
  | [] => none
  | d :: rest =>
    match firstDue? rest with
    | none => some (d, [])
    | some (first, others) =>
      if first.due < d.due then some (first, d :: others) else some (d, rest)

/-- Finishes the deletions that are due up to an instant; `rounds` bounds
    their number. -/
def settle : Nat → Nat → Staged → Staged
  | 0, _, s => s
  | rounds + 1, due, s =>
    match firstDue? s.background with
    | none => s
    | some (d, background) =>
      if d.due ≤ due then
        settle rounds due
          (finishDeletion d (.ok ()) { s with now := max s.now d.due, background })
      else s

/-- Lets time pass up to an instant. -/
def passTo (instant : Nat) (s : Staged) : Staged :=
  let s := settle s.background.length instant s
  { s with now := max s.now instant }

/-- Starts a deletion in the background. -/
def deleteLater (subject : String) (s : Staged) : Staged :=
  match s.start .delete .unbounded with
  | ((waited, due), s) =>
    if due ≤ s.now then finishDeletion { subject, due } waited s
    else { s with background := s.background ++ [{ subject, due }] }

/-! ### Whole calls -/

/-- A call that nothing overlaps. -/
def perform {α : Type} (call : Call) (ctx : Context)
    (work : Staged → Except RegistryError α × Staged) (s : Staged) :
    Except RegistryError α × Staged :=
  match s.start call ctx with
  | ((waited, instant), s) => (s.passTo instant).finish call waited work

/-- The stage as a registry. -/
def registry : Registry Staged where
  register subject d ctx := perform .register ctx fun s => s.atOnce ctx (doRegister subject d)
  fetch id ctx := perform .fetch ctx (doFetch id ctx)
  delete subject ctx := perform .delete ctx fun s => s.atOnce ctx (doDelete subject)
  latest subject ctx :=
    perform .latest ctx fun s => s.atOnce ctx fun s => (s.memory.latest subject, s)
  subjects ctx := perform .subjects ctx fun s => s.atOnce ctx fun s => (.ok s.memory.subjectNames, s)
  note := note
  deleteLater := deleteLater

/-! ### Setting the stage -/

/-- Plants a schema under its ID. -/
def plant (schema : RegisteredSchema) (s : Staged) : Staged :=
  { s with planted := schema :: s.planted }

/-- Plans a failure, or calls it off. -/
def setFailure (call : Call) (failure : Option Planned) (s : Staged) : Staged :=
  { s with plans := s.plans.modify (fun p => { p with failure }) call }

def setDelay (call : Call) (delay : Nat) (s : Staged) : Staged :=
  { s with plans := s.plans.modify (fun p => { p with delay }) call }

/-- How often each kind of call was made. -/
def counts (s : Staged) : List Nat :=
  Call.all.map fun c => (s.plans.get c).count

/-- Takes the entries written since the last time, oldest first. -/
def takeJournal (s : Staged) : List Journal.Entry × Staged :=
  (s.journal.reverse, { s with journal := [] })

end Staged

end EventCodec
