import EventCodec.Codec.Bound
import EventCodec.Codec.Flight
import EventCodec.Registry.Staged

/-! # Decoding many envelopes at once

    Several decodes of one codec that run side by side on a staged
    registry.  They are looked at in the order they were given, again and
    again, until nothing changes any more; then time passes to the next
    instant at which one of them has waited long enough. -/

namespace EventCodec

open Schema

/-! ### State -/

/-- One of the decodes. -/
inductive Job (α : Type) where
  /-- Nobody has looked at it yet. -/
  | fresh (data : Bytes)
  /-- Its descriptor is being waited for, under the number of its call. -/
  | pending (envelope : Envelope) (call : Nat)
  /-- Its own fetch waits on the stage until an instant. -/
  | delayed (envelope : Envelope) (call : Nat) (waited : Except RegistryError Unit) (due : Nat)
  | done (result : Except CodecError α)

structure Overlap where
  flight : Flight
  stage : Staged

namespace Overlap

variable {α : Type}

/-- Whether a decode has its result. -/
def isDone : Job α → Bool
  | .done _ => true
  | _ => false

/-- The instant up to which a decode waits on the stage. -/
def dueOf? : Job α → Option Nat
  | .delayed _ _ _ due => some due
  | _ => none

/-! ### One look -/

/-- The result of a decode whose descriptor, or lack of one, is known. -/
def resultOf (b : Bound α) (e : Envelope) : Except CodecError Descriptor → Except CodecError α
  | .ok writer => b.decodeFrom writer e
  | .error error => .error error

/-- The stage has answered a fetch. -/
def finishFetch (b : Bound α) (ctx : Context) (e : Envelope) (call : Nat)
    (waited : Except RegistryError Unit) (o : Overlap) : Job α × Overlap :=
  match o.stage.finish .fetch waited (Staged.doFetch e.schemaId ctx) with
  | (answer, stage) =>
    let result := Cache.interpret e.schemaId answer
    let stage := match result with
      | .ok d => stage.note (Cache.cached e.schemaId d ctx)
      | .error _ => stage
    (.done (resultOf b e result), { flight := o.flight.answer call result, stage })

/-- A call that holds its slot asks the stage. -/
def startFetch (b : Bound α) (ctx : Context) (e : Envelope) (call : Nat) (o : Overlap) :
    Job α × Overlap :=
  match o.stage.start .fetch ctx with
  | ((waited, due), stage) =>
    let o := { o with stage }
    if due ≤ stage.now then finishFetch b ctx e call waited o
    else (.delayed e call waited due, o)

/-- Goes on with a call according to what it is doing. -/
def proceed (b : Bound α) (ctx : Context) (e : Envelope) (call : Nat) (o : Overlap) :
    Job α × Overlap :=
  match o.flight.phase? call with
  | some (.settled result) => (.done (resultOf b e result), o)
  | some .fetching => startFetch b ctx e call o
  | _ => (.pending e call, o)

/-- One look at one decode. -/
def look (b : Bound α) (ctx : Context) (o : Overlap) : Job α → Job α × Overlap
  | .fresh data =>
    match Envelope.parse data with
    | .error e => (.done (.error e.toCodec), o)
    | .ok e =>
      if e.schemaId = b.schemaId then (.done (b.decodePayload e.payload), o)
      else
        let call := o.flight.calls.length
        proceed b ctx e call { o with flight := o.flight.launch e.schemaId ctx }
  | .pending e call => proceed b ctx e call { o with flight := o.flight.look call }
  | .delayed e call waited due =>
    if due ≤ o.stage.now then finishFetch b ctx e call waited o
    else (.delayed e call waited due, o)
  | .done result => (.done result, o)

/-! ### Rounds -/

/-- Looks at all decodes in order. -/
def lookAll (b : Bound α) (ctx : Context) : List (Job α) → Overlap → List (Job α) × Overlap
  | [], o => ([], o)
  | j :: rest, o =>
    match look b ctx o j with
    | (j, o) =>
      match lookAll b ctx rest o with
      | (rest, o) => (j :: rest, o)

/-- How far a decode has come. -/
def progress : Job α → Nat
  | .fresh _ => 0
  | .pending _ _ => 1
  | .delayed _ _ _ _ => 2
  | .done _ => 3

/-- Looks at all decodes, and lets time pass when that changed nothing.
    Every other round at least brings one of them forward. -/
def rounds (b : Bound α) (ctx : Context) : Nat → List (Job α) → Overlap → List (Job α) × Overlap
  | 0, jobs, o => (jobs, o)
  | fuel + 1, jobs, o =>
    if jobs.all isDone then (jobs, o)
    else
      match lookAll b ctx jobs o with
      | (after, o) =>
        if after.map progress = jobs.map progress then
          match (after.filterMap dueOf?).min? with
          | none => (after, o)
          | some instant => rounds b ctx fuel after { o with stage := o.stage.passTo instant }
        else rounds b ctx fuel after o

/-- The result of a decode; all of them have one at the end. -/
def result : Job α → Except CodecError α
  | .done result => result
  | _ => .error .closedCodec

/-- Decodes envelopes side by side. -/
def decodeAll (ctx : Context) (items : List Bytes) (b : Bound α) (s : Staged) :
    List (Except CodecError α) × Bound α × Staged :=
  let start : Overlap := { flight := .ofCache b.cache, stage := s }
  match rounds b ctx (8 * items.length + 2) (items.map .fresh) start with
  | (jobs, o) => (jobs.map result, { b with cache := o.flight.cache }, o.stage)

end Overlap

end EventCodec
