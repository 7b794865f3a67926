import EventCodec.Codec.Lifecycle
import EventCodec.Codec.Overlap

/-! # A codec that is shared

    Many callers may hold one codec and call it at the same time.  A call
    runs by itself up to the point where it waits: for a descriptor that
    some call is fetching, or for the registry.  A step here is what
    happens between two such points, or an answer of the registry, which
    may be anything and come at any time.

    Only the beginning of a call looks at the state of the codec.  A
    decode that was let in goes on when the codec is closed meanwhile; a
    close that found the codec ready owns the deletion, whatever becomes
    of it.  What the journal says on the way is left out. -/

namespace EventCodec

/-! ### State -/

/-- A call to the registry, with the number of the caller. -/
inductive Issued where
  | fetch (caller : Nat) (id : UInt32) (ctx : Context)
  | delete (caller : Nat) (subject : String) (ctx : Context)
  /-- A deletion in the background, for which nobody waits. -/
  | deleteLater (subject : String)
deriving DecidableEq

/-- How far a call has come. -/
inductive Progress (α : Type) where
  | encoded (result : Except CodecError Bytes)
  /-- It found the codec ready, and has not looked at its bytes yet. -/
  | admitted (data : Bytes) (ctx : Context)
  /-- It queues for a descriptor, under a number in the flight. -/
  | queued (envelope : Envelope) (number : Nat) (ctx : Context)
  | fetching (envelope : Envelope) (number : Nat)
  | decoded (result : Except CodecError α)
  /-- It has closed the codec and waits for the deletion. -/
  | closing
  | closed (result : Except CodecError Unit)

structure Shared (α : Type) where
  codec : Codec α
  /-- What the calls to the cache are doing. -/
  flight : Flight
  /-- All calls, in the order they began. -/
  calls : List (Progress α)
  /-- All calls to the registry, oldest first. -/
  issued : List Issued

namespace Shared

variable {α : Type}

/-- A codec that nobody is using. -/
def ofCodec (c : Codec α) : Shared α :=
  { codec := c, flight := .ofCache c.bound.cache, calls := [], issued := [] }

/-! ### Changing one thing -/

/-- A call begins. -/
def begin (w : Shared α) (p : Progress α) : Shared α :=
  { w with calls := w.calls ++ [p] }

def setProgress (w : Shared α) (n : Nat) (p : Progress α) : Shared α :=
  { w with calls := w.calls.set n p }

def issue (w : Shared α) (i : Issued) : Shared α :=
  { w with issued := w.issued ++ [i] }

/-- The codec's cache is what the flight shows. -/
def setFlight (w : Shared α) (flight : Flight) : Shared α :=
  { w with
    flight
    codec := { w.codec with bound := { w.codec.bound with cache := flight.cache } } }

/-! ### Beginnings -/

def encode (w : Shared α) (v : α) : Shared α :=
  w.begin (.encoded (w.codec.encode v))

def decode (w : Shared α) (data : Bytes) (ctx : Context) : Shared α :=
  w.begin (if w.codec.isReady then .admitted data ctx else .decoded (.error .closedCodec))

/-- Whoever retires the codec has its subject deleted. -/
def close (w : Shared α) (ctx : Context) : Shared α :=
  match w.codec.retire with
  | none => w.begin (.closed (.error .closedCodec))
  | some codec =>
    ({ w with codec }.begin .closing).issue (.delete w.calls.length codec.subject ctx)

/-- The last holder lets the codec go, inside a runtime or outside. -/
def drop (w : Shared α) (inside : Bool) : Shared α :=
  match w.codec.retire with
  | none => w
  | some codec =>
    if inside then { w with codec }.issue (.deleteLater codec.subject) else { w with codec }

/-! ### Going on -/

/-- Goes on with a decode according to what its call to the cache is
    doing. -/
def proceed (w : Shared α) (n : Nat) (e : Envelope) (number : Nat) (ctx : Context) : Shared α :=
  match w.flight.phase? number with
  | some (.settled result) =>
    w.setProgress n (.decoded (Overlap.resultOf w.codec.bound e result))
  | some .fetching => (w.setProgress n (.fetching e number)).issue (.fetch n e.schemaId ctx)
  | _ => w.setProgress n (.queued e number ctx)

/-- One look at a decode that does not wait for the registry. -/
def look (w : Shared α) (n : Nat) : Shared α :=
  match w.calls[n]? with
  | some (.admitted data ctx) =>
    match Envelope.parse data with
    | .error e => w.setProgress n (.decoded (.error e.toCodec))
    | .ok e =>
      if e.schemaId = w.codec.bound.schemaId then
        w.setProgress n (.decoded (w.codec.bound.decodePayload e.payload))
      else (w.setFlight (w.flight.launch e.schemaId ctx)).proceed n e w.flight.calls.length ctx
  | some (.queued e number ctx) => (w.setFlight (w.flight.look number)).proceed n e number ctx
  | _ => w

/-- The registry answers the fetch of a decode. -/
def fetched (w : Shared α) (n : Nat) (answer : Except RegistryError RegisteredSchema) :
    Shared α :=
  match w.calls[n]? with
  | some (.fetching e number) =>
    let result := Cache.interpret e.schemaId answer
    (w.setFlight (w.flight.answer number result)).setProgress n
      (.decoded (Overlap.resultOf w.codec.bound e result))
  | _ => w

/-- The registry answers the deletion of a close. -/
def deleted (w : Shared α) (n : Nat) (answer : Except RegistryError (List UInt32)) : Shared α :=
  match w.calls[n]? with
  | some .closing => w.setProgress n (.closed (w.codec.closingResult answer))
  | _ => w

/-! ### Steps -/

inductive Step (α : Type) where
  | encode (v : α)
  | decode (data : Bytes) (ctx : Context)
  | close (ctx : Context)
  | look (caller : Nat)
  | fetched (caller : Nat) (answer : Except RegistryError RegisteredSchema)
  | deleted (caller : Nat) (answer : Except RegistryError (List UInt32))
  | drop (inside : Bool)

def step (w : Shared α) : Step α → Shared α
  | .encode v => w.encode v
  | .decode data ctx => w.decode data ctx
  | .close ctx => w.close ctx
  | .look caller => w.look caller
  | .fetched caller answer => w.fetched caller answer
  | .deleted caller answer => w.deleted caller answer
  | .drop inside => w.drop inside

def run : List (Step α) → Shared α → Shared α
  | [], w => w
  | st :: rest, w => run rest (w.step st)

end Shared

end EventCodec
