import EventCodec.Codec.Bound

/-! # The life of a codec

    A codec registers its event type under a subject when it is made and
    deletes the subject when it is closed.  In between it is ready;
    afterwards it is closed for good.  The subject is deleted at most
    once, whether or not the deletion succeeds.

    A codec that is dropped while it is ready has its subject deleted in
    the background, unless there is nobody left to do that. -/

namespace EventCodec

open Schema

/-! ### States -/

inductive CodecState where
  | uninitialized
  /-- The type is resolved, the registration under way. -/
  | registering
  | ready
  | closed
deriving DecidableEq, Repr

namespace CodecState

def all : List CodecState := [.uninitialized, .registering, .ready, .closed]

/-- The state in the journal. -/
def name : CodecState → String
  | .uninitialized => "uninitialized"
  | .registering => "registering"
  | .ready => "ready"
  | .closed => "closed"

/-- The state as shown in messages. -/
def shown : CodecState → String
  | .uninitialized => "Uninitialized"
  | .registering => "Registering"
  | .ready => "Ready"
  | .closed => "Closed"

end CodecState

structure Codec (α : Type) where
  subject : String
  bound : Bound α
  state : CodecState

namespace Codec

variable {α σ : Type}

/-- The codec as shown in messages. -/
def shown (c : Codec α) : String :=
  "Codec \x7b subject: " ++ Text.quoted c.subject ++ ", schema_id: " ++
    toString c.bound.schemaId.toNat ++ ", state: " ++ c.state.shown ++ ", .. \x7d"

/-! ### What the journal says -/

/-- The registration begins. -/
def registering (type : EventType α) (subject : String) (ctx : Context) : Journal.Entry where
  level := .debug
  message := "registering schema"
  details :=
    [("subject", subject), ("state", CodecState.registering.name), ("event_type", type.name)] ++
      Journal.optional "correlation_id" ctx.correlationId

/-- Somebody else has registered under the subject before. -/
def shared (subject : String) (live : RegisteredSchema) : Journal.Entry where
  level := .warn
  message := "subject already registered, binding shares it with its current owner"
  details :=
    [("subject", subject), Journal.number "schema_id" live.id.toNat,
      ("version", match live.version with
        | some v => "Some(" ++ toString v.toNat ++ ")"
        | none => "None")]

/-- The codec has its ID. -/
def becameReady (subject : String) (schemaId : UInt32) : Journal.Entry where
  level := .info
  message := "codec ready"
  details := [("subject", subject), Journal.number "schema_id" schemaId.toNat]

/-- The subject is deleted. -/
def becameClosed (c : Codec α) (versions : List UInt32) (ctx : Context) : Journal.Entry where
  level := .info
  message := "codec closed"
  details :=
    [("subject", c.subject), Journal.number "schema_id" c.bound.schemaId.toNat,
      Journal.number "versions" versions.length] ++
      Journal.optional "correlation_id" ctx.correlationId

/-- The codec went away while it was ready. -/
def dropped (c : Codec α) (message : String) : Journal.Entry where
  level := .warn
  message
  details := [("subject", c.subject), Journal.number "schema_id" c.bound.schemaId.toNat]

/-! ### Opening -/

/-- Reports whoever already holds the subject; a failure to look does not
    matter. -/
def noteOwner (r : Registry σ) (subject : String) (ctx : Context) (s : σ) : σ :=
  match r.latest subject ctx s with
  | (.ok live, s) => r.note (shared subject live) s
  | (.error _, s) => s

/-- Registers a type that has been resolved. -/
def openWith (r : Registry σ) (type : EventType α) (d : Descriptor) (subject : String)
    (ctx : Context) (s : σ) : Except CodecError (Codec α) × σ :=
  let s := r.note (registering type subject ctx) s
  let s := noteOwner r subject ctx s
  match r.register subject d ctx s with
  | (.error e, s) => (.error (e.toRegistration subject), s)
  | (.ok schemaId, s) =>
    let bound := Bound.new type schemaId d
    (.ok { subject, bound, state := .ready }, r.note (becameReady subject schemaId) s)

/-- Resolves an event type, registers it and binds a codec to it. -/
def «open» (r : Registry σ) (type : EventType α) (subject : String) (ctx : Context) (s : σ) :
    Except CodecError (Codec α) × σ :=
  match type.resolve with
  | .error e => (.error e, s)
  | .ok d => openWith r type d subject ctx s

/-! ### Use -/

def isReady (c : Codec α) : Bool :=
  c.state = .ready

def encode (c : Codec α) (v : α) : Except CodecError Bytes :=
  if c.isReady then c.bound.encode v else .error .closedCodec

def decode (r : Registry σ) (data : Bytes) (ctx : Context) (c : Codec α) (s : σ) :
    Except CodecError α × Codec α × σ :=
  if c.isReady then
    match c.bound.decode r data ctx s with
    | (result, bound, s) => (result, { c with bound }, s)
  else (.error .closedCodec, c, s)

/-! ### Closing -/

/-- Takes a codec out of service.  Only whoever finds it ready succeeds,
    and with that has the subject to delete. -/
def retire (c : Codec α) : Option (Codec α) :=
  if c.isReady then some { c with state := .closed } else none

/-- What the answer to the deletion of the subject means for whoever
    closes. -/
def closingResult (c : Codec α) :
    Except RegistryError (List UInt32) → Except CodecError Unit
  | .ok _ => .ok ()
  | .error e => .error (e.toCleanup c.subject)

/-- Deletes the subject; the codec is closed even if that fails. -/
def close (r : Registry σ) (ctx : Context) (c : Codec α) (s : σ) :
    Except CodecError Unit × Codec α × σ :=
  match c.retire with
  | none => (.error .closedCodec, c, s)
  | some c =>
    match r.delete c.subject ctx s with
    | (answer, s) =>
      let s := match answer with
        | .ok versions => r.note (c.becameClosed versions ctx) s
        | .error _ => s
      (c.closingResult answer, c, s)

/-- Lets a codec go where deletions can run in the background. -/
def drop (r : Registry σ) (c : Codec α) (s : σ) : σ :=
  match c.retire with
  | none => s
  | some c =>
    r.deleteLater c.subject
      (r.note (c.dropped "codec dropped without close, deleting subject in background") s)

/-- Lets a codec go where nothing runs in the background. -/
def dropOutside (r : Registry σ) (c : Codec α) (s : σ) : σ :=
  match c.retire with
  | none => s
  | some c =>
    r.note (c.dropped "codec dropped without close outside a runtime, subject left registered") s

end Codec

end EventCodec
