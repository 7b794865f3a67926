import EventCodec.Session.Step

/-! # Running a session

    Steps are taken one after the other on a backend: a registry on some
    world, with what only some registries can do. -/

namespace EventCodec.Session

open Schema
open Event (Value)

variable {σ : Type}

/-! ### Backends -/

structure Backend (σ : Type) where
  registry : Registry σ
  /-- The instant a context starts at. -/
  now : σ → Nat
  /-- Decodes envelopes side by side. -/
  decodeAll : Registry σ → Context → List Bytes → Bound Value → σ →
    List (Except CodecError Value) × Bound Value × σ
  /-- Changes the stage, where there is one. -/
  set : Setting → σ → Answer × σ
  /-- A registry that is reached in another way. -/
  connect : Config → Except RegistryError (Registry σ)

/-! ### State -/

/-- A codec that has a name: one that was opened, or one that was only
    bound. -/
inductive Handle where
  | opened (codec : Codec Value)
  | bound (bound : Bound Value)

structure Named (σ : Type) where
  /-- The registry the codec works on. -/
  registry : Registry σ
  entry : Event.Entry
  handle : Handle

structure State (σ : Type) where
  world : σ
  codecs : List (String × Named σ)
  /-- What each step so far has written. -/
  written : Array Bytes

namespace State

def init (world : σ) : State σ :=
  { world, codecs := [], written := #[] }

def codec? (s : State σ) (name : String) : Option (Named σ) :=
  (s.codecs.find? fun e => e.1 == name).map Prod.snd

def remove (s : State σ) (name : String) : State σ :=
  { s with codecs := s.codecs.filter fun e => e.1 != name }

def put (s : State σ) (name : String) (c : Named σ) : State σ :=
  let s := s.remove name
  { s with codecs := (name, c) :: s.codecs }

/-- The bytes that some data stands for. -/
def bytes (s : State σ) : Data → Bytes
  | .bytes b => b
  | .ofStep n => s.written.getD n []

end State

/-! ### Answers -/

def answerOf {α : Type} (f : α → Answer) : Except RegistryError α → Answer
  | .ok a => f a
  | .error e => .registryError e

def codecAnswerOf {α : Type} (f : α → Answer) : Except CodecError α → Answer
  | .ok a => f a
  | .error e => .codecError e

def infoOf : Handle → Info
  | .opened c =>
    { schemaId := c.bound.schemaId, life := some (c.subject, c.state)
      descriptor := c.bound.descriptor, shown := c.shown }
  | .bound b =>
    { schemaId := b.schemaId, life := none, descriptor := b.descriptor, shown := b.shown }

/-! ### Using a codec -/

/-- Decodes side by side, if the codec is ready. -/
def decodeAll (b : Backend σ) (r : Registry σ) (ctx : Context) (items : List Bytes) (h : Handle)
    (world : σ) : List (Except CodecError Value) × Handle × σ :=
  match h with
  | .bound c =>
    match b.decodeAll r ctx items c world with
    | (results, c, world) => (results, .bound c, world)
  | .opened c =>
    if c.isReady then
      match b.decodeAll r ctx items c.bound world with
      | (results, bound, world) => (results, .opened { c with bound }, world)
    else (items.map fun _ => .error .closedCodec, h, world)

/-- Uses a codec that is there; the handle is gone if the codec is. -/
def useCodec (b : Backend σ) (s : State σ) (c : Named σ) (use : Use) : Answer × Option Handle × σ :=
  let start (r : Context.Request) := r.start (b.now s.world)
  match use, c.handle with
  | .info, h => (.info (infoOf h), some h, s.world)
  | .encode draft, .opened k =>
    (codecAnswerOf .data (k.encode (draft c.entry)), some c.handle, s.world)
  | .encode draft, .bound k =>
    (codecAnswerOf .data (k.encode (draft c.entry)), some c.handle, s.world)
  | .decode data ctx, .opened k =>
    match k.decode c.registry (s.bytes data) (start ctx) s.world with
    | (result, k, world) => (codecAnswerOf .value result, some (.opened k), world)
  | .decode data ctx, .bound k =>
    match k.decode c.registry (s.bytes data) (start ctx) s.world with
    | (result, k, world) => (codecAnswerOf .value result, some (.bound k), world)
  | .decodeAll items ctx, h =>
    match decodeAll b c.registry (start ctx) (items.map s.bytes) h s.world with
    | (results, h, world) => (.values results, some h, world)
  | .decodeBound data, .bound k =>
    (codecAnswerOf .value (k.decodeBound (s.bytes data)), some c.handle, s.world)
  | .cache id, .bound k => (.cache k.cache (k.cache.get? id), some c.handle, s.world)
  | .cacheFetch id ctx, .bound k =>
    match k.fetchInto c.registry id (start ctx) s.world with
    | (result, k, world) => (codecAnswerOf .descriptor result, some (.bound k), world)
  | .subjects ctx, .opened _ =>
    match c.registry.subjects (start ctx) s.world with
    | (result, world) => (answerOf .subjects result, some c.handle, world)
  | .close ctx, .opened k =>
    match k.close c.registry (start ctx) s.world with
    | (result, k, world) => (codecAnswerOf (fun _ => .closed) result, some (.opened k), world)
  | .drop, .opened k => (.nothing, none, k.drop c.registry s.world)
  | .dropOutside, .opened k => (.nothing, none, k.dropOutside c.registry s.world)
  | .drop, .bound _ | .dropOutside, .bound _ => (.nothing, none, s.world)
  | _, h => (.noCodec, some h, s.world)

/-! ### Scopes -/

/-- What a body has come to so far: its answers, the latest first, and
    what it wrote last. -/
structure BodyState where
  answers : List BodyAnswer
  written : Bytes

/-- One step of a body. -/
def bodyStep (b : Backend σ) (entry : Event.Entry) (s : State σ) (step : BodyStep)
    (body : BodyState) (c : Codec Value) (world : σ) :
    Except CodecError BodyState × Codec Value × σ :=
  let answered (a : BodyAnswer) : BodyState := { body with answers := a :: body.answers }
  match step with
  | .encode draft =>
    match c.encode (draft entry) with
    | .error e => (.error e, c, world)
    | .ok bytes => (.ok { answered (.data bytes) with written := bytes }, c, world)
  | .decode data =>
    let bytes := (data.map s.bytes).getD body.written
    match c.decode b.registry bytes .unbounded world with
    | (.error e, c, world) => (.error e, c, world)
    | (.ok v, c, world) => (.ok (answered (.value v)), c, world)
  | .close =>
    match c.close b.registry .unbounded world with
    | (.error e, c, world) => (.error e, c, world)
    | (.ok (), c, world) => (.ok (answered .closed), c, world)
  | .state => (.ok (answered (.state c.state)), c, world)
  | .fail e => (.error e, c, world)

/-- The steps of a body until one fails; the answers are kept in either
    case. -/
def bodySteps (b : Backend σ) (entry : Event.Entry) (s : State σ) :
    List BodyStep → BodyState → Codec Value → σ →
      (Except CodecError Unit × BodyState) × Codec Value × σ
  | [], body, c, world => ((.ok (), body), c, world)
  | step :: rest, body, c, world =>
    match bodyStep b entry s step body c world with
    | (.error e, c, world) => ((.error e, body), c, world)
    | (.ok body, c, world) => bodySteps b entry s rest body c world

/-- Runs a scope.  The answers of the body are kept beside the world. -/
def runScope (b : Backend σ) (s : State σ) (entry : Event.Entry) (subject : String)
    (steps : List BodyStep) : Answer × σ :=
  let body (c : Codec Value) (w : List BodyAnswer × σ) :=
    match bodySteps b entry s steps { answers := [], written := [] } c w.2 with
    | ((result, body), c, world) =>
      (result.map fun _ => steps.length, c, body.answers.reverse, world)
  match withCodec b.registry.beside entry.type subject body ([], s.world) with
  | (result, answers, world) => (.scope answers result, world)

/-! ### Steps -/

/-- Puts a codec that was opened under its name. -/
def opened (s : State σ) (name : String) (registry : Registry σ) (entry : Event.Entry)
    (result : Except CodecError (Codec Value) × σ) : Answer × State σ :=
  let s := { s with world := result.2 }
  match result.1 with
  | .error e => (.codecError e, s)
  | .ok c => (.info (infoOf (.opened c)), s.put name { registry, entry, handle := .opened c })

/-- Takes a step. -/
def step (b : Backend σ) (s : State σ) (step : Step) : Answer × State σ :=
  let start (r : Context.Request) := r.start (b.now s.world)
  let plain {α : Type} (f : α → Answer) (result : Except RegistryError α × σ) :=
    (answerOf f result.1, { s with world := result.2 })
  match step with
  | .register subject source ctx =>
    match source.descriptor with
    | .error e => (.sourceError e, s)
    | .ok d => plain .id (b.registry.register subject d (start ctx) s.world)
  | .fetch id ctx => plain .schema (b.registry.fetch id (start ctx) s.world)
  | .latest subject ctx => plain .schema (b.registry.latest subject (start ctx) s.world)
  | .delete subject ctx => plain .versions (b.registry.delete subject (start ctx) s.world)
  | .subjects ctx => plain .subjects (b.registry.subjects (start ctx) s.world)
  | .set setting =>
    match b.set setting s.world with
    | (answer, world) => (answer, { s with world })
  | .openCodec name entry subject ctx =>
    if (s.codec? name).isSome then (.codecExists, s)
    else
      opened s name b.registry entry
        (Codec.open b.registry entry.type subject (start ctx) s.world)
  | .connect name entry subject config =>
    if (s.codec? name).isSome then (.codecExists, s)
    else
      match b.connect config with
      | .error e => (.codecError (.config e.message), s)
      | .ok registry =>
        opened s name registry entry (Codec.open registry entry.type subject .unbounded s.world)
  | .bind name entry schemaId =>
    if (s.codec? name).isSome then (.codecExists, s)
    else
      match entry.type.resolve with
      | .error e => (.codecError e, s)
      | .ok d =>
        let handle := Handle.bound (.new entry.type schemaId d)
        (.info (infoOf handle), s.put name { registry := b.registry, entry, handle })
  | .use name use =>
    match s.codec? name with
    | none => (.noCodec, s)
    | some c =>
      match useCodec b s c use with
      | (answer, handle, world) =>
        let s := { s with world }
        match handle with
        | none => (answer, s.remove name)
        | some handle => (answer, s.put name { c with handle })
  | .scope entry subject body =>
    match runScope b s entry subject body with
    | (answer, world) => (answer, { s with world })

/-- What a step has written. -/
def writtenBy : Answer → Bytes
  | .data bytes => bytes
  | _ => []

/-- Takes a step and remembers what it has written. -/
def take (b : Backend σ) (s : State σ) (x : Step) : Answer × State σ :=
  match step b s x with
  | (answer, s) => (answer, { s with written := s.written.push (writtenBy answer) })

end EventCodec.Session
