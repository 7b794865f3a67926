import EventCodec.Config.Basic
import EventCodec.Registry.Basic
import EventCodec.Rest.Peer
import EventCodec.Rest.Reply
import EventCodec.Schema.Proto.Printer
import EventCodec.Text.Base64
import EventCodec.Url.Basic

/-! # A registry behind a peer

    Each call of a registry is one request, and a deletion for good is a
    second one after the first has succeeded.

    A request that cannot be built fails without reaching the peer.
    Otherwise its end is the answer, the time limit of the configuration,
    or the end of the caller's context, whichever comes first.  An answer
    never comes at once, so that a deadline that has passed already ends
    the call. -/

namespace EventCodec

open Schema

/-- A configuration error as a registry reports it. -/
def ConfigError.toRegistry (e : ConfigError) : RegistryError :=
  .invalidConfig e.message

namespace Rest

/-! ### Clients -/

structure Client where
  config : Config
  base : Url
deriving DecidableEq, Repr

namespace Client

/-- The client of a configuration that can be used, by whoever knows what
    becomes of names beyond ASCII. -/
def ofConfigBy (names : Url.Names) (config : Config) : Except RegistryError Client :=
  match config.validate with
  | .error e => .error e.toRegistry
  | .ok () =>
    match Url.ofText names config.baseUrl with
    | .error e => .error (.invalidConfig ("invalid registry url: " ++ e.message))
    | .ok base => .ok { config, base }

/-! ### Building requests -/

def contentType : String := "application/vnd.schemaregistry.v1+json"

def acceptHeader : String × String :=
  ("accept", contentType ++ ", application/json")

/-- The name of the header with the correlation ID. -/
def correlationHeader : String := "X-Correlation-Id"

/-- Signs a request with a name and a password. -/
def authorization (name : String) (password : Option String) : String × String :=
  ("authorization",
    "Basic " ++ String.ofList (Text.base64 (Bytes.ofText (name ++ ":" ++ password.getD ""))))

/-- Whether a text can be the value of a header. -/
def isHeaderValue (text : String) : Bool :=
  text.toList.all fun c => c == '\t' || (0x20 ≤ c.toNat && c != '\x7f')

/-- The longest URL that can be asked for, in bytes. -/
def longestUrl : Nat := 65534

/-- Whether a URL can be asked for.  A double quote in a host is more than
    a request can name. -/
def isRequestable (url : Url) : Bool :=
  url.text.utf8ByteSize ≤ longestUrl && !url.host.text.toList.contains '"'

/-- The request for a URL, with a body or without. -/
def request (c : Client) (method : Method) (url : Url) (body : Option String) (ctx : Context) :
    Except RegistryError Request :=
  let (user, url) := url.takeUser
  if !ctx.correlationId.all isHeaderValue then .error (.transport "builder error")
  else if !isRequestable url then
    .error (.transport ("builder error for url (" ++ url.text ++ ")"))
  else
    .ok {
      method
      url := url.target
      headers :=
        acceptHeader ::
          (user.toList.map fun (name, password) => authorization name password) ++
          (c.config.username.toList.map fun name => authorization name c.config.password) ++
          (ctx.correlationId.toList.map fun id => (correlationHeader.toLower, id)) ++
          (body.toList.map fun _ => ("content-type", contentType))
      body := body.getD "" }

/-! ### Exchanges -/

/-- What failed to decode. -/
def undecodable : RegistryError :=
  .invalidResponse "error decoding response body"

/-- The result of an answer that has come as far as it ever will; without
    a body it ended too early. -/
def judge {α : Type} (read? : Json → Option α) (target : Target) (status : Nat)
    (body : Option String) : Except RegistryError α :=
  let json := body.bind Json.ofText?
  if isSuccess status then
    match json.bind read? with
    | some a => .ok a
    | none => .error undecodable
  else .error (errorOf status (json.bind ErrorBody.ofJson?) target)

variable {σ α : Type}

/-- Waits for the time limit, which the context may cut short. -/
def waitLimit (c : Client) (peer : Peer σ) (ctx : Context) (s : σ) : Except RegistryError Unit × σ :=
  match ctx.wait (peer.now s) c.config.timeoutMs.toNat with
  | (result, finish) => (result, peer.passTo finish s)

/-- Sends a request and reads the answer. -/
def exchange (c : Client) (peer : Peer σ) (read? : Json → Option α) (target : Target) (url : Url)
    (request : Request) (ctx : Context) (s : σ) : Except RegistryError α × σ :=
  match peer.deliver request s with
  | (delivery, s) =>
    match delivery.arriving with
    | .refused =>
      (.error (.transport ("error sending request for url (" ++ url.takeUser.2.text ++ ")")), s)
    | .silent =>
      match c.waitLimit peer ctx s with
      | (.error e, s) => (.error e, s)
      | (.ok (), s) => (.error .timeout, s)
    | .response status body .complete => (judge read? target status (some body), s)
    | .response status _ .truncated => (judge read? target status none, s)
    | .response status _ .stalled =>
      match c.waitLimit peer ctx s with
      | (.error e, s) => (.error e, s)
      | (.ok (), s) => (judge read? target status none, s)

/-- Performs a call: its request, unless the context has ended before. -/
def send (c : Client) (peer : Peer σ) (read? : Json → Option α) (target : Target) (method : Method)
    (url : Url) (body : Option String) (ctx : Context) (s : σ) : Except RegistryError α × σ :=
  if ctx.isCancelled (peer.now s) then (.error .cancelled, s)
  else
    match c.request method url body ctx with
    | .error e => (.error e, s)
    | .ok request =>
      if ctx.isDue (peer.now s) then (.error .timeout, s)
      else c.exchange peer read? target url request ctx s

/-! ### Calls -/

def registerUrl (c : Client) (subject : String) : Url :=
  c.base.append ["subjects", subject, "versions"]

def schemaUrl (c : Client) (id : UInt32) : Url :=
  c.base.append ["schemas", "ids", toString id.toNat]

def subjectUrl (c : Client) (subject : String) : Url :=
  c.base.append ["subjects", subject]

def latestUrl (c : Client) (subject : String) : Url :=
  c.base.append ["subjects", subject, "versions", "latest"]

def subjectsUrl (c : Client) : Url :=
  c.base.append ["subjects"]

/-- The body that registers a schema. -/
def registerBody (d : Descriptor) : String :=
  "\x7b\"schema\":" ++ Json.quoted d.text ++
    ",\"schemaType\":" ++ Json.quoted SchemaType.protobuf.name ++ "\x7d"

/-- An entry of the journal about a call. -/
def entry (message : String) (details : List (String × String)) (ctx : Context) : Journal.Entry :=
  { level := .debug, message
    details := details ++ Journal.optional "correlation_id" ctx.correlationId }

def register (c : Client) (peer : Peer σ) (subject : String) (d : Descriptor) (ctx : Context) (s : σ) :
    Except RegistryError UInt32 × σ :=
  match c.send peer registeredId? (.subject subject) .post (c.registerUrl subject)
      (some (registerBody d)) ctx s with
  | (.error e, s) => (.error e, s)
  | (.ok id, s) =>
    (.ok id,
      peer.note (entry "registered schema"
        [("subject", subject), Journal.number "schema_id" id.toNat] ctx) s)

def fetch (c : Client) (peer : Peer σ) (id : UInt32) (ctx : Context) (s : σ) :
    Except RegistryError RegisteredSchema × σ :=
  match c.send peer (schema? id) (.schema id) .get (c.schemaUrl id) none ctx s with
  | (.error e, s) => (.error e, s)
  | (.ok schema, s) =>
    (.ok schema, peer.note (entry "fetched schema" [Journal.number "schema_id" id.toNat] ctx) s)

/-- Deletes a subject for good, after it has been deleted. -/
def deleteForGood (c : Client) (peer : Peer σ) (subject : String) (ctx : Context) (s : σ) :
    Except RegistryError Unit × σ :=
  if c.config.permanentDelete then
    match c.send peer versions? (.subject subject) .delete
        ((c.subjectUrl subject).addQuery "permanent" "true") none ctx s with
    | (.error e, s) => (.error e, s)
    | (.ok _, s) => (.ok (), s)
  else (.ok (), s)

def delete (c : Client) (peer : Peer σ) (subject : String) (ctx : Context) (s : σ) :
    Except RegistryError (List UInt32) × σ :=
  match c.send peer versions? (.subject subject) .delete (c.subjectUrl subject) none ctx s with
  | (.error e, s) => (.error e, s)
  | (.ok versions, s) =>
    match c.deleteForGood peer subject ctx s with
    | (.error e, s) => (.error e, s)
    | (.ok (), s) =>
      (.ok versions,
        peer.note (entry "deleted subject"
          [("subject", subject), Journal.number "versions" versions.length,
            ("permanent", if c.config.permanentDelete then "true" else "false")] ctx) s)

def latest (c : Client) (peer : Peer σ) (subject : String) (ctx : Context) (s : σ) :
    Except RegistryError RegisteredSchema × σ :=
  c.send peer latest? (.subject subject) .get (c.latestUrl subject) none ctx s

def subjects (c : Client) (peer : Peer σ) (ctx : Context) (s : σ) :
    Except RegistryError (List String) × σ :=
  c.send peer subjects? .registry .get c.subjectsUrl none ctx s

/-- Deletes a subject for someone who does not wait for it. -/
def deleteLater (c : Client) (peer : Peer σ) (subject : String) (s : σ) : σ :=
  match c.delete peer subject .unbounded s with
  | (.ok _, s) => s
  | (.error e, s) =>
    peer.note {
      level := .warn
      message := "background subject deletion failed"
      details := [("subject", subject), ("error", e.message)] } s

/-- The client as a registry. -/
def registry (c : Client) (peer : Peer σ) : Registry σ where
  register := c.register peer
  fetch := c.fetch peer
  delete := c.delete peer
  latest := c.latest peer
  subjects := c.subjects peer
  note := peer.note
  deleteLater := c.deleteLater peer

end Client

end Rest

end EventCodec
