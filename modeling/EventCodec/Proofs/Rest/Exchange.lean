import EventCodec.Proofs.Rest.Facade
import EventCodec.Proofs.Schema.Text

/-! # Exchanges with the service

    What the service writes, its client reads as the same (`Reads`), and
    an error that is about what was asked for comes back as itself, its
    words aside (`sameAnswer_relayed`).  So a call that reaches the service
    ends as the service's own call did (`send_answer`). -/

namespace EventCodec

/-! ### Errors without their words -/

/-- An error without what it says, but with what it is about. -/
def RegistryError.wordless : RegistryError → RegistryError
  | .transport _ => .transport ""
  | .unauthorized _ => .unauthorized ""
  | .incompatible subject _ => .incompatible subject ""
  | .invalidSchema _ => .invalidSchema ""
  | .server status _ => .server status ""
  | .invalidResponse _ => .invalidResponse ""
  | .invalidConfig _ => .invalidConfig ""
  | e => e

/-- The same value, or the same error about the same thing. -/
def SameAnswer {α : Type} (a b : Except RegistryError α) : Prop :=
  a.mapError RegistryError.wordless = b.mapError RegistryError.wordless

theorem SameAnswer.map {α β : Type} {a b : Except RegistryError α} (h : SameAnswer a b)
    (f : α → β) : SameAnswer (a.map f) (b.map f) := by
  cases a with
  | error e =>
    cases b with
    | error e' => exact congrArg Except.error (Except.error.inj h)
    | ok b => cases h
  | ok a =>
    cases b with
    | error e' => cases h
    | ok b => exact congrArg (fun a => Except.ok (f a)) (Except.ok.inj h)

namespace Rest

open Schema
open Json (Takes valueWithin takes_number takes_quoted ofText?_object ofText?_array)

/-- What an error of a call may be about. -/
def Target.covers : Target → RegistryError → Prop
  | .subject name, .subjectNotFound other => other = name
  | .subject name, .incompatible other _ => other = name
  | .subject _, .invalidSchema _ => True
  | .schema id, .schemaNotFound missing => missing = id
  | _, _ => False

namespace Facade

/-! ### Bodies -/

/-- A body is read as a value. -/
def Reads {α : Type} (body : List Char) (read? : Json → Option α) (value : α) : Prop :=
  (Json.ofText? (String.ofList body)).bind read? = some value

theorem word?_toNat (n : UInt32) : Json.word? (.natural n.toNat) = some n := by
  rw [Json.word?, if_pos n.toNat_lt, UInt32.ofNat_toNat]

/-- A field with a number, and what is read of it. -/
def numberField (name : String) (n : UInt32) : String × List Char × Json :=
  (name, Json.numberText n.toNat, .natural n.toNat)

/-- A field with a text, and what is read of it. -/
def textField (name text : String) : String × List Char × Json :=
  (name, (Json.quoted text).toList, .string (some text))

theorem takes_numberField (name : String) (n : UInt32) :
    ∀ depth, Takes (valueWithin depth) (numberField name n).2.1 (numberField name n).2.2 := by
  intro depth
  dsimp only [numberField]
  exact takes_number depth n.toNat

theorem takes_textField (name text : String) :
    ∀ depth, Takes (valueWithin depth) (textField name text).2.1 (textField name text).2.2 := by
  intro depth
  dsimp only [textField]
  exact takes_quoted depth text

/-- An object of such fields is read field by field. -/
theorem reads_object {α : Type} {members : List (String × List Char)} {read? : Json → Option α}
    {value : α} (fields : List (String × List Char × Json))
    (hmembers : fields.map (fun e => (e.1, e.2.1)) = members)
    (hfields : ∀ e ∈ fields, ∀ depth, Takes (valueWithin depth) e.2.1 e.2.2)
    (hread : read? (.object (fields.map fun e => (some e.1, e.2.2))) = some value) :
    Reads (Json.objectText members) read? value := by
  rw [Reads, ← hmembers, ofText?_object fields hfields]
  exact hread

theorem reads_id (id : UInt32) : Reads (idText id) registeredId? id := by
  apply reads_object [numberField "id" id]
  · simp only [numberField, List.map_cons, List.map_nil]
  · simp [takes_numberField]
  · simp [numberField, registeredId?, Json.fields?, Json.valuesOf, Json.required, word?_toNat]

theorem reads_error (e : RegistryError) :
    Reads (errorText e) ErrorBody.ofJson? { code := (errorCodes e).2, message := e.message } := by
  apply reads_object [numberField "error_code" (errorCodes e).2, textField "message" e.message]
  · simp only [numberField, textField, List.map_cons, List.map_nil]
  · simp [takes_numberField, takes_textField]
  · simp [numberField, textField, ErrorBody.ofJson?, Json.fields?, Json.valuesOf, Json.required,
      Json.withDefault, Json.text?, word?_toNat]

theorem reads_schema (id : UInt32) (schema : RegisteredSchema) :
    Reads (schemaText schema) (schema? id)
      { id, subject := none, version := none, schemaType := .protobuf, text := schema.text } := by
  apply reads_object [textField "schema" schema.text,
    textField "schemaType" SchemaType.protobuf.name]
  · simp only [textField, List.map_cons, List.map_nil]
  · simp [takes_textField]
  · simp [textField, schema?, Json.fields?, Json.valuesOf, Json.required, Json.withDefault,
      Json.text?, schemaType?]

theorem reads_latest (subject : String) {schema : RegisteredSchema} {version : UInt32}
    (h : schema.version = some version) :
    Reads (latestText subject schema) latest?
      { id := schema.id, subject := some subject, version := some version
        schemaType := .protobuf, text := schema.text } := by
  apply reads_object [numberField "id" schema.id, textField "schema" schema.text,
    textField "schemaType" SchemaType.protobuf.name, textField "subject" subject,
    numberField "version" version]
  · simp only [numberField, textField, List.map_cons, List.map_nil, h, Option.elim_some]
  · simp [takes_numberField, takes_textField]
  · simp [numberField, textField, latest?, Json.fields?, Json.valuesOf, Json.required,
      Json.withDefault, Json.text?, schemaType?, word?_toNat]

/-- A row of values is read item by item. -/
theorem list?_map {α : Type} {item? : Json → Option α} {json : α → Json}
    (h : ∀ a, item? (json a) = some a) (items : List α) :
    Json.list? item? (.array (items.map json)) = some items := by
  rw [Json.list?]
  induction items with
  | nil => rfl
  | cons a items ih =>
    rw [List.map_cons, List.mapM_cons, h a, ih]
    rfl

theorem reads_array {α : Type} {write : α → List Char} {json : α → Json} {item? : Json → Option α}
    (htakes : ∀ a depth, Takes (valueWithin depth) (write a) (json a))
    (hitem : ∀ a, item? (json a) = some a) (items : List α) :
    Reads (Json.arrayText (items.map write)) (Json.list? item?) items := by
  have htexts : items.map write = (items.map fun a => (write a, json a)).map Prod.fst := by
    rw [List.map_map]
    rfl
  rw [Reads, htexts, ofText?_array, List.map_map]
  · exact list?_map hitem items
  · rw [List.forall_mem_map]
    exact fun a _ => htakes a

theorem reads_versions (versions : List UInt32) :
    Reads (versionsText versions) versions? versions :=
  reads_array (fun n depth => takes_number depth n.toNat) word?_toNat versions

theorem reads_names (names : List String) : Reads (namesText names) subjects? names :=
  reads_array (fun name depth => takes_quoted depth name) (fun _ => rfl) names

/-- An error of the service as its client gets it. -/
def relayed (target : Target) (e : RegistryError) : RegistryError :=
  errorOf (errorCodes e).1 (some { code := (errorCodes e).2, message := e.message }) target

/-- An error about what was asked for comes back as itself. -/
theorem wordless_relayed {target : Target} {e : RegistryError} (h : target.covers e) :
    (relayed target e).wordless = e.wordless := by
  cases target <;> cases e <;> simp only [Target.covers] at h
  all_goals first
    | contradiction
    | (subst h; rfl)
    | rfl

theorem sameAnswer_relayed {α : Type} {target : Target} {result : Except RegistryError α}
    (h : ∀ e, result = .error e → target.covers e) :
    SameAnswer (result.mapError (relayed target)) result := by
  cases result with
  | error e => exact congrArg Except.error (wordless_relayed (h e rfl))
  | ok a => rfl

/-! ### Requests -/

/-- What a request holds that could be built. -/
structure IsRequest (request : Request) (method : Method) (url : Url) (content : Option String) :
    Prop where
  method : request.method = method
  url : request.url = url.named
  body : request.body = content.getD ""
  json : content.isSome = true → hasJson request = true

/-- A URL can be asked for under a context. -/
structure IsAskable (ctx : Context) (url : Url) : Prop where
  header : ctx.correlationId.all Client.isHeaderValue = true
  url : Client.isRequestable url.takeUser.2 = true

theorem IsAskable.exists_request {ctx : Context} {url : Url} (h : IsAskable ctx url) (c : Client)
    (method : Method) (body : Option String) :
    ∃ request, c.request method url body ctx = .ok request ∧
      IsRequest request method url body := by
  unfold Client.request
  dsimp only
  rw [h.header, h.url]
  refine ⟨_, rfl, rfl, rfl, rfl, ?_⟩
  intro hbody
  obtain ⟨text, rfl⟩ := Option.isSome_iff_exists.mp hbody
  -- no other header has this name
  have hname : ("content-type" == Client.correlationHeader.toLower) = false := by decide +kernel
  have hkind : hasJson { method := .post, url := "", body := ""
                         headers := [("content-type", Client.contentType)] } = true := by
    decide
  rw [hasJson] at hkind ⊢
  -- whichever headers there are, the kind of the body is found
  cases url.takeUser.1 <;> cases c.config.username <;> cases ctx.correlationId
  all_goals simpa [List.lookup_cons, Client.acceptHeader, Client.authorization, hname] using hkind

/-- What cannot be asked for is no request. -/
theorem exists_reason {ctx : Context} {url : Url} (h : ¬ IsAskable ctx url) (c : Client)
    (method : Method) (body : Option String) :
    ∃ reason, c.request method url body ctx = .error (.transport reason) := by
  unfold Client.request
  dsimp only
  by_cases hheader : ctx.correlationId.all Client.isHeaderValue = true
  · by_cases hurl : Client.isRequestable url.takeUser.2 = true
    · exact absurd ⟨hheader, hurl⟩ h
    · rw [Bool.not_eq_true] at hurl
      rw [hheader, hurl]
      exact ⟨_, rfl⟩
  · rw [Bool.not_eq_true] at hheader
    rw [hheader]
    exact ⟨_, rfl⟩

/-- The service registers the descriptor that a client sends. -/
theorem register_eq {request : Request} {d : Descriptor} (hjson : hasJson request = true)
    (hbody : request.body = Client.registerBody d) (f : Facade) (subject : String) :
    f.register subject request = f.ask idText (Staged.registry.register subject d .unbounded) := by
  have hfields : Json.objectText [("schema", (Json.quoted d.text).toList),
      ("schemaType", (Json.quoted SchemaType.protobuf.name).toList)] =
      Json.objectText ([textField "schema" d.text,
        textField "schemaType" SchemaType.protobuf.name].map fun e => (e.1, e.2.1)) := by
    simp only [textField, List.map_cons, List.map_nil]
  have hread : Json.ofText? request.body = some (.object ([textField "schema" d.text,
      textField "schemaType" SchemaType.protobuf.name].map fun e => (some e.1, e.2.2))) := by
    rw [hbody, registerBody_eq, hfields, ofText?_object]
    simp [takes_textField]
  simp only [textField, List.map_cons, List.map_nil] at hread
  have htype : textOf? "schemaType" (.object [(some "schema", .string (some d.text)),
      (some "schemaType", .string (some SchemaType.protobuf.name))]) =
      some SchemaType.protobuf.name := rfl
  have hschema : textOf? "schema" (.object [(some "schema", .string (some d.text)),
      (some "schemaType", .string (some SchemaType.protobuf.name))]) = some d.text := rfl
  -- the body is JSON in the right language, and its text is the descriptor's
  rw [register, hjson, hread]
  simp only [Bool.not_true, Bool.false_eq_true, ↓reduceIte, htype, ne_eq, not_true_eq_false, hschema,
    Option.getD_some, Descriptor.ofText_text]

/-! ### Calls that reach the service -/

variable {c : Client} {α : Type} {ctx : Context} {f f' : Facade} {address : List Char}

/-- A context that ends nothing now. -/
structure IsLive (ctx : Context) (now : Nat) : Prop where
  kept : ctx.isCancelled now = false
  early : ctx.isDue now = false

theorem isBodiless_errorCodes (e : RegistryError) : isBodiless (errorCodes e).1 = false := by
  cases e <;> rfl

theorem isSuccess_errorCodes (e : RegistryError) : isSuccess (errorCodes e).1 = false := by
  cases e <;> rfl

/-- A call that cannot be asked for fails before the service hears of
    it. -/
theorem send_refused (c : Client) (address : List Char) (read? : Json → Option α) (target : Target)
    (method : Method) {url : Url} (body : Option String) (hlive : IsLive ctx f.stage.now)
    (h : ¬ IsAskable ctx url) :
    ∃ reason, c.send (peer address) read? target method url body ctx f =
      (.error (.transport reason), f) := by
  obtain ⟨reason, hrequest⟩ := exists_reason h c method body
  refine ⟨reason, ?_⟩
  have hnow : (peer address).now f = f.stage.now := rfl
  rw [Client.send, hnow, hlive.kept, hrequest]
  rfl

/-- What arrives complete is judged. -/
theorem send_answered {read? : Json → Option α} {target : Target} {method : Method} {url : Url}
    {body : Option String} {request : Request} {status : Nat} {text : List Char}
    (hlive : IsLive ctx f.stage.now) (hrequest : c.request method url body ctx = .ok request)
    (hdeliver : deliver address request f = (answered status text, f'))
    (hstatus : isBodiless status = false) :
    c.send (peer address) read? target method url body ctx f =
      (Client.judge read? target status (some (String.ofList text)), f') := by
  have hpeer : (peer address).deliver request f = (answered status text, f') := hdeliver
  have hnow : (peer address).now f = f.stage.now := rfl
  rw [Client.send, hnow, hlive.kept, hlive.early, hrequest]
  simp only [Bool.false_eq_true, ↓reduceIte]
  rw [Client.exchange, hpeer]
  simp only [answered, Delivery.arriving, hstatus, Bool.false_eq_true, ↓reduceIte]

/-- A call that the service makes for a client leaves the service as the
    call does, and ends as the call does, but for errors that are relayed. -/
theorem send_answer {read? : Json → Option α} {target : Target} {method : Method} {url : Url}
    {body : Option String} {request : Request} {write : α → List Char}
    {result : Except RegistryError α} (hlive : IsLive ctx f.stage.now)
    (hrequest : c.request method url body ctx = .ok request)
    (hdeliver : deliver address request f = (answer write result, f'))
    (hread : ∀ a, result = .ok a → Reads (write a) read? a) :
    c.send (peer address) read? target method url body ctx f =
      (result.mapError (relayed target), f') := by
  cases result with
  | ok a =>
    have hvalue := hread a rfl
    rw [Reads] at hvalue
    rw [send_answered hlive hrequest hdeliver (by decide)]
    simp only [Client.judge, Option.bind_some, hvalue]
    rfl
  | error e =>
    have herror := reads_error e
    rw [Reads] at herror
    rw [send_answered hlive hrequest hdeliver (isBodiless_errorCodes e)]
    simp only [Client.judge, Option.bind_some, isSuccess_errorCodes, Bool.false_eq_true, ↓reduceIte,
      herror]
    rfl

end Facade

end Rest

end EventCodec
