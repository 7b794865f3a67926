import EventCodec.Proofs.Codec.Gate
import EventCodec.Proofs.Codec.Taxonomy
import EventCodec.Proofs.Rest.Refinement

/-! # Fetching a writer's schema

    Between the answer of a registry to a request for a schema and what a
    decode comes to lie five decisions: whether the status is a success,
    whether the body says what went wrong, what status and code mean
    together, whether the schema is in the language of this library, and
    what the error of a registry means for a codec.

    Together they come to this: a schema is unknown exactly if the status is
    404 and the body says so or says nothing (`IsUnknown`).  Any other
    answer without a usable schema (`Fails`) is an error of decoding, and a
    failure leaves nothing behind, so that the next decode asks again
    (`fetching_tells`). -/

namespace EventCodec.Rest

open Schema
open Facade (IsLive)
open Json (fields? valuesOf)

/-! ### What bodies say -/

/-- A value gives two fields, the second perhaps not: an object by their
    names, each of them at most once, and an array in their order. -/
inductive Gives (first second : String) : Json → Json → Option Json → Prop where
  | byName {members : List (Option String × Json)} {value : Json} {other : Option Json} :
      (∀ m ∈ members, m.1.isSome = true) → valuesOf members first = [value] →
      valuesOf members second = other.toList → Gives first second (.object members) value other
  | inOrder (value : Json) (other : Option Json) :
      Gives first second (.array (value :: other.toList)) value other

/-- A body is JSON that gives two fields. -/
def BodyGives (first second : String) (body : Option String) (value : Json) (other : Option Json) :
    Prop :=
  ∃ text json, body = some text ∧ Json.ofText? text = some json ∧
    Gives first second json value other

/-- A body says that something went wrong: a code, and a text if there is
    a message. -/
def SaysError (body : Option String) (code : UInt32) : Prop :=
  ∃ message : Option String,
    BodyGives "error_code" "message" body (.natural code.toNat)
      (message.map fun m => .string (some m))

/-- A body gives a schema: its text, and the language, which is Avro if it
    is missing. -/
def SaysSchema (body : Option String) (text : String) (language : SchemaType) : Prop :=
  ∃ named, BodyGives "schema" "schemaType" body (.string (some text)) named ∧
    match named with
    | none => language = .avro
    | some value => schemaType? value = some language

section Bodies

variable {first second text : String} {json value : Json} {other : Option Json}
  {body : Option String} {code : UInt32} {language : SchemaType}

/-- At most one value is given under a name. -/
theorem eq_toList_head? {α : Type} {values : List α} (h : ¬ 1 < values.length) :
    values = values.head?.toList := by
  cases values with
  | nil => rfl
  | cons a rest =>
    rw [List.length_cons] at h
    obtain rfl : rest = [] := List.eq_nil_of_length_eq_zero (by omega)
    rfl

theorem fields?_eq_some_iff :
    fields? [first, second] json = some [some value, other] ↔
      Gives first second json value other := by
  constructor
  · intro h
    cases json with
    | array items =>
      match items with
      | [] => simp [fields?] at h
      | [a] =>
        obtain ⟨rfl, rfl⟩ : a = value ∧ none = other := by simpa [fields?] using h
        exact .inOrder a none
      | [a, b] =>
        obtain ⟨rfl, rfl⟩ : a = value ∧ some b = other := by simpa [fields?] using h
        exact .inOrder a (some b)
      | _ :: _ :: _ :: _ => simp [fields?] at h
    | object members =>
      rw [fields?] at h
      split at h
      · contradiction
      · next hfit =>
        rw [Bool.or_eq_true, not_or] at hfit
        obtain ⟨hnamed, honce⟩ := hfit
        simp only [List.any_cons, List.any_nil, Bool.or_false, Bool.or_eq_true, decide_eq_true_eq,
          not_or] at honce
        obtain ⟨hfirst, hsecond⟩ : (valuesOf members first).head? = some value ∧
            (valuesOf members second).head? = other := by simpa using h
        refine .byName ?_ ?_ ?_
        · intro m hm
          by_contra hnone
          exact hnamed (List.any_eq_true.mpr ⟨m, hm, by simpa using hnone⟩)
        · rw [eq_toList_head? honce.1, hfirst]
          rfl
        · rw [eq_toList_head? honce.2, hsecond]
    | _ => contradiction
  · intro h
    cases h with
    | inOrder => cases other <;> rfl
    | @byName members _ _ hnamed hfirst hsecond =>
      have hnone : members.any (·.1.isNone) = false := by
        rw [List.any_eq_false]
        intro m hm
        simpa [Option.isNone_iff_eq_none, ← Option.isSome_iff_ne_none] using hnamed m hm
      have honce : other.toList.length ≤ 1 := by cases other <;> simp
      have hhead : other.toList.head? = other := by cases other <;> rfl
      have hfew : ¬ 1 < other.toList.length := by omega
      simp [fields?, hnone, hfirst, hsecond, hhead, hfew]

theorem word?_eq_some_iff : Json.word? value = some code ↔ value = .natural code.toNat := by
  constructor
  · intro h
    cases value with
    | natural n =>
      rw [Json.word?] at h
      split at h
      · next hfits =>
        obtain rfl := Option.some.inj h
        rw [UInt32.toNat_ofNat', Nat.mod_eq_of_lt hfits]
      · contradiction
    | _ => contradiction
  · rintro rfl
    exact Facade.word?_toNat code

theorem text?_eq_some_iff : Json.text? value = some text ↔ value = .string (some text) := by
  constructor
  · intro h
    cases value with
    | string found =>
      obtain rfl : found = some text := h
      rfl
    | _ => contradiction
  · rintro rfl
    rfl

/-- What a reader of two fields makes of them, if it needs the first. -/
theorem bind_fields?_eq_some_iff {α : Type} {read? : Option Json → Option Json → Option α} {a : α}
    (hneeds : ∀ field, read? none field = none) :
    ((fields? [first, second] json).bind fun
        | [x, y] => read? x y
        | _ => none) = some a ↔
      ∃ value other, Gives first second json value other ∧ read? (some value) other = some a := by
  rw [Option.bind_eq_some_iff]
  constructor
  · rintro ⟨found, hfields, hread⟩
    match found with
    | [none, y] =>
      replace hread : read? none y = some a := hread
      rw [hneeds] at hread
      contradiction
    | [some value, other] => exact ⟨value, other, fields?_eq_some_iff.mp hfields, hread⟩
    | [] | [_] | _ :: _ :: _ :: _ => contradiction
  · rintro ⟨value, other, hgives, hread⟩
    exact ⟨_, fields?_eq_some_iff.mpr hgives, hread⟩

/-- A body is read as JSON first. -/
theorem bind_body_eq_some_iff {α : Type} {read? : Json → Option α} {a : α} :
    (body.bind Json.ofText?).bind read? = some a ↔
      ∃ text json, body = some text ∧ Json.ofText? text = some json ∧ read? json = some a := by
  constructor
  · intro h
    obtain ⟨json, hjson, hread⟩ := Option.bind_eq_some_iff.mp h
    obtain ⟨text, hbody, htext⟩ := Option.bind_eq_some_iff.mp hjson
    exact ⟨text, json, hbody, htext, hread⟩
  · rintro ⟨text, json, rfl, htext, hread⟩
    rw [Option.bind_some, htext]
    exact hread

/-- An error is read of a body exactly if the body says one. -/
theorem saysError_iff :
    SaysError body code ↔
      ∃ e, (body.bind Json.ofText?).bind ErrorBody.ofJson? = some e ∧ e.code = code := by
  have hread : ∀ {json e}, ErrorBody.ofJson? json = some e ↔ ∃ value other,
      Gives "error_code" "message" json value other ∧
        ((Json.required Json.word? (some value)).bind fun code =>
          (Json.withDefault "" Json.text? other).bind fun message =>
            some ({ code, message } : ErrorBody)) = some e :=
    bind_fields?_eq_some_iff fun _ => rfl
  constructor
  · rintro ⟨message, text, json, hbody, hjson, hgives⟩
    refine ⟨{ code, message := message.getD "" }, ?_, rfl⟩
    refine bind_body_eq_some_iff.mpr ⟨text, json, hbody, hjson, hread.mpr ⟨_, _, hgives, ?_⟩⟩
    rw [Json.required, Option.bind_some, word?_eq_some_iff.mpr rfl]
    cases message <;> rfl
  · rintro ⟨e, h, rfl⟩
    obtain ⟨text, json, hbody, hjson, he⟩ := bind_body_eq_some_iff.mp h
    obtain ⟨value, other, hgives, hfields⟩ := hread.mp he
    obtain ⟨code, hcode, hrest⟩ := Option.bind_eq_some_iff.mp hfields
    obtain ⟨message, hmessage, heq⟩ := Option.bind_eq_some_iff.mp hrest
    obtain rfl := Option.some.inj heq
    obtain rfl := word?_eq_some_iff.mp hcode
    cases other with
    | none => exact ⟨none, text, json, hbody, hjson, hgives⟩
    | some value =>
      obtain rfl := text?_eq_some_iff.mp hmessage
      exact ⟨some message, text, json, hbody, hjson, hgives⟩

/-- A schema is read of a body exactly if the body gives one. -/
theorem bind_schema?_eq_some_iff {id : UInt32} {schema : RegisteredSchema} :
    (body.bind Json.ofText?).bind (schema? id) = some schema ↔
      SaysSchema body schema.text schema.schemaType ∧ schema.id = id ∧ schema.subject = none ∧
        schema.version = none := by
  have hread : ∀ {json}, schema? id json = some schema ↔ ∃ value other,
      Gives "schema" "schemaType" json value other ∧
        ((Json.required Json.text? (some value)).bind fun text =>
          (Json.withDefault .default schemaType? other).bind fun schemaType =>
            some ({ id, subject := none, version := none, text, schemaType } : RegisteredSchema)) =
          some schema :=
    bind_fields?_eq_some_iff fun _ => rfl
  rw [bind_body_eq_some_iff]
  constructor
  · rintro ⟨text, json, hbody, hjson, hschema⟩
    obtain ⟨value, other, hgives, hfields⟩ := hread.mp hschema
    obtain ⟨schemaText, htext, hrest⟩ := Option.bind_eq_some_iff.mp hfields
    obtain ⟨language, hlanguage, heq⟩ := Option.bind_eq_some_iff.mp hrest
    obtain rfl := Option.some.inj heq
    obtain rfl := text?_eq_some_iff.mp htext
    refine ⟨⟨other, ⟨text, json, hbody, hjson, hgives⟩, ?_⟩, rfl, rfl, rfl⟩
    cases other with
    | none => exact (Option.some.inj hlanguage).symm
    | some value => exact hlanguage
  · rintro ⟨⟨other, ⟨text, json, hbody, hjson, hgives⟩, hlanguage⟩, hid, hsubject, hversion⟩
    refine ⟨text, json, hbody, hjson, hread.mpr ⟨_, _, hgives, ?_⟩⟩
    obtain ⟨id, subject, version, language, schemaText⟩ := schema
    subst hid hsubject hversion
    rw [Json.required, Option.bind_some, text?_eq_some_iff.mpr rfl, Option.bind_some]
    cases other with
    | none =>
      subst hlanguage
      rfl
    | some value =>
      rw [Json.withDefault, hlanguage]
      rfl

theorem bind_schema?_of_stated {id : UInt32} (h : SaysSchema body text language) :
    (body.bind Json.ofText?).bind (schema? id) =
      some { id, subject := none, version := none, schemaType := language, text } :=
  bind_schema?_eq_some_iff.mpr ⟨h, rfl, rfl, rfl⟩

end Bodies

/-! ### What answers mean -/

/-- The service has no such schema: it says so, or nothing but the status
    is to be read. -/
def IsUnknown (status : Nat) (body : Option String) : Prop :=
  status = 404 ∧ ((∀ code, ¬ SaysError body code) ∨ SaysError body 40403)

/-- An answer without a schema that can be used. -/
inductive Fails (status : Nat) (body : Option String) : Prop where
  | status : isSuccess status = false → Fails status body
  | body : isSuccess status = true → (∀ text language, ¬ SaysSchema body text language) →
      Fails status body
  | language {text : String} {language : SchemaType} : isSuccess status = true →
      SaysSchema body text language → language ≠ .protobuf → Fails status body
  | text {text : String} {e : SchemaError} : isSuccess status = true →
      SaysSchema body text .protobuf → Descriptor.ofText text = .error e → Fails status body

section Meaning

variable {status : Nat} {body : Option String} {error? : Option ErrorBody} {id : UInt32}
  {schema : RegisteredSchema}

theorem isUnknown_iff :
    IsUnknown status body ↔
      status = 404 ∧ ∀ e, (body.bind Json.ofText?).bind ErrorBody.ofJson? = some e →
        e.code = schemaNotFoundCode := by
  refine and_congr_right fun _ => ?_
  constructor
  · rintro (hsilent | hstated) e he
    · exact absurd (saysError_iff.mpr ⟨e, he, rfl⟩) (hsilent e.code)
    · obtain ⟨e', he', hcode⟩ := saysError_iff.mp hstated
      obtain rfl := Option.some.inj (he.symm.trans he')
      exact hcode
  · intro hcode
    cases hread : (body.bind Json.ofText?).bind ErrorBody.ofJson? with
    | none =>
      refine .inl fun code hstated => ?_
      obtain ⟨e, he, -⟩ := saysError_iff.mp hstated
      rw [hread] at he
      contradiction
    | some e => exact .inr (saysError_iff.mpr ⟨e, hread, hcode e hread⟩)

theorem IsUnknown.fails (h : IsUnknown status body) : Fails status body := by
  obtain ⟨rfl, -⟩ := h
  exact .status (by decide)

/-- Of all that can be wrong only a schema that is not there is unknown. -/
theorem kind_toFetch_errorOf (status : Nat) (error? : Option ErrorBody) (id : UInt32) :
    (status = 404 ∧ (∀ e, error? = some e → e.code = schemaNotFoundCode) ∧
        (errorOf status error? (.schema id)).toFetch id = .unknownSchema id) ∨
      (¬ (status = 404 ∧ ∀ e, error? = some e → e.code = schemaNotFoundCode) ∧
        ((errorOf status error? (.schema id)).toFetch id).kind = .decode) := by
  by_cases hstatus : status = 404
  · subst hstatus
    cases error? with
    | none => exact .inl ⟨rfl, nofun, rfl⟩
    | some e =>
      by_cases hcode : e.code = schemaNotFoundCode
      · refine .inl ⟨rfl, fun e' he' => Option.some.inj he' ▸ hcode, ?_⟩
        simp [errorOf, notFound?, hcode, RegistryError.toFetch]
      · refine .inr ⟨fun h => hcode (h.2 e rfl), ?_⟩
        simp [errorOf, notFound?, hcode, RegistryError.toFetch, CodecError.kind]
  · refine .inr ⟨fun h => hstatus h.1, ?_⟩
    unfold errorOf
    split
    · rfl
    · rfl
    · contradiction
    · rfl
    · rfl
    · rfl

/-- A schema that cannot be used is an error of decoding. -/
theorem fails_of_descriptor {e : SchemaError} (hsuccess : isSuccess status = true)
    (hstated : SaysSchema body schema.text schema.schemaType) (h : schema.descriptor = .error e) :
    Fails status body := by
  unfold RegisteredSchema.descriptor at h
  split at h
  · next hlanguage =>
    rw [hlanguage] at hstated
    exact .text hsuccess hstated h
  · next hlanguage => exact .language hsuccess hstated hlanguage

/-- An answer with a usable schema does not fail. -/
theorem not_fails_of_descriptor {d : Descriptor} (hsuccess : isSuccess status = true)
    (hread : (body.bind Json.ofText?).bind (schema? id) = some schema)
    (h : schema.descriptor = .ok d) : ¬ Fails status body := by
  have hsame : ∀ {text language}, SaysSchema body text language →
      schema = { id, subject := none, version := none, schemaType := language, text } := by
    intro text language hstated
    exact Option.some.inj (hread.symm.trans (bind_schema?_of_stated hstated))
  intro hfails
  cases hfails with
  | status hfailure => exact absurd hsuccess (by simp [hfailure])
  | body _ hnone => exact hnone _ _ (bind_schema?_eq_some_iff.mp hread).1
  | @language text language _ hstated hlanguage =>
    obtain rfl := hsame hstated
    cases language with
    | protobuf => contradiction
    | avro | json => contradiction
  | text _ hstated hrefused =>
    obtain rfl := hsame hstated
    have hok : Descriptor.ofText _ = .ok d := h
    rw [hrefused] at hok
    contradiction

theorem judge_of_failure (hfailure : isSuccess status = false) :
    Client.judge (schema? id) (.schema id) status body =
      .error (errorOf status ((body.bind Json.ofText?).bind ErrorBody.ofJson?) (.schema id)) := by
  rw [Client.judge, hfailure]
  rfl

theorem judge_of_success (hsuccess : isSuccess status = true) :
    Client.judge (schema? id) (.schema id) status body =
      ((body.bind Json.ofText?).bind (schema? id)).elim (.error Client.undecodable) .ok := by
  rw [Client.judge, hsuccess, if_pos rfl]
  cases (body.bind Json.ofText?).bind (schema? id) <;> rfl

/-- What an answer comes to for a decode. -/
theorem interpret_judge (status : Nat) (body : Option String) (id : UInt32) :
    match Cache.interpret id (Client.judge (schema? id) (.schema id) status body) with
    | .ok _ => ¬ Fails status body
    | .error e => Fails status body ∧
        (IsUnknown status body ∧ e = .unknownSchema id ∨
          ¬ IsUnknown status body ∧ e.kind = .decode) := by
  rw [isUnknown_iff]
  cases hsuccess : isSuccess status with
  | false =>
    rw [judge_of_failure hsuccess]
    refine ⟨.status hsuccess, ?_⟩
    rcases kind_toFetch_errorOf status ((body.bind Json.ofText?).bind ErrorBody.ofJson?) id with
      ⟨hstatus, hcode, heq⟩ | ⟨hknown, hkind⟩
    · exact .inl ⟨⟨hstatus, hcode⟩, heq⟩
    · exact .inr ⟨hknown, hkind⟩
  | true =>
    -- a success is no status for what is missing
    have hfound : ¬ (status = 404 ∧ ∀ e, (body.bind Json.ofText?).bind ErrorBody.ofJson? = some e →
        e.code = schemaNotFoundCode) := by
      rintro ⟨rfl, -⟩
      contradiction
    rw [judge_of_success hsuccess]
    cases hread : (body.bind Json.ofText?).bind (schema? id) with
    | none =>
      refine ⟨.body hsuccess fun text language hstated => ?_, .inr ⟨hfound, rfl⟩⟩
      rw [bind_schema?_of_stated hstated] at hread
      contradiction
    | some schema =>
      have hstated := (bind_schema?_eq_some_iff.mp hread).1
      show match schema.descriptor.mapError SchemaError.toDecode with
        | .ok _ => ¬ Fails status body
        | .error e => _
      cases hdescriptor : schema.descriptor with
      | error e => exact ⟨fails_of_descriptor hsuccess hstated hdescriptor, .inr ⟨hfound, rfl⟩⟩
      | ok d => exact not_fails_of_descriptor hsuccess hread hdescriptor

end Meaning

/-! ### Asking for a schema -/

/-- The same peer with a record of the requests to it, the oldest first. -/
def Peer.recorded {σ : Type} (peer : Peer σ) : Peer (List Request × σ) where
  deliver request world :=
    ((peer.deliver request world.2).1, world.1 ++ [request], (peer.deliver request world.2).2)
  now world := peer.now world.2
  passTo instant world := (world.1, peer.passTo instant world.2)
  note entry world := (world.1, peer.note entry world.2)

/-- What was delivered is an answer with a status and a body, which is
    missing if it broke off. -/
inductive Answers (delivery : Delivery) : Nat → Option String → Prop where
  | complete {status : Nat} {body : String} :
      delivery.arriving = .response status body .complete → Answers delivery status (some body)
  | truncated {status : Nat} {body : String} :
      delivery.arriving = .response status body .truncated → Answers delivery status none

/-- The request for a schema goes out under a live context and is answered,
    and not with a redirection.  Its body is any text, or breaks off; bytes
    that are no text are left out, as in `Delivery`. -/
structure Receives {σ : Type} (c : Client) (peer : Peer σ) (id : UInt32) (ctx : Context) (s : σ)
    (request : Request) (status : Nat) (body : Option String) : Prop where
  live : IsLive ctx (peer.now s)
  asks : c.request .get (c.schemaUrl id) none ctx = .ok request
  answers : Answers (peer.deliver request s).1 status body
  stays : ¬ (300 ≤ status ∧ status ≤ 399)

section Asking

variable {α σ : Type} {c : Client} {peer : Peer σ} {id : UInt32} {ctx : Context}
  {request : Request}

theorem fetch_of_receives {s : σ} {status : Nat} {body : Option String}
    (h : Receives c peer id ctx s request status body) :
    (c.fetch peer id ctx s).1 = Client.judge (schema? id) (.schema id) status body := by
  have hsend : c.send peer (schema? id) (.schema id) .get (c.schemaUrl id) none ctx s =
      (Client.judge (schema? id) (.schema id) status body, (peer.deliver request s).2) := by
    rw [Client.send, h.live.kept, h.asks, h.live.early]
    simp only [Bool.false_eq_true, if_false, Client.exchange]
    cases h.answers with
    | complete harrives => rw [harrives]
    | truncated harrives => rw [harrives]
  rw [Client.fetch, hsend]
  cases Client.judge (schema? id) (.schema id) status body <;> rfl

/-- However it is answered, one request goes out. -/
theorem record_exchange {read? : Json → Option α} {target : Target} {url : Url}
    {world : List Request × σ} :
    (c.exchange peer.recorded read? target url request ctx world).2.1 = world.1 ++ [request] := by
  have hdeliver : (peer.recorded.deliver request world).2.1 = world.1 ++ [request] := rfl
  unfold Client.exchange
  generalize peer.recorded.deliver request world = outcome at hdeliver ⊢
  obtain ⟨delivery, s⟩ := outcome
  dsimp only at hdeliver ⊢
  -- waiting asks for nothing
  have hwait : (c.waitLimit peer.recorded ctx s).2.1 = world.1 ++ [request] := hdeliver
  generalize c.waitLimit peer.recorded ctx s = waited at hwait ⊢
  split
  · exact hdeliver
  · rcases waited with ⟨e | _, s'⟩ <;> exact hwait
  · exact hdeliver
  · exact hdeliver
  · rcases waited with ⟨e | _, s'⟩ <;> exact hwait

theorem record_fetch {world : List Request × σ} (hlive : IsLive ctx (peer.now world.2))
    (hasks : c.request .get (c.schemaUrl id) none ctx = .ok request) :
    (c.fetch peer.recorded id ctx world).2.1 = world.1 ++ [request] := by
  have hsend : (c.send peer.recorded (schema? id) (.schema id) .get (c.schemaUrl id) none ctx
      world).2.1 = world.1 ++ [request] := by
    have hnow : peer.recorded.now world = peer.now world.2 := rfl
    rw [Client.send, hnow, hlive.kept, hasks, hlive.early]
    exact record_exchange
  rw [Client.fetch]
  generalize c.send peer.recorded (schema? id) (.schema id) .get (c.schemaUrl id) none ctx world =
    outcome at hsend ⊢
  rcases outcome with ⟨e | schema, s⟩
  · exact hsend
  · exact hsend

end Asking

/-! ### Decoding -/

section Decoding

variable {α σ : Type} {b : Bound α} {c : Client} {peer : Peer σ} {id : UInt32} {ctx : Context}
  {request : Request}

/-- The envelope is one under an ID. -/
def IsUnder (id : UInt32) (data : Bytes) : Prop :=
  ∃ e, Envelope.parse data = .ok e ∧ e.schemaId = id

/-- The codec after decodes of which each finds a world of its own. -/
def decoded (r : Registry σ) : List (Bytes × Context × σ) → Bound α → Bound α
  | [], b => b
  | (data, ctx, s) :: rest, b => decoded r rest (b.decode r data ctx s).2.1

/-- What is not in the cache has to be asked for. -/
theorem record_decode {data : Bytes} {world : List Request × σ} (hunder : IsUnder id data)
    (hid : id ≠ b.schemaId) (hnone : b.cache.get? id = none) (hlive : IsLive ctx (peer.now world.2))
    (hasks : c.request .get (c.schemaUrl id) none ctx = .ok request) :
    (b.decode (c.registry peer.recorded) data ctx world).2.2.1 = world.1 ++ [request] := by
  have hfetch : ((c.registry peer.recorded).fetch id ctx world).2.1 = world.1 ++ [request] :=
    record_fetch hlive hasks
  obtain ⟨e, hparse, rfl⟩ := hunder
  rw [Bound.decode_of_parse hparse hid, Cache.getOrFetch_of_none hnone]
  cases Cache.interpret e.schemaId ((c.registry peer.recorded).fetch e.schemaId ctx world).1 with
  | error cause => exact hfetch
  | ok d => exact hfetch

/-- Fetching brings in nothing but the ID that was asked for. -/
theorem get?_getOrFetch_ne (cache : Cache) (r : Registry σ) (ctx : Context) (s : σ)
    {asked : UInt32} (h : asked ≠ id) :
    (cache.getOrFetch r asked ctx s).2.1.get? id = cache.get? id := by
  rcases cache.getOrFetch_cases r asked ctx s with ⟨d, -, heq⟩ | ⟨e, heq⟩ | ⟨d, -, -, heq⟩
  · rw [heq]
  · rw [heq]
  · rw [heq]
    show Table.get? id (cache.entries ++ [(asked, d)]) = Table.get? id cache.entries
    have hnone : Table.get? id [(asked, d)] = none := by simp [Table.get?, h]
    rw [Table.get?_append, hnone, Option.or_none]

/-- A decode brings nothing into the cache for an ID that is not its own. -/
theorem get?_decode {r : Registry σ} {data : Bytes} {s : σ} (h : ¬ IsUnder id data) :
    (b.decode r data ctx s).2.1.cache.get? id = b.cache.get? id := by
  unfold Bound.decode
  cases hparse : Envelope.parse data with
  | error e => rfl
  | ok e =>
    have hother : e.schemaId ≠ id := fun heq => h ⟨e, hparse, heq⟩
    have hgot := get?_getOrFetch_ne b.cache r ctx s hother
    dsimp only
    split
    · rfl
    · generalize b.cache.getOrFetch r e.schemaId ctx s = outcome at hgot ⊢
      rcases outcome with ⟨e | writer, cache, s'⟩
      · exact hgot
      · exact hgot

theorem get?_decoded {r : Registry σ} {visits : List (Bytes × Context × σ)}
    (h : ∀ v ∈ visits, ¬ IsUnder id v.1) :
    (decoded r visits b).cache.get? id = b.cache.get? id := by
  induction visits generalizing b with
  | nil => rfl
  | cons v rest ih =>
    obtain ⟨data, ctx, s⟩ := v
    rw [decoded, ih fun v hv => h v (List.mem_cons_of_mem _ hv)]
    exact get?_decode (h _ List.mem_cons_self)

theorem schemaId_decoded {r : Registry σ} (visits : List (Bytes × Context × σ)) (b : Bound α) :
    (decoded r visits b).schemaId = b.schemaId := by
  induction visits generalizing b with
  | nil => rfl
  | cons v rest ih =>
    obtain ⟨data, ctx, s⟩ := v
    rw [decoded, ih]
    exact (b.precedes_decode r data ctx s).schemaId

end Decoding

/-- **What fetching a schema tells**: a decode under a foreign ID that is
    not in the cache sends one request, and finds the schema unknown
    exactly if the service says that it has none.  Every other answer
    without a usable schema is an error of decoding.

    In all these cases the codec is as before.  Whatever it decodes under
    other IDs in the meantime, the next decode under this one asks
    again. -/
theorem fetching_tells {α σ : Type} {b : Bound α} {c : Client} {peer : Peer σ} {id : UInt32}
    {data : Bytes} {ctx : Context} {world : List Request × σ} {request : Request} {status : Nat}
    {body : Option String} (hunder : IsUnder id data) (hid : id ≠ b.schemaId)
    (hnone : b.cache.get? id = none)
    (h : Receives c peer.recorded id ctx world request status body) :
    let outcome := b.decode (c.registry peer.recorded) data ctx world
    outcome.2.2.1 = world.1 ++ [request] ∧
    (outcome.1 = .error (.unknownSchema id) ↔ IsUnknown status body) ∧
    (IsUnknown status body → Fails status body) ∧
    (Fails status body →
      (¬ IsUnknown status body → ∃ e, outcome.1 = .error e ∧ e.kind = .decode) ∧
      outcome.2.1 = b ∧
      ∀ visits : List (Bytes × Context × (List Request × σ)),
        (∀ v ∈ visits, ¬ IsUnder id v.1) →
        let later := decoded (c.registry peer.recorded) visits outcome.2.1
        later.cache.get? id = none ∧
        ∀ data' ctx' (world' : List Request × σ) request',
          IsUnder id data' → IsLive ctx' (peer.now world'.2) →
          c.request .get (c.schemaUrl id) none ctx' = .ok request' →
          (later.decode (c.registry peer.recorded) data' ctx' world').2.2.1 =
            world'.1 ++ [request']) := by
  intro outcome
  have hrecord : outcome.2.2.1 = world.1 ++ [request] :=
    record_decode hunder hid hnone h.live h.asks
  have hanswer : ((c.registry peer.recorded).fetch id ctx world).1 =
      Client.judge (schema? id) (.schema id) status body := fetch_of_receives h
  obtain ⟨envelope, hparse, rfl⟩ := hunder
  have houtcome : outcome = _ := Bound.decode_of_parse hparse hid
  rw [Cache.getOrFetch_of_none hnone, hanswer] at houtcome
  have hspec := interpret_judge status body envelope.schemaId
  generalize Cache.interpret envelope.schemaId
    (Client.judge (schema? envelope.schemaId) (.schema envelope.schemaId) status body) = meaning
    at houtcome hspec
  cases meaning with
  | ok d =>
    -- a schema that is there is not unknown, even where it is incompatible
    refine ⟨hrecord, ⟨fun hunknown => ?_, fun hunknown => absurd hunknown.fails hspec⟩,
      IsUnknown.fails, fun hfails => absurd hfails hspec⟩
    have hfrom : b.decodeFrom d envelope = .error (.unknownSchema envelope.schemaId) := by
      rw [← hunknown, houtcome]
      rfl
    have hkind := Bound.kind_of_decodeFrom hfrom
    contradiction
  | error e =>
    obtain ⟨-, hmeaning⟩ := hspec
    have hresult : outcome.1 = .error e := by
      rw [houtcome]
      rfl
    have hcodec : outcome.2.1 = b := by
      rw [houtcome]
    refine ⟨hrecord, ⟨?_, ?_⟩, IsUnknown.fails, fun _ => ⟨?_, hcodec, ?_⟩⟩
    · intro hunknown
      obtain rfl := Except.error.inj (hresult.symm.trans hunknown)
      rcases hmeaning with ⟨hmissing, -⟩ | ⟨-, hkind⟩
      · exact hmissing
      · contradiction
    · intro hmissing
      rcases hmeaning with ⟨-, rfl⟩ | ⟨hknown, -⟩
      · exact hresult
      · exact absurd hmissing hknown
    · intro hknown
      rcases hmeaning with ⟨hmissing, -⟩ | ⟨-, hkind⟩
      · exact absurd hmissing hknown
      · exact ⟨e, hresult, hkind⟩
    · intro visits hother later
      have hlater : later.cache.get? envelope.schemaId = none := by
        rw [get?_decoded hother, hcodec]
        exact hnone
      have hforeign : envelope.schemaId ≠ later.schemaId := by
        rw [schemaId_decoded, hcodec]
        exact hid
      exact ⟨hlater, fun data' ctx' world' request' hunder' hlive hasks =>
        record_decode hunder' hforeign hlater hlive hasks⟩

/-- An event that has nothing to say. -/
def silent : EventType Unit where
  name := "Silent"
  describe := .new "Silent"
  validate _ := none
  encode _ := []
  decode _ := .ok ()
  default := ()

/-- A service without schemas, which does not say more than the status. -/
def vacant : Peer Unit where
  deliver _ s := (.response 404 "" .complete, s)
  now _ := 0
  passTo _ s := s
  note _ s := s

theorem vacant_tells :
    let b := Bound.new silent 1 Descriptor.keywords
    let r := loopback.registry vacant.recorded
    let outcome := b.decode r (Envelope.under 7 []) .unbounded ([], ())
    ∃ request, loopback.request .get (loopback.schemaUrl 7) none .unbounded = .ok request ∧
      outcome.1 = .error (.unknownSchema 7) ∧ outcome.2.2.1 = [request] ∧
      (outcome.2.1.decode r (Envelope.under 7 []) .unbounded ([request], ())).2.2.1 =
        [request, request] := by
  intro b r outcome
  have hcan : loopback.CanCall .unbounded (.fetch 7) := Client.canCall_eq_true (by decide)
  obtain ⟨request, hasks, -⟩ := (hcan.asks _ List.mem_cons_self).exists_request loopback .get none
  have hempty : (Json.ofText? "").isNone = true := by decide +kernel
  have hunknown : IsUnknown 404 (some "") := by
    refine ⟨rfl, .inl ?_⟩
    rintro code ⟨_, text, json, hbody, hjson, -⟩
    obtain rfl := Option.some.inj hbody
    rw [hjson] at hempty
    contradiction
  have hunder : IsUnder 7 (Envelope.under 7 []) := ⟨_, Envelope.parse_encode (Nat.zero_le _), rfl⟩
  have hlive : IsLive .unbounded 0 := ⟨rfl, rfl⟩
  have hreceives : Receives loopback vacant.recorded 7 .unbounded ([], ()) request 404 (some "") :=
    ⟨hlive, hasks, .complete rfl, by decide⟩
  obtain ⟨hrecord, htells, hfails, hafter⟩ :=
    fetching_tells (b := b) hunder (by decide) rfl hreceives
  obtain ⟨-, -, hagain⟩ := hafter (hfails hunknown)
  refine ⟨request, hasks, htells.mpr hunknown, hrecord, ?_⟩
  exact (hagain [] (by simp)).2 _ .unbounded ([request], ()) request hunder hlive hasks

end EventCodec.Rest
