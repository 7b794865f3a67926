import EventCodec.Proofs.Json.Text
import EventCodec.Proofs.Rest.Address
import EventCodec.Registry.Staged

/-! # A registry in memory as a service

    The other end of a client can be a registry in memory that is asked by
    requests.  What comes before its own paths is its address.  It reads
    schemas from their text, answers in JSON, and tells errors by a status
    and a code.

    A subject is deleted in two steps: the first deletes it and remembers
    its versions, the second, for good, names them once more and forgets
    them.

    A request for a resource is found to be one if the URL names it behind
    the address (`route?_named`). -/

namespace EventCodec.Rest

open Schema
open Url (Path IsWord segmentOf slashed)
open Json (numberText arrayText objectText quoted)

structure Facade where
  stage : Staged
  /-- The versions of the subjects that were deleted, but not for good. -/
  deleted : List (String × List UInt32)

namespace Facade

/-- A service that nobody has used. -/
def fresh : Facade :=
  { stage := .empty, deleted := [] }

/-! ### Answers -/

def answered (status : Nat) (body : List Char) : Delivery :=
  .response status (String.ofList body) .complete

/-- The status of an error, and its code. -/
def errorCodes : RegistryError → Nat × UInt32
  | .schemaNotFound _ => (404, schemaNotFoundCode)
  | .subjectNotFound _ => (404, subjectNotFoundCode)
  | .incompatible _ _ => (409, 409)
  | .invalidSchema _ => (422, 42201)
  | _ => (500, 50001)

def errorText (e : RegistryError) : List Char :=
  objectText [("error_code", numberText (errorCodes e).2.toNat),
    ("message", (quoted e.message).toList)]

def failed (e : RegistryError) : Delivery :=
  answered (errorCodes e).1 (errorText e)

def idText (id : UInt32) : List Char :=
  objectText [("id", numberText id.toNat)]

def schemaText (schema : RegisteredSchema) : List Char :=
  objectText [("schema", (quoted schema.text).toList),
    ("schemaType", (quoted SchemaType.protobuf.name).toList)]

/-- A schema as the newest one of a subject. -/
def latestText (subject : String) (schema : RegisteredSchema) : List Char :=
  objectText [("id", numberText schema.id.toNat), ("schema", (quoted schema.text).toList),
    ("schemaType", (quoted SchemaType.protobuf.name).toList), ("subject", (quoted subject).toList),
    ("version", schema.version.elim "null".toList fun n => numberText n.toNat)]

def versionsText (versions : List UInt32) : List Char :=
  arrayText (versions.map fun n => numberText n.toNat)

def namesText (names : List String) : List Char :=
  arrayText (names.map fun name => (quoted name).toList)

/-- How a call to the registry is answered. -/
def answer {α : Type} (write : α → List Char) : Except RegistryError α → Delivery
  | .ok a => answered 200 (write a)
  | .error e => failed e

/-- Asks the registry and answers what it says. -/
def ask {α : Type} (f : Facade) (write : α → List Char)
    (call : Staged → Except RegistryError α × Staged) : Delivery × Facade :=
  match call f.stage with
  | (result, stage) => (answer write result, { f with stage })

/-! ### Queries -/

/-- A name and its value in a query; a plus sign is a blank there. -/
def queryPair (pair : List Char) : Option String × Option String :=
  let decoded (part : List Char) :=
    Url.decodeText? (String.ofList (part.map fun c => if c = '+' then ' ' else c))
  (decoded (pair.takeWhile (· != '=')), decoded (pair.dropWhile (· != '=')).tail)

/-- The names and values of a query, as far as they are text. -/
def queryPairs (query : List Char) : List (Option String × Option String) :=
  ((Url.Domain.pieces '&' query).filter (!·.isEmpty)).map queryPair

/-- Whether a query asks for a deletion for good; the last value of a name
    counts. -/
def isForGood (query : List Char) : Bool :=
  ((queryPairs query).filter (·.1 == some "permanent")).getLast?.any (·.2 == some "true")

/-! ### Resources -/

/-- What a path names; parts are in their encoded form. -/
inductive Resource where
  | subjects
  | subject (name : String)
  | versions (name : String)
  | latest (name : String)
  | schema (id : String)

/-- The resource behind some segments, none of which may be empty. -/
def resource? (path : Path) : Option Resource :=
  if path.contains "" then none
  else
    match path with
    | ["subjects"] => some .subjects
    | ["subjects", name] => some (.subject name)
    | ["subjects", name, "versions"] => some (.versions name)
    | ["subjects", name, "versions", "latest"] => some (.latest name)
    | ["schemas", "ids", id] => some (.schema id)
    | _ => none

/-- The segments of the text of a path. -/
def segments? (text : List Char) : Option Path :=
  match Url.Domain.pieces '/' text with
  | [] :: segments => some (segments.map String.ofList)
  | _ => none

/-- What the URL of a request names behind an address, and its query. -/
def route? (address : List Char) (url : String) : Option (Resource × List Char) :=
  if address.isPrefixOf url.toList then
    let rest := url.toList.drop address.length
    let query := (rest.dropWhile (· != '?')).tail
    ((segments? (rest.takeWhile (· != '?'))).bind resource?).map fun r => (r, query)
  else none

/-! ### Serving -/

/-- Whether a request says that its body is JSON. -/
def hasJson (request : Request) : Bool :=
  (request.headers.lookup "content-type").any fun value =>
    let kind := value.toList.takeWhile (· != ';')
    "application/".toList.isPrefixOf kind &&
      (kind == "application/json".toList || "+json".toList.isSuffixOf kind)

/-- The text under a name of an object. -/
def textOf? (name : String) : Json → Option String
  | .object members => (Json.valuesOf members name).getLast?.bind Json.text?
  | _ => none

/-- Registers the schema in a body.  The service breaks down over a schema
    in another language. -/
def register (f : Facade) (subject : String) (request : Request) : Delivery × Facade :=
  if !hasJson request then (answered 415 [], f)
  else
    match Json.ofText? request.body with
    | none => (answered 400 [], f)
    | some body =>
      if textOf? "schemaType" body ≠ some SchemaType.protobuf.name then (.refused, f)
      else
        match Descriptor.ofText ((textOf? "schema" body).getD "") with
        | .error e => (failed (.invalidSchema e.message), f)
        | .ok d => f.ask idText (Staged.registry.register subject d .unbounded)

def delete (f : Facade) (subject : String) (query : List Char) : Delivery × Facade :=
  if isForGood query then
    match Table.get? subject f.deleted with
    | some versions =>
      (answered 200 (versionsText versions), { f with deleted := Table.erase subject f.deleted })
    | none => (failed (.subjectNotFound subject), f)
  else
    match Staged.registry.delete subject .unbounded f.stage with
    | (.error e, stage) => (failed e, { f with stage })
    | (.ok versions, stage) =>
      (answered 200 (versionsText versions),
        { stage, deleted := Table.insert subject versions f.deleted })

/-- The ID that a part of a path stands for. -/
def idOf? (part : String) : Option UInt32 := do
  let text ← Url.decodeText? part
  return UInt32.ofNat (← Text.readNat? UInt32.size text.toList)

/-- Serves what a part of a path stands for, if it stands for something. -/
def withPart {α : Type} (f : Facade) (part : Option α) (serve : α → Delivery × Facade) :
    Delivery × Facade :=
  match part with
  | none => (answered 400 [], f)
  | some a => serve a

def serve (f : Facade) (request : Request) (query : List Char) : Resource → Delivery × Facade
  | .subjects =>
    match request.method with
    | .get => f.ask namesText (Staged.registry.subjects .unbounded)
    | _ => (answered 405 [], f)
  | .subject name =>
    match request.method with
    | .delete => f.withPart (Url.decodeText? name) fun subject => f.delete subject query
    | _ => (answered 405 [], f)
  | .versions name =>
    match request.method with
    | .post => f.withPart (Url.decodeText? name) fun subject => f.register subject request
    | _ => (answered 405 [], f)
  | .latest name =>
    match request.method with
    | .get =>
      f.withPart (Url.decodeText? name) fun subject =>
        f.ask (latestText subject) (Staged.registry.latest subject .unbounded)
    | _ => (answered 405 [], f)
  | .schema id =>
    match request.method with
    | .get =>
      f.withPart (idOf? id) fun id => f.ask schemaText (Staged.registry.fetch id .unbounded)
    | _ => (answered 405 [], f)

def deliver (address : List Char) (request : Request) (f : Facade) : Delivery × Facade :=
  match route? address request.url with
  | none => (answered 404 [], f)
  | some (resource, query) => f.serve request query resource

/-- The service at an address, as a peer. -/
def peer (address : List Char) : Peer Facade where
  deliver := deliver address
  now f := f.stage.now
  passTo instant f := { f with stage := f.stage.passTo instant }
  note e f := { f with stage := f.stage.note e }

/-! ### Asking for good -/

theorem piecesFrom_concat {separator : Char} (text rest : List Char)
    (before : List (List Char)) (piece : List Char) :
    Url.Domain.piecesFrom separator before piece (text ++ separator :: rest) =
      Url.Domain.piecesFrom separator before piece text ++ Url.Domain.pieces separator rest := by
  -- what was found before is only put in front
  have hbefore : ∀ (text : List Char) (before : List (List Char)) (piece : List Char),
      Url.Domain.piecesFrom separator before piece text =
        before.reverse ++ Url.Domain.piecesFrom separator [] piece text := by
    intro text
    induction text with
    | nil =>
      intro before piece
      simp [Url.Domain.piecesFrom]
    | cons c text ih =>
      intro before piece
      simp only [Url.Domain.piecesFrom]
      split
      · rw [ih (piece.reverse :: before) [], ih [piece.reverse] []]
        simp
      · exact ih before (c :: piece)
  induction text generalizing before piece with
  | nil =>
    simp only [List.nil_append, Url.Domain.piecesFrom, ↓reduceIte]
    exact hbefore rest (piece.reverse :: before) []
  | cons c text ih =>
    simp only [List.cons_append, Url.Domain.piecesFrom]
    split
    · exact ih _ _
    · exact ih _ _

/-- A query asks for good if its last pair does. -/
theorem isForGood_concat (query : List Char) :
    isForGood (query ++ '&' :: "permanent=true".toList) = true := by
  have hpairs : queryPairs (query ++ '&' :: "permanent=true".toList) =
      queryPairs query ++ [(some "permanent", some "true")] := by
    rw [queryPairs, Url.Domain.pieces, piecesFrom_concat, List.filter_append, List.map_append]
    rfl
  rw [isForGood, hpairs, List.filter_append]
  simp

theorem isForGood_addQuery (u : Url) :
    isForGood ((u.addQuery "permanent" "true").query.getD "").toList = true := by
  unfold Url.addQuery
  dsimp only
  -- the pair is all there is, or the last of several
  cases u.query with
  | none => decide
  | some query =>
    dsimp only
    split
    · decide
    · rw [Option.getD_some, String.toList_append, String.toList_append, List.append_assoc]
      exact isForGood_concat query.toList

/-! ### Finding resources -/

/-- A URL that names some segments behind the site of a client. -/
structure Names (c : Client) (url : Url) (segments : Path) : Prop where
  site : url.takeUser.2.siteText = c.base.takeUser.2.siteText
  path : url.path = c.site ++ segments

/-- Where the service is that a client asks. -/
def addressOf (c : Client) : List Char :=
  c.base.takeUser.2.siteText.toList ++ slashed c.site

variable {c : Client} {url : Url} {segments : Path}

theorem names_append {added : List String}
    (h : Url.appendSegments c.base.path added = c.site ++ segments) :
    Names c (c.base.append added) segments where
  site := by rw [Url.takeUser_append]; rfl
  path := h

theorem Names.addQuery (h : Names c url segments) (name value : String) :
    Names c (url.addQuery name value) segments where
  site := by
    rw [← h.site]
    show Url.siteText ({ url with path := url.path, query := _ } : Url).takeUser.2 = _
    rw [Url.takeUser_path_query]
    rfl
  path := h.path

/-- Segments with nothing in them that would end them. -/
def IsWhole (segments : Path) : Prop :=
  ∀ s ∈ segments, '/' ∉ s.toList ∧ '?' ∉ s.toList

theorem segments?_slashed (h : ∀ s ∈ segments, '/' ∉ s.toList) :
    segments? (slashed segments) = some segments := by
  have hpieces : Url.Domain.pieces '/' (slashed segments) = [] :: segments.map String.toList :=
    Url.piecesFrom_slashed List.not_mem_nil h []
  rw [segments?, hpieces]
  simp [Function.comp_def]

theorem not_mem_slashed {mark : Char} (hmark : mark ≠ '/')
    (h : ∀ s ∈ segments, mark ∉ s.toList) : ∀ d ∈ slashed segments, d ≠ mark := by
  rintro d hd rfl
  obtain ⟨s, hs, hmem⟩ := List.mem_flatMap.mp hd
  rcases List.mem_cons.mp hmem with heq | hmem
  · exact hmark heq
  · exact h s hs hmem

/-- The service finds what a URL names behind its address. -/
theorem route?_named (h : Names c url segments) (hne : segments ≠ []) (hwhole : IsWhole segments) :
    route? (addressOf c) url.named =
      (resource? segments).map fun r => (r, (url.query.getD "").toList) := by
  have hpath : url.path ≠ [] := by
    rw [h.path]
    exact List.append_ne_nil_of_right_ne_nil _ hne
  have hurl : url.named.toList = addressOf c ++ (slashed segments ++ url.queryText.toList) := by
    rw [url.toList_named hpath, h.site, h.path, Url.slashed_append, addressOf]
    simp only [List.append_assoc]
  have hplain : ∀ d ∈ slashed segments, (d != '?') = true := by
    intro d hd
    simpa using not_mem_slashed (by decide) (fun s hs => (hwhole s hs).2) d hd
  -- the query begins where the path ends
  have hquery : url.queryText.toList.takeWhile (· != '?') = [] ∧
      (url.queryText.toList.dropWhile (· != '?')).tail = (url.query.getD "").toList := by
    unfold Url.queryText
    cases url.query with
    | none => exact ⟨rfl, rfl⟩
    | some query =>
      rw [Option.elim_some, String.toList_append]
      exact ⟨rfl, rfl⟩
  rw [route?, hurl, if_pos (List.isPrefixOf_iff_prefix.mpr (List.prefix_append _ _))]
  dsimp only
  rw [List.drop_left, List.takeWhile_append_of_pos hplain, List.dropWhile_append_of_pos hplain,
    hquery.1, hquery.2, List.append_nil, segments?_slashed fun s hs => (hwhole s hs).1,
    Option.bind_some]

/-- A request for a URL of a resource is served as one. -/
theorem deliver_names {request : Request} {resource : Resource} (hurl : request.url = url.named)
    (h : Names c url segments) (hwhole : IsWhole segments)
    (hresource : resource? segments = some resource) (f : Facade) :
    deliver (addressOf c) request f = f.serve request (url.query.getD "").toList resource := by
  have hne : segments ≠ [] := by
    rintro rfl
    contradiction
  rw [deliver, hurl, route?_named h hne hwhole, hresource]
  rfl

/-! ### The resources of a client -/

/-- The decimal digits of a number are a word. -/
theorem isWord_toString (n : Nat) : IsWord (toString n) := by
  have hdigit : ∀ c ∈ (toString n).toList, Text.isDigit c = true :=
    fun c hc => Text.isDigit_of_mem_toString hc
  refine Url.isWord_of_kept ?_ ?_ ?_
  · intro c hc
    exact Text.forall_isDigit (P := fun c => Url.isRefusedInSegment c = false) (by decide)
      (hdigit c hc)
  · intro hdot
    have hno := hdigit '.' hdot
    contradiction
  · intro hempty
    have hsome := congrArg String.toList hempty
    simp at hsome

theorem names_words {words : List String} (hwords : ∀ w ∈ words, IsWord w) (hne : words ≠ []) :
    Names c (c.base.append words) words := by
  apply names_append
  rw [Url.appendSegments, Url.foldl_appendSegment hwords, if_neg hne]
  rfl

theorem names_subjects : Names c c.subjectsUrl ["subjects"] :=
  names_words (by simp [isWord_subjects]) (by simp)

theorem names_schema (id : UInt32) :
    Names c (c.schemaUrl id) ["schemas", "ids", toString id.toNat] := by
  have hschemas : IsWord "schemas" := ⟨by decide, by decide, by decide⟩
  have hids : IsWord "ids" := ⟨by decide, by decide, by decide⟩
  refine names_words (List.forall_mem_cons.mpr ⟨hschemas, List.forall_mem_cons.mpr ⟨hids, ?_⟩⟩) ?_
  · exact List.forall_mem_singleton.mpr (isWord_toString id.toNat)
  · exact List.cons_ne_nil _ _

/-- A subject that is named on its own. -/
structure IsNamed (subject : String) : Prop where
  plain : IsPlain subject
  nonempty : subject ≠ ""

section

variable {subject : String}

theorem IsNamed.names (h : IsNamed subject) {rest : List String} (hrest : ∀ w ∈ rest, IsWord w) :
    Names c (c.base.append ("subjects" :: subject :: rest))
      ("subjects" :: segmentOf subject.toList :: rest) :=
  names_append (h.plain.path_append c hrest)

theorem IsNamed.segment_ne (h : IsNamed subject) : segmentOf subject.toList ≠ "" := by
  intro hempty
  have hdecode := Url.decodeText?_segmentOf subject.toList
  rw [hempty, String.ofList_toList] at hdecode
  have hnone : Url.decodeText? "" = some "" := by decide
  exact h.nonempty (Option.some.inj (hnone.symm.trans hdecode)).symm

theorem IsNamed.resource?_latest (h : IsNamed subject) :
    resource? ["subjects", segmentOf subject.toList, "versions", "latest"] =
      some (.latest (segmentOf subject.toList)) := by
  rw [resource?, if_neg (by simp [Ne.symm h.segment_ne])]

theorem IsNamed.resource?_versions (h : IsNamed subject) :
    resource? ["subjects", segmentOf subject.toList, "versions"] =
      some (.versions (segmentOf subject.toList)) := by
  rw [resource?, if_neg (by simp [Ne.symm h.segment_ne])]

theorem IsNamed.resource?_subject (h : IsNamed subject) :
    resource? ["subjects", segmentOf subject.toList] =
      some (.subject (segmentOf subject.toList)) := by
  rw [resource?, if_neg (by simp [Ne.symm h.segment_ne])]

theorem isWhole_subject (rest : Path) (hrest : IsWhole rest) :
    IsWhole ("subjects" :: segmentOf subject.toList :: rest) := by
  refine List.forall_mem_cons.mpr ⟨by decide, List.forall_mem_cons.mpr ⟨?_, hrest⟩⟩
  exact ⟨Url.slash_not_mem_segmentOf _, Url.question_not_mem_segmentOf _⟩

end

theorem resource?_schema (id : UInt32) :
    resource? ["schemas", "ids", toString id.toNat] = some (.schema (toString id.toNat)) := by
  rw [resource?, if_neg (by simp)]

theorem isWhole_schema (id : UInt32) : IsWhole ["schemas", "ids", toString id.toNat] := by
  have hdigit : ∀ c ∈ (toString id.toNat).toList, Text.isDigit c = true :=
    fun c hc => Text.isDigit_of_mem_toString hc
  refine List.forall_mem_cons.mpr ⟨by decide, List.forall_mem_cons.mpr ⟨by decide, ?_⟩⟩
  refine List.forall_mem_singleton.mpr ⟨?_, ?_⟩
  · intro hslash
    have hno := hdigit '/' hslash
    contradiction
  · intro hmark
    have hno := hdigit '?' hmark
    contradiction

/-- The service reads the ID that a client wrote. -/
theorem idOf?_toString (id : UInt32) : idOf? (toString id.toNat) = some id := by
  have hdecode : Url.decodeText? (toString id.toNat) = some (toString id.toNat) := by
    have hsame := Url.decodeText?_segmentOf (toString id.toNat).toList
    rwa [(isWord_toString id.toNat).encoded, String.ofList_toList] at hsame
  rw [idOf?, hdecode, Option.bind_eq_bind, Option.bind_some, Text.readNat?_toString id.toNat_lt]
  exact congrArg some UInt32.ofNat_toNat

/-! ### Serving clients -/

section

variable {f : Facade} {request : Request} {query : List Char} {subject : String}

theorem serve_subjects (hmethod : request.method = .get) :
    f.serve request query .subjects = f.ask namesText (Staged.registry.subjects .unbounded) := by
  rw [serve, hmethod]

theorem serve_schema (hmethod : request.method = .get) (id : UInt32) :
    f.serve request query (.schema (toString id.toNat)) =
      f.ask schemaText (Staged.registry.fetch id .unbounded) := by
  rw [serve, hmethod, idOf?_toString]
  rfl

theorem serve_latest (hmethod : request.method = .get) (subject : String) :
    f.serve request query (.latest (segmentOf subject.toList)) =
      f.ask (latestText subject) (Staged.registry.latest subject .unbounded) := by
  rw [serve, hmethod, Url.decodeText?_segmentOf, String.ofList_toList]
  rfl

theorem serve_subject (hmethod : request.method = .delete) (subject : String) :
    f.serve request query (.subject (segmentOf subject.toList)) = f.delete subject query := by
  rw [serve, hmethod, Url.decodeText?_segmentOf, String.ofList_toList]
  rfl

theorem serve_versions (hmethod : request.method = .post) (subject : String) :
    f.serve request query (.versions (segmentOf subject.toList)) = f.register subject request := by
  rw [serve, hmethod, Url.decodeText?_segmentOf, String.ofList_toList]
  rfl

/-- A client writes schemas as the service does. -/
theorem registerBody_eq (d : Descriptor) :
    Client.registerBody d = String.ofList (objectText [("schema", (quoted d.text).toList),
      ("schemaType", (quoted SchemaType.protobuf.name).toList)]) := by
  have hschema : (quoted "schema").toList = "\"schema\"".toList := by decide
  have htype : (quoted "schemaType").toList = "\"schemaType\"".toList := by decide
  apply String.toList_inj.mp
  simp [Client.registerBody, objectText, Json.memberText, hschema, htype]

end

end Facade

end EventCodec.Rest
