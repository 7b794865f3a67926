import EventCodec.Codec.Overlap
import EventCodec.Proofs.Codec.RoundTrip
import EventCodec.Proofs.Codec.Stage
import EventCodec.Proofs.Envelope
import EventCodec.Proofs.Registry.Recorded

/-! # The schema ID only gates

    What an envelope's ID decides is whether its payload is read at all.
    Under the codec's own ID it is; under another one the descriptor it was
    written with has to be at hand (`Has`) and compatible (`Accepts`), and
    otherwise the ID is refused (`Refuses`).  Neither asks for the payload.

    What is read of a payload that is let through is the same under every
    ID, and so two runs agree whatever their caches, registries and
    contexts have in them (`id_only_gates`). -/

namespace EventCodec

open Schema

/-- The envelope of a payload under an ID. -/
def Envelope.under (id : UInt32) (payload : Bytes) : Bytes :=
  Envelope.encode { schemaId := id, payload }

namespace Bound

variable {α σ τ : Type}

/-! ### What decides about an ID -/

section Deciding

variable (b : Bound α) (r : Registry σ) (id : UInt32) (ctx : Context) (s : σ)

/-- The descriptor that an ID was written with is at hand: the cache keeps
    it, or the registry answers with a schema that stands for it. -/
inductive Has : Descriptor → Prop where
  | kept {writer : Descriptor} : b.cache.get? id = some writer → Has writer
  | fetched {schema : RegisteredSchema} {writer : Descriptor} : b.cache.get? id = none →
      (r.fetch id ctx s).1 = .ok schema → schema.descriptor = .ok writer → Has writer

/-- An ID is refused with an error, because its schema cannot be fetched or
    cannot be used, or because what it writes cannot be read. -/
inductive Refuses : CodecError → Prop where
  | unavailable {cause : RegistryError} : b.cache.get? id = none →
      (r.fetch id ctx s).1 = .error cause → Refuses (cause.toFetch id)
  | unusable {schema : RegisteredSchema} {cause : SchemaError} : b.cache.get? id = none →
      (r.fetch id ctx s).1 = .ok schema → schema.descriptor = .error cause →
      Refuses cause.toDecode
  | incompatible {writer : Descriptor} {conflict : SchemaError} : Has b r id ctx s writer →
      checkCompatible writer b.descriptor = .error conflict →
      Refuses (conflict.toDecode.withContext (.schemaId id))

/-- An ID is let through: it is the codec's own, or its descriptor is at
    hand and compatible. -/
def Accepts : Prop :=
  id = b.schemaId ∨ ∃ writer, b.Has r id ctx s writer ∧ checkCompatible writer b.descriptor = .ok ()

end Deciding

section Gate

variable {b : Bound α} {r : Registry σ} {id : UInt32} {ctx : Context} {s : σ}
  {writer : Descriptor} {e : CodecError} {payload : Bytes}

theorem Has.getOrFetch_eq (h : b.Has r id ctx s writer) :
    (b.cache.getOrFetch r id ctx s).1 = .ok writer := by
  cases h with
  | kept hkept => rw [Cache.getOrFetch_of_get? hkept]
  | fetched hnone hanswer hread =>
    have hinterpret : Cache.interpret id (r.fetch id ctx s).1 = .ok writer := by
      rw [hanswer, Cache.interpret, hread]
      rfl
    rw [Cache.getOrFetch_of_none hnone, hinterpret]

/-- Every ID is refused, or let through. -/
theorem accepts_or_refuses (b : Bound α) (r : Registry σ) (id : UInt32) (ctx : Context) (s : σ) :
    b.Accepts r id ctx s ∨ ∃ e, b.Refuses r id ctx s e := by
  have hhas : ∀ {writer}, b.Has r id ctx s writer →
      b.Accepts r id ctx s ∨ ∃ e, b.Refuses r id ctx s e := by
    intro writer h
    cases hcompatible : checkCompatible writer b.descriptor with
    | ok _ => exact .inl (.inr ⟨writer, h, hcompatible⟩)
    | error conflict => exact .inr ⟨_, .incompatible h hcompatible⟩
  cases hkept : b.cache.get? id with
  | some writer => exact hhas (.kept hkept)
  | none =>
    cases hanswer : (r.fetch id ctx s).1 with
    | error cause => exact .inr ⟨_, .unavailable hkept hanswer⟩
    | ok schema =>
      cases hread : schema.descriptor with
      | error cause => exact .inr ⟨_, .unusable hkept hanswer hread⟩
      | ok writer => exact hhas (.fetched hkept hanswer hread)

/-! ### Reading behind the gate -/

theorem decode_own (b : Bound α) (r : Registry σ) (ctx : Context) (s : σ)
    (hsize : payload.length ≤ Envelope.maxPayloadSize) :
    b.decode r (Envelope.under b.schemaId payload) ctx s = (b.decodePayload payload, b, s) := by
  rw [decode, Envelope.under, Envelope.parse_encode hsize]
  exact if_pos rfl

theorem decodeBound_own (b : Bound α) (hsize : payload.length ≤ Envelope.maxPayloadSize) :
    b.decodeBound (Envelope.under b.schemaId payload) = b.decodePayload payload := by
  rw [decodeBound, Envelope.under, Envelope.parse_encode hsize]
  exact if_pos rfl

/-- Under another ID the payload waits for what is got for the ID. -/
theorem decode_of_parse {data : Bytes} {envelope : Envelope}
    (hparse : Envelope.parse data = .ok envelope) (hid : envelope.schemaId ≠ b.schemaId) :
    b.decode r data ctx s =
      (Overlap.resultOf b envelope (b.cache.getOrFetch r envelope.schemaId ctx s).1,
        { b with cache := (b.cache.getOrFetch r envelope.schemaId ctx s).2.1 },
        (b.cache.getOrFetch r envelope.schemaId ctx s).2.2) := by
  rw [decode, hparse]
  simp only [if_neg hid]
  rcases b.cache.getOrFetch r envelope.schemaId ctx s with ⟨error | writer, cache, s'⟩
  · rfl
  · rfl

theorem decode_foreign (hid : id ≠ b.schemaId) (hsize : payload.length ≤ Envelope.maxPayloadSize) :
    b.decode r (Envelope.under id payload) ctx s =
      (Overlap.resultOf b { schemaId := id, payload } (b.cache.getOrFetch r id ctx s).1,
        { b with cache := (b.cache.getOrFetch r id ctx s).2.1 },
        (b.cache.getOrFetch r id ctx s).2.2) :=
  decode_of_parse (Envelope.parse_encode hsize) hid

theorem kind_decodeBound_foreign (hid : id ≠ b.schemaId)
    (hsize : payload.length ≤ Envelope.maxPayloadSize) :
    ∃ e, b.decodeBound (Envelope.under id payload) = .error e ∧ e.kind = .decode := by
  rw [decodeBound, Envelope.under, Envelope.parse_encode hsize]
  simp only [if_neg hid]
  exact ⟨_, rfl, rfl⟩

/-- What an ID does to the codec and to the world does not depend on the
    payload. -/
theorem exists_after (b : Bound α) (r : Registry σ) (id : UInt32) (ctx : Context) (s : σ) :
    ∃ after, ∀ payload : Bytes, payload.length ≤ Envelope.maxPayloadSize →
      (b.decode r (Envelope.under id payload) ctx s).2 = after := by
  by_cases hid : id = b.schemaId
  · subst hid
    exact ⟨(b, s), fun payload hsize => by rw [b.decode_own r ctx s hsize]⟩
  · exact ⟨_, fun payload hsize => by rw [decode_foreign hid hsize]⟩

/-- A descriptor at hand decides about the result together with the
    payload, and nothing else does. -/
theorem Has.decode_eq (h : b.Has r id ctx s writer) (hid : id ≠ b.schemaId)
    (hsize : payload.length ≤ Envelope.maxPayloadSize) :
    (b.decode r (Envelope.under id payload) ctx s).1 =
      b.decodeFrom writer { schemaId := id, payload } := by
  rw [decode_foreign hid hsize, h.getOrFetch_eq]
  rfl

theorem Accepts.decode_eq (h : b.Accepts r id ctx s)
    (hsize : payload.length ≤ Envelope.maxPayloadSize) :
    (b.decode r (Envelope.under id payload) ctx s).1 = b.decodePayload payload := by
  by_cases hid : id = b.schemaId
  · subst hid
    rw [b.decode_own r ctx s hsize]
  · obtain ⟨writer, hhas, hcompatible⟩ := h.resolve_left hid
    rw [hhas.decode_eq hid hsize, decodeFrom, hcompatible]

theorem Refuses.decode_eq (h : b.Refuses r id ctx s e) (hid : id ≠ b.schemaId)
    (hsize : payload.length ≤ Envelope.maxPayloadSize) :
    (b.decode r (Envelope.under id payload) ctx s).1 = .error e := by
  cases h with
  | unavailable hnone hanswer =>
    rw [decode_foreign hid hsize, Cache.getOrFetch_of_none hnone, hanswer]
    rfl
  | @unusable schema cause hnone hanswer hread =>
    have hinterpret : Cache.interpret id (r.fetch id ctx s).1 = .error cause.toDecode := by
      rw [hanswer, Cache.interpret, hread]
      rfl
    rw [decode_foreign hid hsize, Cache.getOrFetch_of_none hnone, hinterpret]
    rfl
  | incompatible hhas hconflict => rw [hhas.decode_eq hid hsize, decodeFrom, hconflict]

end Gate

/-- **The schema ID only gates**, whatever the codec has in its cache and
    whatever the registry answers, be the context cancelled or not.  Under
    its own ID a codec reads as `decodeBound` does: nothing is asked of the
    registry, and nothing changes.  Any other ID is an error there, and is
    either refused, with one error for all payloads, or lets every payload
    be read as under the codec's own ID.

    So runs that differ in their caches, registries, worlds, contexts and
    IDs agree on every payload if both let it through; and if both have the
    same descriptor of one ID, kept or fetched, they agree in any case. -/
theorem id_only_gates (b : Bound α) (r : Registry σ) :
    (∀ ctx (world : List Registry.Request × σ) (payload : Bytes),
      payload.length ≤ Envelope.maxPayloadSize →
      b.decode r.recorded (Envelope.under b.schemaId payload) ctx world =
        (b.decodeBound (Envelope.under b.schemaId payload), b, world)) ∧
    (∀ id, id ≠ b.schemaId →
      (∀ payload : Bytes, payload.length ≤ Envelope.maxPayloadSize →
        ∃ e, b.decodeBound (Envelope.under id payload) = .error e ∧ e.kind = .decode) ∧
      ∀ ctx s,
        (∃ after, ∀ payload : Bytes, payload.length ≤ Envelope.maxPayloadSize →
          (b.decode r (Envelope.under id payload) ctx s).2 = after) ∧
        ((∃ e, b.Refuses r id ctx s e ∧
            ∀ payload : Bytes, payload.length ≤ Envelope.maxPayloadSize →
              (b.decode r (Envelope.under id payload) ctx s).1 = .error e) ∨
          (b.Accepts r id ctx s ∧
            ∀ payload : Bytes, payload.length ≤ Envelope.maxPayloadSize →
              (b.decode r (Envelope.under id payload) ctx s).1 =
                (b.decode r (Envelope.under b.schemaId payload) ctx s).1))) ∧
    (∀ {τ : Type} (cache : Cache) (r' : Registry τ) id id' ctx ctx' s s',
      b.Accepts r id ctx s → { b with cache }.Accepts r' id' ctx' s' →
      ∀ payload : Bytes, payload.length ≤ Envelope.maxPayloadSize →
        (b.decode r (Envelope.under id payload) ctx s).1 =
          ({ b with cache }.decode r' (Envelope.under id' payload) ctx' s').1) ∧
    (∀ {τ : Type} (cache : Cache) (r' : Registry τ) id ctx ctx' s s' writer,
      b.Has r id ctx s writer → { b with cache }.Has r' id ctx' s' writer →
      ∀ payload : Bytes, payload.length ≤ Envelope.maxPayloadSize →
        (b.decode r (Envelope.under id payload) ctx s).1 =
          ({ b with cache }.decode r' (Envelope.under id payload) ctx' s').1) := by
  refine ⟨?own, ?foreign, ?accepted, ?same⟩
  case own =>
    intro ctx world payload hsize
    rw [b.decode_own r.recorded ctx world hsize, b.decodeBound_own hsize]
  case foreign =>
    intro id hid
    refine ⟨fun payload hsize => kind_decodeBound_foreign hid hsize, fun ctx s => ⟨?_, ?_⟩⟩
    · exact b.exists_after r id ctx s
    · rcases b.accepts_or_refuses r id ctx s with haccepts | ⟨e, hrefuses⟩
      · refine .inr ⟨haccepts, fun payload hsize => ?_⟩
        rw [haccepts.decode_eq hsize, b.decode_own r ctx s hsize]
      · exact .inl ⟨e, hrefuses, fun payload hsize => hrefuses.decode_eq hid hsize⟩
  case accepted =>
    intro τ cache r' id id' ctx ctx' s s' haccepts haccepts' payload hsize
    rw [haccepts.decode_eq hsize, haccepts'.decode_eq hsize]
    rfl
  case same =>
    intro τ cache r' id ctx ctx' s s' writer hhas hhas' payload hsize
    by_cases hid : id = b.schemaId
    · have haccepts : b.Accepts r id ctx s := .inl hid
      have haccepts' : { b with cache }.Accepts r' id ctx' s' := .inl hid
      rw [haccepts.decode_eq hsize, haccepts'.decode_eq hsize]
      rfl
    · rw [hhas.decode_eq hid hsize, hhas'.decode_eq hid hsize]
      rfl

open Contract

/-- A stage on which somebody else has registered the readings. -/
def archive : Staged :=
  { Staged.empty with memory := (Memory.empty.register "archive" Readings.descriptor).2 }

theorem has_archive : Readings.codec.Has Staged.registry 1 .unbounded archive Readings.descriptor :=
  .fetched rfl rfl Readings.descriptor.ofText_text

theorem accepts_archive : Readings.codec.Accepts Staged.registry 1 .unbounded archive :=
  .inr ⟨_, has_archive, by decide +kernel⟩

/-- Nobody has registered anything under the next ID. -/
theorem not_accepts_archive : ¬ Readings.codec.Accepts Staged.registry 2 .unbounded archive := by
  rintro (hown | ⟨writer, hhas, -⟩)
  · contradiction
  · cases hhas with
    | kept hkept => contradiction
    | fetched _ hanswer _ => contradiction

/-- Readings of one offset. -/
def singleOffset : Wire.Record :=
  [{ field := { number := 2048, name := "scale", shape := .single .double }, value := (0 : UInt64) },
    { field := { number := 1, name := "offsets", shape := .repeated .sint32 true },
      value := ([1] : List Int32) },
    { field := { number := 16, name := "unit", shape := .optional .string },
      value := (none : Option String) }]

/-- Under the ID of the archive nothing is read as under the codec's own,
    and so are an offset and what is no payload.  It makes no difference if
    the schema is in the cache and the registry fails.  An ID that nobody
    knows is refused, whatever comes with it. -/
theorem archive_gated :
    let failure := CodecError.decode "failed to decode Protobuf message: invalid varint"
    let read (id : UInt32) (payload : Bytes) :=
      (Readings.codec.decode Staged.registry (Envelope.under id payload) .unbounded archive).1
    let kept : Cache := { entries := [(1, Readings.descriptor)] }
    read 1 [] = .ok Readings.codec.type.default ∧
      read 1 [0x08, 0x02] = .ok singleOffset ∧
      read 1 [0xFF] = .error failure ∧
      ({ Readings.codec with cache := kept }.decode surly (Envelope.under 1 [0x08, 0x02]) .unbounded
        ()).1 = .ok singleOffset ∧
      (∃ e, Readings.codec.decodeBound (Envelope.under 1 []) = .error e ∧ e.kind = .decode) ∧
      ∃ e, ∀ payload : Bytes, payload.length ≤ Envelope.maxPayloadSize → read 2 payload = .error e := by
  intro failure read kept
  obtain ⟨hown, hforeign, haccepted, hsame⟩ := id_only_gates Readings.codec Staged.registry
  -- the archive's ID is let through as the codec's own one is, on another registry
  have hread : ∀ payload : Bytes, payload.length ≤ Envelope.maxPayloadSize →
      read 1 payload = Readings.codec.decodePayload payload := by
    intro payload hsize
    have hgate := haccepted Readings.codec.cache Staged.registry.recorded 1 7 .unbounded .unbounded
      archive ([], archive) accepts_archive (.inl rfl) payload hsize
    have hbound := hown .unbounded ([], archive) payload hsize
    rw [Readings.codec.decodeBound_own hsize] at hbound
    exact hgate.trans (congrArg Prod.fst hbound)
  have hempty : Readings.codec.decodePayload [] = .ok Readings.codec.type.default := by
    decide +kernel
  have hoffset : Readings.codec.decodePayload [0x08, 0x02] = .ok singleOffset := by
    decide +kernel
  have hgarbled : Readings.codec.decodePayload [0xFF] = .error failure := by
    decide +kernel
  have hread' : read 1 [0x08, 0x02] = .ok singleOffset := (hread _ (by decide)).trans hoffset
  have hkept := hsame kept surly 1 .unbounded .unbounded archive () _ has_archive (.kept rfl)
    [0x08, 0x02] (by decide)
  obtain ⟨e, -, hrefused⟩ := ((hforeign 2 (by decide)).2 .unbounded archive).2.resolve_right
    fun haccepts => not_accepts_archive haccepts.1
  exact ⟨(hread _ (by decide)).trans hempty, hread', (hread _ (by decide)).trans hgarbled,
    hkept.symm.trans hread', (hforeign 1 (by decide)).1 [] (by decide), e, hrefused⟩

end Bound

end EventCodec
