import EventCodec.Proofs.Codec.Stage
import EventCodec.Proofs.Registry.Recorded

/-! # What an error says about its codec

    Errors come out of many conversions, but each kind of error belongs to
    one thing that was done with a codec.  So the kind tells whether the
    codec can still be used.

    A call that fails and leaves its codec usable leaves nothing else
    behind either.  All it can do to the codec is to fetch a descriptor
    into the cache.  Where the registry always answers a fetch the same, a
    descriptor in the cache is the one that would be fetched again, and so
    the codec goes on as if nothing had happened (`Codec.Alike`).

    Only the closing asks the registry for something that need not be
    answered the same: what has become of the subject meanwhile is not a
    matter of the codec (`Codec.not_errors_tell`). -/

namespace EventCodec

open Schema

variable {α σ : Type}

/-! ### Kinds -/

/-- An error that was renamed on the way has an error behind it. -/
theorem exists_of_mapError {ε ε' : Type} {x : Except ε α} {f : ε → ε'} {e : ε'}
    (h : x.mapError f = .error e) : ∃ cause, x = .error cause ∧ f cause = e := by
  cases x with
  | error cause => exact ⟨cause, rfl, Except.error.inj h⟩
  | ok a => contradiction

/-- An error is not touched by what becomes of results. -/
theorem eq_error_of_map {ε β : Type} {x : Except ε α} {f : α → β} {e : ε}
    (h : x.map f = .error e) : x = .error e := by
  cases x with
  | error cause => exact congrArg Except.error (Except.error.inj h)
  | ok a => contradiction

/-- Only types are refused when a type is resolved. -/
theorem EventType.kind_of_resolve {type : EventType α} {e : CodecError}
    (h : type.resolve = .error e) : e.kind = .unsupportedType := by
  obtain ⟨cause, -, rfl⟩ := exists_of_mapError h
  rfl

theorem RegistryError.kind_toFetch (e : RegistryError) (id : UInt32) :
    (e.toFetch id).kind = .decode ∨ (e.toFetch id).kind = .unknownSchema := by
  cases e with
  | schemaNotFound => exact .inr rfl
  | _ => exact .inl rfl

theorem Cache.kind_of_interpret {id : UInt32} {answer : Except RegistryError RegisteredSchema}
    {e : CodecError} (h : interpret id answer = .error e) :
    e.kind = .decode ∨ e.kind = .unknownSchema := by
  cases answer with
  | error cause =>
    obtain rfl := Except.error.inj h
    exact cause.kind_toFetch id
  | ok schema =>
    obtain ⟨cause, -, rfl⟩ := exists_of_mapError h
    exact .inl rfl

theorem Cache.kind_of_getOrFetch {r : Registry σ} {id : UInt32} {ctx : Context} {c : Cache} {s : σ}
    {e : CodecError} (h : (c.getOrFetch r id ctx s).1 = .error e) :
    e.kind = .decode ∨ e.kind = .unknownSchema := by
  unfold getOrFetch at h
  cases hkept : c.get? id with
  | some d => simp [hkept] at h
  | none =>
    cases hinterpret : interpret id (r.fetch id ctx s).1 with
    | ok d => simp [hkept, hinterpret] at h
    | error cause =>
      obtain rfl : cause = e := by simpa [hkept, hinterpret] using h
      exact kind_of_interpret hinterpret

namespace Bound

theorem kind_of_encode {b : Bound α} {v : α} {e : CodecError} (h : b.encode v = .error e) :
    e.kind = .encode := by
  obtain ⟨cause, -, rfl⟩ := exists_of_mapError h
  rfl

theorem kind_of_decodePayload {b : Bound α} {payload : Bytes} {e : CodecError}
    (h : b.decodePayload payload = .error e) : e.kind = .decode := by
  obtain ⟨cause, -, rfl⟩ := exists_of_mapError h
  rfl

/-- A conflict of schemas is an error of decoding, whatever is said about
    where it happened. -/
theorem kind_of_decodeFrom {b : Bound α} {writer : Descriptor} {envelope : Envelope}
    {e : CodecError} (h : b.decodeFrom writer envelope = .error e) : e.kind = .decode := by
  unfold decodeFrom at h
  cases hcompatible : checkCompatible writer b.descriptor with
  | error conflict =>
    rw [hcompatible] at h
    obtain rfl := Except.error.inj h
    rfl
  | ok _ =>
    rw [hcompatible] at h
    exact kind_of_decodePayload h

theorem kind_of_decode {r : Registry σ} {data : Bytes} {ctx : Context} {b : Bound α} {s : σ}
    {e : CodecError} (h : (b.decode r data ctx s).1 = .error e) :
    e.kind = .decode ∨ e.kind = .unknownSchema := by
  unfold decode at h
  cases hparse : Envelope.parse data with
  | error cause =>
    rw [hparse] at h
    obtain rfl := Except.error.inj h
    exact .inl rfl
  | ok envelope =>
    simp only [hparse] at h
    by_cases hid : envelope.schemaId = b.schemaId
    · rw [if_pos hid] at h
      exact .inl (kind_of_decodePayload h)
    · rw [if_neg hid] at h
      rcases hfetch : b.cache.getOrFetch r envelope.schemaId ctx s with ⟨cause | writer, cache, t⟩
      · have hcause : (b.cache.getOrFetch r envelope.schemaId ctx s).1 = .error cause :=
          congrArg Prod.fst hfetch
        rw [hfetch] at h
        obtain rfl := Except.error.inj h
        exact Cache.kind_of_getOrFetch hcause
      · rw [hfetch] at h
        exact .inl (kind_of_decodeFrom h)

end Bound

namespace Codec

variable {c : Codec α} {r : Registry σ} {s : σ} {e : CodecError}

/-- A type is refused before anything is asked of the registry or noted
    down; later on only the registration can fail. -/
theorem kind_of_open {type : EventType α} {subject : String} {ctx : Context}
    (h : (Codec.open r type subject ctx s).1 = .error e) :
    (e.kind = .unsupportedType ∧ (Codec.open r type subject ctx s).2 = s) ∨
      e.kind = .registration := by
  unfold Codec.open at h ⊢
  cases hresolve : type.resolve with
  | error cause =>
    rw [hresolve] at h
    obtain rfl := Except.error.inj h
    exact .inl ⟨EventType.kind_of_resolve hresolve, rfl⟩
  | ok d =>
    rw [hresolve] at h
    refine .inr ?_
    obtain ⟨t, -, ⟨cause, s', -, heq⟩ | ⟨id, s', -, heq⟩⟩ :=
      openWith_cases r type d subject ctx s
    · simp only [heq] at h
      obtain rfl := Except.error.inj h
      rfl
    · simp only [heq] at h
      contradiction

theorem kind_of_encode {v : α} (hready : c.isReady = true) (h : c.encode v = .error e) :
    e.kind = .encode := by
  rw [encode, if_pos hready] at h
  exact Bound.kind_of_encode h

theorem kind_of_decode {data : Bytes} {ctx : Context} (hready : c.isReady = true)
    (h : (c.decode r data ctx s).1 = .error e) : e.kind = .decode ∨ e.kind = .unknownSchema := by
  rw [decode, if_pos hready] at h
  exact Bound.kind_of_decode h

theorem kind_of_close {ctx : Context} (h : (c.close r ctx s).1 = .error e) :
    e.kind = .cleanup ∨ e.kind = .closedCodec := by
  rcases c.close_cases r ctx s with ⟨-, heq⟩ | ⟨-, answer, s', -, s'', heq, -⟩
  · rw [heq] at h
    obtain rfl := Except.error.inj h
    exact .inr rfl
  · rw [heq] at h
    cases answer with
    | ok versions => contradiction
    | error cause =>
      obtain rfl := Except.error.inj h
      exact .inl rfl

/-! ### Calls -/

/-- A call to a codec. -/
inductive Call (α : Type) where
  | encode (v : α)
  | decode (data : Bytes) (ctx : Context)
  | close (ctx : Context)
  /-- Looks at what the codec says about itself. -/
  | inspect

/-- What a call gives if it succeeds. -/
inductive Yield (α : Type) where
  | bytes (bytes : Bytes)
  | value (v : α)
  | done
  | identity (subject : String) (schemaId : UInt32) (state : CodecState) (descriptor : Descriptor)

/-- Makes a call. -/
def serve (r : Registry σ) (c : Codec α) (s : σ) : Call α → Except CodecError (Yield α) × Codec α × σ
  | .encode v => ((c.encode v).map .bytes, c, s)
  | .decode data ctx =>
    match c.decode r data ctx s with
    | (result, c, s) => (result.map .value, c, s)
  | .close ctx =>
    match c.close r ctx s with
    | (result, c, s) => (result.map fun _ => .done, c, s)
  | .inspect => (.ok (.identity c.subject c.bound.schemaId c.state c.bound.descriptor), c, s)

/-- The codec after some calls, each in the world it finds. -/
def serveAll (r : Registry σ) (calls : List (Call α × σ)) (c : Codec α) : Codec α :=
  calls.foldl (fun c call => (c.serve r call.2 call.1).2.1) c

def Call.isClose : Call α → Bool
  | .close _ => true
  | _ => false

/-- The call is made under a context that is live, if it has one. -/
def Call.IsLive (live : Context → σ → Prop) (s : σ) : Call α → Prop
  | .encode _ | .inspect => True
  | .decode _ ctx | .close ctx => live ctx s

theorem subject_serve (r : Registry σ) (c : Codec α) (s : σ) (call : Call α) :
    (c.serve r s call).2.1.subject = c.subject := by
  cases call with
  | encode v | inspect => rfl
  | decode data ctx => exact (c.precedes_decode r data ctx s).subject
  | close ctx => exact (c.precedes_close r ctx s).subject

theorem isPerCall_of_kind {kind : CodecErrorKind} (h : e.kind = kind) :
    e.isPerCall = kind.isPerCall :=
  congrArg CodecErrorKind.isPerCall h

/-- A call that fails leaves the codec ready exactly if its error says
    so. -/
theorem isReady_serve {call : Call α} (h : (c.serve r s call).1 = .error e) :
    (c.serve r s call).2.1.isReady = e.isPerCall := by
  cases call with
  | encode v =>
    have herror : c.encode v = .error e := eq_error_of_map h
    show c.isReady = e.isPerCall
    cases hready : c.isReady with
    | true => exact (isPerCall_of_kind (kind_of_encode hready herror)).symm
    | false =>
      rw [encode, hready] at herror
      obtain rfl := Except.error.inj herror
      rfl
  | decode data ctx =>
    have herror : (c.decode r data ctx s).1 = .error e := eq_error_of_map h
    have hstate : (c.decode r data ctx s).2.1.isReady = c.isReady := by
      rw [isReady, isReady, state_decode]
    show (c.decode r data ctx s).2.1.isReady = e.isPerCall
    rw [hstate]
    cases hready : c.isReady with
    | true =>
      rcases kind_of_decode hready herror with hkind | hkind
      · exact (isPerCall_of_kind hkind).symm
      · exact (isPerCall_of_kind hkind).symm
    | false =>
      rw [decode, hready] at herror
      obtain rfl := Except.error.inj herror
      rfl
  | close ctx =>
    have herror : (c.close r ctx s).1 = .error e := eq_error_of_map h
    show (c.close r ctx s).2.1.isReady = e.isPerCall
    rw [isReady_close]
    rcases kind_of_close herror with hkind | hkind
    · exact (isPerCall_of_kind hkind).symm
    · exact (isPerCall_of_kind hkind).symm
  | inspect => contradiction

end Codec

/-! ### Codecs that answer alike -/

/-- The registry answers the fetch of an ID always the same, as long as the
    context is live. -/
def Registry.Answers (r : Registry σ) (live : Context → σ → Prop)
    (answers : UInt32 → Except RegistryError RegisteredSchema) : Prop :=
  ∀ id ctx s, live ctx s → (r.fetch id ctx s).1 = answers id

section

variable {r : Registry σ} {live : Context → σ → Prop}
  {answers : UInt32 → Except RegistryError RegisteredSchema} {ctx : Context} {s t : σ}

/-- What the cache has for an ID, or will have to fetch. -/
def Cache.known (answers : UInt32 → Except RegistryError RegisteredSchema) (c : Cache)
    (id : UInt32) : Except CodecError Descriptor :=
  match c.get? id with
  | some d => .ok d
  | none => interpret id (answers id)

/-- Whether a descriptor comes from the cache or from the registry makes no
    difference. -/
theorem Cache.getOrFetch_known (hanswers : r.Answers live answers) (hlive : live ctx s) (c : Cache)
    (id : UInt32) : (c.getOrFetch r id ctx s).1 = c.known answers id := by
  unfold getOrFetch known
  cases c.get? id with
  | some d => rfl
  | none =>
    rw [← hanswers id ctx s hlive]
    dsimp only
    cases interpret id (r.fetch id ctx s).1 <;> rfl

/-- What is fetched is what was known before. -/
theorem Cache.known_getOrFetch (hanswers : r.Answers live answers) (hlive : live ctx s) (c : Cache)
    (id other : UInt32) :
    (c.getOrFetch r id ctx s).2.1.known answers other = c.known answers other := by
  rcases c.getOrFetch_cases r id ctx s with ⟨d, -, heq⟩ | ⟨e, heq⟩ | ⟨d, hnone, hd, heq⟩
  · rw [heq]
  · rw [heq]
  · rw [heq]
    rw [hanswers id ctx s hlive] at hd
    have hlookup : (c.insert id d).get? other = (c.get? other).or (Table.get? other [(id, d)]) :=
      Table.get?_append _
    unfold known
    rw [hlookup]
    by_cases hother : other = id
    · subst hother
      rw [hnone]
      simp [Table.get?, hd]
    · have hsingle : Table.get? other [(id, d)] = none := by simp [Table.get?, Ne.symm hother]
      rw [hsingle, Option.or_none]

namespace Bound

variable {b b' : Bound α}

/-- The same codec, but for what the cache has already. -/
structure Alike (answers : UInt32 → Except RegistryError RegisteredSchema) (b b' : Bound α) :
    Prop where
  type : b'.type = b.type
  schemaId : b'.schemaId = b.schemaId
  descriptor : b'.descriptor = b.descriptor
  known : ∀ id, b'.cache.known answers id = b.cache.known answers id

theorem Alike.symm (h : b.Alike answers b') : b'.Alike answers b :=
  ⟨h.type.symm, h.schemaId.symm, h.descriptor.symm, fun id => (h.known id).symm⟩

theorem Alike.trans {b'' : Bound α} (h : b.Alike answers b') (h' : b'.Alike answers b'') :
    b.Alike answers b'' :=
  ⟨h'.type.trans h.type, h'.schemaId.trans h.schemaId, h'.descriptor.trans h.descriptor,
    fun id => (h'.known id).trans (h.known id)⟩

/-- Reading makes no difference to a codec. -/
theorem alike_decode (hanswers : r.Answers live answers) (hlive : live ctx s) (b : Bound α)
    (data : Bytes) : b.Alike answers (b.decode r data ctx s).2.1 := by
  rcases b.decode_cases r data ctx s with heq | ⟨id, heq⟩
  · rw [heq]
    exact ⟨rfl, rfl, rfl, fun _ => rfl⟩
  · rw [heq]
    exact ⟨rfl, rfl, rfl, fun other => b.cache.known_getOrFetch hanswers hlive id other⟩

/-- What reading comes to where fetches are always answered the same. -/
def reads (answers : UInt32 → Except RegistryError RegisteredSchema) (b : Bound α)
    (data : Bytes) : Except CodecError α :=
  match Envelope.parse data with
  | .error e => .error e.toCodec
  | .ok e =>
    if e.schemaId = b.schemaId then b.decodePayload e.payload
    else
      match b.cache.known answers e.schemaId with
      | .error error => .error error
      | .ok writer => b.decodeFrom writer e

theorem decode_eq_reads (hanswers : r.Answers live answers) (hlive : live ctx s) (b : Bound α)
    (data : Bytes) : (b.decode r data ctx s).1 = b.reads answers data := by
  unfold decode reads
  cases Envelope.parse data with
  | error e => rfl
  | ok e =>
    dsimp only
    by_cases hid : e.schemaId = b.schemaId
    · rw [if_pos hid, if_pos hid]
    · rw [if_neg hid, if_neg hid, ← b.cache.getOrFetch_known hanswers hlive]
      rcases b.cache.getOrFetch r e.schemaId ctx s with ⟨error | writer, cache, s'⟩
      · rfl
      · rfl

/-- What is read does not depend on what the cache has already. -/
theorem Alike.reads (h : b.Alike answers b') (data : Bytes) :
    b'.reads answers data = b.reads answers data := by
  obtain ⟨type, schemaId, descriptor, cache⟩ := b
  obtain ⟨type', schemaId', descriptor', cache'⟩ := b'
  obtain ⟨rfl, rfl, rfl, hknown⟩ := h
  unfold Bound.reads
  simp only [hknown]
  rfl

theorem Alike.encode (h : b.Alike answers b') (v : α) : b'.encode v = b.encode v := by
  obtain ⟨type, schemaId, descriptor, cache⟩ := b
  obtain ⟨type', schemaId', descriptor', cache'⟩ := b'
  obtain ⟨rfl, rfl, rfl, -⟩ := h
  rfl

end Bound

namespace Codec

variable {c c' : Codec α}

structure Alike (answers : UInt32 → Except RegistryError RegisteredSchema) (c c' : Codec α) :
    Prop where
  subject : c'.subject = c.subject
  state : c'.state = c.state
  bound : c.bound.Alike answers c'.bound

theorem Alike.symm (h : c.Alike answers c') : c'.Alike answers c :=
  ⟨h.subject.symm, h.state.symm, h.bound.symm⟩

theorem Alike.trans {c'' : Codec α} (h : c.Alike answers c') (h' : c'.Alike answers c'') :
    c.Alike answers c'' :=
  ⟨h'.subject.trans h.subject, h'.state.trans h.state, h.bound.trans h'.bound⟩

theorem Alike.isReady (h : c.Alike answers c') : c'.isReady = c.isReady := by
  rw [Codec.isReady, Codec.isReady, h.state]

theorem alike_decode (hanswers : r.Answers live answers) (hlive : live ctx s) (c : Codec α)
    (data : Bytes) : c.Alike answers (c.decode r data ctx s).2.1 := by
  refine ⟨(c.precedes_decode r data ctx s).subject, c.state_decode r data ctx s, ?_⟩
  unfold decode
  split
  · exact c.bound.alike_decode hanswers hlive data
  · exact ⟨rfl, rfl, rfl, fun _ => rfl⟩

theorem Alike.encode (h : c.Alike answers c') (v : α) : c'.encode v = c.encode v := by
  rw [Codec.encode, Codec.encode, h.isReady, h.bound.encode]

theorem Alike.decode (h : c.Alike answers c') (hanswers : r.Answers live answers)
    (hs : live ctx s) (ht : live ctx t) (data : Bytes) :
    (c'.decode r data ctx t).1 = (c.decode r data ctx s).1 := by
  unfold Codec.decode
  rw [h.isReady]
  split
  · show (c'.bound.decode r data ctx t).1 = (c.bound.decode r data ctx s).1
    rw [Bound.decode_eq_reads hanswers ht, Bound.decode_eq_reads hanswers hs, h.bound.reads]
  · rfl

/-- Closing leaves codecs alike, whatever the registry answers. -/
theorem Alike.after_close (h : c.Alike answers c') (ctx ctx' : Context) (s t : σ) :
    (c.close r ctx s).2.1.Alike answers (c'.close r ctx' t).2.1 := by
  cases hready : c.isReady with
  | true =>
    obtain ⟨-, hcodec⟩ := close_of_isReady r ctx s hready
    obtain ⟨-, hcodec'⟩ := close_of_isReady r ctx' t (h.isReady.trans hready)
    rw [hcodec, hcodec']
    exact ⟨h.subject, rfl, h.bound⟩
  | false =>
    rw [close_of_closed r ctx s hready, close_of_closed r ctx' t (h.isReady.trans hready)]
    exact h

/-- Codecs that are alike give the same result, unless it is for the
    registry to say what the closing comes to. -/
theorem Alike.serve (h : c.Alike answers c') (hanswers : r.Answers live answers) {call : Call α}
    (hs : call.IsLive live s) (ht : call.IsLive live t)
    (hclose : call.isClose = true → c.isReady = false) :
    (c'.serve r t call).1 = (c.serve r s call).1 := by
  cases call with
  | encode v => exact congrArg (Except.map Yield.bytes) (h.encode v)
  | decode data ctx =>
    have hvalue : (c'.decode r data ctx t).1 = (c.decode r data ctx s).1 :=
      h.decode hanswers hs ht data
    exact congrArg (Except.map Yield.value) hvalue
  | close ctx =>
    have hclosed := hclose rfl
    rw [Codec.serve, close_of_closed r ctx t (h.isReady.trans hclosed), Codec.serve,
      close_of_closed r ctx s hclosed]
  | inspect =>
    show Except.ok (Yield.identity c'.subject c'.bound.schemaId c'.state c'.bound.descriptor) = _
    rw [h.subject, h.bound.schemaId, h.state, h.bound.descriptor]
    rfl

/-- They are alike afterwards in any case. -/
theorem Alike.after_serve (h : c.Alike answers c') (hanswers : r.Answers live answers)
    {call : Call α} (hs : call.IsLive live s) (ht : call.IsLive live t) :
    (c.serve r s call).2.1.Alike answers (c'.serve r t call).2.1 := by
  cases call with
  | encode v | inspect => exact h
  | decode data ctx =>
    exact (c.alike_decode hanswers hs data).symm.trans (h.trans (c'.alike_decode hanswers ht data))
  | close ctx => exact h.after_close ctx ctx s t

/-- And so they are after any number of calls. -/
theorem Alike.serveAll (h : c.Alike answers c') (hanswers : r.Answers live answers)
    {before : List (Call α × σ × σ)}
    (hbefore : ∀ f ∈ before, f.1.IsLive live f.2.1 ∧ f.1.IsLive live f.2.2) :
    (serveAll r (before.map fun f => (f.1, f.2.1)) c).Alike answers
      (serveAll r (before.map fun f => (f.1, f.2.2)) c') := by
  -- alike after the first call, whatever the worlds it was made in
  induction before generalizing c c' with
  | nil => exact h
  | cons f rest ih =>
    obtain ⟨hs, ht⟩ := hbefore f List.mem_cons_self
    exact ih (h.after_serve hanswers hs ht) fun g hg => hbefore g (List.mem_cons_of_mem _ hg)

/-- A codec is ready until it is closed. -/
theorem isReady_after_serve (r : Registry σ) (c : Codec α) (s : σ) (call : Call α) :
    (c.serve r s call).2.1.isReady = (c.isReady && !call.isClose) := by
  cases call with
  | encode v | inspect => exact (Bool.and_true _).symm
  | decode data ctx =>
    have hstate : (c.decode r data ctx s).2.1.isReady = c.isReady := by
      rw [isReady, isReady, state_decode]
    exact hstate.trans (Bool.and_true _).symm
  | close ctx => exact (c.isReady_close r ctx s).trans (Bool.and_false _).symm

theorem isReady_serveAll (r : Registry σ) (calls : List (Call α × σ)) (c : Codec α) :
    (c.serveAll r calls).isReady = (c.isReady && !calls.any fun f => f.1.isClose) := by
  induction calls generalizing c with
  | nil => exact (Bool.and_true _).symm
  | cons f rest ih =>
    have hrest := ih (c.serve r f.2 f.1).2.1
    rw [isReady_after_serve] at hrest
    rw [List.any_cons, Bool.not_or, ← Bool.and_assoc]
    exact hrest

theorem subject_serveAll (r : Registry σ) (calls : List (Call α × σ)) (c : Codec α) :
    (c.serveAll r calls).subject = c.subject := by
  induction calls generalizing c with
  | nil => rfl
  | cons f rest ih => exact (ih _).trans (subject_serve r c f.2 f.1)

/-- The first closing is answered by the registry. -/
theorem serve_close (hready : c.isReady = true) {calls : List (Call α × σ)}
    (hnone : (calls.any fun f => f.1.isClose) = false) (ctx : Context) (s : σ) :
    ((c.serveAll r calls).serve r s (.close ctx)).1 =
      (c.closingResult (r.delete c.subject ctx s).1).map fun _ => .done := by
  have hstill : (c.serveAll r calls).isReady = true := by
    rw [isReady_serveAll, hready, hnone]
    rfl
  obtain ⟨hresult, -⟩ := close_of_isReady r ctx s hstill
  rw [subject_serveAll] at hresult
  show ((c.serveAll r calls).close r ctx s).1.map _ = _
  rw [hresult]
  unfold closingResult
  rw [subject_serveAll]

/-- A call that fails and leaves its codec ready leaves nothing else behind. -/
theorem alike_serve (hanswers : r.Answers live answers) {call : Call α} {e : CodecError}
    (hlive : call.IsLive live s) (herror : (c.serve r s call).1 = .error e)
    (hpercall : e.isPerCall = true) : c.Alike answers (c.serve r s call).2.1 := by
  cases call with
  | encode v | inspect => exact ⟨rfl, rfl, rfl, rfl, rfl, fun _ => rfl⟩
  | decode data ctx => exact c.alike_decode hanswers hlive data
  | close ctx =>
    have hready := isReady_serve herror
    have hclosed : (c.serve r s (.close ctx)).2.1.isReady = false := c.isReady_close r ctx s
    rw [hclosed, hpercall] at hready
    contradiction

end Codec

end

/-- **What an error says about its codec**, whatever the registry answers
    and however the codec has come to be as it is.  Each thing that is done
    with a codec fails with errors of its own kinds; a type without a
    schema is refused before anything is asked of the registry.  A codec is
    ready after an error exactly if the error concerns the one call only.

    If the registry answers fetches always the same, such an error has left
    no trace: any later call comes to what it would have come to without
    the call that failed, whatever other calls were made in between.  The
    world may well be another one then (`f.2.2` for `f.2.1`, `t'` for
    `s'`).  The one call to which that matters is the first closing: it
    comes to what the registry answers to the deletion, in the world that
    it finds. -/
theorem Codec.errors_tell (r : Registry σ) (c : Codec α) (s : σ) :
    (∀ type subject ctx world e,
      (Codec.open r.recorded (type : EventType α) subject ctx world).1 = .error e →
      (e.kind = .unsupportedType ∧
        (Codec.open r.recorded type subject ctx world).2 = world) ∨ e.kind = .registration) ∧
    (c.isReady = true → ∀ v e, c.encode v = .error e → e.kind = .encode) ∧
    (c.isReady = true → ∀ data ctx e, (c.decode r data ctx s).1 = .error e →
      e.kind = .decode ∨ e.kind = .unknownSchema) ∧
    (∀ ctx e, (c.close r ctx s).1 = .error e → e.kind = .cleanup ∨ e.kind = .closedCodec) ∧
    (∀ call e, (c.serve r s call).1 = .error e →
      (c.serve r s call).2.1.isReady = e.isPerCall) ∧
    (∀ live answers, r.Answers live answers →
      ∀ call e, call.IsLive live s → (c.serve r s call).1 = .error e → e.isPerCall = true →
      ∀ before : List (Call α × σ × σ),
        (∀ f ∈ before, f.1.IsLive live f.2.1 ∧ f.1.IsLive live f.2.2) →
        let closed := before.any fun f => f.1.isClose
        let undisturbed := serveAll r (before.map fun f => (f.1, f.2.1)) c
        let disturbed := serveAll r (before.map fun f => (f.1, f.2.2)) (c.serve r s call).2.1
        (∀ (next : Call α) (s' t' : σ), next.IsLive live s' → next.IsLive live t' →
          (next.isClose = true → closed = true) →
          (disturbed.serve r t' next).1 = (undisturbed.serve r s' next).1) ∧
        (closed = false → ∀ ctx s' t',
          (undisturbed.serve r s' (.close ctx)).1 =
            (c.closingResult (r.delete c.subject ctx s').1).map (fun _ => .done) ∧
          (disturbed.serve r t' (.close ctx)).1 =
            (c.closingResult (r.delete c.subject ctx t').1).map fun _ => .done)) := by
  refine ⟨?opening, ?encoding, ?decoding, ?closing, ?readiness, ?afterwards⟩
  case opening => exact fun type subject ctx world e => kind_of_open
  case encoding => exact fun hready v e => kind_of_encode hready
  case decoding => exact fun hready data ctx e => kind_of_decode hready
  case closing => exact fun ctx e => kind_of_close
  case readiness => exact fun call e => isReady_serve
  case afterwards =>
    intro live answers hanswers call e hlive herror hpercall before hbefore
    have halike : c.Alike answers (c.serve r s call).2.1 :=
      alike_serve hanswers hlive herror hpercall
    -- the call that failed was no closing, so the first closing is still to come
    have hready' : (c.serve r s call).2.1.isReady = true := (isReady_serve herror).trans hpercall
    have hready : c.isReady = true := halike.isReady.symm.trans hready'
    refine ⟨?same, ?first⟩
    case same =>
      intro next s' t' hs ht hclose
      refine (halike.serveAll hanswers hbefore).serve hanswers hs ht fun hnext => ?_
      rw [isReady_serveAll, List.any_map, Bool.and_eq_false_iff, Bool.not_eq_false']
      exact .inr (hclose hnext)
    case first =>
      intro hnone ctx s' t'
      have hsubject : (c.serve r s call).2.1.subject = c.subject := subject_serve r c s call
      have hundisturbed : ((before.map fun f => (f.1, f.2.1)).any fun f => f.1.isClose) = false := by
        rwa [List.any_map]
      have hdisturbed : ((before.map fun f => (f.1, f.2.2)).any fun f => f.1.isClose) = false := by
        rwa [List.any_map]
      have hclose := serve_close (r := r) hready' hdisturbed ctx t'
      unfold closingResult at hclose
      rw [hsubject] at hclose
      exact ⟨serve_close hready hundisturbed ctx s', hclose⟩

namespace Codec

/-- A registry without schemas, where nothing can be registered.  It is
    about to lose its one subject: that is deleted while the next fetch is
    under way. -/
def waning : Registry Bool where
  register _ _ _ s := (.error .timeout, s)
  fetch id _ _ := (.error (.schemaNotFound id), false)
  delete subject _ s := (if s then .ok [1] else .error (.subjectNotFound subject), false)
  latest subject _ s := (.error (.subjectNotFound subject), s)
  subjects _ s := (.ok [], s)
  note _ s := s
  deleteLater _ _ := false

theorem answers_waning :
    waning.Answers (fun _ _ => True) fun id => .error (.schemaNotFound id) :=
  fun _ _ _ _ => rfl

/-- A codec that is ready. -/
def blankCodec : Codec Unit :=
  { subject := "orders", bound := .new blank 1 .keywords, state := .ready }

/-- An envelope under an ID of somebody else. -/
def foreign : Bytes := [0, 0, 0, 0, 2]

theorem serve_foreign :
    blankCodec.serve waning true (.decode foreign .unbounded) =
      (.error (.unknownSchema 2), blankCodec, false) := by
  have hparse : Envelope.parse foreign = .ok { schemaId := 2, payload := [] } := by decide
  have hready : blankCodec.isReady = true := rfl
  rw [serve, decode, hready, if_pos rfl, Bound.decode, hparse]
  rfl

/-- A type without a name is not opened, and a schema that is not there
    does not spoil a codec: it reads as before, and closes as it finds the
    registry. -/
theorem blank_tells :
    (∃ e, (Codec.open waning.recorded nameless "orders" .unbounded ([], true)).1 = .error e ∧
      e.kind = .unsupportedType ∧
      (Codec.open waning.recorded nameless "orders" .unbounded ([], true)).2 = ([], true)) ∧
    (blankCodec.serve waning true (.decode foreign .unbounded)).1 = .error (.unknownSchema 2) ∧
    (blankCodec.serve waning true (.decode foreign .unbounded)).2.1.isReady = true ∧
    ((serveAll waning [(.encode (), false)] (blankCodec.serve waning true
        (.decode foreign .unbounded)).2.1).serve waning false (.decode foreign .unbounded)).1 =
      ((serveAll waning [(.encode (), true)] blankCodec).serve waning true
        (.decode foreign .unbounded)).1 ∧
    ((serveAll waning [(.encode (), false)] (blankCodec.serve waning true
        (.decode foreign .unbounded)).2.1).serve waning false (.close .unbounded)).1 =
      .error (.cleanup "orders" "Subject not found: orders") := by
  obtain ⟨hopening, -, -, -, hreadiness, hafterwards⟩ := errors_tell waning blankCodec true
  have hopen : (Codec.open waning.recorded nameless "orders" .unbounded ([], true)).1 =
      .error (.unsupportedType "" "非法标识符: \"\"") := by
    rw [Codec.open, resolve_nameless]
  have hunsupported := (hopening _ _ _ _ _ hopen).resolve_right (by decide)
  have hfailed : (blankCodec.serve waning true (.decode foreign .unbounded)).1 =
      .error (.unknownSchema 2) := congrArg Prod.fst serve_foreign
  obtain ⟨hsame, hfirst⟩ := hafterwards _ _ answers_waning (.decode foreign .unbounded) _ trivial
    hfailed rfl [(.encode (), true, false)] (by simp [Call.IsLive])
  exact ⟨⟨_, hopen, hunsupported⟩, hfailed, hreadiness _ _ hfailed,
    hsame (.decode foreign .unbounded) true false trivial trivial nofun,
    (hfirst rfl .unbounded true false).2⟩

/-- A call that failed may have taken the time in which the subject went. -/
theorem not_errors_tell :
    waning.Answers (fun _ _ => True) (fun id => .error (.schemaNotFound id)) ∧
    ∃ e c world,
      blankCodec.serve waning true (.decode foreign .unbounded) = (.error e, c, world) ∧
        e.isPerCall = true ∧
        (c.serve waning world (.close .unbounded)).1 =
          .error (.cleanup "orders" "Subject not found: orders") ∧
        (blankCodec.serve waning true (.close .unbounded)).1 = .ok .done :=
  ⟨answers_waning, _, _, _, serve_foreign, rfl, rfl, rfl⟩

end Codec

end EventCodec
