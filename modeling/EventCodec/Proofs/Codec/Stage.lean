import EventCodec.Codec.Lifecycle
import EventCodec.Proofs.Registry.History

/-! # Codecs on a quiet stage

    A codec does not reach into its registry.  On a stage on which nothing
    is planned, all it can do to the memory is one request: registering
    when it is opened, deleting when it is closed or dropped.  Decoding
    leaves the memory as it is, and what it puts into the cache is what
    the memory knows.

    Whatever a codec does, it stays the codec it is: the same type under
    the same ID, with a cache that only grows, and not ready again once it
    is closed (`Codec.Precedes`). -/

namespace EventCodec

open Schema
open Registry (Request)

/-! ### Stages -/

namespace Staged

variable {s s' s'' : Staged}

/-- Only the journal and the counts of calls are different. -/
structure Keeps (s s' : Staged) : Prop where
  quiet : s'.IsQuiet
  now : s'.now = s.now
  memory : s'.memory = s.memory

theorem IsQuiet.keeps (h : s.IsQuiet) : s.Keeps s :=
  ⟨h, rfl, rfl⟩

theorem Keeps.trans (h : s.Keeps s') (h' : s'.Keeps s'') : s.Keeps s'' :=
  ⟨h'.quiet, h'.now.trans h.now, h'.memory.trans h.memory⟩

theorem Keeps.note (h : s.Keeps s') (entry : Journal.Entry) : s.Keeps (s'.note entry) :=
  ⟨h.quiet.note entry, h.now, h.memory⟩

/-- A call that only looks leaves the memory as it is. -/
theorem Serves.keeps {α : Type} {ctx : Context} {outcome : Except RegistryError α × Staged}
    {result : Except RegistryError α} (h : s.Serves ctx outcome (result, s.memory)) :
    s.Keeps outcome.2 := by
  refine ⟨h.quiet, h.now, ?_⟩
  rcases h.memory with hmemory | hmemory
  · exact hmemory
  · exact hmemory

theorem Keeps.advances (h : s.Keeps s') : s.Advances s' :=
  ⟨h.quiet, .inl h.memory⟩

end Staged

/-! ### The cache -/

namespace Cache

variable {σ : Type} {c c' : Cache} {id : UInt32} {d : Descriptor}

theorem get?_insert_self (h : c.get? id = none) : (c.insert id d).get? id = some d := by
  have hnone : Table.get? id c.entries = none := h
  show Table.get? id (c.entries ++ [(id, d)]) = some d
  rw [Table.get?_append, hnone]
  simp [Table.get?]

/-- What is found in a cache is still found when the cache has grown. -/
theorem get?_of_prefix (hgrown : c.entries <+: c'.entries) (h : c.get? id = some d) :
    c'.get? id = some d := by
  obtain ⟨more, hmore⟩ := hgrown
  have hsome : Table.get? id c.entries = some d := h
  show Table.get? id c'.entries = some d
  rw [← hmore, Table.get?_append, hsome]
  rfl

/-- A descriptor that was got is in the cache from then on; nothing else
    can happen to the cache. -/
theorem getOrFetch_cases (r : Registry σ) (id : UInt32) (ctx : Context) (c : Cache) (s : σ) :
    (∃ d, c.get? id = some d ∧ c.getOrFetch r id ctx s = (.ok d, c, s)) ∨
    (∃ e, c.getOrFetch r id ctx s = (.error e, c, (r.fetch id ctx s).2)) ∨
    ∃ d, c.get? id = none ∧ interpret id (r.fetch id ctx s).1 = .ok d ∧
      c.getOrFetch r id ctx s =
        (.ok d, c.insert id d, r.note (cached id d ctx) (r.fetch id ctx s).2) := by
  unfold getOrFetch
  cases hkept : c.get? id with
  | some d => exact .inl ⟨d, rfl, rfl⟩
  | none =>
    cases hinterpret : interpret id (r.fetch id ctx s).1 with
    | error e => exact .inr (.inl ⟨e, by simp only [hinterpret]⟩)
    | ok d => exact .inr (.inr ⟨d, rfl, rfl, by simp only [hinterpret]⟩)

theorem prefix_getOrFetch (r : Registry σ) (id : UInt32) (ctx : Context) (c : Cache) (s : σ) :
    c.entries <+: (c.getOrFetch r id ctx s).2.1.entries := by
  rcases getOrFetch_cases r id ctx c s with ⟨d, -, heq⟩ | ⟨e, heq⟩ | ⟨d, -, -, heq⟩
  · exact ⟨[], by rw [heq, List.append_nil]⟩
  · exact ⟨[], by rw [heq, List.append_nil]⟩
  · exact ⟨[(id, d)], by rw [heq, insert]⟩

theorem get?_of_getOrFetch {r : Registry σ} {ctx : Context} {s : σ}
    (h : (c.getOrFetch r id ctx s).1 = .ok d) : (c.getOrFetch r id ctx s).2.1.get? id = some d := by
  rcases getOrFetch_cases r id ctx c s with ⟨e, hkept, heq⟩ | ⟨e, heq⟩ | ⟨e, hnone, -, heq⟩
  · rw [heq] at h ⊢
    obtain rfl := Except.ok.inj h
    exact hkept
  · rw [heq] at h
    contradiction
  · rw [heq] at h ⊢
    obtain rfl := Except.ok.inj h
    exact get?_insert_self hnone

/-- With the descriptor in the cache, neither registry nor context
    matter. -/
theorem getOrFetch_of_get? (h : c.get? id = some d) (r : Registry σ) (ctx : Context) (s : σ) :
    c.getOrFetch r id ctx s = (.ok d, c, s) := by
  unfold getOrFetch
  rw [h]

/-- What is not in the cache is as the registry's answer means. -/
theorem getOrFetch_of_none (h : c.get? id = none) (r : Registry σ) (ctx : Context) (s : σ) :
    c.getOrFetch r id ctx s =
      match interpret id (r.fetch id ctx s).1 with
      | .error e => (.error e, c, (r.fetch id ctx s).2)
      | .ok d => (.ok d, c.insert id d, r.note (cached id d ctx) (r.fetch id ctx s).2) := by
  cases hinterpret : interpret id (r.fetch id ctx s).1 with
  | error e => simp only [getOrFetch, h, hinterpret]
  | ok d => simp only [getOrFetch, h, hinterpret]

end Cache

namespace Staged

variable {s : Staged} {id : UInt32} {d : Descriptor}

/-- What the memory answers, and what it means, is what the ID stands
    for. -/
theorem IsOrderly.text?_of_interpret (h : s.IsOrderly) {ctx : Context}
    (hinterpret : Cache.interpret id (registry.fetch id ctx s).1 = .ok d) :
    s.memory.text? id = some d.text := by
  rcases (h.quiet.serves_fetch id ctx).answer with hanswer | hanswer
  · rw [hanswer] at hinterpret
    contradiction
  · rw [hanswer, Memory.fetch] at hinterpret
    cases htext : s.memory.text? id with
    | none =>
      rw [htext] at hinterpret
      contradiction
    | some text =>
      -- the text of a live schema is that of a descriptor, which is read from it
      obtain ⟨e, rfl⟩ := h.consistent.described id text htext
      have hread : (RegisteredSchema.descriptor
          { id, subject := none, version := none, schemaType := .protobuf, text := e.text }) =
            .ok e := e.ofText_text
      simp only [htext, Cache.interpret, hread] at hinterpret
      obtain rfl : e = d := Except.ok.inj hinterpret
      rfl

/-- Fetching into a cache leaves the memory as it is. -/
theorem IsQuiet.keeps_getOrFetch (h : s.IsQuiet) (c : Cache) (id : UInt32) (ctx : Context) :
    s.Keeps (c.getOrFetch registry id ctx s).2.2 := by
  have hkeeps : s.Keeps (registry.fetch id ctx s).2 := (h.serves_fetch id ctx).keeps
  rcases Cache.getOrFetch_cases registry id ctx c s with ⟨d, -, heq⟩ | ⟨e, heq⟩ | ⟨d, -, -, heq⟩
  · rw [heq]
    exact h.keeps
  · rw [heq]
    exact hkeeps
  · rw [heq]
    exact hkeeps.note _

/-- It adds to the cache at most what the memory knows. -/
theorem IsOrderly.mem_getOrFetch (h : s.IsOrderly) {c : Cache} {ctx : Context}
    {e : UInt32 × Descriptor} (hmem : e ∈ (c.getOrFetch registry id ctx s).2.1.entries) :
    e ∈ c.entries ∨ s.memory.text? e.1 = some e.2.text := by
  rcases Cache.getOrFetch_cases registry id ctx c s with ⟨d, -, heq⟩ | ⟨_, heq⟩ | ⟨d, -, hd, heq⟩
  · rw [heq] at hmem
    exact .inl hmem
  · rw [heq] at hmem
    exact .inl hmem
  · rw [heq] at hmem
    rcases List.mem_append.mp hmem with hold | hnew
    · exact .inl hold
    · obtain rfl := List.mem_singleton.mp hnew
      exact .inr (h.text?_of_interpret hd)

end Staged

/-! ### Bound codecs -/

namespace Bound

variable {α σ τ : Type} {b b' b'' : Bound α} {data : Bytes} {v : α}

/-- The same codec, later on. -/
structure Precedes (b b' : Bound α) : Prop where
  type : b'.type = b.type
  schemaId : b'.schemaId = b.schemaId
  descriptor : b'.descriptor = b.descriptor
  cache : b.cache.entries <+: b'.cache.entries

theorem Precedes.refl (b : Bound α) : b.Precedes b :=
  ⟨rfl, rfl, rfl, List.prefix_refl _⟩

theorem Precedes.trans (h : b.Precedes b') (h' : b'.Precedes b'') : b.Precedes b'' where
  type := h'.type.trans h.type
  schemaId := h'.schemaId.trans h.schemaId
  descriptor := h'.descriptor.trans h.descriptor
  cache := h.cache.trans h'.cache

/-- A decode does without the registry and changes nothing, or it gets the
    descriptor of the writer. -/
theorem decode_cases (r : Registry σ) (data : Bytes) (ctx : Context) (b : Bound α) (s : σ) :
    ((b.decode r data ctx s).2 = (b, s)) ∨
    ∃ id, (b.decode r data ctx s).2 =
      ({ b with cache := (b.cache.getOrFetch r id ctx s).2.1 },
        (b.cache.getOrFetch r id ctx s).2.2) := by
  unfold decode
  cases Envelope.parse data with
  | error e => exact .inl rfl
  | ok e =>
    by_cases hid : e.schemaId = b.schemaId
    · simp only [if_pos hid]
      exact .inl trivial
    · simp only [if_neg hid]
      refine .inr ⟨e.schemaId, ?_⟩
      rcases b.cache.getOrFetch r e.schemaId ctx s with ⟨error | writer, cache, s'⟩ <;> rfl

theorem precedes_decode (r : Registry σ) (data : Bytes) (ctx : Context) (b : Bound α) (s : σ) :
    b.Precedes (b.decode r data ctx s).2.1 := by
  rcases b.decode_cases r data ctx s with heq | ⟨id, heq⟩
  · rw [heq]
    exact .refl b
  · rw [heq]
    exact ⟨rfl, rfl, rfl, b.cache.prefix_getOrFetch r id ctx s⟩

/-- What a codec has read once it reads again, whatever has become of the
    registry. -/
theorem decode_again {r : Registry σ} {ctx : Context} {s : σ}
    (hread : (b.decode r data ctx s).1 = .ok v) (hlater : (b.decode r data ctx s).2.1.Precedes b')
    (r' : Registry τ) (ctx' : Context) (s' : τ) : (b'.decode r' data ctx' s').1 = .ok v := by
  unfold decode at hread hlater ⊢
  cases hparse : Envelope.parse data with
  | error e =>
    rw [hparse] at hread
    contradiction
  | ok e =>
    simp only [hparse] at hread hlater ⊢
    by_cases hid : e.schemaId = b.schemaId
    · -- the codec's own ID, then and now
      rw [if_pos hid] at hread hlater
      have hid' : e.schemaId = b'.schemaId := hid.trans hlater.schemaId.symm
      rw [if_pos hid', decodePayload, hlater.type]
      exact hread
    · rw [if_neg hid] at hread hlater
      rcases hfetch : b.cache.getOrFetch r e.schemaId ctx s with ⟨error | writer, cache, t⟩
      · rw [hfetch] at hread
        contradiction
      · -- the writer's descriptor has been in the cache since
        simp only [hfetch] at hread hlater
        have hid' : e.schemaId ≠ b'.schemaId := fun heq => hid (heq.trans hlater.schemaId)
        have hgot : cache.get? e.schemaId = some writer := by
          have hcached := Cache.get?_of_getOrFetch (congrArg Prod.fst hfetch)
          rwa [hfetch] at hcached
        have hkept : b'.cache.get? e.schemaId = some writer :=
          Cache.get?_of_prefix hlater.cache hgot
        simp only [if_neg hid', Cache.getOrFetch_of_get? hkept]
        rw [decodeFrom, decodePayload, hlater.descriptor, hlater.type]
        exact hread

end Bound

/-! ### Codecs with a life of their own -/

namespace Codec

variable {α σ τ : Type} {c c' c'' : Codec α} {data : Bytes} {v : α}

/-- The same codec, later on: what is closed is not ready again. -/
structure Precedes (c c' : Codec α) : Prop where
  subject : c'.subject = c.subject
  bound : c.bound.Precedes c'.bound
  ready : c'.isReady = true → c.isReady = true

theorem Precedes.refl (c : Codec α) : c.Precedes c :=
  ⟨rfl, .refl _, id⟩

theorem Precedes.trans (h : c.Precedes c') (h' : c'.Precedes c'') : c.Precedes c'' where
  subject := h'.subject.trans h.subject
  bound := h.bound.trans h'.bound
  ready := fun hready => h.ready (h'.ready hready)

theorem retire_eq_some (h : c.isReady = true) : c.retire = some { c with state := .closed } := by
  rw [retire, if_pos h]

theorem retire_eq_none (h : c.isReady = false) : c.retire = none := by
  rw [retire, h]
  rfl

theorem precedes_retired (c : Codec α) : c.Precedes { c with state := .closed } :=
  ⟨rfl, .refl _, nofun⟩

theorem precedes_decode (r : Registry σ) (data : Bytes) (ctx : Context) (c : Codec α) (s : σ) :
    c.Precedes (c.decode r data ctx s).2.1 := by
  unfold decode
  split
  · exact ⟨rfl, c.bound.precedes_decode r data ctx s, id⟩
  · exact .refl c

/-- Reading does not close a codec. -/
theorem state_decode (r : Registry σ) (data : Bytes) (ctx : Context) (c : Codec α) (s : σ) :
    (c.decode r data ctx s).2.1.state = c.state := by
  unfold decode
  split <;> rfl

/-- Closing has nothing to do with the cache. -/
theorem bound_close (r : Registry σ) (ctx : Context) (c : Codec α) (s : σ) :
    (c.close r ctx s).2.1.bound = c.bound := by
  unfold close
  cases hready : c.isReady with
  | true => rw [retire_eq_some hready]
  | false => rw [retire_eq_none hready]

theorem precedes_close (r : Registry σ) (ctx : Context) (c : Codec α) (s : σ) :
    c.Precedes (c.close r ctx s).2.1 := by
  unfold close
  cases hready : c.isReady with
  | true =>
    rw [retire_eq_some hready]
    exact c.precedes_retired
  | false =>
    rw [retire_eq_none hready]
    exact .refl c

/-- A codec that is still ready reads what it has read before. -/
theorem decode_again {r : Registry σ} {ctx : Context} {s : σ}
    (hread : (c.decode r data ctx s).1 = .ok v) (hlater : (c.decode r data ctx s).2.1.Precedes c')
    (hready : c'.isReady = true) (r' : Registry τ) (ctx' : Context) (s' : τ) :
    (c'.decode r' data ctx' s').1 = .ok v := by
  unfold decode at hread hlater ⊢
  have hbefore : c.isReady = true := by
    by_cases h : c.isReady = true
    · exact h
    · rw [if_neg h] at hread
      contradiction
  rw [if_pos hbefore] at hread hlater
  rw [if_pos hready]
  exact Bound.decode_again hread hlater.bound r' ctx' s'

/-- A type without a schema is refused before the registry hears of it. -/
theorem open_cases (r : Registry σ) (type : EventType α) (subject : String) (ctx : Context)
    (s : σ) :
    (∃ e, Codec.open r type subject ctx s = (.error e, s)) ∨
    ∃ d, type.resolve = .ok d ∧
      Codec.open r type subject ctx s = openWith r type d subject ctx s := by
  unfold Codec.open
  cases type.resolve with
  | error e => exact .inl ⟨e, rfl⟩
  | ok d => exact .inr ⟨d, rfl, rfl⟩

/-- The answer to the registration decides whether there is a codec. -/
theorem openWith_cases (r : Registry σ) (type : EventType α) (d : Descriptor) (subject : String)
    (ctx : Context) (s : σ) :
    ∃ t, t = noteOwner r subject ctx (r.note (registering type subject ctx) s) ∧
      ((∃ e s', r.register subject d ctx t = (.error e, s') ∧
        openWith r type d subject ctx s = (.error (e.toRegistration subject), s')) ∨
      ∃ id s', r.register subject d ctx t = (.ok id, s') ∧
        openWith r type d subject ctx s =
          (.ok { subject, bound := .new type id d, state := .ready },
            r.note (becameReady subject id) s')) := by
  refine ⟨_, rfl, ?_⟩
  unfold openWith
  dsimp only
  rcases r.register subject d ctx _ with ⟨e | id, s'⟩
  · exact .inl ⟨e, s', rfl, rfl⟩
  · exact .inr ⟨id, s', rfl, rfl⟩

/-- Whatever the registry answers, a codec that has been opened is ready on
    its subject. -/
theorem ready_of_open {r : Registry σ} {type : EventType α} {subject : String} {ctx : Context}
    {s s' : σ} (hopen : Codec.open r type subject ctx s = (.ok c, s')) :
    c.subject = subject ∧ c.state = .ready := by
  rcases open_cases r type subject ctx s with ⟨e, heq⟩ | ⟨d, -, heq⟩
  · rw [heq] at hopen
    exact absurd (congrArg Prod.fst hopen) (by simp)
  · rw [heq] at hopen
    obtain ⟨-, -, ⟨e, t, -, hwith⟩ | ⟨id, t, -, hwith⟩⟩ := openWith_cases r type d subject ctx s
    · rw [hwith] at hopen
      exact absurd (congrArg Prod.fst hopen) (by simp)
    · rw [hwith] at hopen
      obtain rfl := Except.ok.inj (congrArg Prod.fst hopen)
      exact ⟨rfl, rfl⟩

/-- Closing asks for the deletion and is over with the answer; what is
    closed already is left alone. -/
theorem close_cases (r : Registry σ) (ctx : Context) (c : Codec α) (s : σ) :
    (c.isReady = false ∧ c.close r ctx s = (.error .closedCodec, c, s)) ∨
    (c.isReady = true ∧ ∃ answer s', r.delete c.subject ctx s = (answer, s') ∧
      ∃ s'', c.close r ctx s = (c.closingResult answer, { c with state := .closed }, s'') ∧
        (s'' = s' ∨ ∃ entry, s'' = r.note entry s')) := by
  cases hready : c.isReady with
  | false =>
    have hretire := retire_eq_none hready
    refine .inl ⟨rfl, ?_⟩
    simp only [close, hretire]
  | true =>
    have hretire := retire_eq_some hready
    refine .inr ⟨rfl, ?_⟩
    rcases hdelete : r.delete c.subject ctx s with ⟨e | versions, s'⟩
    · refine ⟨.error e, s', rfl, s', ?_, .inl rfl⟩
      simp only [close, hretire, hdelete, closingResult]
    · refine ⟨.ok versions, s', rfl,
        r.note (({ c with state := .closed } : Codec α).becameClosed versions ctx) s', ?_,
        .inr ⟨_, rfl⟩⟩
      simp only [close, hretire, hdelete, closingResult]

theorem close_of_closed (r : Registry σ) (ctx : Context) (s : σ) (hclosed : c.isReady = false) :
    c.close r ctx s = (.error .closedCodec, c, s) := by
  rcases c.close_cases r ctx s with ⟨-, heq⟩ | ⟨hready, -⟩
  · exact heq
  · rw [hclosed] at hready
    contradiction

/-- The answer to the deletion decides what closing comes to, and nothing
    else. -/
theorem close_of_isReady (r : Registry σ) (ctx : Context) (s : σ) (hready : c.isReady = true) :
    (c.close r ctx s).1 = c.closingResult (r.delete c.subject ctx s).1 ∧
      (c.close r ctx s).2.1 = { c with state := .closed } := by
  rcases c.close_cases r ctx s with ⟨hclosed, -⟩ | ⟨-, answer, s', hdelete, s'', hclose, -⟩
  · rw [hready] at hclosed
    contradiction
  · rw [hclose, hdelete]
    exact ⟨rfl, rfl⟩

/-- After closing a codec is not ready, however it stood before and
    whatever closing came to. -/
theorem isReady_close (r : Registry σ) (ctx : Context) (c : Codec α) (s : σ) :
    (c.close r ctx s).2.1.isReady = false := by
  rcases c.close_cases r ctx s with ⟨hclosed, heq⟩ | ⟨-, answer, s', -, s'', heq, -⟩
  · rw [heq]
    exact hclosed
  · rw [heq]
    rfl

end Codec

/-! ### What they do to the stage -/

namespace Staged

variable {α : Type} {s : Staged}

/-- Reading leaves the memory as it is. -/
theorem IsQuiet.keeps_bound_decode (h : s.IsQuiet) (b : Bound α) (data : Bytes) (ctx : Context) :
    s.Keeps (b.decode registry data ctx s).2.2 := by
  rcases b.decode_cases registry data ctx s with heq | ⟨id, heq⟩
  · rw [heq]
    exact h.keeps
  · rw [heq]
    exact h.keeps_getOrFetch b.cache id ctx

theorem IsQuiet.keeps_decode (h : s.IsQuiet) (c : Codec α) (data : Bytes) (ctx : Context) :
    s.Keeps (c.decode registry data ctx s).2.2 := by
  unfold Codec.decode
  split
  · exact h.keeps_bound_decode c.bound data ctx
  · exact h.keeps

/-- It adds to the cache at most what the memory knows. -/
theorem IsOrderly.mem_bound_decode (h : s.IsOrderly) {b : Bound α} {data : Bytes} {ctx : Context}
    {e : UInt32 × Descriptor} (hmem : e ∈ (b.decode registry data ctx s).2.1.cache.entries) :
    e ∈ b.cache.entries ∨ s.memory.text? e.1 = some e.2.text := by
  rcases b.decode_cases registry data ctx s with heq | ⟨id, heq⟩
  · rw [heq] at hmem
    exact .inl hmem
  · rw [heq] at hmem
    exact h.mem_getOrFetch hmem

theorem IsOrderly.mem_decode (h : s.IsOrderly) {c : Codec α} {data : Bytes} {ctx : Context}
    {e : UInt32 × Descriptor} (hmem : e ∈ (c.decode registry data ctx s).2.1.bound.cache.entries) :
    e ∈ c.bound.cache.entries ∨ s.memory.text? e.1 = some e.2.text := by
  unfold Codec.decode at hmem
  split at hmem
  · exact h.mem_bound_decode hmem
  · exact .inl hmem

/-- A registration that is not answered with an ID changes nothing. -/
theorem IsQuiet.register_of_error (h : s.IsQuiet) {d : Descriptor} {subject : String}
    {ctx : Context} {e : RegistryError}
    (hanswer : (registry.register subject d ctx s).1 = .error e) :
    s.Keeps (registry.register subject d ctx s).2 := by
  have hserves := h.serves_register subject d ctx
  refine ⟨hserves.quiet, hserves.now, ?_⟩
  have hresult := hserves.result
  split at hresult
  · exact congrArg Prod.snd hresult
  · obtain ⟨hreply, hmemory⟩ := Prod.mk.inj hresult
    rw [hmemory]
    cases hrefused : (s.memory.register subject d).1 with
    | error e => exact Memory.register_of_error hrefused
    | ok r =>
      rw [hanswer, hrefused] at hreply
      contradiction

theorem IsQuiet.noteOwner (h : s.IsQuiet) (subject : String) (ctx : Context) :
    s.Keeps (Codec.noteOwner registry subject ctx s) := by
  have hkeeps : s.Keeps (registry.latest subject ctx s).2 := (h.serves_latest subject ctx).keeps
  unfold Codec.noteOwner
  generalize registry.latest subject ctx s = outcome at hkeeps ⊢
  rcases outcome with ⟨e | live, s'⟩
  · exact hkeeps
  · exact hkeeps.note _

/-- A registration that fails leaves the memory as it is; otherwise there
    is a codec under the ID the memory has given out. -/
theorem IsQuiet.openWith_spec (h : s.IsQuiet) (type : EventType α) (d : Descriptor)
    (subject : String) (ctx : Context) :
    (∃ e s', Codec.openWith registry type d subject ctx s = (.error e, s') ∧ s.Keeps s') ∨
    ∃ r s', Codec.openWith registry type d subject ctx s =
        (.ok { subject, bound := .new type r.id d, state := .ready }, s') ∧
      s'.IsQuiet ∧ s.memory.register subject d = (.ok r, s'.memory) := by
  have hnoted := h.keeps.note (Codec.registering type subject ctx)
  obtain ⟨t, ht, hcases⟩ := Codec.openWith_cases registry type d subject ctx s
  have hbefore : s.Keeps t := ht ▸ hnoted.trans (hnoted.quiet.noteOwner subject ctx)
  rcases hcases with ⟨e, s', hregister, hopen⟩ | ⟨id, s', hregister, hopen⟩
  · have hfailed := hbefore.quiet.register_of_error (congrArg Prod.fst hregister)
    rw [hregister] at hfailed
    exact .inl ⟨_, s', hopen, hbefore.trans hfailed⟩
  · obtain ⟨r, rfl, hdone⟩ := hbefore.quiet.register_of_ok (congrArg Prod.fst hregister)
    have hquiet := (hbefore.quiet.serves_register subject d ctx).quiet
    rw [hregister] at hdone hquiet
    rw [hbefore.memory] at hdone
    exact .inr ⟨r, _, hopen, hquiet.note _, hdone⟩

/-- Opening leaves the memory as it is and fails, or gives a codec under
    the ID the memory has given out to its descriptor. -/
theorem IsQuiet.open_spec (h : s.IsQuiet) (type : EventType α) (subject : String)
    (ctx : Context) :
    (∃ e s', Codec.open registry type subject ctx s = (.error e, s') ∧ s.Keeps s') ∨
    ∃ d r s', Codec.open registry type subject ctx s =
        (.ok { subject, bound := .new type r.id d, state := .ready }, s') ∧
      s'.IsQuiet ∧ s.memory.register subject d = (.ok r, s'.memory) := by
  rcases Codec.open_cases registry type subject ctx s with ⟨e, heq⟩ | ⟨d, -, heq⟩
  · exact .inl ⟨e, s, heq, h.keeps⟩
  · rcases h.openWith_spec type d subject ctx with
      ⟨e, s', hopen, hkeeps⟩ | ⟨r, s', hopen, hquiet, hregister⟩
    · exact .inl ⟨e, s', heq.trans hopen, hkeeps⟩
    · exact .inr ⟨d, r, s', heq.trans hopen, hquiet, hregister⟩

/-- Closing makes the codec closed and deletes its subject, unless the
    deletion is cancelled; a codec that is closed already does nothing. -/
theorem IsQuiet.close_spec (h : s.IsQuiet) (c : Codec α) (ctx : Context) :
    (c.isReady = false ∧ c.close registry ctx s = (.error .closedCodec, c, s)) ∨
    (c.isReady = true ∧ ∃ result s',
      c.close registry ctx s = (result, { c with state := .closed }, s') ∧
      s'.IsQuiet ∧ s'.now = s.now ∧
      s'.memory = if ctx.isCancelled s.now then s.memory else (s.memory.delete c.subject).2) := by
  have hserves := h.serves_delete c.subject ctx
  have hmemory := congrArg Prod.snd hserves.result
  rw [apply_ite Prod.snd] at hmemory
  rcases c.close_cases registry ctx s with hclosed | ⟨hready, answer, s', hdelete, s'', hclose, hs''⟩
  · exact .inl hclosed
  · rw [hdelete] at hserves hmemory
    refine .inr ⟨hready, _, s'', hclose, ?_⟩
    rcases hs'' with rfl | ⟨entry, rfl⟩
    · exact ⟨hserves.quiet, hserves.now, hmemory⟩
    · exact ⟨hserves.quiet.note entry, hserves.now, hmemory⟩

/-- Nothing keeps a deletion in the background waiting. -/
theorem IsQuiet.deleteLater_spec (h : s.IsQuiet) (subject : String) :
    (s.deleteLater subject).IsQuiet ∧
      (s.deleteLater subject).memory = (s.memory.delete subject).2 := by
  have hstart : s.start .delete .unbounded = ((.ok (), s.now), s.counted .delete) := by
    rw [start, h.delay .delete]
    rfl
  have htake : (s.counted .delete).takeFailure .delete = (none, s.counted .delete) := by
    rw [takeFailure, (h.counted .delete).failure .delete]
  have hdoes := (h.counted .delete).does_doDelete subject
  have hfinish : (s.counted .delete).finish .delete (.ok ())
      (fun s => s.atOnce .unbounded (doDelete subject)) = doDelete subject (s.counted .delete) := by
    simp only [finish, htake]
    rw [atOnce_eq]
    rfl
  have hdue : s.now ≤ (s.counted .delete).now := Nat.le_refl _
  unfold deleteLater
  rw [hstart]
  dsimp only
  rw [if_pos hdue, finishDeletion, hfinish]
  have hmemory := congrArg Prod.snd hdoes.result
  generalize doDelete subject (s.counted .delete) = outcome at hdoes hmemory ⊢
  rcases outcome with ⟨e | versions, s'⟩
  · exact ⟨hdoes.quiet.note _, hmemory⟩
  · exact ⟨hdoes.quiet, hmemory⟩

/-- Closing asks for one deletion at most, and so does letting go. -/
theorem IsQuiet.advances_close (h : s.IsQuiet) (c : Codec α) (ctx : Context) :
    s.Advances (c.close registry ctx s).2.2 := by
  rcases h.close_spec c ctx with ⟨-, heq⟩ | ⟨-, result, s', heq, hquiet, -, hmemory⟩
  · rw [heq]
    exact h.keeps.advances
  · rw [heq]
    refine ⟨hquiet, ?_⟩
    split at hmemory
    · exact .inl hmemory
    · exact .inr ⟨.delete c.subject, hmemory⟩

theorem IsQuiet.advances_drop (h : s.IsQuiet) (c : Codec α) :
    s.Advances (c.drop registry s) := by
  unfold Codec.drop
  cases hretire : c.retire with
  | none => exact h.keeps.advances
  | some retired =>
    obtain ⟨hquiet, hmemory⟩ := (h.note (retired.dropped _)).deleteLater_spec retired.subject
    exact ⟨hquiet, .inr ⟨.delete retired.subject, hmemory⟩⟩

theorem IsQuiet.keeps_dropOutside (h : s.IsQuiet) (c : Codec α) :
    s.Keeps (c.dropOutside registry s) := by
  unfold Codec.dropOutside
  cases c.retire with
  | none => exact h.keeps
  | some retired => exact h.keeps.note _

end Staged

/-! ### Types without content, and a registry that fails -/

/-- A type whose values are written as nothing. -/
def blank : EventType Unit where
  name := "Blank"
  describe := Descriptor.keywords.declared
  validate := fun _ => none
  encode := fun _ => []
  decode := fun _ => .ok ()
  default := ()

theorem resolve_blank : blank.resolve = .ok .keywords := by
  have hbuild : blank.describe.build = .ok .keywords := Descriptor.keywords.build_declared
  rw [EventType.resolve, hbuild]
  rfl

/-- The same without a name. -/
def nameless : EventType Unit :=
  { blank with describe := .new "" }

theorem resolve_nameless :
    nameless.resolve = .error (.unsupportedType "" "非法标识符: \"\"") := rfl

/-- A registry that registers everything under one ID and fails at
    everything else. -/
def surly : Registry Unit where
  register _ _ _ s := (.ok 1, s)
  fetch _ _ s := (.error .timeout, s)
  delete _ _ s := (.error .timeout, s)
  latest _ _ s := (.error .timeout, s)
  subjects _ s := (.error .timeout, s)
  note _ s := s
  deleteLater _ s := s

end EventCodec
