import EventCodec.Proofs.Codec.Flight
import EventCodec.Proofs.Schema.Text

/-! # Overlapping fetches keep successes and forget failures

    What a slot holds and what a call returns is what the registry has
    answered (`IsAccounted`).  A descriptor may be handed to whoever finds
    it in the slot, since all at a slot ask for one ID; a failure stays
    with the call whose fetch failed.

    Only the holder of an empty slot fills it, and only what is empty
    leaves the index.  So a descriptor in the index stays, and when
    nothing is in progress, what is in the index is filled. -/

namespace EventCodec

open Schema

/-- A descriptor is read from a schema in the schema language of this library. -/
theorem Cache.interpret_eq_ok {id : UInt32} {answer : Except RegistryError RegisteredSchema}
    {d : Descriptor} (h : interpret id answer = .ok d) :
    ∃ schema, answer = .ok schema ∧ schema.schemaType = .protobuf ∧
      Descriptor.ofText schema.text = .ok d := by
  cases answer with
  | error e => contradiction
  | ok schema =>
    have hread : schema.descriptor = .ok d := by
      replace h : schema.descriptor.mapError SchemaError.toDecode = .ok d := h
      cases hread : schema.descriptor with
      | ok d' =>
        rw [hread] at h
        exact congrArg Except.ok (Except.ok.inj h)
      | error e =>
        rw [hread] at h
        contradiction
    refine ⟨schema, rfl, ?_⟩
    unfold RegisteredSchema.descriptor at hread
    split at hread
    · next htype => exact ⟨htype, hread⟩
    · contradiction

/-- The text of a descriptor is read as that descriptor. -/
theorem Cache.interpret_of_text {id : UInt32} {schema : RegisteredSchema} {d : Descriptor}
    (htype : schema.schemaType = .protobuf) (htext : schema.text = d.text) :
    interpret id (.ok schema) = .ok d := by
  simp only [interpret, RegisteredSchema.descriptor, htype, htext, Descriptor.ofText_text]
  rfl

namespace Flight

variable {f f' : Flight} {id : UInt32} {slot n : Nat} {c : FlightCall} {d : Descriptor}

/-! ### Steps keep what is in the index -/

/-- A descriptor stays in its slot. -/
theorem Moves.value?_eq {reply : Option Reply} (h : f.IsOrderly) (hmoves : f.Moves reply f')
    (hvalue : f.value? slot = some d) : f'.value? slot = some d := by
  cases hmoves with
  | stay | found | noticed | tookOver => exact hvalue
  | opened =>
    obtain ⟨s, hslot, hs⟩ := Option.bind_eq_some_iff.mp hvalue
    exact (value?_of_getElem? (getElem?_concat.mpr (.inl hslot))).trans hs
  | joined =>
    rw [value?_addCall, value?_modifySlot]
    exact hvalue
  | failed =>
    rw [value?_evictEmpty, value?_modifySlot]
    exact hvalue
  | @filled reply c _ hcall hphase =>
    -- a slot that somebody fills is empty
    obtain ⟨s, hslot, hempty, _⟩ := h.fetching reply.call c hcall hphase
    have hk : c.slot ≠ slot := by
      rintro rfl
      rw [value?_of_getElem? hslot, hempty] at hvalue
      contradiction
    rw [value?_modifySlot_ne hk]
    exact hvalue

/-- Only what is empty leaves the index. -/
theorem Moves.mem_index {reply : Option Reply} (h : f.IsOrderly) (hmoves : f.Moves reply f')
    (hmem : (id, slot) ∈ f.index) (hvalue : f.value? slot = some d) : (id, slot) ∈ f'.index := by
  cases hmoves with
  | stay | found | noticed | tookOver | joined | filled => exact hmem
  | opened => exact List.mem_append_left _ hmem
  | @failed reply c e hcall hphase =>
    refine mem_index_evictEmpty.mpr ⟨hmem, ?_⟩
    rintro ⟨hstale, hempty, rfl⟩
    have hslot : c.slot = slot :=
      Option.some.inj (hstale.symm.trans ((slotOf?_eq_some_iff h).mpr hmem))
    rw [value?_modifySlot, value?_setPhase, hslot, hvalue] at hempty
    contradiction

/-! ### Steps keep accounts -/

/-- What calls return and what slots hold is what the registry answered. -/
structure IsAccounted (f : Flight) (log : List Reply) : Prop where
  value : ∀ {slot : Nat} {d : Descriptor}, f.value? slot = some d →
    ∃ r ∈ log, (r.id, slot) ∈ f.tickets ∧ r.result = .ok d
  ok : ∀ {n : Nat} {c : FlightCall} {d : Descriptor}, f.calls[n]? = some c →
    c.phase = .settled (.ok d) → ∃ r ∈ log, r.id = c.id ∧ r.result = .ok d
  error : ∀ {n : Nat} {c : FlightCall} {e : CodecError}, f.calls[n]? = some c →
    c.phase = .settled (.error e) → ∃ r ∈ log, r.call = n ∧ r.id = c.id ∧ r.result = .error e

theorem Moves.tickets_subset {reply : Option Reply} (hmoves : f.Moves reply f') :
    f.tickets ⊆ f'.tickets := by
  cases hmoves with
  | stay => exact fun _ => id
  | found | joined | opened => exact fun _ he => mem_tickets_addCall.mpr (.inl he)
  | noticed | tookOver | filled | failed => simp

/-- A descriptor that is new in a slot comes from the answer. -/
theorem Moves.value?_cases {reply : Option Reply} (h : f.IsOrderly) (hmoves : f.Moves reply f')
    (hvalue : f'.value? slot = some d) :
    f.value? slot = some d ∨
      ∃ r, reply = some r ∧ (r.id, slot) ∈ f.tickets ∧ r.result = .ok d := by
  cases hmoves with
  | stay | found | noticed | tookOver => exact .inl hvalue
  | opened =>
    obtain ⟨s, hslot, hs⟩ := Option.bind_eq_some_iff.mp hvalue
    rcases getElem?_concat.mp hslot with hslot | ⟨_, rfl⟩
    · exact .inl ((value?_of_getElem? hslot).trans hs)
    · contradiction
  | joined =>
    rw [value?_addCall, value?_modifySlot] at hvalue
    exact .inl hvalue
  | failed =>
    rw [value?_evictEmpty, value?_modifySlot] at hvalue
    exact .inl hvalue
  | @filled reply c d' hcall hphase hid hresult =>
    by_cases hk : c.slot = slot
    · subst hk
      obtain ⟨s, hslot, _⟩ := h.fetching reply.call c hcall hphase
      obtain rfl := Option.some.inj ((value?_modifySlot_self hslot).symm.trans hvalue)
      exact .inr ⟨reply, rfl, hid ▸ mem_tickets hcall, hresult⟩
    · rw [value?_modifySlot_ne hk] at hvalue
      exact .inl hvalue

/-- A result that is new comes from the slot or from the answer to the
    call's own fetch. -/
theorem Moves.settled_cases {reply : Option Reply} {result : Except CodecError Descriptor}
    (hnamed : f.IsNamed) (hmoves : f.Moves reply f')
    (hcall : f'.calls[n]? = some c) (hphase : c.phase = .settled result) :
    f.calls[n]? = some c ∨
      (∃ d, result = .ok d ∧ (c.id, c.slot) ∈ f.tickets ∧ f.value? c.slot = some d) ∨
      ∃ r, reply = some r ∧ r.call = n ∧ r.id = c.id ∧ r.result = result := by
  cases hmoves with
  | stay => exact .inl hcall
  | found hmem hvalue =>
    rcases getElem?_concat.mp hcall with hcall | ⟨_, rfl⟩
    · exact .inl hcall
    · cases hphase
      exact .inr (.inl ⟨_, rfl, hnamed.indexed hmem, hvalue⟩)
  | opened | joined =>
    rcases getElem?_concat.mp hcall with hcall | ⟨_, rfl⟩
    · exact .inl hcall
    · contradiction
  | noticed hat _ hvalue =>
    have hticket := mem_tickets hat
    rcases calls_setPhase_cases hat hcall with hcall | ⟨rfl, rfl⟩
    · exact .inl hcall
    · cases hphase
      exact .inr (.inl ⟨_, rfl, hticket, hvalue⟩)
  | tookOver hat =>
    rcases calls_setPhase_cases hat hcall with hcall | ⟨rfl, rfl⟩
    · exact .inl hcall
    · contradiction
  | filled hat _ hid hresult =>
    rcases calls_setPhase_cases hat hcall with hcall | ⟨rfl, rfl⟩
    · exact .inl hcall
    · cases hphase
      exact .inr (.inr ⟨_, rfl, rfl, hid, hresult⟩)
  | failed hat _ hid hresult =>
    rw [calls_evictEmpty] at hcall
    rcases calls_setPhase_cases hat hcall with hcall | ⟨rfl, rfl⟩
    · exact .inl hcall
    · cases hphase
      exact .inr (.inr ⟨_, rfl, rfl, hid, hresult⟩)

theorem IsAccounted.after {reply : Option Reply} {log : List Reply} (h : f.IsAccounted log)
    (horderly : f.IsOrderly) (hnamed : f.IsNamed) (hmoves : f.Moves reply f') :
    f'.IsAccounted (log ++ reply.toList) where
  value := by
    intro slot d hvalue
    rcases hmoves.value?_cases horderly hvalue with hold | ⟨r, rfl, hticket, hresult⟩
    · obtain ⟨r, hr, hticket, hresult⟩ := h.value hold
      exact ⟨r, List.mem_append_left _ hr, hmoves.tickets_subset hticket, hresult⟩
    · exact ⟨r, by simp, hmoves.tickets_subset hticket, hresult⟩
  ok := by
    intro n c d hcall hphase
    rcases hmoves.settled_cases hnamed hcall hphase with
      hold | ⟨_, heq, hticket, hvalue⟩ | ⟨r, rfl, _, hid, hresult⟩
    · obtain ⟨r, hr, hrest⟩ := h.ok hold hphase
      exact ⟨r, List.mem_append_left _ hr, hrest⟩
    · cases heq
      -- whoever filled the slot asked for the same ID
      obtain ⟨r, hr, hfiller, hresult⟩ := h.value hvalue
      exact ⟨r, List.mem_append_left _ hr, hnamed.same hfiller hticket, hresult⟩
    · exact ⟨r, by simp, hid, hresult⟩
  error := by
    intro n c e hcall hphase
    rcases hmoves.settled_cases hnamed hcall hphase with
      hold | ⟨_, heq, _⟩ | ⟨r, rfl, hown, hid, hresult⟩
    · obtain ⟨r, hr, hrest⟩ := h.error hold hphase
      exact ⟨r, List.mem_append_left _ hr, hrest⟩
    · contradiction
    · exact ⟨r, by simp, hown, hid, hresult⟩

/-! ### Runs -/

structure IsSound (f : Flight) (log : List Reply) : Prop where
  orderly : f.IsOrderly
  named : f.IsNamed
  accounted : f.IsAccounted log

theorem IsSound.empty : IsSound (.ofCache .empty) [] where
  orderly := ⟨List.nodup_nil, by simp [ofCache, Cache.empty], by simp [ofCache, Cache.empty], by simp [ofCache]⟩
  named := ⟨by simp [tickets, ofCache], by simp [tickets, ofCache], by simp [ofCache, Cache.empty]⟩
  accounted := ⟨by simp [value?, ofCache, Cache.empty], by simp [ofCache], by simp [ofCache]⟩

theorem IsSound.step {log : List Reply} (h : f.IsSound log) (st : Step) :
    (f.step st).IsSound (log ++ (f.reply? st).toList) := by
  have hmoves := h.orderly.moves st
  exact ⟨h.orderly.after h.named hmoves, h.named.moves hmoves,
    h.accounted.after h.orderly h.named hmoves⟩

theorem IsSound.run {log : List Reply} (h : f.IsSound log) (steps : List Step) :
    (run steps f).IsSound (log ++ replies steps f) := by
  induction steps generalizing f log with
  | nil => simpa [Flight.run, replies] using h
  | cons st rest ih =>
    have hrest := ih (h.step st)
    rwa [List.append_assoc] at hrest

/-- What is in the index and filled stays. -/
theorem IsSound.keeps {log : List Reply} (h : f.IsSound log) (later : List Step)
    (hmem : (id, slot) ∈ f.index) (hvalue : f.value? slot = some d) :
    (id, slot) ∈ (Flight.run later f).index ∧ (Flight.run later f).value? slot = some d := by
  induction later generalizing f log with
  | nil => exact ⟨hmem, hvalue⟩
  | cons st rest ih =>
    have hmoves := h.orderly.moves st
    exact ih (h.step st) (hmoves.mem_index h.orderly hmem hvalue) (hmoves.value?_eq h.orderly hvalue)

/-- An empty slot in the index has a holder, who asked for the ID and is
    still in progress. -/
theorem IsSound.held {log : List Reply} (h : f.IsSound log) (hmem : (id, slot) ∈ f.index)
    (hempty : f.value? slot = none) :
    ∃ s n c, f.slots[slot]? = some s ∧ s.holder = some n ∧ f.calls[n]? = some c ∧
      c.id = id ∧ c.slot = slot ∧ c.phase.isSettled = false := by
  obtain ⟨s, hslot, hheld⟩ := h.orderly.indexed id slot hmem
  rw [value?_of_getElem? hslot] at hempty
  obtain ⟨n, hholder⟩ := Option.ne_none_iff_exists'.mp (hheld hempty)
  have hfirst : n ∈ s.line := by simp [FlightSlot.line, hholder]
  obtain ⟨c, hcall, hat, hphase⟩ := (h.orderly.inLine slot s hslot).line n hfirst
  have hid : c.id = id := h.named.same (hat ▸ mem_tickets hcall) (h.named.indexed hmem)
  exact ⟨s, n, c, hslot, hholder, hcall, hid, hat, hphase⟩

/-- Whatever calls there are on a new cache, and however they overlap: an
    empty slot in the index is held by a call in progress, what is filled
    stays, and a call returns what the registry answered, the failure of
    its own fetch and of no other. -/
theorem keeps_successes (steps later : List Step) :
    let f := run steps (.ofCache .empty)
    let log := replies steps (.ofCache .empty)
    (∀ id slot, (id, slot) ∈ f.index → f.value? slot = none →
      ∃ s n c, f.slots[slot]? = some s ∧ s.holder = some n ∧ f.calls[n]? = some c ∧
        c.id = id ∧ c.slot = slot ∧ c.phase.isSettled = false) ∧
    ((∀ c ∈ f.calls, c.phase.isSettled = true) →
      ∀ id slot, (id, slot) ∈ f.index → f.value? slot ≠ none) ∧
    (∀ id slot d, (id, slot) ∈ f.index → f.value? slot = some d →
      (id, slot) ∈ (run later f).index ∧ (run later f).value? slot = some d) ∧
    (∀ c ∈ f.calls, ∀ d, c.phase = .settled (.ok d) →
      ∃ r ∈ log, r.id = c.id ∧ ∃ schema, r.answer = .ok schema ∧
        schema.schemaType = .protobuf ∧ Descriptor.ofText schema.text = .ok d) ∧
    (∀ n c e, f.calls[n]? = some c → c.phase = .settled (.error e) →
      ∃ r ∈ log, r.call = n ∧ r.id = c.id ∧ Cache.interpret c.id r.answer = .error e) := by
  intro f log
  have h : f.IsSound log := IsSound.empty.run steps
  refine ⟨fun id slot => h.held, ?settled, fun id slot d => h.keeps later, ?ok, ?error⟩
  case settled =>
    intro hsettled id slot hmem hempty
    obtain ⟨_, n, c, _, _, hcall, _, _, hphase⟩ := h.held hmem hempty
    rw [hsettled c (List.mem_of_getElem? hcall)] at hphase
    contradiction
  case ok =>
    intro c hc d hphase
    obtain ⟨n, hcall⟩ := List.mem_iff_getElem?.mp hc
    obtain ⟨r, hr, hid, hresult⟩ := h.accounted.ok hcall hphase
    exact ⟨r, hr, hid, Cache.interpret_eq_ok hresult⟩
  case error =>
    intro n c e hcall hphase
    obtain ⟨r, hr, hown, hid, hresult⟩ := h.accounted.error hcall hphase
    exact ⟨r, hr, hown, hid, hid ▸ hresult⟩

/-- Two calls share a fetch, and a third one asks for something else. -/
def sharing : List Step :=
  [.launch 7 .unbounded, .launch 7 .unbounded, .launch 9 .unbounded]

/-- The schema for the two that share. -/
def sharedSchema : RegisteredSchema :=
  { id := 7, subject := none, version := none, schemaType := .protobuf
    text := Descriptor.keywords.text }

/-- The schema is there for the two, and nothing for the third. -/
def shared : List Step :=
  sharing ++ [.answered 0 (.ok sharedSchema), .look 1, .answered 2 (.error .timeout)]

theorem run_shared :
    run shared (.ofCache .empty) =
      (((run sharing (.ofCache .empty)).answer 0 (.ok .keywords)).look 1).answer 2
        (.error (RegistryError.timeout.toFetch 9)) := by
  have hread : Cache.interpret 7 (.ok sharedSchema) = .ok .keywords :=
    Cache.interpret_of_text rfl rfl
  have hanswered : run (sharing ++ [.answered 0 (.ok sharedSchema)]) (.ofCache .empty) =
      (run sharing (.ofCache .empty)).answer 0 (.ok .keywords) := by
    rw [← hread]
    rfl
  have hshared : run shared (.ofCache .empty) =
      run [.look 1, .answered 2 (.error .timeout)]
        (run (sharing ++ [.answered 0 (.ok sharedSchema)]) (.ofCache .empty)) := rfl
  rw [hshared, hanswered]
  rfl

/-- While nothing has been answered, the empty slot is held by the first
    call.  In the end the descriptor is kept, also for the call that did
    not fetch it, and the failure is the third one's. -/
theorem shared_kept :
    (∃ s n c, (run sharing (.ofCache .empty)).slots[0]? = some s ∧ s.holder = some n ∧
      (run sharing (.ofCache .empty)).calls[n]? = some c ∧ c.id = 7 ∧ c.slot = 0 ∧
      c.phase.isSettled = false) ∧
    (∀ id slot, (id, slot) ∈ (run shared (.ofCache .empty)).index →
      (run shared (.ofCache .empty)).value? slot ≠ none) ∧
    (∀ later, (7, 0) ∈ (run later (run shared (.ofCache .empty))).index ∧
      (run later (run shared (.ofCache .empty))).value? 0 = some .keywords) ∧
    (∃ r ∈ replies shared (.ofCache .empty), r.id = 7 ∧ ∃ schema, r.answer = .ok schema ∧
      schema.schemaType = .protobuf ∧ Descriptor.ofText schema.text = .ok .keywords) ∧
    (∃ r ∈ replies shared (.ofCache .empty), r.call = 2 ∧ r.id = 9 ∧
      Cache.interpret 9 r.answer = .error (RegistryError.timeout.toFetch 9)) := by
  obtain ⟨hheld, -⟩ := keeps_successes sharing []
  obtain ⟨-, hfilled, -, hanswered, hfailed⟩ := keeps_successes shared []
  have hcalls : (run shared (.ofCache .empty)).calls =
      [{ id := 7, context := .unbounded, slot := 0, phase := .settled (.ok .keywords) },
        { id := 7, context := .unbounded, slot := 0, phase := .settled (.ok .keywords) },
        { id := 9, context := .unbounded, slot := 1
          phase := .settled (.error (RegistryError.timeout.toFetch 9)) }] := by
    rw [run_shared]
    rfl
  have hmem : (7, 0) ∈ (run shared (.ofCache .empty)).index := by
    rw [run_shared]
    exact List.mem_cons_self
  have hvalue : (run shared (.ofCache .empty)).value? 0 = some .keywords := by
    rw [run_shared]
    rfl
  refine ⟨hheld 7 0 List.mem_cons_self rfl, ?_, fun later => ?_, ?_, ?_⟩
  · exact hfilled (by rw [hcalls]; simp [Phase.isSettled])
  · obtain ⟨-, -, hkept, -⟩ := keeps_successes shared later
    exact hkept 7 0 .keywords hmem hvalue
  · exact hanswered { id := 7, context := .unbounded, slot := 0, phase := .settled (.ok .keywords) }
      (by rw [hcalls]; simp) .keywords rfl
  · exact hfailed 2 { id := 9, context := .unbounded, slot := 1
                      phase := .settled (.error (RegistryError.timeout.toFetch 9)) } _
      (by rw [hcalls]; rfl) rfl

/-- The second call still queues at the slot that the first has lost, when
    the third opens another. -/
example :
    (run [.launch 7 .unbounded, .launch 7 .unbounded, .answered 0 (.error .timeout),
      .launch 7 .unbounded] (.ofCache .empty)).index = [(7, 1)] := by
  rfl

end Flight

end EventCodec
