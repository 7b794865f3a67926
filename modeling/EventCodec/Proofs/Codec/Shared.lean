import EventCodec.Proofs.Codec.Lifecycle

/-! # A shared codec with one caller

    As long as the calls do not overlap, a shared codec is a codec: a call
    that is begun, and gets its answer from a registry, comes to what it
    comes to on the codec itself, and leaves the same codec behind.

    For a decode this is a matter of the cache.  A flight of one call
    finds what the cache has; what it fetches is put at the end, and a
    failure leaves nothing behind. -/

namespace EventCodec

open Schema

/-! ### A flight of one call -/

namespace Flight

variable {c : Cache} {id : UInt32} {d : Descriptor} {ctx : Context}

/-- What an entry of an index shows of a flight. -/
def shown (f : Flight) (e : UInt32 × Nat) : Option (UInt32 × Descriptor) :=
  (f.value? e.2).map fun d => (e.1, d)

/-- The slots of a cache show the cache, whatever comes after them. -/
theorem filterMap_shown {f : Flight} {more : List FlightSlot}
    (hslots : f.slots = (ofCache c).slots ++ more) :
    (ofCache c).index.filterMap f.shown = c.entries := by
  have hshown : ∀ x ∈ c.entries.zipIdx, f.shown (x.1.1, x.2) = some x.1 := by
    intro x hx
    have hentry : c.entries[x.2]? = some x.1 := List.mem_zipIdx_iff_getElem?.mp hx
    have hlength : x.2 < (ofCache c).slots.length := by
      rw [ofCache, List.length_map]
      exact (List.getElem?_eq_some_iff.mp hentry).1
    have hvalue : f.value? x.2 = some x.1.2 := by
      rw [value?, hslots, List.getElem?_append_left hlength]
      simp [ofCache, hentry]
    rw [shown, hvalue]
    rfl
  rw [ofCache, List.filterMap_map]
  calc c.entries.zipIdx.filterMap (f.shown ∘ fun x => (x.1.1, x.2))
      = c.entries.zipIdx.filterMap (some ∘ Prod.fst) := List.filterMap_congr hshown
    _ = c.entries.zipIdx.map Prod.fst := congrFun (List.filterMap_eq_map ..) _
    _ = c.entries := List.zipIdx_map_fst ..

/-- Calls that are over do not show. -/
theorem cache_addCall (call : FlightCall) : ((ofCache c).addCall call).cache = c := by
  have hslots : ((ofCache c).addCall call).slots = (ofCache c).slots ++ [] :=
    (List.append_nil _).symm
  exact congrArg Cache.mk (filterMap_shown hslots)

/-- A flight with one slot behind those of the cache. -/
def withSlot (c : Cache) (id : UInt32) (slot : FlightSlot) (calls : List FlightCall) : Flight where
  index := (ofCache c).index ++ [(id, c.entries.length)]
  slots := (ofCache c).slots ++ [slot]
  calls

theorem cache_withSlot (slot : FlightSlot) (calls : List FlightCall) :
    (withSlot c id slot calls).cache.entries =
      c.entries ++ (slot.value.map fun d => (id, d)).toList := by
  have hvalue : (withSlot c id slot calls).value? c.entries.length = slot.value := by
    simp [value?, withSlot, ofCache]
  show ((ofCache c).index ++ [(id, c.entries.length)]).filterMap (withSlot c id slot calls).shown = _
  rw [List.filterMap_append, filterMap_shown (f := withSlot c id slot calls) rfl]
  simp only [List.filterMap_cons, shown, hvalue]
  cases slot.value <;> rfl

/-- An index finds the slot of an ID where the cache has its descriptor. -/
theorem slotOf?_ofCache (c : Cache) (id : UInt32) :
    (c.get? id = none ∧ (ofCache c).slotOf? id = none) ∨
    ∃ d slot, c.get? id = some d ∧ (ofCache c).slotOf? id = some slot ∧
      (ofCache c).slots[slot]? = some { value := some d, holder := none, queue := [] } := by
  let found := c.entries.zipIdx.find? fun x => x.1.1 == id
  have hget : c.get? id = found.map fun x => x.1.2 := by
    rw [Cache.get?, ← List.zipIdx_map_fst 0 c.entries, List.find?_map, Option.map_map]
    rfl
  have hslot : (ofCache c).slotOf? id = found.map Prod.snd := by
    rw [slotOf?, ofCache, List.find?_map, Option.map_map]
    rfl
  rw [hget, hslot]
  cases hfound : found with
  | none => exact .inl ⟨rfl, rfl⟩
  | some x =>
    have hmem : x ∈ c.entries.zipIdx := List.mem_of_find?_eq_some hfound
    have hentry : c.entries[x.2]? = some x.1 := List.mem_zipIdx_iff_getElem?.mp hmem
    refine .inr ⟨_, _, rfl, rfl, ?_⟩
    simp [ofCache, hentry]

theorem launch_of_get? (hkept : c.get? id = some d) (ctx : Context) :
    ∃ slot, (ofCache c).launch id ctx =
      (ofCache c).addCall { id, context := ctx, slot, phase := .settled (.ok d) } := by
  rcases slotOf?_ofCache c id with ⟨hnone, -⟩ | ⟨d', slot, hsome, hindex, hslot⟩
  · rw [hkept] at hnone
    contradiction
  · obtain rfl := Option.some.inj (hkept.symm.trans hsome)
    refine ⟨slot, ?_⟩
    simp only [launch, hindex, hslot]

/-- The flight while its one call fetches. -/
def fetching (c : Cache) (id : UInt32) (ctx : Context) (slot : FlightSlot) : Flight :=
  withSlot c id slot [{ id, context := ctx, slot := c.entries.length, phase := .fetching }]

theorem launch_of_none (hnone : c.get? id = none) (ctx : Context) :
    (ofCache c).launch id ctx =
      fetching c id ctx { value := none, holder := some 0, queue := [] } := by
  rcases slotOf?_ofCache c id with ⟨-, hindex⟩ | ⟨d, slot, hsome, -⟩
  · have hlength : (ofCache c).slots.length = c.entries.length := List.length_map _
    simp only [launch, hindex, hlength]
    rfl
  · rw [hnone] at hsome
    contradiction

section
variable (slot : FlightSlot)

theorem slots_modify (f : FlightSlot → FlightSlot) :
    ((ofCache c).slots ++ [slot]).modify c.entries.length f = (ofCache c).slots ++ [f slot] := by
  have hlength : (ofCache c).slots.length = c.entries.length := List.length_map _
  rw [← hlength]
  simp [List.modify_eq_take_cons_drop]

/-- What the one call of a flight has fetched is put at the end. -/
theorem cache_answer_ok (d : Descriptor) :
    ((fetching c id ctx slot).answer 0 (.ok d)).cache = c.insert id d := by
  have hanswer : (fetching c id ctx slot).answer 0 (.ok d) =
      withSlot c id { value := some d, holder := none, queue := [] }
        [{ id, context := ctx, slot := c.entries.length, phase := .settled (.ok d) }] := by
    simp only [answer, fetching, withSlot, setPhase, modifySlot, List.getElem?_cons_zero]
    rw [slots_modify]
    rfl
  rw [hanswer]
  exact congrArg Cache.mk (cache_withSlot _ _)

/-- A failure leaves nothing behind. -/
theorem cache_answer_error (hnone : c.get? id = none) (hempty : slot.value = none)
    (e : CodecError) : ((fetching c id ctx slot).answer 0 (.error e)).cache = c := by
  let failed : Flight := withSlot c id { slot with holder := slot.queue.head?, queue := slot.queue.tail }
    [{ id, context := ctx, slot := c.entries.length, phase := .settled (.error e) }]
  have hanswer : (fetching c id ctx slot).answer 0 (.error e) =
      failed.evictEmpty id c.entries.length := by
    simp only [answer, fetching, withSlot, setPhase, modifySlot, List.getElem?_cons_zero]
    rw [slots_modify]
    rfl
  -- the slot is the only one under the ID, and nobody has filled it
  have hold : Table.get? id (ofCache c).index = none := by
    rcases slotOf?_ofCache c id with ⟨-, hindex⟩ | ⟨d, k, hsome, -⟩
    · exact hindex
    · rw [hnone] at hsome
      contradiction
  have hslot : failed.slotOf? id = some c.entries.length := by
    show Table.get? id ((ofCache c).index ++ [(id, c.entries.length)]) = _
    rw [Table.get?_append, hold]
    simp [Table.get?]
  have hvalue : failed.value? c.entries.length = none := by
    simp [failed, value?, withSlot, ofCache, hempty]
  have hindex : Table.erase id failed.index = (ofCache c).index := by
    show Table.erase id ((ofCache c).index ++ [(id, c.entries.length)]) = _
    have herase : Table.erase id (Table.insert id c.entries.length (ofCache c).index) = _ :=
      Table.erase_insert hold
    rwa [Table.insert, Table.erase_eq_self hold] at herase
  have hcache : (failed.evictEmpty id c.entries.length).cache.entries =
      (ofCache c).index.filterMap failed.shown := by
    rw [evictEmpty, if_pos ⟨hslot, hvalue⟩, hindex]
    rfl
  rw [hanswer]
  exact congrArg Cache.mk (hcache.trans (filterMap_shown rfl))

end

end Flight

/-! ### One caller -/

namespace Shared

variable {α σ : Type} {c : Codec α} {data : Bytes} {ctx : Context}

/-- A flight that shows the codec's cache leaves the codec as it is. -/
theorem setFlight_of_cache {w : Shared α} {flight : Flight}
    (hcache : flight.cache = w.codec.bound.cache) : w.setFlight flight = { w with flight } := by
  rw [setFlight, hcache]

/-- One caller alone, who has come so far. -/
def alone (c : Codec α) (p : Progress α) : Shared α :=
  (ofCodec c).begin p

theorem decode_of_ready (hready : c.isReady = true) :
    (ofCodec c).decode data ctx = alone c (.admitted data ctx) := by
  rw [decode]
  exact congrArg _ (if_pos hready)

section
variable {e : Envelope} (hparse : Envelope.parse data = .ok e)
include hparse

theorem look_own (hid : e.schemaId = c.bound.schemaId) :
    (alone c (.admitted data ctx)).look 0 = alone c (.decoded (c.bound.decodePayload e.payload)) := by
  have hown : e.schemaId = (alone c (.admitted data ctx)).codec.bound.schemaId := hid
  have hcall : (alone c (.admitted data ctx)).calls[0]? = some (.admitted data ctx) := rfl
  simp only [look, hcall, hparse, if_pos hown]
  rfl

theorem look_foreign (hid : e.schemaId ≠ c.bound.schemaId) :
    (alone c (.admitted data ctx)).look 0 =
      ((alone c (.admitted data ctx)).setFlight
        ((Flight.ofCache c.bound.cache).launch e.schemaId ctx)).proceed 0 e 0 ctx := by
  have hforeign : e.schemaId ≠ (alone c (.admitted data ctx)).codec.bound.schemaId := hid
  have hcall : (alone c (.admitted data ctx)).calls[0]? = some (.admitted data ctx) := rfl
  simp only [look, hcall, hparse, if_neg hforeign]
  rfl

end

/-- A descriptor that is in the cache is at hand. -/
theorem look_kept {e : Envelope} {d : Descriptor} (hparse : Envelope.parse data = .ok e)
    (hid : e.schemaId ≠ c.bound.schemaId) (hkept : c.bound.cache.get? e.schemaId = some d) :
    ((alone c (.admitted data ctx)).look 0).codec = c ∧
      ((alone c (.admitted data ctx)).look 0).calls = [.decoded (c.bound.decodeFrom d e)] := by
  obtain ⟨slot, hlaunch⟩ := Flight.launch_of_get? hkept ctx
  have hcache : ((Flight.ofCache c.bound.cache).addCall
      { id := e.schemaId, context := ctx, slot, phase := .settled (.ok d) }).cache =
        (alone c (.admitted data ctx)).codec.bound.cache := Flight.cache_addCall _
  rw [look_foreign hparse hid, hlaunch, setFlight_of_cache hcache]
  exact ⟨rfl, rfl⟩

/-- Otherwise the registry is asked. -/
theorem look_new {e : Envelope} (hparse : Envelope.parse data = .ok e)
    (hid : e.schemaId ≠ c.bound.schemaId) (hnone : c.bound.cache.get? e.schemaId = none) :
    (alone c (.admitted data ctx)).look 0 =
      { codec := c
        flight := Flight.fetching c.bound.cache e.schemaId ctx
          { value := none, holder := some 0, queue := [] }
        calls := [.fetching e 0]
        issued := [.fetch 0 e.schemaId ctx] } := by
  have hcache : (Flight.fetching c.bound.cache e.schemaId ctx
      { value := none, holder := some 0, queue := [] }).cache =
        (alone c (.admitted data ctx)).codec.bound.cache :=
    congrArg Cache.mk ((Flight.cache_withSlot _ _).trans (List.append_nil _))
  rw [look_foreign hparse hid, Flight.launch_of_none hnone, setFlight_of_cache hcache]
  rfl

/-- A close that nothing overlaps. -/
theorem close_alone (r : Registry σ) (c : Codec α) (ctx : Context) (s : σ) :
    let w := run [.close ctx, .deleted 0 (r.delete c.subject ctx s).1] (.ofCodec c)
    w.codec = (c.close r ctx s).2.1 ∧ w.calls = [.closed (c.close r ctx s).1] ∧
      w.issued = if c.isReady then [.delete 0 c.subject ctx] else [] := by
  intro w
  have hw : w = ((ofCodec c).close ctx).deleted 0 (r.delete c.subject ctx s).1 := rfl
  rcases c.close_cases r ctx s with ⟨hclosed, heq⟩ | ⟨hready, answer, s', hdelete, s'', heq, -⟩
  · have hclose : (ofCodec c).close ctx = alone c (.closed (.error .closedCodec)) :=
      @step_of_closed α (ofCodec c) (.close ctx) _ hclosed rfl
    rw [hw, hclose, heq, hclosed]
    exact ⟨rfl, rfl, rfl⟩
  · have hclose := close_of_ready (w := ofCodec c) hready ctx
    rw [hw, hclose, heq, hready, hdelete]
    exact ⟨rfl, rfl, rfl⟩

/-- A decode that nothing overlaps. -/
theorem decode_alone (r : Registry σ) (c : Codec α) (data : Bytes) (ctx : Context) (s : σ)
    {answer : Except RegistryError RegisteredSchema}
    (hanswer : ∀ e, Envelope.parse data = .ok e → answer = (r.fetch e.schemaId ctx s).1) :
    let w := run [.decode data ctx, .look 0, .fetched 0 answer] (.ofCodec c)
    w.codec = (c.decode r data ctx s).2.1 ∧ w.calls = [.decoded (c.decode r data ctx s).1] := by
  intro w
  have hw : w = (((ofCodec c).decode data ctx).look 0).fetched 0 answer := rfl
  cases hready : c.isReady with
  | false =>
    have hdecode : (ofCodec c).decode data ctx = alone c (.decoded (.error .closedCodec)) :=
      @step_of_closed α (ofCodec c) (.decode data ctx) _ hready rfl
    rw [hw, hdecode, Codec.decode, if_neg (by simp [hready])]
    exact ⟨rfl, rfl⟩
  | true =>
    rw [hw, decode_of_ready hready, Codec.decode, if_pos hready, Bound.decode]
    cases hparse : Envelope.parse data with
    | error e =>
      have hcall : (alone c (.admitted data ctx)).calls[0]? = some (.admitted data ctx) := rfl
      simp only [look, hcall, hparse]
      exact ⟨rfl, rfl⟩
    | ok e =>
      obtain rfl := hanswer e hparse
      by_cases hid : e.schemaId = c.bound.schemaId
      · rw [look_own hparse hid]
        simp only [if_pos hid]
        exact ⟨rfl, rfl⟩
      · simp only [if_neg hid, Cache.getOrFetch]
        cases hkept : c.bound.cache.get? e.schemaId with
        | some d =>
          obtain ⟨hcodec, hcalls⟩ := @look_kept _ _ _ ctx _ _ hparse hid hkept
          have hcall : ((alone c (.admitted data ctx)).look 0).calls[0]? =
              some (.decoded (c.bound.decodeFrom d e)) := by
            rw [hcalls]
            rfl
          simp only [fetched, hcall]
          exact ⟨hcodec, hcalls⟩
        | none =>
          rw [look_new hparse hid hkept]
          simp only [fetched, List.getElem?_cons_zero]
          cases hresult : Cache.interpret e.schemaId (r.fetch e.schemaId ctx s).1 with
          | error failure =>
            refine ⟨?_, rfl⟩
            have hcache := @Flight.cache_answer_error c.bound.cache e.schemaId ctx
              { value := none, holder := some 0, queue := [] } hkept rfl failure
            simp only [setProgress, setFlight, hcache]
          | ok d =>
            refine ⟨?_, rfl⟩
            simp only [setProgress, setFlight, Flight.cache_answer_ok]

end Shared

end EventCodec
