import EventCodec.Proofs.Codec.Accounts
import EventCodec.Proofs.Schema.Text

/-! # How far a cache keeps to one fetch

    A slot takes at most one fetch at a time, and the index has at most
    one slot for an ID.  A failure takes its slot out of the index, also
    when others queue at the slot.  These are stranded: one of them
    fetches next, while a call that comes later finds no slot and fetches
    as well; and what a stranded call returns is not in the cache.

    The key idea: a slot at which somebody has called is in the index
    exactly as long as no call at it has failed (`IsListed`).  So two
    fetches of one ID at a time, and a descriptor that is returned but not
    kept, are due to a stranded call and to nothing else. -/

namespace EventCodec

open Schema

/-- Whether a call has ended in a failure. -/
def Phase.hasFailed : Phase → Bool
  | .settled (.error _) => true
  | _ => false

namespace Flight

variable {f f' : Flight} {id : UInt32} {slot n : Nat} {c : FlightCall} {d : Descriptor}

/-! ### What callers see -/

/-- A call waits for the registry. -/
def IsFetching (f : Flight) (n : Nat) (id : UInt32) : Prop :=
  ∃ c, f.calls[n]? = some c ∧ c.id = id ∧ c.phase = .fetching

/-- A call has returned a descriptor. -/
def HasReturned (f : Flight) (n : Nat) (id : UInt32) (d : Descriptor) : Prop :=
  ∃ c, f.calls[n]? = some c ∧ c.id = id ∧ c.phase = .settled (.ok d)

/-- Some call at a slot has failed. -/
def HasFailed (f : Flight) (slot : Nat) : Prop :=
  ∃ c ∈ f.calls, c.slot = slot ∧ c.phase.hasFailed = true

/-- Another call at the slot of this one has failed. -/
def IsStranded (f : Flight) (n : Nat) : Prop :=
  ∃ c, f.calls[n]? = some c ∧ c.phase.hasFailed = false ∧ f.HasFailed c.slot

/-! ### Failures at a slot -/

theorem hasFailed_addCall :
    (f.addCall c).HasFailed slot ↔ f.HasFailed slot ∨ c.slot = slot ∧ c.phase.hasFailed = true := by
  simp [HasFailed, addCall, or_and_right, exists_or]

/-- A call that has not failed before fails with its new phase or not at
    all. -/
theorem hasFailed_setPhase {p : Phase} (hcall : f.calls[n]? = some c)
    (hphase : c.phase.hasFailed = false) :
    (f.setPhase n p).HasFailed slot ↔
      f.HasFailed slot ∨ c.slot = slot ∧ p.hasFailed = true := by
  constructor
  · rintro ⟨c', hmem, hslot, hfailed⟩
    obtain ⟨m, hcall'⟩ := List.mem_iff_getElem?.mp hmem
    rcases calls_setPhase_cases hcall hcall' with hold | ⟨rfl, rfl⟩
    · exact .inl ⟨c', List.mem_of_getElem? hold, hslot, hfailed⟩
    · exact .inr ⟨hslot, hfailed⟩
  · rintro (⟨c', hmem, hslot, hfailed⟩ | ⟨hslot, hfailed⟩)
    · obtain ⟨m, hcall'⟩ := List.mem_iff_getElem?.mp hmem
      have hm : n ≠ m := by
        rintro rfl
        obtain rfl := Option.some.inj (hcall.symm.trans hcall')
        rw [hphase] at hfailed
        contradiction
      exact ⟨c', List.mem_of_getElem? ((getElem?_setPhase_ne hm).trans hcall'), hslot, hfailed⟩
    · exact ⟨_, List.mem_of_getElem? (getElem?_setPhase_self hcall), hslot, hfailed⟩

@[simp] theorem hasFailed_modifySlot {g : FlightSlot → FlightSlot} {k : Nat} :
    (f.modifySlot k g).HasFailed slot ↔ f.HasFailed slot := Iff.rfl

@[simp] theorem hasFailed_evictEmpty {k : Nat} :
    (f.evictEmpty id k).HasFailed slot ↔ f.HasFailed slot := by
  unfold HasFailed
  rw [calls_evictEmpty]

/-- Only an answer that is a failure makes a slot one that has failed, and
    only the slot of its call. -/
theorem Moves.hasFailed_iff {reply : Option Reply} (hmoves : f.Moves reply f') :
    f'.HasFailed slot ↔ f.HasFailed slot ∨
      ∃ r c e, reply = some r ∧ f.calls[r.call]? = some c ∧ c.slot = slot ∧ r.result = .error e := by
  cases hmoves with
  | stay => simp
  | found | opened | joined =>
    refine hasFailed_addCall.trans ?_
    simp [Phase.hasFailed]
  | noticed hcall hphase | tookOver hcall hphase =>
    rw [hasFailed_setPhase hcall (by rw [hphase]; rfl)]
    simp [Phase.hasFailed]
  | @filled reply c d hcall hphase _ hresult =>
    rw [hasFailed_modifySlot, hasFailed_setPhase hcall (by rw [hphase]; rfl)]
    simp [Phase.hasFailed, hresult]
  | @failed reply c e hcall hphase _ hresult =>
    rw [hasFailed_evictEmpty, hasFailed_modifySlot, hasFailed_setPhase hcall (by rw [hphase]; rfl)]
    simp [Phase.hasFailed, hresult, hcall]

/-! ### What is in the index -/

/-- A slot that has callers is in the index as long as none of them has
    failed. -/
def IsListed (f : Flight) : Prop :=
  ∀ id slot, (id, slot) ∈ f.tickets → ((id, slot) ∈ f.index ↔ ¬ f.HasFailed slot)

/-- Steps that bring no failure and leave the index and the callers of
    slots as they are. -/
theorem IsListed.mono (h : f.IsListed) (htickets : f'.tickets ⊆ f.tickets)
    (hindex : f'.index = f.index) (hfailed : ∀ slot, f'.HasFailed slot ↔ f.HasFailed slot) :
    f'.IsListed := by
  intro id slot hticket
  rw [hindex, hfailed]
  exact h id slot (htickets hticket)

/-- A slot that is opened has no callers yet, so none of them has failed. -/
theorem IsNamed.not_hasFailed_length (h : f.IsNamed) : ¬ f.HasFailed f.slots.length := by
  rintro ⟨c, hmem, hslot, -⟩
  have hticket : (c.id, c.slot) ∈ f.tickets := List.mem_map_of_mem hmem
  have hlt := h.within hticket
  omega

theorem IsListed.after {reply : Option Reply} (h : f.IsListed) (horderly : f.IsOrderly)
    (hnamed : f.IsNamed) (hmoves : f.Moves reply f') : f'.IsListed := by
  have hfailed : ∀ slot, f'.HasFailed slot ↔ _ := fun slot => hmoves.hasFailed_iff
  cases hmoves with
  | stay => exact h
  | found hmem | joined hmem =>
    refine h.mono ?_ rfl (by simpa using hfailed)
    intro e he
    rcases mem_tickets_addCall.mp he with he | rfl
    · exact he
    · exact hnamed.indexed hmem
  | noticed | tookOver | filled =>
    refine h.mono (by simp) rfl (fun slot => (hfailed slot).trans ?_)
    simp_all
  | @opened id context hnew =>
    intro i k hticket
    rw [hfailed]
    rcases mem_tickets_addCall.mp hticket with hold | heq
    · have hlt : k < f.slots.length := hnamed.within hold
      have hindex : (i, k) ∈ f.index ++ [(id, f.slots.length)] ↔ (i, k) ∈ f.index := by
        simp [Nat.ne_of_lt hlt]
      simpa [hindex] using h i k hold
    · obtain ⟨rfl, rfl⟩ := Prod.mk.inj heq
      simpa using hnamed.not_hasFailed_length
  | @failed reply c e hcall hphase _ hresult =>
    intro i k hticket
    have hticket : (i, k) ∈ f.tickets := by simpa using hticket
    have hlisted := h i k hticket
    rw [hfailed, mem_index_evictEmpty]
    by_cases hk : c.slot = k
    · -- the slot of the failure is empty, and leaves the index if it is there
      subst hk
      obtain rfl : i = c.id := hnamed.same hticket (mem_tickets hcall)
      obtain ⟨s, hslot, hempty, -⟩ := horderly.fetching reply.call c hcall hphase
      have hfail : f.HasFailed c.slot ∨ ∃ r c' e, some reply = some r ∧
          f.calls[r.call]? = some c' ∧ c'.slot = c.slot ∧ r.result = .error e :=
        .inr ⟨reply, c, e, rfl, hcall, rfl, hresult⟩
      refine ⟨?_, fun hnone => absurd hfail hnone⟩
      rintro ⟨hmem, hkept⟩
      refine absurd ⟨?_, ?_, rfl⟩ hkept
      · exact (slotOf?_eq_some_iff horderly).mpr hmem
      · exact (value?_modifySlot_self hslot).trans hempty
    · -- the other slots stay
      have hother : ¬ ∃ r c' e, some reply = some r ∧
          f.calls[r.call]? = some c' ∧ c'.slot = k ∧ r.result = .error e := by
        rintro ⟨r, c', e, heq, hcall', hslot, -⟩
        obtain rfl := Option.some.inj heq
        obtain rfl := Option.some.inj (hcall.symm.trans hcall')
        exact hk hslot
      rw [or_iff_left hother, ← hlisted]
      refine and_iff_left_of_imp ?_
      rintro hmem ⟨hstale, -, rfl⟩
      have hat : c.slot = k :=
        Option.some.inj (hstale.symm.trans ((slotOf?_eq_some_iff horderly).mpr hmem))
      exact hk hat

/-- What a call has returned is in its slot. -/
def IsBacked (f : Flight) : Prop :=
  ∀ (n : Nat) (c : FlightCall) (d : Descriptor), f.calls[n]? = some c →
    c.phase = .settled (.ok d) → f.value? c.slot = some d

theorem IsBacked.after {reply : Option Reply} (h : f.IsBacked) (horderly : f.IsOrderly)
    (hmoves : f.Moves reply f') : f'.IsBacked := by
  have hkeeps : ∀ {slot d}, f.value? slot = some d → f'.value? slot = some d :=
    fun hvalue => hmoves.value?_eq horderly hvalue
  intro n c d hcall hphase
  cases hmoves with
  | stay => exact h n c d hcall hphase
  | found _ hvalue =>
    rcases getElem?_concat.mp hcall with hcall | ⟨-, rfl⟩
    · exact hkeeps (h n c d hcall hphase)
    · cases hphase
      exact hkeeps hvalue
  | opened | joined =>
    rcases getElem?_concat.mp hcall with hcall | ⟨-, rfl⟩
    · exact hkeeps (h n c d hcall hphase)
    · contradiction
  | noticed hat _ hvalue =>
    rcases calls_setPhase_cases hat hcall with hcall | ⟨rfl, rfl⟩
    · exact hkeeps (h n c d hcall hphase)
    · cases hphase
      exact hkeeps hvalue
  | tookOver hat =>
    rcases calls_setPhase_cases hat hcall with hcall | ⟨rfl, rfl⟩
    · exact hkeeps (h n c d hcall hphase)
    · contradiction
  | @filled reply holder d' hat hfetching =>
    rcases calls_setPhase_cases hat hcall with hcall | ⟨rfl, rfl⟩
    · exact hkeeps (h n c d hcall hphase)
    · cases hphase
      obtain ⟨s, hslot, -⟩ := horderly.fetching _ holder hat hfetching
      exact value?_modifySlot_self hslot
  | failed hat =>
    rw [calls_evictEmpty] at hcall
    rcases calls_setPhase_cases hat hcall with hcall | ⟨rfl, rfl⟩
    · exact hkeeps (h n c d hcall hphase)
    · cases hphase

/-! ### The cache -/

/-- The cache has no IDs but those of the index. -/
theorem keys_cache : (f.cache.entries.map Prod.fst).Sublist (f.index.map Prod.fst) := by
  show ((f.index.filterMap fun e => (f.value? e.2).map fun d => (e.1, d)).map Prod.fst).Sublist _
  induction f.index with
  | nil => exact List.Sublist.refl _
  | cons e rest ih =>
    cases hvalue : f.value? e.2 with
    | none =>
      rw [List.filterMap_cons_none (by simp [hvalue])]
      exact ih.cons e.1
    | some d =>
      rw [List.filterMap_cons_some (by simp [hvalue]; rfl)]
      exact ih.cons_cons e.1

/-- What is found in the cache is in the slot that the index has. -/
theorem get?_cache (h : f.IsOrderly) :
    f.cache.get? id = some d ↔ ∃ slot, (id, slot) ∈ f.index ∧ f.value? slot = some d := by
  have hfind : f.cache.get? id = some d ↔ (id, d) ∈ f.cache.entries :=
    Table.get?_eq_some_iff (h.distinct.sublist keys_cache)
  rw [hfind, cache, List.mem_filterMap]
  constructor
  · rintro ⟨⟨i, slot⟩, hmem, heq⟩
    obtain ⟨d', hvalue, hentry⟩ := Option.map_eq_some_iff.mp heq
    obtain ⟨rfl, rfl⟩ := Prod.mk.inj hentry
    exact ⟨slot, hmem, hvalue⟩
  · rintro ⟨slot, hmem, hvalue⟩
    exact ⟨(id, slot), hmem, by simp [hvalue]⟩

/-- A call that comes when the descriptor is there returns it at once. -/
theorem launch_of_filled (h : f.IsOrderly) (context : Context) (hmem : (id, slot) ∈ f.index)
    (hvalue : f.value? slot = some d) :
    f.launch id context = f.addCall { id, context, slot, phase := .settled (.ok d) } := by
  obtain ⟨s, hslot, hs⟩ := Option.bind_eq_some_iff.mp hvalue
  have hindex : f.slotOf? id = some slot := (slotOf?_eq_some_iff h).mpr hmem
  simp only [launch, hindex, hslot, hs]

/-! ### Runs -/

structure IsTraced (f : Flight) (log : List Reply) : Prop where
  sound : f.IsSound log
  listed : f.IsListed
  backed : f.IsBacked

theorem IsTraced.empty : IsTraced (.ofCache .empty) [] where
  sound := .empty
  listed := by simp [IsListed, tickets, ofCache, Cache.empty]
  backed := by simp [IsBacked, ofCache, Cache.empty]

theorem IsTraced.run {log : List Reply} (h : f.IsTraced log) (steps : List Step) :
    (run steps f).IsTraced (log ++ replies steps f) := by
  induction steps generalizing f log with
  | nil => simpa [Flight.run, replies] using h
  | cons st rest ih =>
    have hmoves := h.sound.orderly.moves st
    have hstep : (f.step st).IsTraced (log ++ (f.reply? st).toList) :=
      ⟨h.sound.step st, h.listed.after h.sound.orderly h.sound.named hmoves,
        h.backed.after h.sound.orderly hmoves⟩
    have hrest := ih hstep
    rwa [List.append_assoc] at hrest

/-- A call that has not failed is stranded exactly if its slot has left
    the index. -/
theorem IsTraced.isStranded_iff {log : List Reply} (h : f.IsTraced log)
    (hcall : f.calls[n]? = some c) (hphase : c.phase.hasFailed = false) :
    f.IsStranded n ↔ (c.id, c.slot) ∉ f.index := by
  rw [h.listed c.id c.slot (mem_tickets hcall), Classical.not_not]
  constructor
  · rintro ⟨c', hcall', -, hfailed⟩
    obtain rfl := Option.some.inj (hcall.symm.trans hcall')
    exact hfailed
  · exact fun hfailed => ⟨c, hcall, hphase, hfailed⟩

/-- Two fetches are at two slots. -/
theorem IsOrderly.fetching_unique (h : f.IsOrderly) {m : Nat} {c' : FlightCall}
    (hm : f.calls[m]? = some c) (hn : f.calls[n]? = some c') (hfetching : c.phase = .fetching)
    (hfetching' : c'.phase = .fetching) (hslot : c.slot = c'.slot) : m = n := by
  obtain ⟨s, hs, -, hholder⟩ := h.fetching m c hm hfetching
  obtain ⟨t, ht, -, hholder'⟩ := h.fetching n c' hn hfetching'
  obtain rfl := Option.some.inj ((hslot ▸ hs).symm.trans ht)
  exact Option.some.inj (hholder.symm.trans hholder')

/-- Of two fetches of one ID, at least one is by a stranded call. -/
theorem IsTraced.isFetching_unique {log : List Reply} (h : f.IsTraced log) {m : Nat}
    (hm : f.IsFetching m id) (hn : f.IsFetching n id) :
    m = n ∨ f.IsStranded m ∨ f.IsStranded n := by
  obtain ⟨a, ha, rfl, hfetching⟩ := hm
  obtain ⟨b, hb, hid, hfetching'⟩ := hn
  by_cases hstranded : f.IsStranded m ∨ f.IsStranded n
  · exact .inr hstranded
  · left
    rw [not_or, h.isStranded_iff ha (by rw [hfetching]; rfl),
      h.isStranded_iff hb (by rw [hfetching']; rfl), Classical.not_not, Classical.not_not,
      hid] at hstranded
    -- both are at the one slot that the index has
    have horderly := h.sound.orderly
    have hslot : a.slot = b.slot :=
      Option.some.inj (((slotOf?_eq_some_iff horderly).mpr hstranded.1).symm.trans
        ((slotOf?_eq_some_iff horderly).mpr hstranded.2))
    exact horderly.fetching_unique ha hb hfetching hfetching' hslot

/-- A stranded call owes that to the failure of somebody else's fetch of
    the same ID. -/
theorem IsTraced.reply_of_isStranded {log : List Reply} (h : f.IsTraced log)
    (hcall : f.calls[n]? = some c) (hstranded : f.IsStranded n) :
    ∃ r ∈ log, r.id = c.id ∧ r.call ≠ n ∧ ∃ e, r.result = .error e := by
  obtain ⟨c', hcall', hphase, x, hmem, hslot, hfailed⟩ := hstranded
  obtain rfl := Option.some.inj (hcall.symm.trans hcall')
  obtain ⟨m, hx⟩ := List.mem_iff_getElem?.mp hmem
  obtain ⟨e, he⟩ : ∃ e, x.phase = .settled (.error e) := by
    unfold Phase.hasFailed at hfailed
    split at hfailed
    · next e heq => exact ⟨e, heq⟩
    · contradiction
  obtain ⟨r, hr, hown, hid, hresult⟩ := h.sound.accounted.error hx he
  refine ⟨r, hr, ?_, ?_, e, hresult⟩
  · rw [hid]
    exact h.sound.named.same (hslot ▸ mem_tickets hx) (mem_tickets hcall)
  · rw [hown]
    rintro rfl
    obtain rfl := Option.some.inj (hcall.symm.trans hx)
    rw [hphase] at hfailed
    contradiction

/-- What a call that is not stranded has returned is in the cache for ever,
    and whoever asks later returns it at once. -/
theorem IsTraced.keeps {log : List Reply} (h : f.IsTraced log) (hreturned : f.HasReturned n id d)
    (hstranded : ¬ f.IsStranded n) (later : List Step) :
    (Flight.run later f).cache.get? id = some d ∧
      ∀ context, ∃ slot, (Flight.run later f).launch id context =
        (Flight.run later f).addCall { id, context, slot, phase := .settled (.ok d) } := by
  obtain ⟨c, hcall, rfl, hphase⟩ := hreturned
  rw [h.isStranded_iff hcall (by rw [hphase]; rfl), Classical.not_not] at hstranded
  obtain ⟨hmem, hvalue⟩ := h.sound.keeps later hstranded (h.backed n c d hcall hphase)
  have horderly := (h.run later).sound.orderly
  refine ⟨(get?_cache horderly).mpr ⟨c.slot, hmem, hvalue⟩, ?_⟩
  intro context
  exact ⟨c.slot, launch_of_filled horderly context hmem hvalue⟩

/-- **One fetch at a time, as long as nobody is stranded**: however calls
    on a new cache overlap, of two fetches of one ID in flight one is by a
    call at whose slot another has failed before; a slot has one fetch at
    most; and what a call returns stays in the cache and is never fetched
    again, unless that call is stranded. -/
theorem single_unless_stranded (steps : List Step) :
    let f := run steps (.ofCache .empty)
    (∀ m n id, f.IsFetching m id → f.IsFetching n id → m = n ∨ f.IsStranded m ∨ f.IsStranded n) ∧
    (∀ (m n : Nat) (c c' : FlightCall), f.calls[m]? = some c → f.calls[n]? = some c' →
      c.phase = .fetching → c'.phase = .fetching → c.slot = c'.slot → m = n) ∧
    (∀ n id d, f.HasReturned n id d → ¬ f.IsStranded n → ∀ later,
      (run later f).cache.get? id = some d ∧
      ∀ context, ∃ slot, (run later f).launch id context =
        (run later f).addCall { id, context, slot, phase := .settled (.ok d) }) ∧
    (∀ (n : Nat) (c : FlightCall), f.calls[n]? = some c → c.phase.hasFailed = false →
      (f.IsStranded n ↔ (c.id, c.slot) ∉ f.index)) ∧
    (∀ (n : Nat) (c : FlightCall), f.calls[n]? = some c → f.IsStranded n →
      ∃ r ∈ replies steps (.ofCache .empty),
        r.id = c.id ∧ r.call ≠ n ∧ ∃ e, r.result = .error e) := by
  intro f
  have h : f.IsTraced (replies steps (.ofCache .empty)) := IsTraced.empty.run steps
  refine ⟨?fetches, ?slots, ?kept, ?stranded, ?failed⟩
  case fetches =>
    intro m n id hm hn
    exact h.isFetching_unique hm hn
  case slots =>
    intro m n c c' hm hn hfetching hfetching' hslot
    exact h.sound.orderly.fetching_unique hm hn hfetching hfetching' hslot
  case kept =>
    intro n id d hreturned hstranded later
    exact h.keeps hreturned hstranded later
  case stranded =>
    intro n c hcall hphase
    exact h.isStranded_iff hcall hphase
  case failed =>
    intro n c hcall hstranded
    exact h.reply_of_isStranded hcall hstranded

/-- Two calls of which the first fails, so that the second is stranded. -/
def stranding : List Step :=
  [.launch 7 .unbounded, .launch 7 .unbounded, .answered 0 (.error .timeout)]

/-- A third call fetches beside the stranded one, and what the stranded one
    returns is not in the cache. -/
theorem not_single :
    (¬ ∀ (steps : List Step) (m n : Nat) (id : UInt32),
      (run steps (.ofCache .empty)).IsFetching m id →
      (run steps (.ofCache .empty)).IsFetching n id → m = n) ∧
    (¬ ∀ (steps : List Step) (n : Nat) (id : UInt32) (d : Descriptor),
      (run steps (.ofCache .empty)).HasReturned n id d →
      (run steps (.ofCache .empty)).cache.get? id = some d) := by
  constructor
  · intro hsingle
    have hboth := hsingle (stranding ++ [.launch 7 .unbounded, .look 1]) 1 2 7
      ⟨_, rfl, rfl, rfl⟩ ⟨_, rfl, rfl, rfl⟩
    contradiction
  · intro hkept
    let schema : RegisteredSchema :=
      { id := 7, subject := none, version := none, schemaType := .protobuf
        text := Descriptor.keywords.text }
    have hread : Cache.interpret 7 (.ok schema) = .ok Descriptor.keywords :=
      Cache.interpret_of_text rfl rfl
    have hrun : run (stranding ++ [.look 1, .answered 1 (.ok schema)]) (.ofCache .empty) =
        (run (stranding ++ [.look 1]) (.ofCache .empty)).answer 1 (.ok Descriptor.keywords) := by
      rw [← hread]
      rfl
    have hcached := hkept (stranding ++ [.look 1, .answered 1 (.ok schema)]) 1 7 Descriptor.keywords
      (hrun ▸ ⟨_, rfl, rfl, rfl⟩)
    rw [hrun] at hcached
    contradiction

end Flight

end EventCodec
