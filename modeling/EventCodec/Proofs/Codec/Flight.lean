import EventCodec.Codec.Flight
import EventCodec.Proofs.Maps

/-! # Lines of overlapping fetches

    The calls at a slot stand in a line: the holder first, then those who
    queue.  Everybody in the line is still in progress, and an empty slot
    that is in the index has a line (`IsOrderly`).  So an empty slot goes
    when the last call that could fill it has failed.

    Two calls at one slot ask for one ID (`IsNamed`): a failure takes its
    own slot out of the index and no other. -/

namespace EventCodec

open Schema

/-- Whether a call has its result. -/
def Phase.isSettled : Phase → Bool
  | .settled _ => true
  | _ => false

/-- The calls at a slot, in the order in which they may fill it. -/
def FlightSlot.line (s : FlightSlot) : List Nat :=
  s.holder.toList ++ s.queue

/-- The line when the holder has left it. -/
theorem FlightSlot.line_next (s : FlightSlot) :
    FlightSlot.line { s with holder := s.queue.head?, queue := s.queue.tail } = s.queue := by
  rcases s with ⟨_, _, _ | _⟩ <;> rfl

/-- The line when a call has joined it. -/
theorem FlightSlot.line_push (s : FlightSlot) (n : Nat) :
    FlightSlot.line { s with queue := s.queue ++ [n] } = s.line ++ [n] :=
  (List.append_assoc ..).symm

namespace Flight

/-! ### Runs -/

/-- The registry answers the fetch of a call. -/
def answered (f : Flight) (call : Nat) (answer : Except RegistryError RegisteredSchema) : Flight :=
  match f.calls[call]? with
  | some c => f.answer call (Cache.interpret c.id answer)
  | none => f

inductive Step where
  | launch (id : UInt32) (context : Context)
  | look (call : Nat)
  | answered (call : Nat) (answer : Except RegistryError RegisteredSchema)

def step (f : Flight) : Step → Flight
  | .launch id context => f.launch id context
  | .look call => f.look call
  | .answered call answer => f.answered call answer

def run : List Step → Flight → Flight
  | [], f => f
  | st :: rest, f => run rest (f.step st)

/-- An answer of the registry, with the call that fetched and the ID it
    fetched. -/
structure Reply where
  call : Nat
  id : UInt32
  answer : Except RegistryError RegisteredSchema

/-- What an answer means. -/
def Reply.result (r : Reply) : Except CodecError Descriptor :=
  Cache.interpret r.id r.answer

/-- The answer a step brings, if a call is waiting for it. -/
def reply? (f : Flight) : Step → Option Reply
  | .answered call answer =>
    match f.calls[call]? with
    | some { id, phase := .fetching, .. } => some { call, id, answer }
    | _ => none
  | _ => none

/-- The answers along a run, oldest first. -/
def replies : List Step → Flight → List Reply
  | [], _ => []
  | st :: rest, f => (f.reply? st).toList ++ replies rest (f.step st)

variable {f f' : Flight} {id : UInt32} {slot n : Nat} {c : FlightCall} {d : Descriptor}

/-! ### Changing one thing -/

theorem getElem?_concat {α : Type} {l : List α} {a b : α} :
    (l ++ [a])[n]? = some b ↔ l[n]? = some b ∨ n = l.length ∧ b = a := by
  rw [List.getElem?_append]
  split
  · next h => simp [Nat.ne_of_lt h]
  · next h =>
    have hbeyond : l[n]? = none := List.getElem?_eq_none (Nat.le_of_not_lt h)
    simp only [List.getElem?_singleton, hbeyond, reduceCtorEq, false_or]
    grind

theorem getElem?_setPhase_self {p : Phase} (h : f.calls[n]? = some c) :
    (f.setPhase n p).calls[n]? = some { c with phase := p } := by
  simp [setPhase, h]

theorem getElem?_setPhase_ne {p : Phase} {m : Nat} (h : n ≠ m) :
    (f.setPhase n p).calls[m]? = f.calls[m]? := by
  simp [setPhase, h]

/-- A call whose phase has changed, or has not. -/
theorem calls_setPhase_cases {p : Phase} {m : Nat} {c' : FlightCall}
    (hcall : f.calls[n]? = some c) (h : (f.setPhase n p).calls[m]? = some c') :
    f.calls[m]? = some c' ∨ m = n ∧ c' = { c with phase := p } := by
  by_cases hm : n = m
  · subst hm
    exact .inr ⟨rfl, (Option.some.inj ((getElem?_setPhase_self hcall).symm.trans h)).symm⟩
  · exact .inl ((getElem?_setPhase_ne hm).symm.trans h)

theorem getElem?_modifySlot_self {g : FlightSlot → FlightSlot} {s : FlightSlot}
    (h : f.slots[slot]? = some s) : (f.modifySlot slot g).slots[slot]? = some (g s) := by
  simp [modifySlot, h]

theorem getElem?_modifySlot_ne {g : FlightSlot → FlightSlot} {k : Nat} (h : slot ≠ k) :
    (f.modifySlot slot g).slots[k]? = f.slots[k]? := by
  simp [modifySlot, h]

theorem mem_index_of_slotOf? (h : f.slotOf? id = some slot) : (id, slot) ∈ f.index := by
  obtain ⟨e, hfind, rfl⟩ := Option.map_eq_some_iff.mp h
  have hid : e.1 = id := by simpa using List.find?_some hfind
  rw [← hid]
  exact List.mem_of_find?_eq_some hfind

/-- What is in the index after an eviction. -/
theorem mem_index_evictEmpty {e : UInt32 × Nat} :
    e ∈ (f.evictEmpty id slot).index ↔
      e ∈ f.index ∧ ¬ (f.slotOf? id = some slot ∧ f.value? slot = none ∧ e.1 = id) := by
  unfold evictEmpty
  split
  · next h =>
    simp [Table.erase, h.1, h.2]
  · next h =>
    constructor
    · exact fun he => ⟨he, fun hstale => h ⟨hstale.1, hstale.2.1⟩⟩
    · exact fun he => he.1

theorem sublist_evictEmpty : (f.evictEmpty id slot).index.Sublist f.index := by
  unfold evictEmpty
  split
  · exact List.filter_sublist
  · exact List.Sublist.refl _

@[simp] theorem calls_evictEmpty : (f.evictEmpty id slot).calls = f.calls := by
  unfold evictEmpty
  split <;> rfl

@[simp] theorem slots_evictEmpty : (f.evictEmpty id slot).slots = f.slots := by
  unfold evictEmpty
  split <;> rfl

@[simp] theorem slots_setPhase {p : Phase} : (f.setPhase n p).slots = f.slots := rfl

@[simp] theorem slots_addCall : (f.addCall c).slots = f.slots := rfl

/-! ### What is in the slots -/

@[simp] theorem value?_setPhase {p : Phase} : (f.setPhase n p).value? slot = f.value? slot := rfl

@[simp] theorem value?_addCall : (f.addCall c).value? slot = f.value? slot := rfl

@[simp] theorem value?_evictEmpty {k : Nat} : (f.evictEmpty id slot).value? k = f.value? k := by
  unfold value?
  rw [slots_evictEmpty]

theorem value?_of_getElem? {s : FlightSlot} (h : f.slots[slot]? = some s) :
    f.value? slot = s.value := by
  simp [value?, h]

theorem value?_modifySlot_self {g : FlightSlot → FlightSlot} {s : FlightSlot}
    (h : f.slots[slot]? = some s) : (f.modifySlot slot g).value? slot = (g s).value :=
  value?_of_getElem? (getElem?_modifySlot_self h)

theorem value?_modifySlot_ne {g : FlightSlot → FlightSlot} {k : Nat} (h : slot ≠ k) :
    (f.modifySlot slot g).value? k = f.value? k := by
  simp [value?, getElem?_modifySlot_ne h]

/-- The line does not matter to the descriptor. -/
@[simp] theorem value?_modifySlot {p : FlightSlot → Option Nat} {q : FlightSlot → List Nat} {k : Nat} :
    (f.modifySlot slot fun s => { s with holder := p s, queue := q s }).value? k = f.value? k := by
  by_cases hk : slot = k
  · subst hk
    cases hslot : f.slots[slot]? with
    | none => simp [value?, modifySlot, hslot]
    | some s => rw [value?_modifySlot_self hslot, value?_of_getElem? hslot]
  · exact value?_modifySlot_ne hk

/-! ### Who is at which slot -/

/-- The ID each call asks for, with the slot it is at. -/
def tickets (f : Flight) : List (UInt32 × Nat) :=
  f.calls.map fun c => (c.id, c.slot)

theorem mem_tickets (h : f.calls[n]? = some c) : (c.id, c.slot) ∈ f.tickets :=
  List.mem_map_of_mem (List.mem_of_getElem? h)

@[simp] theorem tickets_setPhase {p : Phase} : (f.setPhase n p).tickets = f.tickets := by
  unfold tickets setPhase
  refine List.ext_getElem? fun m => ?_
  simp only [List.getElem?_map, List.getElem?_modify]
  cases f.calls[m]? with
  | none => rfl
  | some c =>
    simp only [Option.map_eq_map, Option.map_some]
    split <;> rfl

@[simp] theorem tickets_modifySlot {g : FlightSlot → FlightSlot} :
    (f.modifySlot slot g).tickets = f.tickets := rfl

@[simp] theorem tickets_evictEmpty : (f.evictEmpty id slot).tickets = f.tickets := by
  unfold tickets
  rw [calls_evictEmpty]

theorem mem_tickets_addCall {e : UInt32 × Nat} :
    e ∈ (f.addCall c).tickets ↔ e ∈ f.tickets ∨ e = (c.id, c.slot) := by
  simp [tickets, addCall]

@[simp] theorem length_modifySlot {g : FlightSlot → FlightSlot} :
    (f.modifySlot slot g).slots.length = f.slots.length :=
  List.length_modify ..

/-! ### What a step does -/

/-- All a step can come to, with the answer it brings. -/
inductive Moves (f : Flight) : Option Reply → Flight → Prop where
  | stay : f.Moves none f
  /-- A call finds its descriptor. -/
  | found {id : UInt32} {context : Context} {slot : Nat} {d : Descriptor} :
      (id, slot) ∈ f.index → f.value? slot = some d →
      f.Moves none (f.addCall { id, context, slot, phase := .settled (.ok d) })
  /-- A call finds no slot and holds a new one. -/
  | opened {id : UInt32} {context : Context} :
      f.slotOf? id = none →
      f.Moves none
        { index := f.index ++ [(id, f.slots.length)]
          slots := f.slots ++ [{ value := none, holder := some f.calls.length, queue := [] }]
          calls := f.calls ++ [{ id, context, slot := f.slots.length, phase := .fetching }] }
  /-- A call queues behind the holder. -/
  | joined {id : UInt32} {context : Context} {slot m : Nat} {s : FlightSlot} :
      (id, slot) ∈ f.index → f.slots[slot]? = some s → s.value = none → s.holder = some m →
      f.Moves none ((f.modifySlot slot fun s => { s with queue := s.queue ++ [f.calls.length] }).addCall
        { id, context, slot, phase := .queued })
  /-- A call that queued takes the descriptor. -/
  | noticed {n : Nat} {c : FlightCall} {d : Descriptor} :
      f.calls[n]? = some c → c.phase = .queued → f.value? c.slot = some d →
      f.Moves none (f.setPhase n (.settled (.ok d)))
  /-- A call that queued holds the slot by now, and fetches. -/
  | tookOver {n : Nat} {c : FlightCall} {s : FlightSlot} :
      f.calls[n]? = some c → c.phase = .queued → f.slots[c.slot]? = some s → s.value = none →
      s.holder = some n → f.Moves none (f.setPhase n .fetching)
  /-- A fetch succeeds. -/
  | filled {reply : Reply} {c : FlightCall} {d : Descriptor} :
      f.calls[reply.call]? = some c → c.phase = .fetching → reply.id = c.id →
      reply.result = .ok d →
      f.Moves (some reply) ((f.setPhase reply.call (.settled (.ok d))).modifySlot c.slot
        fun _ => { value := some d, holder := none, queue := [] })
  /-- A fetch fails. -/
  | failed {reply : Reply} {c : FlightCall} {e : CodecError} :
      f.calls[reply.call]? = some c → c.phase = .fetching → reply.id = c.id →
      reply.result = .error e →
      f.Moves (some reply) (((f.setPhase reply.call (.settled (.error e))).modifySlot c.slot
        fun s => { s with holder := s.queue.head?, queue := s.queue.tail }).evictEmpty c.id c.slot)

/-! ### Lines -/

/-- The call is at the slot and has no result yet. -/
def InProgress (f : Flight) (n slot : Nat) : Prop :=
  ∃ c, f.calls[n]? = some c ∧ c.slot = slot ∧ c.phase.isSettled = false

/-- How a slot stands. -/
structure IsInLine (f : Flight) (slot : Nat) (s : FlightSlot) : Prop where
  /-- The first in the line holds the slot. -/
  holder : s.holder = none → s.queue = []
  line : ∀ n ∈ s.line, f.InProgress n slot
  nodup : s.line.Nodup
  filled : s.value ≠ none → s.line = []

structure IsOrderly (f : Flight) : Prop where
  /-- An ID is in the index once at most. -/
  distinct : (f.index.map Prod.fst).Nodup
  /-- An empty slot in the index has a holder. -/
  indexed : ∀ (id : UInt32) (slot : Nat), (id, slot) ∈ f.index →
    ∃ s, f.slots[slot]? = some s ∧ (s.value = none → s.holder ≠ none)
  inLine : ∀ (slot : Nat) (s : FlightSlot), f.slots[slot]? = some s → f.IsInLine slot s
  /-- Only the holder of a slot fetches. -/
  fetching : ∀ (n : Nat) (c : FlightCall), f.calls[n]? = some c → c.phase = .fetching →
    ∃ s, f.slots[c.slot]? = some s ∧ s.value = none ∧ s.holder = some n

theorem slotOf?_eq_some_iff (h : f.IsOrderly) : f.slotOf? id = some slot ↔ (id, slot) ∈ f.index :=
  Table.get?_eq_some_iff h.distinct

/-- In an orderly flight a step does nothing else. -/
theorem IsOrderly.moves (h : f.IsOrderly) (st : Step) : f.Moves (f.reply? st) (f.step st) := by
  cases st with
  | launch id context =>
    show f.Moves none (f.launch id context)
    unfold launch
    cases hindex : f.slotOf? id with
    | none => exact .opened hindex
    | some slot =>
      have hmem := mem_index_of_slotOf? hindex
      obtain ⟨s, hslot, hheld⟩ := h.indexed id slot hmem
      simp only [hslot]
      cases hvalue : s.value with
      | some d => exact .found hmem (by simp [value?, hslot, hvalue])
      | none =>
        cases hholder : s.holder with
        | none => exact absurd hholder (hheld hvalue)
        | some m => exact .joined hmem hslot hvalue hholder
  | look n =>
    show f.Moves none (f.look n)
    unfold look
    split
    · next id context slot hcall =>
      cases hslot : f.slots[slot]? with
      | none => exact .stay
      | some s =>
        cases hvalue : s.value with
        | some d =>
          simp only [hvalue]
          exact .noticed hcall rfl (by simp [value?, hslot, hvalue])
        | none =>
          simp only [hvalue]
          split
          · next hholder => exact .tookOver hcall rfl hslot hvalue hholder
          · exact .stay
    · exact .stay
  | answered n answer =>
    show f.Moves (f.reply? (.answered n answer)) (f.answered n answer)
    unfold answered reply?
    cases hcall : f.calls[n]? with
    | none =>
      simp only [hcall]
      exact .stay
    | some c =>
      obtain ⟨id, context, slot, phase⟩ := c
      cases phase with
      | queued | settled =>
        simp only [Flight.answer, hcall]
        exact .stay
      | fetching =>
        simp only [Flight.answer, hcall]
        let reply : Reply := { call := n, id, answer }
        cases hresult : Cache.interpret id answer with
        | ok d => exact @Moves.filled f reply _ _ hcall rfl rfl hresult
        | error e => exact @Moves.failed f reply _ _ hcall rfl rfl hresult

/-! ### Calls keep their places -/

theorem InProgress.lt (h : f.InProgress n slot) : n < f.calls.length := by
  obtain ⟨c, hcall, _⟩ := h
  exact (List.getElem?_eq_some_iff.mp hcall).1

theorem InProgress.append (h : f.InProgress n slot) (hcalls : f'.calls = f.calls ++ [c]) :
    f'.InProgress n slot := by
  have hlt := h.lt
  obtain ⟨c, hcall, hrest⟩ := h
  exact ⟨c, by rw [hcalls, List.getElem?_append_left hlt, hcall], hrest⟩

/-- Unless it has its result, a call whose phase changes stays in progress,
    and so do the others. -/
theorem InProgress.setPhase {m : Nat} {p : Phase} (h : f.InProgress n slot)
    (hcalls : f'.calls = (f.setPhase m p).calls) (hp : m = n → p.isSettled = false) :
    f'.InProgress n slot := by
  obtain ⟨c, hcall, hslot, hphase⟩ := h
  by_cases hm : m = n
  · subst hm
    exact ⟨{ c with phase := p }, hcalls ▸ getElem?_setPhase_self hcall, hslot, hp rfl⟩
  · exact ⟨c, hcalls ▸ (getElem?_setPhase_ne hm).trans hcall, hslot, hphase⟩

theorem IsInLine.mono {s : FlightSlot} (h : f.IsInLine slot s)
    (hprogress : ∀ n ∈ s.line, f.InProgress n slot → f'.InProgress n slot) : f'.IsInLine slot s where
  holder := h.holder
  line n hn := hprogress n hn (h.line n hn)
  nodup := h.nodup
  filled := h.filled

/-- A line that has gone. -/
theorem IsInLine.gone (f : Flight) (slot : Nat) (d : Option Descriptor) :
    f.IsInLine slot { value := d, holder := none, queue := [] } where
  holder _ := rfl
  line := by simp [FlightSlot.line]
  nodup := by simp [FlightSlot.line]
  filled _ := rfl

/-! ### Lines stay in order -/

/-- A new call that asks nothing of its slot. -/
theorem IsOrderly.arrive (h : f.IsOrderly) (hphase : c.phase ≠ .fetching) : (f.addCall c).IsOrderly where
  distinct := h.distinct
  indexed := h.indexed
  inLine k s hs := (h.inLine k s hs).mono fun _ _ hprogress => hprogress.append rfl
  fetching n c' hcall hfetching := by
    rcases getElem?_concat.mp hcall with hcall | ⟨_, rfl⟩
    · exact h.fetching n c' hcall hfetching
    · exact absurd hfetching hphase

/-- A call that opens a slot. -/
theorem IsOrderly.hold (h : f.IsOrderly) {context : Context} (hnew : f.slotOf? id = none) :
    IsOrderly
      { index := f.index ++ [(id, f.slots.length)]
        slots := f.slots ++ [{ value := none, holder := some f.calls.length, queue := [] }]
        calls := f.calls ++ [{ id, context, slot := f.slots.length, phase := .fetching }] } where
  distinct := by
    have hfresh : id ∉ f.index.map Prod.fst := by
      intro hmem
      obtain ⟨e, he, rfl⟩ := List.mem_map.mp hmem
      simp [(slotOf?_eq_some_iff h).mpr he] at hnew
    rw [List.map_append]
    exact List.nodup_append.mpr ⟨h.distinct, by simp, by
      simpa using fun i k hmem heq => hfresh (List.mem_map.mpr ⟨(i, k), hmem, heq⟩)⟩
  indexed i k hmem := by
    rcases List.mem_append.mp hmem with hmem | hmem
    · obtain ⟨s, hs, hheld⟩ := h.indexed i k hmem
      exact ⟨s, getElem?_concat.mpr (.inl hs), hheld⟩
    · obtain ⟨rfl, rfl⟩ : i = id ∧ k = f.slots.length := by simpa using hmem
      exact ⟨_, getElem?_concat.mpr (.inr ⟨rfl, rfl⟩), by simp⟩
  inLine k s hs := by
    rcases getElem?_concat.mp hs with hs | ⟨rfl, rfl⟩
    · exact (h.inLine k s hs).mono fun _ _ hprogress => hprogress.append rfl
    · refine ⟨by simp, ?_, by simp [FlightSlot.line], by simp⟩
      intro n hn
      obtain rfl : n = f.calls.length := by simpa [FlightSlot.line] using hn
      exact ⟨_, getElem?_concat.mpr (.inr ⟨rfl, rfl⟩), rfl, rfl⟩
  fetching n c' hcall hfetching := by
    rcases getElem?_concat.mp hcall with hcall | ⟨rfl, rfl⟩
    · obtain ⟨s, hs, hrest⟩ := h.fetching n c' hcall hfetching
      exact ⟨s, getElem?_concat.mpr (.inl hs), hrest⟩
    · exact ⟨_, getElem?_concat.mpr (.inr ⟨rfl, rfl⟩), rfl, rfl⟩

/-- A call that queues. -/
theorem IsOrderly.queue (h : f.IsOrderly) {context : Context} {m : Nat} {s : FlightSlot}
    (hslot : f.slots[slot]? = some s) (hempty : s.value = none) (hholder : s.holder = some m) :
    ((f.modifySlot slot fun s => { s with queue := s.queue ++ [f.calls.length] }).addCall
      { id, context, slot, phase := .queued }).IsOrderly where
  distinct := h.distinct
  indexed i k hmem := by
    obtain ⟨t, ht, hheld⟩ := h.indexed i k hmem
    by_cases hk : slot = k
    · subst hk
      exact ⟨_, getElem?_modifySlot_self hslot, by simp [hholder]⟩
    · exact ⟨t, (getElem?_modifySlot_ne hk).trans ht, hheld⟩
  inLine k t ht := by
    by_cases hk : slot = k
    · subst hk
      obtain rfl := Option.some.inj ((getElem?_modifySlot_self hslot).symm.trans ht)
      have hline := h.inLine slot s hslot
      refine ⟨by simp [hholder], ?_, ?_, by simp [hempty]⟩
      · intro n hn
        rw [FlightSlot.line_push, List.mem_append, List.mem_singleton] at hn
        rcases hn with hn | rfl
        · exact (hline.line n hn).append rfl
        · exact ⟨_, getElem?_concat.mpr (.inr ⟨rfl, rfl⟩), rfl, rfl⟩
      · rw [FlightSlot.line_push]
        refine List.nodup_append.mpr ⟨hline.nodup, by simp, ?_⟩
        intro n hn k hk
        rw [List.mem_singleton.mp hk]
        exact Nat.ne_of_lt (hline.line n hn).lt
    · have hother : f.slots[k]? = some t := (getElem?_modifySlot_ne hk).symm.trans ht
      exact (h.inLine k t hother).mono fun _ _ hprogress => hprogress.append rfl
  fetching n c' hcall hfetching := by
    rcases getElem?_concat.mp hcall with hcall | ⟨rfl, rfl⟩
    · obtain ⟨t, ht, hfree, hheld⟩ := h.fetching n c' hcall hfetching
      by_cases hk : slot = c'.slot
      · subst hk
        obtain rfl := Option.some.inj (hslot.symm.trans ht)
        exact ⟨_, getElem?_modifySlot_self hslot, hfree, hheld⟩
      · exact ⟨t, (getElem?_modifySlot_ne hk).trans ht, hfree, hheld⟩
    · exact absurd hfetching (by simp)

/-- Who stands in a line is at its slot. -/
theorem IsOrderly.slot_eq (h : f.IsOrderly) {s : FlightSlot} (hcall : f.calls[n]? = some c)
    (hslot : f.slots[slot]? = some s) (hn : n ∈ s.line) : c.slot = slot := by
  obtain ⟨c', hcall', hat, _⟩ := (h.inLine slot s hslot).line n hn
  obtain rfl := Option.some.inj (hcall.symm.trans hcall')
  exact hat

/-- A call that queued takes the descriptor. -/
theorem IsOrderly.notice (h : f.IsOrderly) (hcall : f.calls[n]? = some c)
    (hvalue : f.value? c.slot = some d) : (f.setPhase n (.settled (.ok d))).IsOrderly where
  distinct := h.distinct
  indexed := h.indexed
  inLine k s hs := by
    refine (h.inLine k s hs).mono fun m hm hprogress => hprogress.setPhase rfl ?_
    rintro rfl
    -- nobody is left in the line of a slot that is filled
    have hat : c.slot = k := h.slot_eq hcall hs hm
    have hfilled : s.value = some d := by simpa [value?, hat, show f.slots[k]? = some s from hs] using hvalue
    have hline : s.line = [] := (h.inLine k s hs).filled (by simp [hfilled])
    simp [hline] at hm
  fetching m c' hcall' hfetching := by
    by_cases hm : n = m
    · subst hm
      obtain rfl := Option.some.inj ((getElem?_setPhase_self hcall).symm.trans hcall')
      exact absurd hfetching (by simp)
    · exact h.fetching m c' ((getElem?_setPhase_ne hm).symm.trans hcall') hfetching

/-- A call that queued fetches. -/
theorem IsOrderly.takeOver (h : f.IsOrderly) {s : FlightSlot} (hcall : f.calls[n]? = some c)
    (hslot : f.slots[c.slot]? = some s) (hempty : s.value = none) (hholder : s.holder = some n) :
    (f.setPhase n .fetching).IsOrderly where
  distinct := h.distinct
  indexed := h.indexed
  inLine k t ht := (h.inLine k t ht).mono fun _ _ hprogress => hprogress.setPhase rfl fun _ => rfl
  fetching m c' hcall' hfetching := by
    by_cases hm : n = m
    · subst hm
      obtain rfl := Option.some.inj ((getElem?_setPhase_self hcall).symm.trans hcall')
      exact ⟨s, hslot, hempty, hholder⟩
    · exact h.fetching m c' ((getElem?_setPhase_ne hm).symm.trans hcall') hfetching

/-- The holder of a slot has the answer to its fetch: the other slots stay
    as they are, and whoever fetches holds one of them. -/
theorem IsOrderly.settle (h : f.IsOrderly) {result : Except CodecError Descriptor}
    {g : FlightSlot → FlightSlot} (hcall : f.calls[n]? = some c) (hphase : c.phase = .fetching)
    (hcalls : f'.calls = (f.setPhase n (.settled result)).calls)
    (hslots : f'.slots = (f.modifySlot c.slot g).slots) (hindex : f'.index.Sublist f.index)
    (hkept : ∀ id s, (id, c.slot) ∈ f'.index → f.slots[c.slot]? = some s → (g s).value ≠ none)
    (hline : ∀ s, f.slots[c.slot]? = some s → s.value = none → s.holder = some n →
      f'.IsInLine c.slot (g s)) :
    f'.IsOrderly := by
  obtain ⟨s, hslot, hempty, hholder⟩ := h.fetching n c hcall hphase
  have hself : f'.slots[c.slot]? = some (g s) := hslots ▸ getElem?_modifySlot_self hslot
  have hother : ∀ {k}, c.slot ≠ k → f'.slots[k]? = f.slots[k]? :=
    fun hk => hslots ▸ getElem?_modifySlot_ne hk
  refine ⟨h.distinct.sublist (hindex.map _), ?indexed, ?inLine, ?fetching⟩
  case indexed =>
    intro id k hmem
    obtain ⟨t, ht, hheld⟩ := h.indexed id k (hindex.subset hmem)
    by_cases hk : c.slot = k
    · subst hk
      exact ⟨g s, hself, fun hnone => absurd hnone (hkept id s hmem hslot)⟩
    · exact ⟨t, (hother hk).trans ht, hheld⟩
  case inLine =>
    intro k t ht
    by_cases hk : c.slot = k
    · subst hk
      obtain rfl := Option.some.inj (hself.symm.trans ht)
      exact hline s hslot hempty hholder
    · rw [hother hk] at ht
      refine (h.inLine k t ht).mono fun m hm hprogress => hprogress.setPhase hcalls ?_
      rintro rfl
      exact absurd (h.slot_eq hcall ht hm) hk
  case fetching =>
    intro m c' hcall' hfetching
    rw [hcalls] at hcall'
    have hm : n ≠ m := by
      rintro rfl
      obtain rfl := Option.some.inj ((getElem?_setPhase_self hcall).symm.trans hcall')
      simp at hfetching
    obtain ⟨t, ht, hfree, hheld⟩ :=
      h.fetching m c' ((getElem?_setPhase_ne hm).symm.trans hcall') hfetching
    -- two calls do not hold one slot
    have hk : c.slot ≠ c'.slot := by
      intro hk
      obtain rfl := Option.some.inj (hslot.symm.trans (hk ▸ ht))
      exact hm (Option.some.inj (hholder.symm.trans hheld))
    exact ⟨t, (hother hk).trans ht, hfree, hheld⟩

/-! ### Names -/

structure IsNamed (f : Flight) : Prop where
  /-- Two calls at one slot ask for one ID. -/
  same : ∀ {id id' : UInt32} {slot : Nat},
    (id, slot) ∈ f.tickets → (id', slot) ∈ f.tickets → id = id'
  within : ∀ {id : UInt32} {slot : Nat}, (id, slot) ∈ f.tickets → slot < f.slots.length
  /-- A slot is in the index for a call that asked for it. -/
  indexed : f.index ⊆ f.tickets

theorem IsNamed.mono (h : f.IsNamed) (htickets : ∀ e, e ∈ f'.tickets ↔ e ∈ f.tickets)
    (hslots : f'.slots.length = f.slots.length) (hindex : f'.index ⊆ f.index) : f'.IsNamed where
  same hid hid' := h.same ((htickets _).mp hid) ((htickets _).mp hid')
  within hid := hslots ▸ h.within ((htickets _).mp hid)
  indexed _ he := (htickets _).mpr (h.indexed (hindex he))

/-- A slot that is new is under one ID. -/
theorem IsNamed.extend (h : f.IsNamed)
    (htickets : ∀ e, e ∈ f'.tickets ↔ e ∈ f.tickets ∨ e = (id, f.slots.length))
    (hslots : f'.slots.length = f.slots.length + 1)
    (hindex : ∀ e ∈ f'.index, e ∈ f.index ∨ e = (id, f.slots.length)) : f'.IsNamed where
  same := by
    intro i j slot hi hj
    rcases (htickets _).mp hi with hi | hi <;> rcases (htickets _).mp hj with hj | hj
    · exact h.same hi hj
    · obtain ⟨rfl, rfl⟩ := Prod.mk.inj hj
      exact absurd (h.within hi) (Nat.lt_irrefl _)
    · obtain ⟨rfl, rfl⟩ := Prod.mk.inj hi
      exact absurd (h.within hj) (Nat.lt_irrefl _)
    · exact (Prod.mk.inj hi).1.trans (Prod.mk.inj hj).1.symm
  within := by
    intro i slot hi
    rw [hslots]
    rcases (htickets _).mp hi with hi | hi
    · exact Nat.lt_succ_of_lt (h.within hi)
    · rw [(Prod.mk.inj hi).2]
      exact Nat.lt_succ_self _
  indexed e he := (htickets e).mpr ((hindex e he).imp_left fun hold => h.indexed hold)

/-- A step makes sure that all at one slot ask for one ID. -/
theorem IsNamed.moves {reply : Option Reply} (h : f.IsNamed) (hmoves : f.Moves reply f') :
    f'.IsNamed := by
  cases hmoves with
  | stay => exact h
  | found hmem | joined hmem =>
    refine h.mono (fun e => mem_tickets_addCall.trans (or_iff_left_of_imp ?_)) (by simp) fun _ he => he
    rintro rfl
    exact h.indexed hmem
  | noticed | tookOver => exact h.mono (by simp) rfl fun _ he => he
  | filled => exact h.mono (by simp) (by simp) fun _ he => he
  | failed => exact h.mono (by simp) (by simp) fun _ he => (mem_index_evictEmpty.mp he).1
  | opened =>
    exact h.extend (fun _ => mem_tickets_addCall) (by simp) fun _ he => by
      simpa using he

/-! ### Steps keep order -/

theorem IsOrderly.after {reply : Option Reply} (h : f.IsOrderly) (hnamed : f.IsNamed)
    (hmoves : f.Moves reply f') : f'.IsOrderly := by
  cases hmoves with
  | stay => exact h
  | found => exact h.arrive (by simp)
  | opened hnew => exact h.hold hnew
  | joined _ hslot hempty hholder => exact h.queue hslot hempty hholder
  | noticed hcall _ hvalue => exact h.notice hcall hvalue
  | tookOver hcall _ hslot hempty hholder => exact h.takeOver hcall hslot hempty hholder
  | filled hcall hphase =>
    refine h.settle hcall hphase rfl rfl (List.Sublist.refl _) (fun _ _ _ _ => by simp) ?_
    exact fun _ _ _ _ => .gone _ _ _
  | @failed reply c e hcall hphase =>
    obtain ⟨s, hslot, hempty, _⟩ := h.fetching reply.call c hcall hphase
    refine h.settle hcall hphase calls_evictEmpty slots_evictEmpty ?_ ?_ ?_
    · exact sublist_evictEmpty
    · -- the slot has left the index
      intro id _ hmem _
      obtain ⟨hmem, hkept⟩ := mem_index_evictEmpty.mp hmem
      have hid : id = c.id := hnamed.same (hnamed.indexed hmem) (mem_tickets hcall)
      refine absurd ⟨?_, ?_, hid⟩ hkept
      · exact (slotOf?_eq_some_iff h).mpr (hid ▸ hmem)
      · exact (value?_modifySlot_self hslot).trans hempty
    · intro t ht hfree hholder
      obtain ⟨_, hline, hnodup, _⟩ := h.inLine c.slot t ht
      have hfront : t.line = reply.call :: t.queue := by simp [FlightSlot.line, hholder]
      rw [hfront, List.nodup_cons] at hnodup
      refine ⟨?_, ?_, (FlightSlot.line_next t).symm ▸ hnodup.2, fun hfull => absurd hfree hfull⟩
      · intro hnobody
        rw [List.head?_eq_none_iff.mp hnobody, List.tail_nil]
      intro n hn
      rw [FlightSlot.line_next] at hn
      have hprogress : f.InProgress n c.slot := hline n (by simp [hfront, hn])
      refine hprogress.setPhase calls_evictEmpty ?_
      rintro rfl
      exact absurd hn hnodup.1

end Flight

end EventCodec
