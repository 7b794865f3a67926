import EventCodec.Codec.Overlap
import EventCodec.Proofs.Codec.Accounts
import EventCodec.Proofs.Codec.Stage
import EventCodec.Proofs.Schema.Text

/-! # Waiting for somebody else's fetch

    A call is polled under its own context, but the context is only asked
    while the call itself works with the registry.  A call that waits for
    another's fetch waits in the slot, and there nobody looks at its
    context: the next poll of a cancelled call ends it unless it waits for
    another (`cancelled_unless_waiting`).

    The key idea: a call that has no result stands in the line of its slot
    while the slot is empty (`IsLined`).  So it holds the slot, or somebody
    before it does; and until that one has its result, no poll brings the
    call forward. -/

namespace EventCodec

open Schema

namespace Flight

/-! ### Polls -/

/-- Polls the fetch of a call, if it fetches, under its own context.  The
    fetch is done, with an answer of the registry, or still waits. -/
def pollFetch (f : Flight) (n now : Nat)
    (work : Option (Except RegistryError RegisteredSchema)) : Flight :=
  match f.calls[n]? with
  | some { context, phase := .fetching, .. } =>
    match context.poll now work with
    | some answer => f.answered n answer
    | none => f
  | _ => f

/-- One poll of a call at an instant. -/
def poll (f : Flight) (n now : Nat) (work : Option (Except RegistryError RegisteredSchema)) :
    Flight :=
  (f.look n).pollFetch n now work

inductive Poll where
  /-- The first poll of a new call. -/
  | first (id : UInt32) (context : Context) (now : Nat)
      (work : Option (Except RegistryError RegisteredSchema))
  | again (call now : Nat) (work : Option (Except RegistryError RegisteredSchema))

def polled (f : Flight) : Poll → Flight
  | .first id context now work => (f.launch id context).poll f.calls.length now work
  | .again call now work => f.poll call now work

def polls : List Poll → Flight → Flight
  | [], f => f
  | p :: rest, f => polls rest (f.polled p)

/-- A call queues at an empty slot that another holds. -/
def WaitsFor (f : Flight) (n m : Nat) : Prop :=
  ∃ c s, f.calls[n]? = some c ∧ c.phase = .queued ∧ f.slots[c.slot]? = some s ∧
    s.value = none ∧ s.holder = some m ∧ m ≠ n

/-- A call has returned. -/
def HasResult (f : Flight) (n : Nat) : Prop :=
  ∃ c, f.calls[n]? = some c ∧ c.phase.isSettled = true

/-- What a cancelled call has to return: the descriptor if it is there,
    and otherwise that it was cancelled. -/
def resultWhenCancelled (f : Flight) (c : FlightCall) : Except CodecError Descriptor :=
  match f.value? c.slot with
  | some d => .ok d
  | none => .error (RegistryError.cancelled.toFetch c.id)

variable {f f' : Flight} {n m now : Nat} {c : FlightCall} {d : Descriptor}
  {work : Option (Except RegistryError RegisteredSchema)}

/-! ### Polls are steps -/

theorem run_append (first second : List Step) (f : Flight) :
    run (first ++ second) f = run second (run first f) := by
  induction first generalizing f with
  | nil => rfl
  | cons st rest ih => exact ih (f.step st)

theorem exists_run_poll (f : Flight) (n now : Nat)
    (work : Option (Except RegistryError RegisteredSchema)) :
    ∃ steps, f.poll n now work = run steps f := by
  unfold poll pollFetch
  split
  · split
    · next answer _ => exact ⟨[.look n, .answered n answer], rfl⟩
    · exact ⟨[.look n], rfl⟩
  · exact ⟨[.look n], rfl⟩

theorem exists_run_polled (f : Flight) (p : Poll) : ∃ steps, f.polled p = run steps f := by
  cases p with
  | first id context now work =>
    obtain ⟨steps, hsteps⟩ := exists_run_poll (f.launch id context) f.calls.length now work
    exact ⟨.launch id context :: steps, hsteps⟩
  | again call now work => exact exists_run_poll f call now work

theorem exists_run_polls (ps : List Poll) (f : Flight) : ∃ steps, polls ps f = run steps f := by
  induction ps generalizing f with
  | nil => exact ⟨[], rfl⟩
  | cons p rest ih =>
    obtain ⟨first, hfirst⟩ := f.exists_run_polled p
    obtain ⟨second, hsecond⟩ := ih (f.polled p)
    refine ⟨first ++ second, ?_⟩
    rw [run_append, ← hfirst]
    exact hsecond

/-! ### Everybody stands in a line -/

/-- A call without a result stands in the line of its slot, as long as the
    slot is empty. -/
def IsLined (f : Flight) : Prop :=
  ∀ (n : Nat) (c : FlightCall) (s : FlightSlot), f.calls[n]? = some c →
    c.phase.isSettled = false → f.slots[c.slot]? = some s → s.value = none → n ∈ s.line

/-- When a call gets its result, those without one are others. -/
theorem ne_of_setPhase_settled {c' : FlightCall} {result : Except CodecError Descriptor}
    (hcall : f.calls[n]? = some c) (h : (f.setPhase n (.settled result)).calls[m]? = some c')
    (hopen : c'.phase.isSettled = false) : n ≠ m ∧ f.calls[m]? = some c' := by
  have hm : n ≠ m := by
    rintro rfl
    obtain rfl := Option.some.inj ((getElem?_setPhase_self hcall).symm.trans h)
    contradiction
  exact ⟨hm, (getElem?_setPhase_ne hm).symm.trans h⟩

theorem IsLined.after {reply : Option Reply} (h : f.IsLined) (horderly : f.IsOrderly)
    (hnamed : f.IsNamed) (hmoves : f.Moves reply f') : f'.IsLined := by
  intro n c s hcall hopen hslot hempty
  cases hmoves with
  | stay => exact h n c s hcall hopen hslot hempty
  | found =>
    rcases getElem?_concat.mp hcall with hold | ⟨-, rfl⟩
    · exact h n c s hold hopen hslot hempty
    · contradiction
  | opened =>
    rcases getElem?_concat.mp hslot with hslot | ⟨hlast, rfl⟩ <;>
      rcases getElem?_concat.mp hcall with hold | ⟨rfl, rfl⟩
    · exact h n c s hold hopen hslot hempty
    · exact absurd (List.getElem?_eq_some_iff.mp hslot).1 (Nat.lt_irrefl _)
    · exact absurd hlast (Nat.ne_of_lt (hnamed.within (mem_tickets hold)))
    · simp [FlightSlot.line]
  | @joined id context slot k t hmem ht =>
    by_cases hk : slot = c.slot
    · subst hk
      obtain rfl := Option.some.inj ((getElem?_modifySlot_self ht).symm.trans hslot)
      rw [FlightSlot.line_push, List.mem_append, List.mem_singleton]
      rcases getElem?_concat.mp hcall with hold | ⟨rfl, -⟩
      · exact .inl (h n c t hold hopen ht hempty)
      · exact .inr rfl
    · rw [slots_addCall, getElem?_modifySlot_ne hk] at hslot
      rcases getElem?_concat.mp hcall with hold | ⟨-, rfl⟩
      · exact h n c s hold hopen hslot hempty
      · exact absurd rfl hk
  | noticed hat =>
    obtain ⟨-, hold⟩ := ne_of_setPhase_settled hat hcall hopen
    exact h n c s hold hopen hslot hempty
  | tookOver hat hqueued =>
    rcases calls_setPhase_cases hat hcall with hold | ⟨rfl, rfl⟩
    · exact h n c s hold hopen hslot hempty
    · exact h n _ s hat (by rw [hqueued]; rfl) hslot hempty
  | @filled reply holder d hat hfetching =>
    obtain ⟨t, ht, -⟩ := horderly.fetching reply.call holder hat hfetching
    obtain ⟨-, hold⟩ := ne_of_setPhase_settled hat hcall hopen
    by_cases hk : holder.slot = c.slot
    · rw [hk] at ht hslot
      obtain rfl := Option.some.inj ((getElem?_modifySlot_self ht).symm.trans hslot)
      contradiction
    · rw [getElem?_modifySlot_ne hk] at hslot
      exact h n c s hold hopen hslot hempty
  | @failed reply holder e hat hfetching =>
    obtain ⟨t, ht, hfree, hholder⟩ := horderly.fetching reply.call holder hat hfetching
    rw [calls_evictEmpty] at hcall
    rw [slots_evictEmpty] at hslot
    obtain ⟨hother, hold⟩ := ne_of_setPhase_settled hat hcall hopen
    by_cases hk : holder.slot = c.slot
    · -- the others move up
      rw [hk] at ht hslot
      obtain rfl := Option.some.inj ((getElem?_modifySlot_self ht).symm.trans hslot)
      have hline : n = reply.call ∨ n ∈ t.queue := by
        simpa [FlightSlot.line, hholder] using h n c t hold hopen ht hfree
      rw [FlightSlot.line_next]
      exact hline.resolve_left (Ne.symm hother)
    · rw [getElem?_modifySlot_ne hk] at hslot
      exact h n c s hold hopen hslot hempty

/-! ### States that polls come to -/

structure IsAttended (f : Flight) : Prop where
  orderly : f.IsOrderly
  named : f.IsNamed
  lined : f.IsLined

theorem IsAttended.empty : IsAttended (.ofCache .empty) where
  orderly := IsSound.empty.orderly
  named := IsSound.empty.named
  lined := by simp [IsLined, ofCache]

theorem IsAttended.step (h : f.IsAttended) (st : Step) : (f.step st).IsAttended where
  orderly := h.orderly.after h.named (h.orderly.moves st)
  named := h.named.moves (h.orderly.moves st)
  lined := h.lined.after h.orderly h.named (h.orderly.moves st)

theorem IsAttended.run (h : f.IsAttended) (steps : List Step) : (run steps f).IsAttended := by
  induction steps generalizing f with
  | nil => exact h
  | cons st rest ih => exact ih (h.step st)

theorem IsAttended.polls (h : f.IsAttended) (ps : List Poll) : (polls ps f).IsAttended := by
  obtain ⟨steps, hsteps⟩ := exists_run_polls ps f
  rw [hsteps]
  exact h.run steps

/-! ### How a call stands -/

/-- How a call without a result stands. -/
inductive Stands (f : Flight) (n : Nat) (c : FlightCall) : Prop where
  | fetches : c.phase = .fetching → f.value? c.slot = none → Stands f n c
  | finds {d : Descriptor} : c.phase = .queued → f.value? c.slot = some d → Stands f n c
  /-- The slot has passed to it, and it has not noticed yet. -/
  | holds {s : FlightSlot} : c.phase = .queued → f.slots[c.slot]? = some s → s.value = none →
      s.holder = some n → Stands f n c
  | waits {m : Nat} : f.WaitsFor n m → Stands f n c

theorem IsAttended.stands (h : f.IsAttended) (hcall : f.calls[n]? = some c)
    (hopen : c.phase.isSettled = false) : f.Stands n c := by
  have hlt := h.named.within (mem_tickets hcall)
  obtain ⟨s, hslot⟩ : ∃ s, f.slots[c.slot]? = some s := ⟨_, List.getElem?_eq_getElem hlt⟩
  cases hphase : c.phase with
  | settled result =>
    rw [hphase] at hopen
    contradiction
  | fetching =>
    obtain ⟨t, ht, hempty, -⟩ := h.orderly.fetching n c hcall hphase
    exact .fetches hphase ((value?_of_getElem? ht).trans hempty)
  | queued =>
    cases hvalue : s.value with
    | some d => exact .finds hphase ((value?_of_getElem? hslot).trans hvalue)
    | none =>
      have hmem := h.lined n c s hcall hopen hslot hvalue
      cases hholder : s.holder with
      | none =>
        -- a line begins with the holder
        have hqueue := (h.orderly.inLine c.slot s hslot).holder hholder
        simp [FlightSlot.line, hholder, hqueue] at hmem
      | some m =>
        by_cases hm : m = n
        · exact .holds hphase hslot hvalue (hm ▸ hholder)
        · exact .waits ⟨c, s, hcall, hphase, hslot, hvalue, hholder, hm⟩

theorem look_of_fetching (hcall : f.calls[n]? = some c) (hphase : c.phase = .fetching) :
    f.look n = f := by
  obtain ⟨id, context, slot, _⟩ := c
  subst hphase
  simp only [look, hcall]

theorem look_of_value? (hcall : f.calls[n]? = some c) (hphase : c.phase = .queued)
    (hvalue : f.value? c.slot = some d) : f.look n = f.setPhase n (.settled (.ok d)) := by
  obtain ⟨s, hslot, hs⟩ := Option.bind_eq_some_iff.mp hvalue
  obtain ⟨id, context, slot, _⟩ := c
  subst hphase
  simp only at hslot
  simp only [look, hcall, hslot, hs]

theorem look_of_empty {s : FlightSlot} (hcall : f.calls[n]? = some c) (hphase : c.phase = .queued)
    (hslot : f.slots[c.slot]? = some s) (hempty : s.value = none) :
    f.look n = if s.holder = some n then f.setPhase n .fetching else f := by
  obtain ⟨id, context, slot, _⟩ := c
  subst hphase
  simp only at hslot
  simp only [look, hcall, hslot, hempty]

/-! ### Polls under a cancelled context -/

theorem pollFetch_of_cancelled (hcall : f.calls[n]? = some c) (hphase : c.phase = .fetching)
    (hcancelled : c.context.isCancelled now = true) :
    f.pollFetch n now work = f.answered n (.error .cancelled) := by
  obtain ⟨id, context, slot, _⟩ := c
  subst hphase
  simp only [pollFetch, hcall, Context.poll, hcancelled, if_true]

theorem pollFetch_of_ne (hcall : f.calls[n]? = some c) (hphase : c.phase ≠ .fetching) :
    f.pollFetch n now work = f := by
  unfold pollFetch
  split
  · next hfetching =>
    obtain rfl := Option.some.inj (hcall.symm.trans hfetching)
    exact absurd rfl hphase
  · rfl

/-- An answer that is an error ends its call with that error. -/
theorem phase?_answered_error {e : RegistryError} (hcall : f.calls[n]? = some c)
    (hphase : c.phase = .fetching) :
    (f.answered n (.error e)).phase? n = some (.settled (.error (e.toFetch c.id))) := by
  obtain ⟨id, context, slot, _⟩ := c
  subst hphase
  simp only [answered, answer, hcall, Cache.interpret, phase?, calls_evictEmpty]
  exact congrArg (Option.map FlightCall.phase) (getElem?_setPhase_self hcall)

theorem look_of_waitsFor (h : f.WaitsFor n m) : f.look n = f := by
  obtain ⟨c, s, hcall, hphase, hslot, hempty, hholder, hm⟩ := h
  rw [look_of_empty hcall hphase hslot hempty, hholder, if_neg (by simpa using hm)]

theorem poll_of_waitsFor (h : f.WaitsFor n m) : f.poll n now work = f := by
  have hlook := look_of_waitsFor h
  obtain ⟨c, s, hcall, hphase, -⟩ := h
  rw [poll, hlook, pollFetch_of_ne hcall (by simp [hphase])]

/-- A call that fetches is cancelled by its own context. -/
theorem phase?_pollFetch_of_cancelled (hcall : f.calls[n]? = some c) (hphase : c.phase = .fetching)
    (hcancelled : c.context.isCancelled now = true) :
    (f.pollFetch n now work).phase? n =
      some (.settled (.error (RegistryError.cancelled.toFetch c.id))) := by
  rw [pollFetch_of_cancelled hcall hphase hcancelled, phase?_answered_error hcall hphase]

/-- The next poll of a cancelled call ends it, with the descriptor if that
    is there, unless the call waits for another. -/
theorem IsAttended.phase?_poll_iff (h : f.IsAttended) (hcall : f.calls[n]? = some c)
    (hopen : c.phase.isSettled = false) (hcancelled : c.context.isCancelled now = true) :
    (f.poll n now work).phase? n = some (.settled (f.resultWhenCancelled c)) ↔
      ¬ ∃ m, f.WaitsFor n m := by
  constructor
  · rintro hended ⟨m, hwaits⟩
    rw [poll_of_waitsFor hwaits, phase?, hcall] at hended
    rw [show c.phase = _ from Option.some.inj hended] at hopen
    contradiction
  · intro hfree
    cases h.stands hcall hopen with
    | fetches hphase hempty =>
      rw [poll, look_of_fetching hcall hphase,
        phase?_pollFetch_of_cancelled hcall hphase hcancelled, resultWhenCancelled, hempty]
    | @finds d hphase hvalue =>
      have hsettled : (f.setPhase n (.settled (.ok d))).calls[n]? = some _ :=
        getElem?_setPhase_self hcall
      rw [poll, look_of_value? hcall hphase hvalue, pollFetch_of_ne hsettled (by simp), phase?,
        hsettled, resultWhenCancelled, hvalue]
      rfl
    | holds hphase hslot hempty hholder =>
      -- the poll that notices is the first poll of the fetch
      have hfetching : (f.setPhase n .fetching).calls[n]? = some _ := getElem?_setPhase_self hcall
      rw [poll, look_of_empty hcall hphase hslot hempty, if_pos hholder,
        phase?_pollFetch_of_cancelled hfetching rfl hcancelled, resultWhenCancelled,
        value?_of_getElem? hslot, hempty]
    | waits hwaits => exact absurd ⟨_, hwaits⟩ hfree

/-! ### Waiting lasts -/

/-- Only a call without a result changes its phase. -/
theorem HasResult.setPhase {p : Phase} (h : f.HasResult n) (hcall : f.calls[m]? = some c)
    (hopen : c.phase.isSettled = false) (hcalls : f'.calls = (f.setPhase m p).calls) :
    f'.HasResult n := by
  obtain ⟨c', hcall', hsettled⟩ := h
  have hm : m ≠ n := by
    rintro rfl
    obtain rfl := Option.some.inj (hcall.symm.trans hcall')
    rw [hopen] at hsettled
    contradiction
  exact ⟨c', hcalls ▸ (getElem?_setPhase_ne hm).trans hcall', hsettled⟩

theorem HasResult.append (h : f.HasResult n) (hcalls : f'.calls = f.calls ++ [c]) :
    f'.HasResult n := by
  obtain ⟨c', hcall', hsettled⟩ := h
  exact ⟨c', hcalls ▸ getElem?_concat.mpr (.inl hcall'), hsettled⟩

theorem Moves.hasResult {reply : Option Reply} (hmoves : f.Moves reply f') (h : f.HasResult n) :
    f'.HasResult n := by
  cases hmoves with
  | stay => exact h
  | found | opened | joined => exact h.append rfl
  | noticed hcall hphase | tookOver hcall hphase => exact h.setPhase hcall (by rw [hphase]; rfl) rfl
  | filled hcall hphase => exact h.setPhase hcall (by rw [hphase]; rfl) rfl
  | failed hcall hphase => exact h.setPhase hcall (by rw [hphase]; rfl) calls_evictEmpty

/-- When a fetch ends, it was that of the one waited for, or at another
    slot. -/
theorem WaitsFor.settle {k : Nat} {result : Except CodecError Descriptor}
    {g : FlightSlot → FlightSlot} (h : f.WaitsFor n m) (horderly : f.IsOrderly)
    (hcall : f.calls[k]? = some c) (hphase : c.phase = .fetching)
    (hcalls : f'.calls = (f.setPhase k (.settled result)).calls)
    (hslots : f'.slots = (f.modifySlot c.slot g).slots) : f'.WaitsFor n m ∨ f'.HasResult m := by
  obtain ⟨c', s, hwaiting, hqueued, hslot, hempty, hholder, hm⟩ := h
  by_cases hk : c.slot = c'.slot
  · obtain ⟨t, ht, -, hheld⟩ := horderly.fetching k c hcall hphase
    obtain rfl := Option.some.inj (hslot.symm.trans (hk ▸ ht))
    obtain rfl := Option.some.inj (hholder.symm.trans hheld)
    exact .inr ⟨_, hcalls ▸ getElem?_setPhase_self hcall, rfl⟩
  · have hother : k ≠ n := by
      rintro rfl
      obtain rfl := Option.some.inj (hcall.symm.trans hwaiting)
      exact hk rfl
    refine .inl ⟨c', s, ?_, hqueued, ?_, hempty, hholder, hm⟩
    · rw [hcalls, getElem?_setPhase_ne hother, hwaiting]
    · rw [hslots, getElem?_modifySlot_ne hk, hslot]

/-- A call waits as long as the one it waits for has no result. -/
theorem WaitsFor.after {reply : Option Reply} (h : f.WaitsFor n m) (horderly : f.IsOrderly)
    (hmoves : f.Moves reply f') : f'.WaitsFor n m ∨ f'.HasResult m := by
  have hwaits := h
  obtain ⟨c, s, hcall, hqueued, hslot, hempty, hholder, hm⟩ := h
  cases hmoves with
  | stay => exact .inl hwaits
  | found =>
    exact .inl ⟨c, s, getElem?_concat.mpr (.inl hcall), hqueued, hslot, hempty, hholder, hm⟩
  | opened =>
    exact .inl ⟨c, s, getElem?_concat.mpr (.inl hcall), hqueued, getElem?_concat.mpr (.inl hslot),
      hempty, hholder, hm⟩
  | @joined id context slot =>
    by_cases hk : slot = c.slot
    · subst hk
      exact .inl ⟨c, _, getElem?_concat.mpr (.inl hcall), hqueued, getElem?_modifySlot_self hslot,
        hempty, hholder, hm⟩
    · exact .inl ⟨c, s, getElem?_concat.mpr (.inl hcall), hqueued,
        (getElem?_modifySlot_ne hk).trans hslot, hempty, hholder, hm⟩
  | @noticed k c' d hat _ hvalue =>
    have hother : k ≠ n := by
      rintro rfl
      obtain rfl := Option.some.inj (hat.symm.trans hcall)
      rw [value?_of_getElem? hslot, hempty] at hvalue
      contradiction
    exact .inl
      ⟨c, s, (getElem?_setPhase_ne hother).trans hcall, hqueued, hslot, hempty, hholder, hm⟩
  | @tookOver k c' t hat _ ht _ hheld =>
    have hother : k ≠ n := by
      rintro rfl
      obtain rfl := Option.some.inj (hat.symm.trans hcall)
      obtain rfl := Option.some.inj (hslot.symm.trans ht)
      exact hm (Option.some.inj (hholder.symm.trans hheld))
    exact .inl
      ⟨c, s, (getElem?_setPhase_ne hother).trans hcall, hqueued, hslot, hempty, hholder, hm⟩
  | filled hat hfetching => exact hwaits.settle horderly hat hfetching rfl rfl
  | failed hat hfetching =>
    exact hwaits.settle horderly hat hfetching calls_evictEmpty slots_evictEmpty

theorem IsAttended.waitsFor_run (h : f.IsAttended) (hwaits : f.WaitsFor n m ∨ f.HasResult m)
    (steps : List Step) :
    (Flight.run steps f).WaitsFor n m ∨ (Flight.run steps f).HasResult m := by
  induction steps generalizing f with
  | nil => exact hwaits
  | cons st rest ih =>
    refine ih (h.step st) ?_
    have hmoves := h.orderly.moves st
    rcases hwaits with hwaits | hresult
    · exact hwaits.after h.orderly hmoves
    · exact .inr (hmoves.hasResult hresult)

/-- The one waited for works on the same ID, and has no result yet. -/
theorem IsAttended.inProgress_of_waitsFor (h : f.IsAttended) (hcall : f.calls[n]? = some c)
    (hwaits : f.WaitsFor n m) :
    ∃ c', f.calls[m]? = some c' ∧ c'.id = c.id ∧ c'.phase.isSettled = false := by
  obtain ⟨c₀, s, hcall₀, -, hslot, -, hholder, -⟩ := hwaits
  obtain rfl := Option.some.inj (hcall.symm.trans hcall₀)
  have hfirst : m ∈ s.line := by simp [FlightSlot.line, hholder]
  obtain ⟨c', hcall', hat, hopen⟩ := (h.orderly.inLine c.slot s hslot).line m hfirst
  exact ⟨c', hcall', h.named.same (hat ▸ mem_tickets hcall') (mem_tickets hcall), hopen⟩

end Flight

namespace Overlap

variable {α : Type}

/-- A look at a decode that waits for another does nothing under any
    context. -/
theorem look_of_waitsFor (b : Bound α) (ctx : Context) (e : Envelope) {o : Overlap} {n m : Nat}
    (h : o.flight.WaitsFor n m) : look b ctx o (.pending e n) = (.pending e n, o) := by
  have hlook := Flight.look_of_waitsFor h
  obtain ⟨c, s, hcall, hqueued, -⟩ := h
  have hphase : o.flight.phase? n = some .queued := by
    rw [Flight.phase?, hcall, Option.map_some, hqueued]
  simp only [look, hlook, proceed, hphase]

end Overlap

namespace Flight

/-- **Cancelled unless waiting**: however calls on a new cache are polled,
    the next poll of a call whose context is cancelled ends it, with the
    descriptor if its slot is filled and with the cancellation otherwise,
    exactly if the call does not wait for another.  If it does, no poll
    and no look brings it forward under any context, until the other, who
    asks for the same ID, has its result. -/
theorem cancelled_unless_waiting (ps : List Poll) :
    let f := polls ps (.ofCache .empty)
    (∀ (n now : Nat) (work : Option (Except RegistryError RegisteredSchema)) (c : FlightCall),
      f.calls[n]? = some c → c.phase.isSettled = false → c.context.isCancelled now = true →
      ((f.poll n now work).phase? n = some (.settled (f.resultWhenCancelled c)) ↔
        ¬ ∃ m, f.WaitsFor n m)) ∧
    (∀ n m, f.WaitsFor n m →
      (∀ now work, f.poll n now work = f) ∧
      (∀ (α : Type) (b : Bound α) (ctx : Context) (e : Envelope) (stage : Staged),
        Overlap.look b ctx { flight := f, stage } (.pending e n) =
          (.pending e n, { flight := f, stage })) ∧
      (∀ later, (polls later f).WaitsFor n m ∨ (polls later f).HasResult m) ∧
      ∀ c, f.calls[n]? = some c →
        ∃ c', f.calls[m]? = some c' ∧ c'.id = c.id ∧ c'.phase.isSettled = false) := by
  intro f
  have h : f.IsAttended := IsAttended.empty.polls ps
  constructor
  · intro n now work c hcall hopen hcancelled
    exact h.phase?_poll_iff hcall hopen hcancelled
  · intro n m hwaits
    refine ⟨fun now work => poll_of_waitsFor hwaits, ?_, ?_, fun c hcall => ?_⟩
    · intro α b ctx e stage
      exact Overlap.look_of_waitsFor b ctx e hwaits
    · intro later
      obtain ⟨steps, hsteps⟩ := exists_run_polls later f
      rw [hsteps]
      exact h.waitsFor_run (.inl hwaits) steps
    · exact h.inProgress_of_waitsFor hcall hwaits

/-- Cancelled from the start. -/
def withdrawn : Context :=
  { Context.unbounded with cancelAt := some 0 }

/-- Two calls, of which the second is cancelled and waits for the first. -/
def withdrawing : List Poll :=
  [.first 7 .unbounded 0 none, .first 7 withdrawn 0 none]

/-- The second call still queues after its next poll.  And a call that
    waits for nobody is not ended either, if the registry does not mind the
    context: a planted schema is fetched under it. -/
theorem not_cancelled_waiting :
    (¬ ∀ (ps : List Poll) (n now : Nat) (work : Option (Except RegistryError RegisteredSchema))
        (c : FlightCall), (polls ps (.ofCache .empty)).calls[n]? = some c →
      c.phase.isSettled = false → c.context.isCancelled now = true →
      ((polls ps (.ofCache .empty)).poll n now work).phase? n =
        some (.settled ((polls ps (.ofCache .empty)).resultWhenCancelled c))) ∧
    (¬ ∀ (s : Staged) (id : UInt32) (ctx : Context), ctx.isCancelled s.now = true →
      (Cache.getOrFetch Staged.registry id ctx .empty s).1 =
        .error (RegistryError.cancelled.toFetch id)) := by
  constructor
  · intro hended
    have hsecond := hended withdrawing 1 0 none _ rfl rfl (by decide)
    have hqueued : ((polls withdrawing (.ofCache .empty)).poll 1 0 none).phase? 1 =
        some .queued := rfl
    rw [hqueued] at hsecond
    cases hsecond
  · intro hended
    let schema : RegisteredSchema :=
      { id := 50, subject := none, version := none, schemaType := .protobuf
        text := Descriptor.keywords.text }
    have hread : Cache.interpret 50 (.ok schema) = .ok Descriptor.keywords :=
      Cache.interpret_of_text rfl rfl
    have hcancelled := hended (Staged.empty.plant schema) 50 withdrawn (by decide)
    have hfetched : (Staged.registry.fetch 50 withdrawn (Staged.empty.plant schema)).1 =
        .ok schema := rfl
    rw [Cache.getOrFetch_of_none rfl, hfetched, hread] at hcancelled
    contradiction

end Flight

end EventCodec
