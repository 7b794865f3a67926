import EventCodec.Proofs.Maps
import EventCodec.Proofs.Registry.Run

/-! # Calls that contend for the registry

    Many callers may call one registry in memory at the same time.  A call
    is polled, again and again, under its own context.  It does nothing
    before it has the lock: until then a poll finds it cancelled, timed
    out, or still waiting (`Context.poll`).  The poll that gets the lock
    does all the rest.  It sees the memory once, changes it once if the
    request is one that changes anything, and has the answer at its end;
    nobody looks at the context in between.  Meanwhile other calls may be
    polled, but those that would get in the way do not get the lock.

    Which call is polled, when the lock is granted to it and how much time
    passes is left open.  So what holds of every run here holds whatever
    the scheduler does, and whatever the order in which the lock lets
    waiting calls in.

    A step is taken only if it can be; what it comes to is said once, by
    `Moves`, and everything else is derived from that. -/

namespace EventCodec

open Schema
open Registry (Request Reply)

/-! ### State -/

/-- Whether a request needs the memory for itself. -/
def Registry.Request.writes : Request → Bool
  | .register .. | .delete .. => true
  | .fetch _ | .latest _ | .subjects => false

/-- How far a call has come. -/
inductive Contender.Progress where
  | waiting
  /-- It has the lock, and has seen the memory. -/
  | working (seen : Memory)
  | ended (answer : Except RegistryError Reply)

/-- A call to the registry. -/
structure Contender where
  context : Context
  /-- The subject whose newest schema is asked for first.  This is how a
      codec is opened; what the answer is does not matter. -/
  ahead : Option String
  request : Request
  progress : Contender.Progress

namespace Contender

/-- What is asked for now. -/
def current (c : Contender) : Request :=
  match c.ahead with
  | some subject => .latest subject
  | none => c.request

def isWorking (c : Contender) : Bool :=
  match c.progress with
  | .working _ => true
  | .waiting | .ended _ => false

/-- What is asked for now has its answer. -/
def answered (c : Contender) (answer : Except RegistryError Reply) : Contender :=
  match c.ahead with
  | some _ => { c with ahead := none, progress := .waiting }
  | none => { c with progress := .ended answer }

end Contender

structure Contention where
  memory : Memory
  now : Nat
  /-- The calls, each under its number. -/
  calls : List (Nat × Contender)

namespace Contention

/-- A memory that nobody has called yet. -/
def start (memory : Memory) (now : Nat) : Contention :=
  { memory, now, calls := [] }

def call? (w : Contention) (n : Nat) : Option Contender :=
  Table.get? n w.calls

def setCall (w : Contention) (n : Nat) (c : Contender) : Contention :=
  { w with calls := Table.insert n c w.calls }

/-- Without a call. -/
def without (w : Contention) (n : Nat) : Contention :=
  { w with calls := Table.erase n w.calls }

/-- Whether the lock can be granted: those who have it and the one who
    asks for it only read, or nobody has it. -/
def admits (w : Contention) (c : Contender) : Bool :=
  w.calls.all fun e => !(e.2.isWorking && (e.2.current.writes || c.current.writes))

/-- A request does what it does to the memory that was seen. -/
def write (w : Contention) (request : Request) (seen : Memory) : Contention :=
  if request.writes then { w with memory := (seen.perform request).2 } else w

/-- The call has its answer, and it is a good one. -/
def HasSucceeded (w : Contention) (n : Nat) : Prop :=
  ∃ c reply, w.call? n = some c ∧ c.progress = .ended (.ok reply)

/-! ### Steps -/

inductive Step where
  | call (n : Nat) (request : Request) (ctx : Context)
  /-- A codec is opened for a subject. -/
  | opening (n : Nat) (subject : String) (d : Descriptor) (ctx : Context)
  /-- One poll of a call that waits; the lock is granted or it is not. -/
  | look (n : Nat) (granted : Bool)
  /-- The poll comes to its end. -/
  | finish (n : Nat)
  | pass (duration : Nat)

/-- The call a step is one of. -/
def Step.caller? : Step → Option Nat
  | .call n .. | .opening n .. | .look n _ | .finish n => some n
  | .pass _ => none

/-- A call under a number that is free. -/
def begin? (w : Contention) (n : Nat) (c : Contender) : Option Contention :=
  match w.call? n with
  | some _ => none
  | none => some (w.setCall n c)

/-- What comes of a look at a call. -/
def settle (w : Contention) (n : Nat) (c : Contender) :
    Option (Except RegistryError Unit) → Contention
  | none => w
  | some (.error e) => w.setCall n (c.answered (.error e))
  | some (.ok ()) => w.setCall n { c with progress := .working w.memory }

def look? (w : Contention) (n : Nat) (granted : Bool) : Option Contention :=
  match w.call? n with
  | none => none
  | some c =>
    match c.progress with
    | .working _ | .ended _ => none
    | .waiting =>
      if granted && !w.admits c then none
      else some (w.settle n c (c.context.poll w.now (if granted then some (.ok ()) else none)))

def finish? (w : Contention) (n : Nat) : Option Contention :=
  match w.call? n with
  | none => none
  | some c =>
    match c.progress with
    | .waiting | .ended _ => none
    | .working seen =>
      some ((w.write c.current seen).setCall n (c.answered (seen.perform c.current).1))

/-- What a step comes to, if it can be taken. -/
def step? (w : Contention) : Step → Option Contention
  | .call n request ctx => w.begin? n { context := ctx, ahead := none, request, progress := .waiting }
  | .opening n subject d ctx =>
    w.begin? n
      { context := ctx, ahead := some subject, request := .register subject d, progress := .waiting }
  | .look n granted => w.look? n granted
  | .finish n => w.finish? n
  | .pass duration => some { w with now := w.now + duration }

def run? : List Step → Contention → Option Contention
  | [], w => some w
  | st :: rest, w => (w.step? st).bind (run? rest)

variable {w w' : Contention} {st : Step} {steps : List Step} {n k : Nat} {c : Contender}

/-! ### One call among others -/

theorem call?_setCall (k : Nat) :
    (w.setCall n c).call? k = if k = n then some c else w.call? k :=
  Table.get?_insert k

theorem call?_setCall_self : (w.setCall n c).call? n = some c := by
  rw [call?_setCall, if_pos rfl]

theorem call?_setCall_cases {c' : Contender} (h : (w.setCall n c').call? k = some c) :
    (k = n ∧ c = c') ∨ (k ≠ n ∧ w.call? k = some c) := by
  rw [call?_setCall] at h
  by_cases hk : k = n
  · rw [if_pos hk] at h
    exact .inl ⟨hk, (Option.some.inj h).symm⟩
  · rw [if_neg hk] at h
    exact .inr ⟨hk, h⟩

theorem call?_without (hne : k ≠ n) : (w.without n).call? k = w.call? k := by
  have herase : (w.without n).call? k = if k = n then none else w.call? k := Table.get?_erase k
  rw [herase, if_neg hne]

/-- What is set for a call is gone with it. -/
theorem without_setCall_self : (w.setCall n c).without n = w.without n := by
  unfold without setCall
  simp [Table.insert, Table.erase, List.filter_append, List.filter_filter]

theorem without_setCall (hne : k ≠ n) : (w.setCall k c).without n = (w.without n).setCall k c := by
  unfold without setCall
  have hkeeps : ((k, c).1 != n) = true := by simpa using hne
  simp [Table.insert, Table.erase, List.filter_append, List.filter_filter, Bool.and_comm, hne]

theorem memory_setCall : (w.setCall n c).memory = w.memory :=
  rfl

/-- A call that is found is one of all. -/
theorem mem_calls (h : w.call? n = some c) : (n, c) ∈ w.calls := by
  unfold call? Table.get? at h
  obtain ⟨⟨number, call⟩, hfound, rfl⟩ := Option.map_eq_some_iff.mp h
  have hnumber := List.find?_some hfound
  obtain rfl : number = n := by simpa using hnumber
  exact List.mem_of_find?_eq_some hfound

/-- Whoever has the lock while it is granted only reads. -/
theorem reads_of_admits {c' : Contender} (h : w.admits c = true) (hcall : w.call? k = some c')
    (hworking : c'.isWorking = true) : c'.current.writes = false ∧ c.current.writes = false := by
  have hall := List.all_eq_true.mp h (k, c') (mem_calls hcall)
  simpa [hworking] using hall

theorem admits_without (h : w.admits c = true) : (w.without n).admits c = true := by
  unfold admits at h ⊢
  rw [List.all_eq_true] at h ⊢
  intro e he
  exact h e (List.mem_of_mem_filter he)

/-! ### All a step can do -/

/-- What each step comes to. -/
inductive Moves (w : Contention) : Step → Contention → Prop where
  | begins {st : Step} {n : Nat} {c : Contender} : st.caller? = some n → w.call? n = none →
      c.progress = .waiting → Moves w st (w.setCall n c)
  | waits {n : Nat} {granted : Bool} : Moves w (.look n granted) w
  | fails {n : Nat} {granted : Bool} {c : Contender} {e : RegistryError} : w.call? n = some c →
      c.progress = .waiting → Moves w (.look n granted) (w.setCall n (c.answered (.error e)))
  | enters {n : Nat} {c : Contender} : w.call? n = some c → c.progress = .waiting →
      w.admits c = true → Moves w (.look n true) (w.setCall n { c with progress := .working w.memory })
  | finishes {n : Nat} {c : Contender} {seen : Memory} : w.call? n = some c →
      c.progress = .working seen → Moves w (.finish n)
        ((w.write c.current seen).setCall n (c.answered (seen.perform c.current).1))
  | passes {duration : Nat} : Moves w (.pass duration) { w with now := w.now + duration }

/-- Only with the lock does a poll come to work. -/
theorem poll_of_ok {ctx : Context} {now : Nat} {granted : Bool}
    (h : ctx.poll now (if granted then some (.ok ()) else none) = some (.ok ())) :
    granted = true := by
  cases granted with
  | true => rfl
  | false =>
    unfold Context.poll at h
    split at h
    · cases h
    · split at h
      · contradiction
      · split at h <;> cases h

theorem moves_begin? (hcaller : st.caller? = some n) (hwaiting : c.progress = .waiting)
    (h : w.begin? n c = some w') : w.Moves st w' := by
  unfold begin? at h
  split at h
  · contradiction
  · next hnone =>
    obtain rfl := Option.some.inj h
    exact .begins hcaller hnone hwaiting

theorem moves_look? {granted : Bool} (h : w.look? n granted = some w') :
    w.Moves (.look n granted) w' := by
  unfold look? at h
  split at h
  · contradiction
  · next c hcall =>
    split at h
    · contradiction
    · contradiction
    · next hwaiting =>
      split at h
      · contradiction
      · next hadmits =>
        obtain rfl := Option.some.inj h
        -- the poll leaves the call waiting, ends it, or lets it in
        rcases hpoll : c.context.poll w.now (if granted then some (.ok ()) else none) with
          _ | (e | ⟨⟩)
        · exact .waits
        · exact .fails hcall hwaiting
        · obtain rfl := poll_of_ok hpoll
          have hadmitted : w.admits c = true := by simpa using hadmits
          exact .enters hcall hwaiting hadmitted

theorem moves_finish? (h : w.finish? n = some w') : w.Moves (.finish n) w' := by
  unfold finish? at h
  split at h
  · contradiction
  · next c hcall =>
    split at h
    · contradiction
    · contradiction
    · next seen hworking =>
      obtain rfl := Option.some.inj h
      exact .finishes hcall hworking

theorem moves_step? (h : w.step? st = some w') : w.Moves st w' := by
  cases st with
  | call n request ctx =>
    have hcaller : (Step.call n request ctx).caller? = some n := rfl
    exact moves_begin? hcaller rfl h
  | opening n subject d ctx =>
    have hcaller : (Step.opening n subject d ctx).caller? = some n := rfl
    exact moves_begin? hcaller rfl h
  | look n granted => exact moves_look? h
  | finish n => exact moves_finish? h
  | pass duration =>
    obtain rfl := Option.some.inj h
    exact .passes

theorem run?_cons_eq_some (h : run? (st :: steps) w = some w') :
    ∃ v, w.step? st = some v ∧ run? steps v = some w' :=
  Option.bind_eq_some_iff.mp h

end Contention

end EventCodec
