import EventCodec.Proofs.Codec.Expiry
import EventCodec.Proofs.Registry.Contention

/-! # A call that fails has no effect

    Calls that contend for the registry see the memory as it is while they
    have the lock (`IsExclusive`).  So a step changes the memory only if a
    call returns well by it, and then to what the request comes to.

    Of a call that fails nothing is left, whatever it has waited for on
    the way: without it the other calls can take the same steps, and end
    where they ended with it (`run_without`). -/

namespace EventCodec

open Schema
open Registry (Request Reply)

/-! ### What a request does to the memory -/

namespace Memory

variable {m m' : Memory} {request : Request} {subject : String} {d : Descriptor} {reply : Reply}

theorem perform_of_reads (h : request.writes = false) : (m.perform request).2 = m := by
  cases request with
  | register | delete => contradiction
  | fetch | latest | subjects => rfl

theorem delete_of_error {e : RegistryError} (h : (m.delete subject).1 = .error e) :
    (m.delete subject).2 = m := by
  unfold delete at h ⊢
  cases hversions : m.versions? subject with
  | none => rfl
  | some versions =>
    rw [hversions] at h
    contradiction

/-- A request that fails changes nothing, the counter included. -/
theorem perform_of_error {e : RegistryError} (h : (m.perform request).1 = .error e) :
    (m.perform request).2 = m := by
  cases request with
  | register subject d =>
    cases hregister : (m.register subject d).1 with
    | error e => exact register_of_error hregister
    | ok r =>
      rw [perform, hregister] at h
      contradiction
  | delete subject =>
    cases hdelete : (m.delete subject).1 with
    | error e => exact delete_of_error hdelete
    | ok versions =>
      rw [perform, Registry.reply, hdelete] at h
      contradiction
  | fetch | latest | subjects => rfl

/-- A subject that has a version is there. -/
theorem mem_subjectNames {id : UInt32} (h : id ∈ m.versionsOf subject) :
    subject ∈ m.subjectNames := by
  unfold versionsOf versions? Ordered.get? at h
  cases hfound : m.subjects.find? fun e => e.1 == subject with
  | none =>
    rw [hfound] at h
    contradiction
  | some e =>
    have hsubject : e.1 = subject := by simpa using List.find?_some hfound
    exact List.mem_map.mpr ⟨e, List.mem_of_find?_eq_some hfound, hsubject⟩

/-- A registration that goes well leaves its subject with the ID. -/
theorem perform_register (h : m.perform (.register subject d) = (.ok reply, m')) :
    ∃ id, reply = .id id ∧ subject ∈ m'.subjectNames ∧ id ∈ m'.versionsOf subject := by
  obtain ⟨hanswer, rfl⟩ := Prod.mk.inj h
  cases hregister : (m.register subject d).1 with
  | error e =>
    rw [hregister] at hanswer
    contradiction
  | ok r =>
    rw [hregister] at hanswer
    have hmem := mem_versionsOf_of_register hregister
    exact ⟨r.id, (Except.ok.inj hanswer).symm, mem_subjectNames hmem, hmem⟩

end Memory

namespace Contention

variable {w w' : Contention} {st : Step} {steps : List Step} {n k : Nat} {c : Contender}

/-! ### Whoever has the lock has seen the memory as it is -/

/-- The memory does not change behind the back of a call that has the
    lock. -/
structure IsExclusive (w : Contention) : Prop where
  seen : ∀ n c seen, w.call? n = some c → c.progress = .working seen → seen = w.memory
  /-- Two calls can have the lock only if they only read. -/
  shared : ∀ n k c c', n ≠ k → w.call? n = some c → w.call? k = some c' →
    c.isWorking = true → c'.isWorking = true → c.current.writes = false

theorem isWorking_answered (answer : Except RegistryError Reply) :
    (c.answered answer).isWorking = false := by
  unfold Contender.answered
  split <;> rfl

theorem isWorking_of_waiting (h : c.progress = .waiting) : c.isWorking = false := by
  rw [Contender.isWorking, h]

theorem isWorking_of_working {seen : Memory} (h : c.progress = .working seen) :
    c.isWorking = true := by
  rw [Contender.isWorking, h]

theorem isExclusive_start (memory : Memory) (now : Nat) : (start memory now).IsExclusive where
  seen := by intro n c seen hcall; contradiction
  shared := by intro n k c c' hne hcall; contradiction

/-- A call that does not have the lock does not matter. -/
theorem IsExclusive.setCall (h : w.IsExclusive) (hidle : c.isWorking = false) :
    (w.setCall n c).IsExclusive where
  seen := by
    intro k c' seen hcall hworking
    rcases call?_setCall_cases hcall with ⟨-, rfl⟩ | ⟨-, hcall⟩
    · rw [isWorking_of_working hworking] at hidle
      contradiction
    · exact h.seen k c' seen hcall hworking
  shared := by
    intro j k c₁ c₂ hne hj hk hworking hworking'
    rcases call?_setCall_cases hj with ⟨-, rfl⟩ | ⟨-, hj⟩
    · rw [hworking] at hidle
      contradiction
    · rcases call?_setCall_cases hk with ⟨-, rfl⟩ | ⟨-, hk⟩
      · rw [hworking'] at hidle
        contradiction
      · exact h.shared j k c₁ c₂ hne hj hk hworking hworking'

theorem IsExclusive.enter (h : w.IsExclusive) (hadmits : w.admits c = true) :
    (w.setCall n { c with progress := .working w.memory }).IsExclusive where
  seen := by
    intro k c' seen hcall hworking
    rcases call?_setCall_cases hcall with ⟨-, rfl⟩ | ⟨-, hcall⟩
    · exact (Contender.Progress.working.inj hworking).symm
    · exact h.seen k c' seen hcall hworking
  shared := by
    intro j k c₁ c₂ hne hj hk hworking hworking'
    rcases call?_setCall_cases hj with ⟨hjn, rfl⟩ | ⟨-, hj⟩
    · -- the call that gets the lock, beside one that has it
      rcases call?_setCall_cases hk with ⟨hkn, -⟩ | ⟨-, hk⟩
      · exact absurd (hjn.trans hkn.symm) hne
      · exact (reads_of_admits hadmits hk hworking').2
    · rcases call?_setCall_cases hk with ⟨-, rfl⟩ | ⟨-, hk⟩
      · exact (reads_of_admits hadmits hj hworking).1
      · exact h.shared j k c₁ c₂ hne hj hk hworking hworking'

theorem memory_write {request : Request} : (w.write request w.memory).memory =
    (w.memory.perform request).2 := by
  unfold write
  split
  · rfl
  · next hreads => exact (Memory.perform_of_reads (by simpa using hreads)).symm

theorem call?_write {request : Request} {seen : Memory} (k : Nat) :
    (w.write request seen).call? k = w.call? k := by
  unfold write
  split <;> rfl

/-- While a call has the lock that may change the memory, no other call
    has it. -/
theorem IsExclusive.not_isWorking (h : w.IsExclusive) (hcall : w.call? n = some c)
    (hworking : c.isWorking = true) (hwrites : c.current.writes = true) {c' : Contender}
    (hne : k ≠ n) (hcall' : w.call? k = some c') : c'.isWorking = false := by
  cases hworking' : c'.isWorking with
  | false => rfl
  | true =>
    have hreads := h.shared n k c c' hne.symm hcall hcall' hworking hworking'
    rw [hwrites] at hreads
    contradiction

/-- Where no call has the lock there is nothing to be said. -/
theorem isExclusive_of_idle (h : ∀ k c, w.call? k = some c → c.isWorking = false) :
    w.IsExclusive where
  seen := by
    intro k c seen hcall hworking
    have hidle := h k c hcall
    rw [isWorking_of_working hworking] at hidle
    contradiction
  shared := by
    intro j k c c' _ hj _ hworking _
    have hidle := h j c hj
    rw [hworking] at hidle
    contradiction

theorem IsExclusive.finish (h : w.IsExclusive) {seen : Memory} (hcall : w.call? n = some c)
    (hworking : c.progress = .working seen) (answer : Except RegistryError Reply) :
    ((w.write c.current seen).setCall n (c.answered answer)).IsExclusive := by
  by_cases hwrites : c.current.writes = true
  · -- when the lock is given back nobody has it, and nobody has seen the old memory
    apply isExclusive_of_idle
    intro k c' hcall'
    rcases call?_setCall_cases hcall' with ⟨-, rfl⟩ | ⟨hne, hcall'⟩
    · exact isWorking_answered answer
    · rw [call?_write] at hcall'
      exact h.not_isWorking hcall (isWorking_of_working hworking) hwrites hne hcall'
  · have hsame : w.write c.current seen = w := if_neg hwrites
    rw [hsame]
    exact h.setCall (isWorking_answered answer)

theorem IsExclusive.moves (h : w.IsExclusive) (hmoves : w.Moves st w') : w'.IsExclusive := by
  cases hmoves with
  | begins _ _ hwaiting => exact h.setCall (isWorking_of_waiting hwaiting)
  | waits => exact h
  | fails _ _ => exact h.setCall (isWorking_answered _)
  | enters _ _ hadmits => exact h.enter hadmits
  | finishes hcall hworking => exact h.finish hcall hworking _
  | passes => exact ⟨h.seen, h.shared⟩

/-! ### Only a success has an effect -/

/-- If a step changes the memory, it is one by which a call returns well,
    and the change is what the request comes to. -/
theorem IsExclusive.memory_cases (h : w.IsExclusive) (hmoves : w.Moves st w') :
    w'.memory = w.memory ∨
      ∃ n c reply, st = .finish n ∧ w.call? n = some c ∧
        w'.call? n = some { c with progress := .ended (.ok reply) } ∧
        w.memory.perform c.request = (.ok reply, w'.memory) := by
  cases hmoves with
  | begins | waits | fails | enters | passes => exact .inl rfl
  | @finishes n c seen hcall hworking =>
    obtain rfl := h.seen n c seen hcall hworking
    rw [memory_setCall, memory_write]
    cases hahead : c.ahead with
    | some subject =>
      -- what is asked for first only reads
      rw [Contender.current, hahead]
      exact .inl rfl
    | none =>
      have hcurrent : c.current = c.request := by rw [Contender.current, hahead]
      rw [hcurrent]
      cases hanswer : (w.memory.perform c.request).1 with
      | error e => exact .inl (Memory.perform_of_error hanswer)
      | ok reply =>
        refine .inr ⟨n, c, reply, rfl, hcall, ?_, ?_⟩
        · rw [call?_setCall_self, Contender.answered, hahead]
        · exact Prod.ext hanswer rfl

/-- A call that has succeeded stays as it is when one is set that has
    not. -/
theorem HasSucceeded.setCall (h : w.HasSucceeded n)
    (hopen : ∀ c', w.call? k = some c' → ∀ reply, c'.progress ≠ .ended (.ok reply)) :
    (w.setCall k c).HasSucceeded n := by
  obtain ⟨c', reply, hcall, hended⟩ := h
  have hne : n ≠ k := by
    rintro rfl
    exact hopen c' hcall reply hended
  exact ⟨c', reply, by rw [call?_setCall, if_neg hne, hcall], hended⟩

/-- A success is final. -/
theorem Moves.hasSucceeded (hmoves : w.Moves st w') (h : w.HasSucceeded n) :
    w'.HasSucceeded n := by
  cases hmoves with
  | begins _ hnone _ =>
    refine h.setCall fun c' hcall => ?_
    rw [hnone] at hcall
    contradiction
  | waits => exact h
  | fails hcall hwaiting | enters hcall hwaiting _ =>
    refine h.setCall fun c' hcall' reply hended => ?_
    obtain rfl := Option.some.inj (hcall.symm.trans hcall')
    rw [hwaiting] at hended
    contradiction
  | finishes hcall hworking =>
    obtain ⟨c', reply, hcall', hended⟩ := h
    refine HasSucceeded.setCall ⟨c', reply, (call?_write n).trans hcall', hended⟩ ?_
    intro c'' hcall'' reply' hended'
    rw [call?_write] at hcall''
    obtain rfl := Option.some.inj (hcall.symm.trans hcall'')
    rw [hworking] at hended'
    contradiction
  | passes => exact h

theorem hasSucceeded_run (h : w.HasSucceeded n) (hrun : run? steps w = some w') :
    w'.HasSucceeded n := by
  induction steps generalizing w with
  | nil =>
    obtain rfl := Option.some.inj hrun
    exact h
  | cons st rest ih =>
    obtain ⟨v, hstep, hrest⟩ := run?_cons_eq_some hrun
    exact ih ((moves_step? hstep).hasSucceeded h) hrest

/-- A call that has just succeeded has done what it was to do. -/
theorem IsExclusive.perform_of_succeeds (h : w.IsExclusive) (hmoves : w.Moves st w')
    {reply : Reply} (hcall : w'.call? n = some c) (hended : c.progress = .ended (.ok reply))
    (hnew : w.call? n ≠ some c) : w.memory.perform c.request = (.ok reply, w'.memory) := by
  -- a call that was not touched would have succeeded before
  have hset : ∀ {v : Contention} {k : Nat} {c' : Contender}, (∀ j, v.call? j = w.call? j) →
      (v.setCall k c').call? n = some c → c = c' := by
    intro v k c' hsame hcall
    rcases call?_setCall_cases hcall with ⟨-, heq⟩ | ⟨-, hold⟩
    · exact heq
    · exact absurd ((hsame n).symm.trans hold) hnew
  cases hmoves with
  | waits | passes => exact absurd hcall hnew
  | begins _ _ hwaiting =>
    obtain rfl := hset (fun _ => rfl) hcall
    rw [hwaiting] at hended
    contradiction
  | fails =>
    obtain rfl := hset (fun _ => rfl) hcall
    unfold Contender.answered at hended
    split at hended <;> cases hended
  | enters =>
    obtain rfl := hset (fun _ => rfl) hcall
    contradiction
  | @finishes k c' seen hcall' hworking =>
    obtain rfl := hset call?_write hcall
    obtain rfl := h.seen k c' seen hcall' hworking
    rw [memory_setCall, memory_write]
    -- what is asked for first ends no call
    cases hahead : c'.ahead with
    | some subject =>
      rw [Contender.answered, hahead] at hended
      contradiction
    | none =>
      have hcurrent : c'.current = c'.request := by rw [Contender.current, hahead]
      rw [Contender.answered, hahead] at hended ⊢
      rw [hcurrent] at hended ⊢
      exact Prod.ext (Contender.Progress.ended.inj hended) rfl

/-! ### The run without a call -/

theorem write_eq_self {request : Request} {seen : Memory}
    (h : (w.write request seen).memory = w.memory) : w.write request seen = w := by
  unfold write at h ⊢
  split at h
  · next hwrites =>
    have hsame : (seen.perform request).2 = w.memory := h
    rw [if_pos hwrites, hsame]
  · next hreads => exact if_neg hreads

theorem write_without {request : Request} {seen : Memory} :
    (w.write request seen).without n = (w.without n).write request seen := by
  unfold write
  split <;> rfl

theorem settle_without (hne : k ≠ n) {found : Option (Except RegistryError Unit)} :
    (w.without n).settle k c found = (w.settle k c found).without n := by
  rcases found with _ | (e | ⟨⟩)
  · rfl
  · exact (without_setCall hne).symm
  · exact (without_setCall hne).symm

/-- A step of a call that has not succeeded has no effect on anything
    else. -/
theorem IsExclusive.without_of_not_hasSucceeded (h : w.IsExclusive) (hmoves : w.Moves st w')
    (hcaller : st.caller? = some n) (hfailed : ¬ w'.HasSucceeded n) :
    w'.without n = w.without n := by
  have hmemory : w'.memory = w.memory := by
    rcases h.memory_cases hmoves with hsame | ⟨k, c, reply, rfl, -, hended, -⟩
    · exact hsame
    · obtain rfl := Option.some.inj hcaller
      exact absurd ⟨_, reply, hended, rfl⟩ hfailed
  cases hmoves with
  | waits => rfl
  | begins hcaller' =>
    obtain rfl := Option.some.inj (hcaller'.symm.trans hcaller)
    exact without_setCall_self
  | fails | enters =>
    obtain rfl := Option.some.inj hcaller
    exact without_setCall_self
  | finishes =>
    obtain rfl := Option.some.inj hcaller
    rw [without_setCall_self, write_eq_self hmemory]
  | passes => contradiction

theorem begin?_without (hne : k ≠ n) (h : w.begin? k c = some w') :
    (w.without n).begin? k c = some (w'.without n) := by
  unfold begin? at h ⊢
  rw [call?_without hne]
  split at h
  · contradiction
  · obtain rfl := Option.some.inj h
    rw [without_setCall hne]

theorem look?_without {granted : Bool} (hne : k ≠ n) (h : w.look? k granted = some w') :
    (w.without n).look? k granted = some (w'.without n) := by
  unfold look? at h ⊢
  rw [call?_without hne]
  cases hcall : w.call? k with
  | none =>
    rw [hcall] at h
    contradiction
  | some c =>
    rw [hcall] at h
    cases hprogress : c.progress with
    | working | ended =>
      simp only [hprogress] at h
      contradiction
    | waiting =>
      simp only [hprogress] at h ⊢
      split at h
      · contradiction
      · next hgranted =>
        obtain rfl := Option.some.inj h
        -- whoever was let in beside the call is let in without it
        have hgranted' : ¬ (granted && !(w.without n).admits c) = true := by
          cases granted with
          | false => simp
          | true =>
            have hadmits : w.admits c = true := by simpa using hgranted
            simp [admits_without hadmits]
        rw [if_neg hgranted', settle_without hne]
        rfl

theorem finish?_without (hne : k ≠ n) (h : w.finish? k = some w') :
    (w.without n).finish? k = some (w'.without n) := by
  unfold finish? at h ⊢
  rw [call?_without hne]
  cases hcall : w.call? k with
  | none =>
    rw [hcall] at h
    contradiction
  | some c =>
    rw [hcall] at h
    cases hprogress : c.progress with
    | waiting | ended =>
      simp only [hprogress] at h
      contradiction
    | working seen =>
      simp only [hprogress] at h ⊢
      obtain rfl := Option.some.inj h
      rw [without_setCall hne, write_without]

/-- Without a call, the steps of the others can still be taken: they find
    the same calls and the same memory, and fewer calls that have the
    lock. -/
theorem step?_without (hcaller : st.caller? ≠ some n) (h : w.step? st = some w') :
    (w.without n).step? st = some (w'.without n) := by
  have hne : ∀ {k : Nat}, st.caller? = some k → k ≠ n := by
    rintro k hk rfl
    exact hcaller hk
  cases st with
  | call k request ctx => exact begin?_without (hne rfl) h
  | opening k subject d ctx => exact begin?_without (hne rfl) h
  | look k granted => exact look?_without (hne rfl) h
  | finish k => exact finish?_without (hne rfl) h
  | pass duration =>
    obtain rfl := Option.some.inj h
    rfl

/-- The steps of the other calls. -/
def othersOf (n : Nat) (steps : List Step) : List Step :=
  steps.filter fun st => st.caller? ≠ some n

/-- A run ends the same without a call that has not succeeded. -/
theorem IsExclusive.run_without (h : w.IsExclusive) (hrun : run? steps w = some w')
    (hfailed : ¬ w'.HasSucceeded n) :
    run? (othersOf n steps) (w.without n) = some (w'.without n) := by
  induction steps generalizing w with
  | nil =>
    obtain rfl := Option.some.inj hrun
    rfl
  | cons st rest ih =>
    obtain ⟨v, hstep, hrest⟩ := run?_cons_eq_some hrun
    have hmoves := moves_step? hstep
    have hothers := ih (h.moves hmoves) hrest
    by_cases hcaller : st.caller? = some n
    · -- the call does not succeed later, so it has not succeeded here
      have hfailed' : ¬ v.HasSucceeded n := fun hv => hfailed (hasSucceeded_run hv hrest)
      rw [h.without_of_not_hasSucceeded hmoves hcaller hfailed'] at hothers
      have hskip : othersOf n (st :: rest) = othersOf n rest :=
        List.filter_cons_of_neg (by simpa using hcaller)
      rw [hskip]
      exact hothers
    · have hkeep : othersOf n (st :: rest) = st :: othersOf n rest :=
        List.filter_cons_of_pos (by simpa using hcaller)
      rw [hkeep, run?, step?_without hcaller hstep]
      exact hothers

theorem IsExclusive.run (h : w.IsExclusive) (hrun : run? steps w = some w') : w'.IsExclusive := by
  induction steps generalizing w with
  | nil =>
    obtain rfl := Option.some.inj hrun
    exact h
  | cons st rest ih =>
    obtain ⟨v, hstep, hrest⟩ := run?_cons_eq_some hrun
    exact ih (h.moves (moves_step? hstep)) hrest

end Contention

/-! ### Opening a codec -/

namespace Staged

variable {s s' : Staged} {α : Type} {type : EventType α} {subject : String} {ctx : Context}

/-- Nothing is left of an opening that fails. -/
theorem IsQuiet.memory_of_open_error (h : s.IsQuiet) {e : CodecError}
    (hopen : Codec.open registry type subject ctx s = (.error e, s')) :
    s'.memory = s.memory := by
  rcases h.open_spec type subject ctx with ⟨e', t, heq, hkeeps⟩ | ⟨d, r, t, heq, -, -⟩
  · obtain ⟨-, rfl⟩ := Prod.mk.inj (heq.symm.trans hopen)
    exact hkeeps.memory
  · have hcontra := (Prod.mk.inj (heq.symm.trans hopen)).1
    contradiction

/-- A codec that is open has its schema among the versions of its
    subject. -/
theorem IsQuiet.versions_of_open (h : s.IsQuiet) {c : Codec α}
    (hopen : Codec.open registry type subject ctx s = (.ok c, s')) :
    subject ∈ s'.memory.subjectNames ∧ c.bound.schemaId ∈ s'.memory.versionsOf subject := by
  rcases h.open_spec type subject ctx with ⟨e, t, heq, -⟩ | ⟨d, r, t, heq, -, hregister⟩
  · have hcontra := (Prod.mk.inj (heq.symm.trans hopen)).1
    contradiction
  · obtain ⟨hcodec, rfl⟩ := Prod.mk.inj (heq.symm.trans hopen)
    obtain rfl := Except.ok.inj hcodec
    have hperform : s.memory.perform (.register subject d) = (.ok (.id r.id), t.memory) := by
      rw [Memory.perform, hregister]
      rfl
    obtain ⟨id, hid, hlive, hmem⟩ := Memory.perform_register hperform
    obtain rfl := Reply.id.inj hid
    exact ⟨hlive, hmem⟩

end Staged

/-! ### A call that nobody contends with -/

namespace Contention

variable {w : Contention} {n : Nat} {c : Contender} {s : Staged} {ctx : Context}

theorem setCall_setCall {c' : Contender} : (w.setCall n c).setCall n c' = w.setCall n c' := by
  unfold setCall
  simp [Table.insert, Table.erase, List.filter_append, List.filter_filter]

theorem write_setCall {request : Request} {seen : Memory} :
    (w.setCall n c).write request seen = (w.write request seen).setCall n c := by
  unfold write
  split <;> rfl

theorem write_start {memory : Memory} {now : Nat} {request : Request} :
    (start memory now).write request memory = start (memory.perform request).2 now := by
  unfold write
  split
  · rfl
  · next hreads => rw [Memory.perform_of_reads (by simpa using hreads)]

/-- A call that is let in and not cancelled does what it is asked for. -/
theorem run?_turn (hwaiting : c.progress = .waiting)
    (hadmits : (w.setCall n c).admits c = true) (hlive : c.context.isCancelled w.now = false)
    (rest : List Step) :
    run? (.look n true :: .finish n :: rest) (w.setCall n c) =
      run? rest ((w.write c.current w.memory).setCall n
        (c.answered (w.memory.perform c.current).1)) := by
  let working : Contender := { c with progress := .working w.memory }
  have hlook : (w.setCall n c).look? n true = some (w.setCall n working) := by
    have hpoll : c.context.poll (w.setCall n c).now (some (.ok ())) = some (.ok ()) :=
      if_neg (Bool.eq_false_iff.mp hlive)
    unfold look?
    rw [call?_setCall_self]
    simp only [hwaiting, hadmits, Bool.not_true, Bool.and_false, Bool.false_eq_true, if_false,
      if_true, hpoll]
    exact congrArg some setCall_setCall
  have hfinish : (w.setCall n working).finish? n =
      some ((w.write c.current w.memory).setCall n
        (c.answered (w.memory.perform c.current).1)) := by
    unfold finish?
    rw [call?_setCall_self]
    show some _ = some _
    rw [write_setCall, setCall_setCall]
    rfl
  show ((w.setCall n c).look? n true).bind (run? (.finish n :: rest)) = _
  rw [hlook]
  show ((w.setCall n working).finish? n).bind (run? rest) = _
  rw [hfinish]
  rfl

/-- With nobody else about, a call that is not cancelled is one to the
    registry on its stage. -/
theorem run?_alone (h : s.IsQuiet) (hlive : ctx.isCancelled s.now = false) (n : Nat)
    (request : Request) :
    run? [.call n request ctx, .look n true, .finish n] (start s.memory s.now) =
      some ((start (Staged.registry.send ctx s request).2.memory s.now).setCall n
        { context := ctx, ahead := none, request
          progress := .ended (Staged.registry.send ctx s request).1 }) := by
  obtain ⟨hanswer, hmemory⟩ := Prod.ext_iff.mp (h.send_of_live hlive request)
  dsimp only at hanswer hmemory
  let c : Contender := { context := ctx, ahead := none, request, progress := .waiting }
  have hturn : run? [.look n true, .finish n] ((start s.memory s.now).setCall n c) = _ :=
    run?_turn rfl rfl hlive []
  show run? [.look n true, .finish n] ((start s.memory s.now).setCall n c) = _
  rw [hturn, hanswer, hmemory, ← write_start]
  rfl

/-- With nobody else about, an opening is that of a codec. -/
theorem run?_opening_alone (h : s.IsQuiet) (hlive : ctx.isCancelled s.now = false) {α : Type}
    {type : EventType α} {d : Descriptor} (hresolve : type.resolve = .ok d) (n : Nat)
    (subject : String) :
    run? [.opening n subject d ctx, .look n true, .finish n, .look n true, .finish n]
        (start s.memory s.now) =
      some ((start (Codec.open Staged.registry type subject ctx s).2.memory s.now).setCall n
        { context := ctx, ahead := none, request := .register subject d
          progress := .ended ((s.memory.register subject d).1.map fun r => .id r.id) }) := by
  obtain ⟨-, hmemory⟩ := h.open_of_live hlive hresolve subject
  let c : Contender :=
    { context := ctx, ahead := some subject, request := .register subject d, progress := .waiting }
  -- the answer to what is asked for first does not matter
  let c' : Contender := { c with ahead := none }
  have hfirst : run? [.look n true, .finish n, .look n true, .finish n]
      ((start s.memory s.now).setCall n c) =
        run? [.look n true, .finish n] ((start s.memory s.now).setCall n c') :=
    run?_turn rfl rfl hlive [.look n true, .finish n]
  have hsecond : run? [.look n true, .finish n] ((start s.memory s.now).setCall n c') = _ :=
    run?_turn rfl rfl hlive []
  show run? [.look n true, .finish n, .look n true, .finish n]
    ((start s.memory s.now).setCall n c) = _
  rw [hfirst, hsecond, hmemory]
  rfl

/-! ### All runs -/

/-- **Failures are atomic**: whatever the calls that contend for a memory,
    and however they are polled, let in, cancelled and timed out, a call
    that has not succeeded might as well not have been made: without its
    steps all others can be taken and lead to the same memory, the counter
    included, and to the same answers.  A step that changes the memory is
    the one by which a call returns well.  Once a registration, be it the
    last thing that opening a codec asks for, has returned well, its
    subject is live and has the ID among its versions.  So an opening that
    fails leaves the registry as it was, and one that succeeds leaves the
    subject live with the schema of the codec among its versions. -/
theorem failures_are_atomic (memory : Memory) (now : Nat) (steps : List Step) (w : Contention)
    (hrun : run? steps (start memory now) = some w) :
    (∀ n, ¬ w.HasSucceeded n →
      run? (othersOf n steps) (start memory now) = some (w.without n)) ∧
    (∀ st w', w.step? st = some w' → w'.memory ≠ w.memory →
      ∃ n c reply, st = .finish n ∧ w.call? n = some c ∧
        w'.call? n = some { c with progress := .ended (.ok reply) } ∧
        w.memory.perform c.request = (.ok reply, w'.memory)) ∧
    (∀ st w' n c subject d reply, w.step? st = some w' → w.call? n ≠ some c →
      w'.call? n = some c → c.request = .register subject d →
      c.progress = .ended (.ok reply) →
      ∃ id, reply = .id id ∧ subject ∈ w'.memory.subjectNames ∧
        id ∈ w'.memory.versionsOf subject) ∧
    ∀ (visits : List Staged.Visit) (α : Type) (type : EventType α) (subject : String)
      (ctx : Context) (s' : Staged),
      let s := Staged.run visits .empty
      (∀ e, Codec.open Staged.registry type subject ctx s = (.error e, s') →
        s'.memory = s.memory) ∧
      ∀ c, Codec.open Staged.registry type subject ctx s = (.ok c, s') →
        subject ∈ s'.memory.subjectNames ∧ c.bound.schemaId ∈ s'.memory.versionsOf subject := by
  have hstart := isExclusive_start memory now
  have hexclusive := hstart.run hrun
  refine ⟨?failed, ?changed, ?registered, ?opened⟩
  case failed =>
    intro n hfailed
    exact hstart.run_without hrun hfailed
  case changed =>
    intro st w' hstep hchanged
    rcases hexclusive.memory_cases (moves_step? hstep) with hsame | hsucceeds
    · exact absurd hsame hchanged
    · exact hsucceeds
  case registered =>
    intro st w' n c subject d reply hstep hnew hcall hrequest hended
    have hdone := hexclusive.perform_of_succeeds (moves_step? hstep) hcall hended hnew
    rw [hrequest] at hdone
    exact Memory.perform_register hdone
  case opened =>
    intro visits α type subject ctx s' s
    have hquiet : s.IsQuiet := Staged.isQuiet_empty.run visits
    exact ⟨fun e hopen => hquiet.memory_of_open_error hopen,
      fun c hopen => hquiet.versions_of_open hopen⟩

/-- One call registers a schema while another one waits for the lock in
    vain. -/
def queueing : List Step :=
  [.call 0 (.register "orders" .keywords) .unbounded,
    .call 1 (.register "copies" .keywords) { Context.unbounded with deadline := some 5 },
    .look 0 true, .pass 10, .look 1 false, .finish 0]

theorem queueing_is_atomic :
    ∃ w, run? queueing (start .empty 0) = some w ∧
      w.memory.subjectNames = ["orders"] ∧
      run? (othersOf 1 queueing) (start .empty 0) = some (w.without 1) := by
  have hsome : ∃ w, run? queueing (start .empty 0) = some w ∧ w.memory.subjectNames = ["orders"] ∧
      ∃ c, w.call? 1 = some c ∧ c.progress = .ended (.error .timeout) :=
    ⟨_, rfl, rfl, _, rfl, rfl⟩
  obtain ⟨w, hrun, hnames, c, hcall, hended⟩ := hsome
  have hfailed : ¬ w.HasSucceeded 1 := by
    rintro ⟨c', reply, hcall', hended'⟩
    obtain rfl := Option.some.inj (hcall.symm.trans hcall')
    rw [hended] at hended'
    cases hended'
  exact ⟨w, hrun, hnames, (failures_are_atomic .empty 0 queueing w hrun).1 1 hfailed⟩

end Contention

end EventCodec
