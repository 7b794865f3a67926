import EventCodec.Proofs.Codec.Stage

/-! # Calls under a context that has ended

    A call whose caller has cancelled fails before it does anything.  A
    deadline that has passed only ends a call that has to wait: work that
    can be done at once is done (`Context.run_of_isDue`).

    The registry in memory never has to wait.  So under a context that is
    not cancelled it does what it is asked for, however long ago the
    deadline was, and a codec is opened as if there were none. -/

namespace EventCodec

open Schema
open Registry (Request Reply)

namespace Context

variable {α : Type} {ctx : Context} {now : Nat}

/-- A cancelled call ends where it stands. -/
theorem run_of_isCancelled (h : ctx.isCancelled now = true) (duration : Nat)
    (work : Except RegistryError α) : ctx.run now duration work = (.error .cancelled, now) := by
  obtain ⟨c, hc, hle⟩ : ∃ c, ctx.cancelAt = some c ∧ c ≤ now := by
    simpa [isCancelled, Option.any_eq_true] using h
  -- no wait ends before it has begun
  have hfinish : now ≤ (ctx.waitDeadline now duration).2 := by
    unfold waitDeadline
    split
    · split
      · exact Nat.le_max_left _ _
      · exact Nat.le_add_right _ _
    · exact Nat.le_add_right _ _
  have hwait : ctx.wait now duration = (.error .cancelled, now) := by
    simp only [wait, hc, Nat.max_eq_left hle, if_pos hfinish]
  rw [run, hwait]

/-- A deadline that has passed ends a call only if it has to wait. -/
theorem run_of_isDue (hlive : ctx.isCancelled now = false) (h : ctx.isDue now = true)
    (duration : Nat) (work : Except RegistryError α) :
    ctx.run now duration work = if duration = 0 then (work, now) else (.error .timeout, now) := by
  by_cases hwaits : duration = 0
  · subst hwaits
    rw [run, wait_zero, hlive]
    rfl
  · obtain ⟨d, hd, hle⟩ : ∃ d, ctx.deadline = some d ∧ d ≤ now := by
      simpa [isDue, Option.any_eq_true] using h
    have hdeadline : ctx.waitDeadline now duration = (.error .timeout, now) := by
      have hlt : now < now + duration := by omega
      simp only [waitDeadline, hd, Nat.max_eq_left hle, if_pos hlt]
    have hwait : ctx.wait now duration = (.error .timeout, now) := by
      unfold wait
      rw [hdeadline]
      cases hcancel : ctx.cancelAt with
      | none => rfl
      | some c =>
        have hlater : now < c := by simpa [isCancelled, hcancel] using hlive
        have hmax : ¬ max now c ≤ now := by omega
        simp only [if_neg hmax]
    rw [run, hwait, if_neg hwaits]

end Context

namespace Staged

variable {s : Staged} {ctx : Context}

/-- A call that is not cancelled comes to what the memory does, whatever
    its deadline. -/
theorem IsQuiet.send_of_live (h : s.IsQuiet) (hlive : ctx.isCancelled s.now = false)
    (request : Request) :
    ((registry.send ctx s request).1, (registry.send ctx s request).2.memory) =
      s.memory.perform request :=
  (h.serves_send ctx request).of_live hlive

section Opening

variable {α : Type} {type : EventType α} {d : Descriptor}

/-- Opening comes down to one registration on a stage with the same
    memory and the same time. -/
theorem IsQuiet.open_eq (h : s.IsQuiet) (hresolve : type.resolve = .ok d) (subject : String)
    (ctx : Context) :
    ∃ t, s.Keeps t ∧
      (Codec.open registry type subject ctx s).1 =
        ((registry.register subject d ctx t).1.map fun id =>
          ({ subject, bound := .new type id d, state := .ready } : Codec α)).mapError
            (RegistryError.toRegistration · subject) ∧
      (Codec.open registry type subject ctx s).2.memory =
        (registry.register subject d ctx t).2.memory := by
  have hopen : Codec.open registry type subject ctx s =
      Codec.openWith registry type d subject ctx s := by
    simp only [Codec.open, hresolve]
  have hnoted := h.keeps.note (Codec.registering type subject ctx)
  obtain ⟨t, ht, hcases⟩ := Codec.openWith_cases registry type d subject ctx s
  refine ⟨t, ht ▸ hnoted.trans (hnoted.quiet.noteOwner subject ctx), ?_⟩
  rw [hopen]
  rcases hcases with ⟨e, s', hregister, hwith⟩ | ⟨id, s', hregister, hwith⟩
  · rw [hwith, hregister]
    exact ⟨rfl, rfl⟩
  · rw [hwith, hregister]
    exact ⟨rfl, rfl⟩

/-- Under a cancelled context nothing is opened. -/
theorem IsQuiet.open_of_isCancelled (h : s.IsQuiet) (hcancelled : ctx.isCancelled s.now = true)
    (hresolve : type.resolve = .ok d) (subject : String) :
    (Codec.open registry type subject ctx s).1 =
        .error (RegistryError.cancelled.toRegistration subject) ∧
      (Codec.open registry type subject ctx s).2.memory = s.memory := by
  obtain ⟨t, hkeeps, hanswer, hmemory⟩ := h.open_eq hresolve subject ctx
  have hresult := (hkeeps.quiet.serves_register subject d ctx).result
  rw [hkeeps.now, if_pos hcancelled] at hresult
  obtain ⟨hrefused, hsame⟩ := Prod.mk.inj hresult
  rw [hanswer, hmemory, hrefused, hsame]
  exact ⟨rfl, hkeeps.memory⟩

/-- Under one that is not cancelled the memory decides, whatever the
    deadline. -/
theorem IsQuiet.open_of_live (h : s.IsQuiet) (hlive : ctx.isCancelled s.now = false)
    (hresolve : type.resolve = .ok d) (subject : String) :
    (Codec.open registry type subject ctx s).1 =
        ((s.memory.register subject d).1.map fun r =>
          ({ subject, bound := .new type r.id d, state := .ready } : Codec α)).mapError
            (RegistryError.toRegistration · subject) ∧
      (Codec.open registry type subject ctx s).2.memory = (s.memory.register subject d).2 := by
  obtain ⟨t, hkeeps, hanswer, hmemory⟩ := h.open_eq hresolve subject ctx
  have hresult := (hkeeps.quiet.serves_register subject d ctx).of_live (hkeeps.now ▸ hlive)
  rw [hkeeps.memory] at hresult
  obtain ⟨hdone, hafter⟩ := Prod.mk.inj hresult
  rw [hanswer, hmemory, hdone, hafter]
  refine ⟨?_, rfl⟩
  cases (s.memory.register subject d).1 <;> rfl

end Opening

/-- **A deadline ends nothing that is done at once**: after every run of
    calls on a fresh registry, a call under a cancelled context fails and
    changes nothing, and so does the opening of a codec.  Under any other
    context, whether its deadline has passed or not, both come to what the
    memory does.  Only a call that has to wait is ended by a deadline that
    has passed. -/
theorem deadline_ends_only_waits (visits : List Visit) (ctx : Context) :
    let s := run visits .empty
    (ctx.isCancelled s.now = true →
      (∀ request : Request, (registry.send ctx s request).1 = .error .cancelled ∧
        (registry.send ctx s request).2.memory = s.memory) ∧
      ∀ (α : Type) (type : EventType α) (d : Descriptor) (subject : String),
        type.resolve = .ok d →
        (Codec.open registry type subject ctx s).1 =
          .error (RegistryError.cancelled.toRegistration subject) ∧
        (Codec.open registry type subject ctx s).2.memory = s.memory) ∧
    (ctx.isCancelled s.now = false →
      (∀ request : Request,
        ((registry.send ctx s request).1, (registry.send ctx s request).2.memory) =
          s.memory.perform request) ∧
      ∀ (α : Type) (type : EventType α) (d : Descriptor) (subject : String),
        type.resolve = .ok d →
        (Codec.open registry type subject ctx s).1 =
          ((s.memory.register subject d).1.map fun r =>
            ({ subject, bound := .new type r.id d, state := .ready } : Codec α)).mapError
              (RegistryError.toRegistration · subject) ∧
        (Codec.open registry type subject ctx s).2.memory = (s.memory.register subject d).2) ∧
    ∀ (α : Type) (now duration : Nat) (work : Except RegistryError α),
      (ctx.isCancelled now = true → ctx.run now duration work = (.error .cancelled, now)) ∧
      (ctx.isCancelled now = false → ctx.isDue now = true →
        ctx.run now duration work =
          if duration = 0 then (work, now) else (.error .timeout, now)) := by
  intro s
  have h : s.IsQuiet := isQuiet_empty.run visits
  refine ⟨?cancelled, ?live, ?work⟩
  case cancelled =>
    intro hcancelled
    refine ⟨h.send_of_isCancelled hcancelled, ?_⟩
    intro α type d subject hresolve
    exact h.open_of_isCancelled hcancelled hresolve subject
  case live =>
    intro hlive
    refine ⟨h.send_of_live hlive, ?_⟩
    intro α type d subject hresolve
    exact h.open_of_live hlive hresolve subject
  case work =>
    intro α now duration work
    refine ⟨fun hcancelled => Context.run_of_isCancelled hcancelled duration work, ?_⟩
    intro hlive hdue
    exact Context.run_of_isDue hlive hdue duration work

/-- Five milliseconds after its deadline a registration takes effect. -/
theorem not_timeout :
    ¬ ∀ (visits : List Visit) (ctx : Context) (request : Request),
      let s := run visits .empty
      ctx.isCancelled s.now = false → ctx.isDue s.now = true →
      (registry.send ctx s request).1 = .error .timeout ∧
        (registry.send ctx s request).2.memory = s.memory := by
  intro htimeout
  let idle : Visit := { idle := 10, context := .unbounded, request := .subjects }
  let late : Context := { Context.unbounded with deadline := some 5 }
  have hunchanged := (htimeout [idle] late (.register "orders" Descriptor.keywords) rfl rfl).2
  have hsubjects := congrArg Memory.subjectNames hunchanged
  contradiction

end Staged

end EventCodec
