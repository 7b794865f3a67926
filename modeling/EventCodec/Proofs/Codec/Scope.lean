import EventCodec.Codec.Scope
import EventCodec.Proofs.Codec.Stage

/-! # What a scope leaves behind

    A body is given a codec and uses it as it likes.  All it can do to the
    memory is to close the codec early, and then the scope has nothing
    left to close.  So the memory has what was registered exactly as long
    as the codec is ready (`Hosts`), and after the scope it has it no
    longer.

    What remains is a registration followed by a deletion of the same
    subject.  If the subject was not there before, that takes back all
    that was done (`Memory.IsConsistent.delete_register`). -/

namespace EventCodec

/-! ### Bodies -/

/-- What is done with a codec, one call after the other.  What comes next
    may depend on what a call came to. -/
inductive Body (α β : Type) where
  | done (result : Except CodecError β)
  /-- Lets time pass. -/
  | wait (duration : Nat) (next : Body α β)
  | encode (v : α) (next : Except CodecError Bytes → Body α β)
  | decode (data : Bytes) (ctx : Context) (next : Except CodecError α → Body α β)
  | close (ctx : Context) (next : Except CodecError Unit → Body α β)

namespace Body

variable {α β σ : Type}

/-- Runs a body with its codec, in a world in which time can pass. -/
def run (r : Registry σ) (wait : Nat → σ → σ) :
    Body α β → Codec α → σ → Except CodecError β × Codec α × σ
  | done result, c, s => (result, c, s)
  | .wait duration next, c, s => next.run r wait c (wait duration s)
  | encode v next, c, s => (next (c.encode v)).run r wait c s
  | decode data ctx next, c, s =>
    match c.decode r data ctx s with
    | (result, c, s) => (next result).run r wait c s
  | close ctx next, c, s =>
    match c.close r ctx s with
    | (result, c, s) => (next result).run r wait c s

end Body

/-! ### While the body runs -/

namespace Staged

variable {α β : Type} {s t : Staged} {m : Memory} {c : Codec α} {subject : String}

/-- Lets time pass from now on. -/
def wait (duration : Nat) (s : Staged) : Staged :=
  s.passTo (s.now + duration)

/-- Nobody has cancelled a call to close by the time the body makes it. -/
def ClosesLive : Body α β → Codec α → Staged → Prop
  | .done _, _, _ => True
  | .wait duration next, c, s => ClosesLive next c (s.wait duration)
  | .encode v next, c, s => ClosesLive (next (c.encode v)) c s
  | .decode data ctx next, c, s =>
    match c.decode registry data ctx s with
    | (result, c, s) => ClosesLive (next result) c s
  | .close ctx next, c, s =>
    ctx.isCancelled s.now = false ∧
      match c.close registry ctx s with
      | (result, c, s) => ClosesLive (next result) c s

/-- The stage a codec lives on: the memory is the one after registering
    while the codec is ready, and without the subject afterwards. -/
structure Hosts (s : Staged) (m : Memory) (subject : String) (c : Codec α) : Prop where
  quiet : s.IsQuiet
  owner : c.subject = subject
  memory : s.memory = if c.isReady then m else (m.delete subject).2

/-- Nothing is done to the codec by what keeps the memory. -/
theorem Hosts.keeps (h : s.Hosts m subject c) (hkeeps : s.Keeps t) : t.Hosts m subject c :=
  ⟨hkeeps.quiet, h.owner, hkeeps.memory.trans h.memory⟩

theorem Hosts.wait (h : s.Hosts m subject c) (duration : Nat) :
    (s.wait duration).Hosts m subject c :=
  ⟨h.quiet.passTo _, h.owner, (h.quiet.memory_passTo _).trans h.memory⟩

theorem Hosts.decode (h : s.Hosts m subject c) (data : Bytes) (ctx : Context) :
    (c.decode registry data ctx s).2.2.Hosts m subject (c.decode registry data ctx s).2.1 := by
  have hkeeps := h.keeps (h.quiet.keeps_decode c data ctx)
  have hsame := c.state_decode registry data ctx s
  have hsubject := (c.precedes_decode registry data ctx s).subject
  refine ⟨hkeeps.quiet, hsubject.trans hkeeps.owner, ?_⟩
  rw [hkeeps.memory, Codec.isReady, Codec.isReady, hsame]

/-- The first to close deletes the subject; whoever comes later finds it
    done. -/
theorem Hosts.close (h : s.Hosts m subject c) {ctx : Context}
    (hlive : ctx.isCancelled s.now = false) :
    (c.close registry ctx s).2.2.Hosts m subject (c.close registry ctx s).2.1 ∧
      (c.close registry ctx s).2.1.isReady = false := by
  rcases h.quiet.close_spec c ctx with ⟨hclosed, heq⟩ | ⟨hready, result, t, heq, hquiet, -, hmemory⟩
  · rw [heq]
    exact ⟨h, hclosed⟩
  · -- up to now the memory was the one after registering
    rw [heq]
    refine ⟨⟨hquiet, h.owner, ?_⟩, rfl⟩
    have hbefore := h.memory
    rw [hready, if_pos rfl] at hbefore
    rw [hmemory, hlive, hbefore, h.owner]
    rfl

theorem Hosts.run {body : Body α β} (h : s.Hosts m subject c) (hlive : ClosesLive body c s) :
    (body.run registry Staged.wait c s).2.2.Hosts m subject
      (body.run registry Staged.wait c s).2.1 := by
  induction body generalizing c s with
  | done result => exact h
  | wait duration next ih => exact ih (h.wait _) hlive
  | encode v next ih => exact ih _ h hlive
  | decode data ctx next ih => exact ih _ (h.decode data ctx) hlive
  | close ctx next ih => exact ih _ (h.close hlive.1).1 hlive.2

/-! ### The whole scope -/

/-- Opened, used and closed, a codec has registered its type and deleted
    its subject; or it was never there. -/
theorem IsQuiet.memory_withCodec (h : s.IsQuiet) (type : EventType α) {body : Body α β}
    (hlive : ∀ c t, Codec.open registry type subject .unbounded s = (.ok c, t) →
      ClosesLive body c t) :
    (withCodec registry type subject (body.run registry Staged.wait) s).2.memory = s.memory ∨
      ∃ d, (withCodec registry type subject (body.run registry Staged.wait) s).2.memory =
        ((s.memory.register subject d).2.delete subject).2 := by
  unfold withCodec
  rcases h.open_spec type subject .unbounded with
    ⟨e, t, hopen, hkeeps⟩ | ⟨d, r, t, hopen, hquiet, hregister⟩
  · rw [hopen]
    exact .inl hkeeps.memory
  · -- the codec is ready when the body gets it
    have hhosts : t.Hosts t.memory subject
        ({ subject, bound := .new type r.id d, state := .ready } : Codec α) :=
      ⟨hquiet, rfl, rfl⟩
    have hrun := hhosts.run (hlive _ _ hopen)
    obtain ⟨hclosed, hstate⟩ := @Hosts.close _ _ _ _ _ hrun .unbounded rfl
    have hmemory := hclosed.memory
    rw [hstate, if_neg Bool.false_ne_true] at hmemory
    have hregistered : (s.memory.register subject d).2 = t.memory := congrArg Prod.snd hregister
    rw [hopen]
    refine .inr ⟨d, ?_⟩
    rw [hregistered]
    exact hmemory

/-- **No trace**: after a scope on a subject that was not there, whatever
    the type, the body and their failures, the registry in memory is what
    it was before, but for the counter of IDs. -/
theorem withCodec_leaves_no_trace (type : EventType α) (body : Body α β) (visits : List Visit)
    (hroom : allocations visits .empty < 2 ^ 32 - 1)
    (hnew : (run visits .empty).memory.versions? subject = none)
    (hlive : ∀ c t, Codec.open registry type subject .unbounded (run visits .empty) = (.ok c, t) →
      ClosesLive body c t) :
    let before := (run visits .empty).memory
    let after := (withCodec registry type subject (body.run registry wait) (run visits .empty)).2.memory
    before.IsLike after ∧ (after.nextId = before.nextId ∨ after.nextId = before.nextId + 1) := by
  intro before after
  have hnext : (empty.memory.nextId).toNat = 1 := rfl
  have horderly : (run visits .empty).IsOrderly := isOrderly_empty.run visits (by omega)
  rcases horderly.quiet.memory_withCodec type hlive with hsame | ⟨d, hmemory⟩
  · have hafter : after = before := hsame
    rw [hafter]
    exact ⟨⟨rfl, rfl, rfl⟩, .inl rfl⟩
  · have hafter : after = ((before.register subject d).2.delete subject).2 := hmemory
    rw [hafter, Memory.nextId_delete]
    exact ⟨(horderly.consistent.delete_register hnew).2, before.nextId_register subject d⟩

/-- A type that is described as the schema the orders have. -/
def orderLike : EventType Wire.Record :=
  (Wire.Layout.eventType { name := "message", fields := [] } fun _ => none).describedAs
    Schema.Descriptor.keywords.declared

/-- Closes the codec, goes on to use it all the same, and fails. -/
def hasty : Body Wire.Record Unit :=
  .wait 5 <| .close .unbounded fun _ => .decode [] .unbounded fun
    | .ok _ => .done (.ok ())
    | .error e => .done (.error e)

theorem hasty_leaves_no_trace :
    let before := (run [order .keywords] .empty).memory
    before.versions? "orders" = some [1] ∧
      before.IsLike (withCodec registry orderLike "scratch" (hasty.run registry wait)
        (run [order .keywords] .empty)).2.memory := by
  have hroom : allocations [order .keywords] .empty < 2 ^ 32 - 1 :=
    Nat.lt_of_le_of_lt (allocations_le_length _ _) (by decide)
  have hlive : ∀ (c : Codec Wire.Record) (t : Staged), ClosesLive hasty c t := by
    intro c t
    refine ⟨rfl, ?_⟩
    dsimp only [ClosesLive]
    split <;> trivial
  exact ⟨rfl, (withCodec_leaves_no_trace orderLike hasty _ hroom rfl fun c t _ => hlive c t).1⟩

end Staged

end EventCodec
