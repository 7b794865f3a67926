import EventCodec.Registry.Error

/-! # Request contexts

    A call carries the instant at which its caller gives up, the instant
    at which its caller cancels, and a correlation ID.  Time is counted in
    milliseconds from an arbitrary origin.

    Work is polled under a context.  A cancelled context ends it whatever
    its state; otherwise work that is done succeeds, even if the deadline
    has passed; only work that still waits can time out. -/

namespace EventCodec

structure Context where
  correlationId : Option String
  /-- The instant from which waiting times out. -/
  deadline : Option Nat
  /-- The instant from which the call is cancelled. -/
  cancelAt : Option Nat
deriving DecidableEq, Repr

namespace Context

/-- Never cancelled and without a deadline. -/
def unbounded : Context :=
  { correlationId := none, deadline := none, cancelAt := none }

/-! ### At one instant -/

def isCancelled (ctx : Context) (now : Nat) : Bool :=
  ctx.cancelAt.any (· ≤ now)

def isDue (ctx : Context) (now : Nat) : Bool :=
  ctx.deadline.any (· ≤ now)

/-- How long until the deadline. -/
def left (ctx : Context) (now : Nat) : Option Nat :=
  ctx.deadline.map (· - now)

/-- Looks at work that is done (with its result) or still waits. -/
def poll {α : Type} (ctx : Context) (now : Nat) (work : Option (Except RegistryError α)) :
    Option (Except RegistryError α) :=
  if ctx.isCancelled now then some (.error .cancelled)
  else
    match work with
    | some result => some result
    | none => if ctx.isDue now then some (.error .timeout) else none

/-! ### Over time -/

/-- The end of a wait that nobody cancels. -/
def waitDeadline (ctx : Context) (now duration : Nat) : Except RegistryError Unit × Nat :=
  match ctx.deadline with
  | some d =>
    if max now d < now + duration then (.error .timeout, max now d) else (.ok (), now + duration)
  | none => (.ok (), now + duration)

/-- Waits for a while: how it ends, and when. -/
def wait (ctx : Context) (now duration : Nat) : Except RegistryError Unit × Nat :=
  let finish := ctx.waitDeadline now duration
  match ctx.cancelAt with
  | some c => if max now c ≤ finish.2 then (.error .cancelled, max now c) else finish
  | none => finish

/-- Work that takes a while: its result unless the context ends it. -/
def run {α : Type} (ctx : Context) (now duration : Nat) (work : Except RegistryError α) :
    Except RegistryError α × Nat :=
  match ctx.wait now duration with
  | (.ok (), finish) => (work, finish)
  | (.error e, finish) => (.error e, finish)

/-- Work that is done at once: only cancellation can keep it from
    succeeding. -/
theorem wait_zero (ctx : Context) (now : Nat) :
    ctx.wait now 0 = if ctx.isCancelled now then (.error .cancelled, now) else (.ok (), now) := by
  have noDeadline : ctx.waitDeadline now 0 = (.ok (), now) := by
    unfold waitDeadline
    split
    · rw [if_neg (by omega)]
      simp
    · simp
  unfold wait isCancelled
  rw [noDeadline]
  cases h : ctx.cancelAt with
  | none => simp
  | some c =>
    by_cases hc : c ≤ now
    · simp [hc]
    · have : ¬ max now c ≤ now := by omega
      simp [this, hc]

end Context

/-! ### Contexts still to be made -/

/-- What a caller asks of a context, relative to the start of the call. -/
structure Context.Request where
  correlationId : Option String
  timeout : Option Nat
  cancelAfter : Option Nat
deriving DecidableEq, Repr

/-- The context of a call that starts now. -/
def Context.Request.start (r : Context.Request) (now : Nat) : Context where
  correlationId := r.correlationId
  deadline := r.timeout.map (now + ·)
  cancelAt := r.cancelAfter.map (now + ·)

end EventCodec
