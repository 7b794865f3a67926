import EventCodec.Codec.Cache
import EventCodec.Table

/-! # Overlapping fetches

    Calls that ask one cache for descriptors at the same time.  The index
    has at most one slot for an ID.  The first call that finds no
    descriptor holds the slot and fetches; the others queue for it, first
    come first served.

    If the fetch succeeds, everybody who queues has the descriptor as soon
    as they look again.  If it fails, the failure is the holder's alone:
    the slot passes to the next in the queue, who fetches in turn, and it
    leaves the index, so that calls that come later start afresh.

    A step here is one look at one call.  In what order the calls are
    looked at, and what the registry answers when, is up to whoever takes
    the steps. -/

namespace EventCodec

open Schema

/-! ### State -/

/-- Where the descriptor of an ID goes. -/
structure FlightSlot where
  value : Option Descriptor
  /-- The call that may fill the slot. -/
  holder : Option Nat
  /-- The calls that wait for it, the first one first. -/
  queue : List Nat
deriving DecidableEq

/-- What a call is doing. -/
inductive Phase where
  /-- It queues for its slot, or has not noticed yet that it holds it. -/
  | queued
  /-- It holds its slot and waits for the registry. -/
  | fetching
  | settled (result : Except CodecError Descriptor)

structure FlightCall where
  /-- The ID asked for. -/
  id : UInt32
  /-- The context a fetch of this call runs under. -/
  context : Context
  /-- The number of its slot. -/
  slot : Nat
  phase : Phase

structure Flight where
  /-- The number of the slot of each ID. -/
  index : List (UInt32 × Nat)
  /-- All slots, also those that have left the index. -/
  slots : List FlightSlot
  /-- All calls, in the order they began. -/
  calls : List FlightCall

namespace Flight

/-! ### Between calls -/

/-- The slots of a cache that nobody uses. -/
def ofCache (c : Cache) : Flight where
  index := c.entries.zipIdx.map fun (e, n) => (e.1, n)
  slots := c.entries.map fun e => { value := some e.2, holder := none, queue := [] }
  calls := []

/-- The descriptor in a slot. -/
def value? (f : Flight) (slot : Nat) : Option Descriptor :=
  (f.slots[slot]?).bind FlightSlot.value

/-- The cache as it looks from outside: what is in the index and filled. -/
def cache (f : Flight) : Cache where
  entries := f.index.filterMap fun (id, slot) => (f.value? slot).map fun d => (id, d)

/-- The slot in the index under an ID. -/
def slotOf? (f : Flight) (id : UInt32) : Option Nat :=
  (f.index.find? fun e => e.1 == id).map Prod.snd

/-! ### Changing one thing -/

def modifySlot (f : Flight) (slot : Nat) (g : FlightSlot → FlightSlot) : Flight :=
  { f with slots := f.slots.modify slot g }

def setPhase (f : Flight) (call : Nat) (phase : Phase) : Flight :=
  { f with calls := f.calls.modify call fun c => { c with phase } }

/-- A new call. -/
def addCall (f : Flight) (c : FlightCall) : Flight :=
  { f with calls := f.calls ++ [c] }

/-- Takes a slot out of the index, if it is the one there under the ID and
    still empty: others may have put a new slot there, or filled it. -/
def evictEmpty (f : Flight) (id : UInt32) (slot : Nat) : Flight :=
  if f.slotOf? id = some slot ∧ f.value? slot = none then
    { f with index := Table.erase id f.index }
  else f

/-! ### Steps -/

/-- A call begins: it finds its descriptor, holds its slot or queues for it. -/
def launch (f : Flight) (id : UInt32) (context : Context) : Flight :=
  let number := f.calls.length
  match f.slotOf? id with
  | none =>
    let slot := f.slots.length
    { index := f.index ++ [(id, slot)]
      slots := f.slots ++ [{ value := none, holder := some number, queue := [] }]
      calls := f.calls ++ [{ id, context, slot, phase := .fetching }] }
  | some slot =>
    match f.slots[slot]? with
    | none => f.addCall { id, context, slot, phase := .queued }
    | some s =>
      match s.value with
      | some d => f.addCall { id, context, slot, phase := .settled (.ok d) }
      | none =>
        match s.holder with
        | none =>
          (f.modifySlot slot fun s => { s with holder := some number }).addCall
            { id, context, slot, phase := .fetching }
        | some _ =>
          (f.modifySlot slot fun s => { s with queue := s.queue ++ [number] }).addCall
            { id, context, slot, phase := .queued }

/-- One look at a call that queues: it takes the descriptor if there is
    one by now, and fetches itself if the slot has passed to it. -/
def look (f : Flight) (call : Nat) : Flight :=
  match f.calls[call]? with
  | some { slot, phase := .queued, .. } =>
    match f.slots[slot]? with
    | none => f
    | some s =>
      match s.value with
      | some d => f.setPhase call (.settled (.ok d))
      | none => if s.holder = some call then f.setPhase call .fetching else f
  | _ => f

/-- The registry answers a call that fetches; the answer is what it means
    for the call. -/
def answer (f : Flight) (call : Nat) (result : Except CodecError Descriptor) : Flight :=
  match f.calls[call]? with
  | some { id, slot, phase := .fetching, .. } =>
    let f := f.setPhase call (.settled result)
    match result with
    | .ok d => f.modifySlot slot fun s => { s with value := some d, holder := none, queue := [] }
    | .error _ =>
      (f.modifySlot slot fun s =>
        { s with holder := s.queue.head?, queue := s.queue.tail }).evictEmpty id slot
  | _ => f

/-- What a call is doing. -/
def phase? (f : Flight) (call : Nat) : Option Phase :=
  (f.calls[call]?).map FlightCall.phase

end Flight

end EventCodec
