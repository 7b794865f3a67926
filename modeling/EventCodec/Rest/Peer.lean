import EventCodec.Journal
import EventCodec.Rest.Status

/-! # Peers

    The other end of a connection.  It takes a request and delivers an
    answer, or something less: the connection is closed, nothing comes, or
    the body of the answer breaks off or stands still before its end.

    A peer is a record of functions on a world of any type, so that
    statements hold for every peer. -/

namespace EventCodec.Rest

/-! ### Requests -/

inductive Method where
  | get
  | post
  | delete
deriving DecidableEq, Repr

namespace Method

def name : Method → String
  | .get => "GET"
  | .post => "POST"
  | .delete => "DELETE"

end Method

structure Request where
  method : Method
  /-- The whole URL, without a fragment. -/
  url : String
  /-- Names in lower case, and values. -/
  headers : List (String × String)
  body : String
deriving DecidableEq, Repr

/-! ### Answers -/

/-- How a body ends. -/
inductive Ending where
  | complete
  /-- The connection ends before the body does. -/
  | truncated
  /-- Nothing more comes. -/
  | stalled
deriving DecidableEq, Repr

inductive Delivery where
  /-- The connection is closed without an answer, or there is none. -/
  | refused
  /-- No answer comes. -/
  | silent
  /-- A body is text.  One that is no valid UTF-8 is left out: a client that
      needs its content finds no record in it, as in any other body that
      does not read, unless the invalid bytes all lie within members that
      the record ignores. -/
  | response (status : Nat) (body : String) (ending : Ending)
deriving DecidableEq, Repr

namespace Delivery

/-- What can arrive: some statuses have no body that could break off. -/
def arriving : Delivery → Delivery
  | .response status body ending =>
    if isBodiless status then .response status "" .complete else .response status body ending
  | other => other

end Delivery

/-! ### Peers -/

structure Peer (σ : Type) where
  deliver : Request → σ → Delivery × σ
  now : σ → Nat
  /-- Lets time pass up to an instant. -/
  passTo : Nat → σ → σ
  /-- Writes an entry into the journal. -/
  note : Journal.Entry → σ → σ

end EventCodec.Rest
