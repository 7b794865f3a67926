import EventCodec.Rest.Client
import EventCodec.Session.Run
import EventCodec.Url.International

/-! # Sessions on a registry behind a peer

    The peer follows a script: each step brings the answers its requests
    will get, in order.  A request that finds no answer left, or a peer
    that cannot be reached, is refused. -/

namespace EventCodec

/-- The client of a configuration in a run. -/
def Rest.Client.ofConfig (config : Config) : Except RegistryError Client :=
  ofConfigBy Url.International.toAscii? config

namespace Session

open Rest

/-! ### A peer with a script -/

structure Script where
  /-- Whether the peer can be reached at all. -/
  reachable : Bool
  now : Nat
  /-- The answers that are left. -/
  answers : List Delivery
  /-- The requests that were made, the latest first. -/
  requests : List Request
  /-- The journal, the latest entry first. -/
  journal : List Journal.Entry

namespace Script

def init (reachable : Bool) : Script :=
  { reachable, now := 0, answers := [], requests := [], journal := [] }

/-- Begins a step with new answers. -/
def start (answers : List Delivery) (s : Script) : Script :=
  { s with answers, requests := [], journal := [] }

def deliver (request : Request) (s : Script) : Delivery × Script :=
  if s.reachable then
    let s := { s with requests := request :: s.requests }
    match s.answers with
    | [] => (.refused, s)
    | answer :: answers => (answer, { s with answers })
  else (.refused, s)

def peer : Peer Script where
  deliver := deliver
  now := Script.now
  passTo instant s := { s with now := max s.now instant }
  note e s := { s with journal := e :: s.journal }

end Script

/-! ### Sessions -/

/-- Decodes one envelope after the other. -/
def decodeInTurn {σ : Type} (r : Registry σ) (ctx : Context) :
    List Bytes → Bound Event.Value → σ → List (Except CodecError Event.Value) × Bound Event.Value × σ
  | [], c, s => ([], c, s)
  | bytes :: rest, c, s =>
    match c.decode r bytes ctx s with
    | (result, c, s) =>
      match decodeInTurn r ctx rest c s with
      | (results, c, s) => (result :: results, c, s)

/-- A client and its peer as a backend, which has no stage to set. -/
def clientBackend (c : Client) : Backend Script where
  registry := c.registry Script.peer
  now := Script.now
  decodeAll := decodeInTurn
  set _ s := (.nothing, s)
  connect config := (Client.ofConfig config).map fun c => c.registry Script.peer

/-- What can be seen after a step. -/
structure ScriptReport where
  answer : Answer
  /-- The requests that were made during the step. -/
  requests : List Request
  /-- How many answers are left. -/
  unused : Nat
  /-- The entries of the journal during the step. -/
  journal : List Journal.Entry

def scriptReports (b : Backend Script) :
    State Script → List (Step × List Delivery) → List ScriptReport
  | _, [] => []
  | s, (x, answers) :: rest =>
    match take b { s with world := s.world.start answers } x with
    | (answer, s) =>
      { answer
        requests := s.world.requests.reverse
        unused := s.world.answers.length
        journal := s.world.journal.reverse } :: scriptReports b s rest

/-- Runs a session with the client of a configuration, if it has one. -/
def runScripted (reachable : Bool) (config : Config) (steps : List (Step × List Delivery)) :
    Except RegistryError (List ScriptReport) :=
  (Client.ofConfig config).map fun c =>
    scriptReports (clientBackend c) (.init (.init reachable)) steps

end Session

end EventCodec
