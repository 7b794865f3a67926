import EventCodec.Codec.Overlap
import EventCodec.Session.Run

/-! # Sessions on a staged registry -/

namespace EventCodec.Session

/-- Changes the stage. -/
def setStage (setting : Setting) (s : Staged) : Answer × Staged :=
  match setting with
  | .plant id name text =>
    match name.elim (some .default) SchemaType.ofName? with
    | none => (.badSchemaType, s)
    | some schemaType =>
      (.nothing, s.plant { id, subject := none, version := none, schemaType, text })
  | .fail call failure => (.nothing, s.setFailure call failure)
  | .delay call ms => (.nothing, s.setDelay call ms)
  | .advance ms => (.nothing, s.passTo (s.now + ms))

/-- The stage as a backend; there is only one way to reach it. -/
def stageBackend : Backend Staged where
  registry := Staged.registry
  now := Staged.now
  decodeAll _ := Overlap.decodeAll
  set := setStage
  connect _ := .ok Staged.registry

/-- What can be seen after a step. -/
structure StageReport where
  answer : Answer
  /-- The calls of each kind so far. -/
  calls : List Nat
  subjects : List String
  schemas : Nat
  /-- The entries of the journal during the step. -/
  journal : List Journal.Entry

def stageReports : State Staged → List Step → List StageReport
  | _, [] => []
  | s, x :: rest =>
    match take stageBackend s x with
    | (answer, s) =>
      match s.world.takeJournal with
      | (journal, world) =>
        { answer
          calls := world.counts
          subjects := world.memory.subjectNames
          schemas := world.memory.schemas.length
          journal } :: stageReports { s with world } rest

/-- Runs a session on a fresh stage. -/
def runStaged (steps : List Step) : List StageReport :=
  stageReports (.init .empty) steps

end EventCodec.Session
