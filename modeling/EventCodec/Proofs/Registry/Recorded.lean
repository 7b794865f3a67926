import EventCodec.Proofs.Registry.Run

/-! # Registries with a record

    A registry that keeps a record of what it is asked for.  The record is
    beside the world, so the answers are those of the registry itself. -/

namespace EventCodec

namespace Registry

variable {σ α : Type}

/-- Makes a call and puts it on record. -/
def onRecord (request : Request) (call : σ → α × σ) (world : List Request × σ) :
    α × List Request × σ :=
  match call world.2 with
  | (a, s) => (a, world.1 ++ [request], s)

/-- What happens to the world without a call. -/
def offRecord (change : σ → σ) (world : List Request × σ) : List Request × σ :=
  (world.1, change world.2)

/-- The same registry with a record of the calls to it, the oldest first.
    A deletion in the background is on record as any other. -/
def recorded (r : Registry σ) : Registry (List Request × σ) where
  register subject d ctx := onRecord (.register subject d) (r.register subject d ctx)
  fetch id ctx := onRecord (.fetch id) (r.fetch id ctx)
  delete subject ctx := onRecord (.delete subject) (r.delete subject ctx)
  latest subject ctx := onRecord (.latest subject) (r.latest subject ctx)
  subjects ctx := onRecord .subjects (r.subjects ctx)
  note entry := offRecord (r.note entry)
  deleteLater subject world := (world.1 ++ [.delete subject], r.deleteLater subject world.2)

/-- The subjects that were to be deleted. -/
def deletions (record : List Request) : List String :=
  record.filterMap fun
    | .delete subject => some subject
    | _ => none

variable {r : Registry σ} {world : List Request × σ}

theorem deletions_append (record more : List Request) :
    deletions (record ++ more) = deletions record ++ deletions more :=
  List.filterMap_append

@[simp] theorem deletions_register (subject : String) (d : Schema.Descriptor) (ctx : Context) :
    deletions (r.recorded.register subject d ctx world).2.1 = deletions world.1 := by
  show deletions (world.1 ++ [.register subject d]) = deletions world.1
  rw [deletions_append]
  exact List.append_nil _

@[simp] theorem deletions_fetch (id : UInt32) (ctx : Context) :
    deletions (r.recorded.fetch id ctx world).2.1 = deletions world.1 := by
  show deletions (world.1 ++ [.fetch id]) = deletions world.1
  rw [deletions_append]
  exact List.append_nil _

@[simp] theorem deletions_latest (subject : String) (ctx : Context) :
    deletions (r.recorded.latest subject ctx world).2.1 = deletions world.1 := by
  show deletions (world.1 ++ [.latest subject]) = deletions world.1
  rw [deletions_append]
  exact List.append_nil _

@[simp] theorem deletions_delete (subject : String) (ctx : Context) :
    deletions (r.recorded.delete subject ctx world).2.1 = deletions world.1 ++ [subject] :=
  deletions_append world.1 [.delete subject]

@[simp] theorem deletions_note (entry : Journal.Entry) :
    deletions (r.recorded.note entry world).1 = deletions world.1 := rfl

end Registry

end EventCodec
