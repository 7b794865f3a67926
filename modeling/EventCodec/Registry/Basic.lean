import EventCodec.Journal
import EventCodec.Registry.Context
import EventCodec.Registry.Schema

/-! # Registries

    What a codec needs of the world around it: five calls to a registry,
    a journal, and someone who deletes a subject later on.

    A registry is a record of functions on a world of any type, so that
    every statement about codecs holds for every registry, also for one
    that fails at will or answers differently each time. -/

namespace EventCodec

open Schema

structure Registry (σ : Type) where
  /-- Registers a descriptor under a subject; its ID. -/
  register : String → Descriptor → Context → σ → Except RegistryError UInt32 × σ
  /-- The schema with an ID. -/
  fetch : UInt32 → Context → σ → Except RegistryError RegisteredSchema × σ
  /-- Deletes all versions of a subject; the versions it had. -/
  delete : String → Context → σ → Except RegistryError (List UInt32) × σ
  /-- The newest schema of a subject. -/
  latest : String → Context → σ → Except RegistryError RegisteredSchema × σ
  /-- All subjects. -/
  subjects : Context → σ → Except RegistryError (List String) × σ
  /-- Writes an entry into the journal. -/
  note : Journal.Entry → σ → σ
  /-- Has a subject deleted in the background. -/
  deleteLater : String → σ → σ

namespace Registry

variable {σ τ α : Type}

/-- Leaves what is beside the world as it is. -/
def keepBeside (f : σ → α × σ) (world : τ × σ) : α × τ × σ :=
  match f world.2 with
  | (a, s) => (a, world.1, s)

/-- The same registry on a world with something else beside it. -/
def beside (r : Registry σ) : Registry (τ × σ) where
  register subject d ctx := keepBeside (r.register subject d ctx)
  fetch id ctx := keepBeside (r.fetch id ctx)
  delete subject ctx := keepBeside (r.delete subject ctx)
  latest subject ctx := keepBeside (r.latest subject ctx)
  subjects ctx := keepBeside (r.subjects ctx)
  note e world := (world.1, r.note e world.2)
  deleteLater subject world := (world.1, r.deleteLater subject world.2)

end Registry

end EventCodec
