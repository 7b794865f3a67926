import EventCodec.Codec.Bound
import EventCodec.Proofs.Schema.Descriptor
import EventCodec.Proofs.Wire.Record

/-! # Event types that keep the contract

    Nothing forces the description of an event type and its bytes to
    agree.  A type keeps the contract if it writes and reads the fields of
    a layout and describes exactly these: the same numbers with the same
    scalar kinds, repeated or not, in any order and under any names.

    Once such a type is resolved, its layout and its descriptor are two
    views of the same set of fields (`Contract.field?_iff`), and the check
    of a payload before it leaves the codec lets all its values through
    (`Contract.checkPayload_encode`). -/

namespace EventCodec

open Schema Wire

/-! ### The contract -/

/-- A field as far as the wire is concerned. -/
abbrev Signature : Type := UInt32 × Kind × Bool

namespace Wire.FieldLayout

def signature (f : FieldLayout) : Signature :=
  (f.number, f.shape.declared)

end Wire.FieldLayout

namespace Schema

def Declaration.signature (d : Declaration) : Signature :=
  (d.number, d.kind, d.repeated)

def Field.signature (f : Field) : Signature :=
  (f.number, .scalar f.kind, f.repeated)

theorem Descriptor.map_signature (d : Descriptor) :
    (d.fields.toList.map Field.declaration).map Declaration.signature =
      d.fields.toList.map Field.signature := by
  rw [List.map_map]
  rfl

end Schema

structure Contract where
  layout : Layout
  describe : Builder
  validate : Record → Option String
  /-- There are no maps. -/
  scalar : ∀ f ∈ layout.fields, f.shape.IsScalar
  /-- The description declares exactly the fields of the layout. -/
  declares :
    (layout.fields.map FieldLayout.signature).Perm
      (describe.declarations.map Declaration.signature)

namespace Contract

/-- The event type that keeps the contract. -/
def type (c : Contract) : EventType Record :=
  (c.layout.eventType c.validate).describedAs c.describe

/-- The codec was made for the type, under any ID and with anything in its
    cache. -/
structure Binds (c : Contract) (b : Bound Record) : Prop where
  type : b.type = c.type
  descriptor : c.type.resolve = .ok b.descriptor

/-- A type described by the fields of a descriptor. -/
def ofDescriptor (d : Descriptor) (l : Layout) (validate : Record → Option String)
    (scalar : ∀ f ∈ l.fields, f.shape.IsScalar)
    (declares : (l.fields.map FieldLayout.signature).Perm (d.fields.toList.map Field.signature)) :
    Contract where
  layout := l
  describe := d.declared
  validate
  scalar
  declares := by
    rw [← d.map_signature] at declares
    exact declares

theorem resolve_ofDescriptor (d : Descriptor) (l : Layout) (validate : Record → Option String)
    (scalar : ∀ f ∈ l.fields, f.shape.IsScalar)
    (declares : (l.fields.map FieldLayout.signature).Perm (d.fields.toList.map Field.signature)) :
    (ofDescriptor d l validate scalar declares).type.resolve = .ok d := by
  have hbuild : (ofDescriptor d l validate scalar declares).type.describe.build = .ok d :=
    d.build_declared
  rw [EventType.resolve, hbuild]
  rfl

/-! ### Two views of one set of fields -/

variable {c : Contract} {b : Bound Record}

theorem build_of_resolve {α : Type} {t : EventType α} {d : Descriptor}
    (h : t.resolve = .ok d) : t.describe.build = .ok d := by
  unfold EventType.resolve at h
  cases hbuild : t.describe.build with
  | error e => rw [hbuild] at h; contradiction
  | ok d' =>
    rw [hbuild] at h
    obtain rfl := Except.ok.inj h
    rfl

theorem signature_perm (h : c.Binds b) :
    (c.layout.fields.map FieldLayout.signature).Perm
      (b.descriptor.fields.toList.map Field.signature) := by
  obtain ⟨-, hfields⟩ := Builder.build_eq_ok (build_of_resolve h.descriptor)
  rw [← b.descriptor.map_signature, hfields]
  exact c.declares.trans ((Builder.sorted_perm _).symm.map _)

/-- A number is in the descriptor with a kind and a repetition exactly if
    a field of the layout has it with a shape declared so. -/
theorem field?_iff (h : c.Binds b) {number : UInt32} {declared : Kind × Bool} :
    (∃ f ∈ c.layout.fields, f.number = number ∧ f.shape.declared = declared) ↔
      ∃ g, b.descriptor.field? number = some g ∧ (.scalar g.kind, g.repeated) = declared := by
  have hmem := (signature_perm h).mem_iff (a := (number, declared))
  simp only [List.mem_map, FieldLayout.signature, Field.signature, Prod.mk.injEq] at hmem
  rw [hmem]
  constructor
  · rintro ⟨g, hg, hnumber, hdeclared⟩
    exact ⟨g, Descriptor.field?_eq_some_iff.mpr ⟨hg, hnumber⟩, hdeclared⟩
  · rintro ⟨g, hg, hdeclared⟩
    obtain ⟨hmem, hnumber⟩ := Descriptor.field?_eq_some_iff.mp hg
    exact ⟨g, hmem, hnumber, hdeclared⟩

theorem isRegular (h : c.Binds b) : c.layout.IsRegular where
  scalar := c.scalar
  number := by
    intro f hf
    obtain ⟨g, hg, -⟩ := (field?_iff h).mp ⟨f, hf, rfl, rfl⟩
    obtain ⟨hmem, hnumber⟩ := Descriptor.field?_eq_some_iff.mp hg
    rw [← hnumber]
    exact (b.descriptor.isFieldSet.legal g hmem).inRange
  distinct := by
    -- the numbers of a descriptor rise, and the layout has the same ones
    have hperm := (signature_perm h).map Prod.fst
    rw [List.map_map, List.map_map] at hperm
    have hsorted : (b.descriptor.fields.toList.map (Prod.fst ∘ Field.signature)).Nodup := by
      refine List.pairwise_map.mpr (b.descriptor.isFieldSet.sorted.imp fun {f g} hlt => ?_)
      exact UInt32.ne_of_lt hlt
    exact List.pairwise_map.mp (hperm.nodup_iff.mpr hsorted)

/-! ### The check of a payload -/

theorem fitsField_of_holds {s : Shape} {chunk : s.Chunk} {p : Piece} {g : Field}
    (h : Piece.Holds s chunk p) (hdeclared : (.scalar g.kind, g.repeated) = s.declared) :
    fitsField g p.wireType = true := by
  cases s with
  | single k =>
    simp only [Shape.declared, Prod.mk.injEq, Kind.scalar.injEq] at hdeclared
    obtain rfl : p = .ofScalar k chunk := h
    simp [fitsField, hdeclared, Piece.ofScalar]
  | optional k =>
    simp only [Shape.declared, Prod.mk.injEq, Kind.scalar.injEq] at hdeclared
    obtain rfl : p = .ofScalar k chunk := h
    simp [fitsField, hdeclared, Piece.ofScalar]
  | repeated k packed =>
    simp only [Shape.declared, Prod.mk.injEq, Kind.scalar.injEq] at hdeclared
    rcases h with ⟨v, -, rfl⟩ | ⟨-, rfl⟩
    · simp [fitsField, hdeclared, Piece.ofScalar]
    · simp [fitsField, hdeclared, Piece.run]
  | map k => contradiction

theorem checkField_of_fits {d : Descriptor} {key : Key} {g : Field} {i left : Input}
    (hg : d.field? key.number = some g) (hfits : fitsField g key.wireType = true)
    (hskip : skip recursionBudget key i = .ok left) : checkField d key i = .ok left := by
  simp only [checkField, hg, hfits, if_true, hskip]
  rfl

theorem checkFields_step {d : Descriptor} {key : Key} {i rest left : Input}
    (hkey : Key.read i = .ok (key, rest)) (hfield : checkField d key rest = .ok left) :
    checkFields d i = checkFields d left := by
  have hsize := Key.size_read hkey
  rw [checkFields, if_neg (by omega)]
  grind

/-- Parts pass if each is declared with a wire type that fits. -/
theorem checkFields_parts {d : Descriptor} {parts : List Part}
    (hlegal : ∀ part ∈ parts, part.IsLegal)
    (hdeclared : ∀ part ∈ parts, ∃ g, d.field? part.1 = some g ∧ fitsField g part.2.wireType) :
    checkFields d (.ofBytes (parts.flatMap Part.encode)) = .ok () := by
  -- a part that is checked leaves the parts after it
  induction parts with
  | nil =>
    rw [checkFields]
    simp
  | cons part parts ih =>
    obtain ⟨number, p⟩ := part
    have hpart := hlegal (number, p) (by simp)
    obtain ⟨s, chunk, hchunk⟩ := hpart.holds
    obtain ⟨g, hg, hfits⟩ := hdeclared (number, p) (by simp)
    have hkey := Key.read_encode (k := { number, wireType := p.wireType })
      (p.content ++ parts.flatMap Part.encode) hpart.number
    have hskip := Piece.skip_of_holds hchunk hpart.size number (parts.flatMap Part.encode)
    rw [List.flatMap_cons, Part.encode, Piece.encode, List.append_assoc,
      checkFields_step hkey (checkField_of_fits hg hfits hskip)]
    exact ih (fun q hq => hlegal q (List.mem_cons_of_mem _ hq))
      fun q hq => hdeclared q (List.mem_cons_of_mem _ hq)

/-- What a value of the type is written as, its descriptor declares. -/
theorem exists_holds_of_mem (h : c.Binds b) {r : Record} (hr : r.IsOf c.layout) {part : Part}
    (hpart : part ∈ r.parts) :
    ∃ g, b.descriptor.field? part.1 = some g ∧ ∃ (s : Shape) (chunk : s.Chunk),
      (.scalar g.kind, g.repeated) = s.declared ∧ Piece.Holds s chunk part.2 := by
  obtain ⟨s, hs, hmem⟩ := List.mem_flatMap.mp hpart
  obtain ⟨p, hp, rfl⟩ := List.mem_map.mp hmem
  have hfield := Record.mem_fields_of_isOf hr hs
  obtain ⟨g, hg, hdeclared⟩ := (field?_iff h).mp ⟨s.field, hfield, rfl, rfl⟩
  obtain ⟨chunk, hchunk⟩ := Shape.exists_holds (.refl (c.scalar _ hfield)) hp
  exact ⟨g, hg, s.field.shape, chunk, hdeclared, hchunk⟩

/-- The check lets every value of the type through. -/
theorem checkPayload_encode (h : c.Binds b) {r : Record} (hr : r.IsOf c.layout)
    (hsize : r.encode.length < 2 ^ 64) : checkPayload b.descriptor r.encode = .ok () := by
  rw [checkPayload, r.encode_eq_parts]
  refine checkFields_parts (fun _ => Record.parts_isLegal hr (isRegular h) hsize) ?_
  intro part hpart
  obtain ⟨g, hg, s, chunk, hdeclared, hchunk⟩ := exists_holds_of_mem h hr hpart
  exact ⟨g, hg, fitsField_of_holds hchunk hdeclared⟩

end Contract

end EventCodec
