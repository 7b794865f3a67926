import EventCodec.Proofs.Codec.RoundTrip
import EventCodec.Proofs.Schema.Compatibility
import EventCodec.Proofs.Schema.Text
import EventCodec.Registry.Staged

/-! # Reading what another version wrote

    A codec reads envelopes under another ID if and only if the two
    descriptors are compatible.  That compatible descriptors make layouts
    that fit (`fits_of_checkCompatible`) is the whole argument: from there
    on the reader's layout sees each part of the payload as its own or
    skips it, whatever the writer has put in between.

    The reader has the writer's descriptor from its cache or from the
    text in the registry, which stands for nothing else. -/

namespace EventCodec

open Schema Wire

/-! ### What the reader gets -/

/-- A single value or a repeated one. -/
def Wire.Shape.IsPlain : Shape → Prop
  | .single _ | .repeated _ _ => True
  | .optional _ | .map _ => False

/-- All fields are plain. -/
def Wire.Layout.IsPlain (l : Layout) : Prop :=
  ∀ f ∈ l.fields, f.shape.IsPlain

/-- A record of a layout that has the values of another record under the
    numbers both have, and defaults under all others.  A single negative
    zero has become a positive one. -/
structure Wire.Record.TakesOver (u : Record) (l : Layout) (v : Record) : Prop where
  isOf : u.IsOf l
  shared : ∀ t ∈ u, ∀ s ∈ v, s.field.number = t.field.number →
    s.field.shape.carry? t.field.shape (s.field.shape.readBack s.value) = some t.value
  missing : ∀ t ∈ u, (∀ s ∈ v, s.field.number ≠ t.field.number) →
    t.value = t.field.shape.default

/-- The codec has the descriptor of an ID, or the registry answers with
    its text. -/
inductive Bound.Obtains {α σ : Type} (b : Bound α) (r : Registry σ) (ctx : Context) (s : σ)
    (id : UInt32) (d : Descriptor) : Prop where
  | kept : b.cache.get? id = some d → b.Obtains r ctx s id d
  | fetched (schema : RegisteredSchema) : b.cache.get? id = none →
      (r.fetch id ctx s).1 = .ok schema → schema.schemaType = .protobuf → schema.text = d.text →
        b.Obtains r ctx s id d

/-! ### Layouts of compatible types -/

theorem Wire.Shape.carry?_of_agrees {s t : Shape} (h : s.Agrees t) (v : s.Value) :
    ∃ w, s.carry? t v = some w := by
  cases h with
  | refl hs => exact ⟨v, Shape.carry?_self hs v⟩
  | repacked k p q => exact ⟨v, by simp [Shape.carry?]⟩

/-- Plain shapes that are declared alike agree. -/
theorem Wire.Shape.agrees_of_declared {s t : Shape} (hs : s.IsPlain) (ht : t.IsPlain)
    (h : s.declared = t.declared) : s.Agrees t := by
  cases s with
  | single k =>
    cases t with
    | single k' =>
      simp only [Shape.declared, Prod.mk.injEq, Kind.scalar.injEq] at h
      rw [h.1]
      exact .refl trivial
    | repeated k' q => simp [Shape.declared] at h
    | optional k' | map k' => contradiction
  | repeated k p =>
    cases t with
    | repeated k' q =>
      simp only [Shape.declared, Prod.mk.injEq, Kind.scalar.injEq] at h
      rw [h.1]
      exact .repacked k' p q
    | single k' => simp [Shape.declared] at h
    | optional k' | map k' => contradiction
  | optional k | map k => contradiction

namespace Wire.Layout

variable {w l : Layout} {v : Record}

theorem adopt_takesOver (hv : v.IsOf w) (hw : w.IsRegular) (hfits : w.Fits l) :
    (l.adopt v).TakesOver l v where
  isOf := by simp [Record.IsOf, adopt, Function.comp_def]
  shared := by
    intro t ht s hs hnumber
    obtain ⟨f, hf, rfl⟩ := List.mem_map.mp ht
    have hslot : v.slot? f.number = some s := by
      rw [← hnumber]
      exact find?_of_distinct (Record.distinct_of_isOf hv hw) hs
    have hagrees := hfits _ (Record.mem_fields_of_isOf hv hs) f hf hnumber
    obtain ⟨x, hx⟩ := Shape.carry?_of_agrees hagrees (s.field.shape.readBack s.value)
    simp only [Record.valueFor, hslot, hx, Option.getD_some]
  missing := by
    intro t ht hnone
    obtain ⟨f, hf, rfl⟩ := List.mem_map.mp ht
    have hslot : v.slot? f.number = none := by
      refine List.find?_eq_none.mpr fun s hs => ?_
      simpa using hnone s hs
    simp only [Record.valueFor, hslot]

end Wire.Layout

namespace Contract

variable {σ : Type} {w c : Contract} {bw br : Bound Record} {v : Record} {data : Bytes}

theorem fits_of_checkCompatible (hw : w.Binds bw) (hc : c.Binds br) (hwplain : w.layout.IsPlain)
    (hcplain : c.layout.IsPlain)
    (hcompatible : checkCompatible bw.descriptor br.descriptor = .ok ()) :
    w.layout.Fits c.layout := by
  intro f hf g hg hnumber
  obtain ⟨f', hf', hfdeclared⟩ := (field?_iff hw).mp ⟨f, hf, hnumber, rfl⟩
  obtain ⟨g', hg', hgdeclared⟩ := (field?_iff hc).mp ⟨g, hg, rfl, rfl⟩
  obtain ⟨hmem, hg'number⟩ := Descriptor.field?_eq_some_iff.mp hg'
  -- the two declarations have one number, and so agree
  rw [← hg'number] at hf'
  obtain ⟨hkind, hrepeated⟩ := checkCompatible_eq_ok_iff.mp hcompatible g' hmem f' hf'
  refine Shape.agrees_of_declared (hwplain f hf) (hcplain g hg) ?_
  rw [← hfdeclared, ← hgdeclared, hkind, hrepeated]

end Contract

/-! ### Reading under another ID -/

namespace Bound

variable {α σ : Type} {b : Bound α} {r : Registry σ} {ctx : Context} {s : σ} {d : Descriptor}

theorem getOrFetch_of_obtains {id : UInt32} (h : b.Obtains r ctx s id d) :
    ∃ cache s', b.cache.getOrFetch r id ctx s = (.ok d, cache, s') := by
  unfold Cache.getOrFetch
  cases h with
  | kept hkept =>
    rw [hkept]
    exact ⟨_, _, rfl⟩
  | fetched schema hnone hfetch htype htext =>
    -- the answer is text, and the text stands for the descriptor
    have hinterpret : Cache.interpret id (.ok schema) = .ok d := by
      simp only [Cache.interpret, RegisteredSchema.descriptor, htype, htext, Descriptor.ofText_text]
      rfl
    obtain ⟨s', hs'⟩ : ∃ s', r.fetch id ctx s = (.ok schema, s') := ⟨_, Prod.ext hfetch rfl⟩
    simp only [hnone, hs', hinterpret]
    exact ⟨_, _, rfl⟩

/-- The writer's descriptor decides about an envelope under another ID. -/
theorem decode_of_obtains {data : Bytes} {e : Envelope} (hparse : Envelope.parse data = .ok e)
    (hid : e.schemaId ≠ b.schemaId) (h : b.Obtains r ctx s e.schemaId d) :
    (b.decode r data ctx s).1 = b.decodeFrom d e := by
  obtain ⟨cache, s', hfetch⟩ := getOrFetch_of_obtains h
  simp only [decode, hparse, if_neg hid, hfetch]

end Bound

namespace Contract

variable {σ : Type} {w c : Contract} {bw br : Bound Record} {v : Record} {data : Bytes}

/-- **Evolution**: what one codec has written, another codec reads under
    its own type if the descriptors are compatible, whatever else the
    writer has put in; otherwise it reads nothing of the writer's at
    all. -/
theorem decode_evolved {r : Registry σ} {ctx : Context} {s : σ} (hw : w.Binds bw) (hc : c.Binds br)
    (hwplain : w.layout.IsPlain) (hcplain : c.layout.IsPlain) (hv : v.IsOf w.layout)
    (hwrite : bw.encode v = .ok data) (hid : bw.schemaId ≠ br.schemaId)
    (hobtains : br.Obtains r ctx s bw.schemaId bw.descriptor) :
    (checkCompatible bw.descriptor br.descriptor = .ok () →
      ∃ u, (br.decode r data ctx s).1 = .ok u ∧ u.TakesOver c.layout v) ∧
    (checkCompatible bw.descriptor br.descriptor ≠ .ok () →
      ∃ e, (br.decode r data ctx s).1 = .error e ∧ e.kind = .decode) := by
  obtain ⟨hsize, rfl⟩ := of_encode_eq_ok hw hv hwrite
  have hparse := Envelope.parse_encode (e := { schemaId := bw.schemaId, payload := v.encode }) hsize
  rw [Bound.decode_of_obtains hparse hid hobtains, Bound.decodeFrom]
  constructor
  · intro hcompatible
    -- from here on only the two layouts matter
    have hfits := fits_of_checkCompatible hw hc hwplain hcplain hcompatible
    have hdecode : br.type.decode v.encode = .ok (c.layout.adopt v) := by
      rw [hc.type]
      exact Layout.decode_encode_eq_adopt hv (isRegular hw) (isRegular hc) hfits
        (Nat.lt_of_le_of_lt hsize (by decide))
    refine ⟨_, ?_, Layout.adopt_takesOver hv (isRegular hw) hfits⟩
    simp only [hcompatible, Bound.decodePayload, hdecode]
    rfl
  · intro hincompatible
    unfold checkCompatible at hincompatible ⊢
    split at hincompatible
    · exact ⟨_, rfl, rfl⟩
    · contradiction

/-! ### Two versions -/

namespace Versions

/-- What the writer has: packed values, a scale and a note. -/
def written : Descriptor where
  name := "Sample"
  fields :=
    #[{ number := 1, name := "values", kind := .sint32, repeated := true },
      { number := 2, name := "scale", kind := .double, repeated := false },
      { number := 3, name := "note", kind := .string, repeated := false }]
  isIdentifier_name := by decide
  isFieldSet := by decide

/-- What the reader has: values that it would not pack, the scale under
    another name, a mark, and no note. -/
def read : Descriptor where
  name := "Reading"
  fields :=
    #[{ number := 1, name := "values", kind := .sint32, repeated := true },
      { number := 2, name := "factor", kind := .double, repeated := false },
      { number := 4, name := "mark", kind := .bool, repeated := false }]
  isIdentifier_name := by decide
  isFieldSet := by decide

def writer : Contract :=
  .ofDescriptor written
    { name := "Sample"
      fields :=
        [{ number := 1, name := "values", shape := .repeated .sint32 true },
          { number := 2, name := "scale", shape := .single .double },
          { number := 3, name := "note", shape := .single .string }] }
    (fun _ => none) (by simp [Shape.IsScalar]) (by decide)

def reader : Contract :=
  .ofDescriptor read
    { name := "Reading"
      fields :=
        [{ number := 4, name := "mark", shape := .single .bool },
          { number := 1, name := "values", shape := .repeated .sint32 false },
          { number := 2, name := "factor", shape := .single .double }] }
    (fun _ => none) (by simp [Shape.IsScalar]) (by decide)

def sample : Record :=
  [{ field := { number := 1, name := "values", shape := .repeated .sint32 true },
      value := ([-1, 0, 7] : List Int32) },
    { field := { number := 2, name := "scale", shape := .single .double },
      value := (0x8000000000000000 : UInt64) },
    { field := { number := 3, name := "note", shape := .single .string }, value := "dry" }]

def writingCodec : Bound Record :=
  .new writer.type 1 written

def readingCodec : Bound Record :=
  .new reader.type 2 read

theorem binds_writer : writer.Binds writingCodec where
  type := rfl
  descriptor := resolve_ofDescriptor ..

theorem binds_reader : reader.Binds readingCodec where
  type := rfl
  descriptor := resolve_ofDescriptor ..

/-- A stage on which the writer has registered its schema. -/
def stage : Staged :=
  { Staged.empty with memory := (Memory.empty.register "samples" written).2 }

theorem obtains : readingCodec.Obtains Staged.registry .unbounded stage 1 written :=
  .fetched
    { id := 1, subject := none, version := none, schemaType := .protobuf, text := written.text }
    rfl rfl rfl rfl

end Versions

/-- The reader has the sample's values and its scale, no mark, and never
    hears of the note. -/
theorem versions_evolved :
    ∃ data u, Versions.writingCodec.encode Versions.sample = .ok data ∧
      (Versions.readingCodec.decode Staged.registry data .unbounded Versions.stage).1 = .ok u ∧
      u.TakesOver Versions.reader.layout Versions.sample := by
  have hof : Versions.sample.IsOf Versions.writer.layout := by decide
  have hsize : Versions.sample.encode.length ≤ Envelope.maxPayloadSize := by decide +kernel
  have hwrite := encode_eq_ok Versions.binds_writer hof rfl hsize
  have hcompatible : checkCompatible Versions.written Versions.read = .ok () := by
    decide +kernel
  obtain ⟨u, hread, hu⟩ := (decode_evolved Versions.binds_writer Versions.binds_reader
    (by simp [Layout.IsPlain, Versions.writer, ofDescriptor, Shape.IsPlain])
    (by simp [Layout.IsPlain, Versions.reader, ofDescriptor, Shape.IsPlain]) hof hwrite (by decide)
    Versions.obtains).1 hcompatible
  exact ⟨_, u, hwrite, hread, hu⟩

end Contract

end EventCodec
