import EventCodec.Codec.Bound
import EventCodec.Proofs.Codec.RoundTrip
import EventCodec.Proofs.Wire.Reader

/-! # How far the check of a payload goes

    The check of a payload goes from key to key (`Descriptor.Walks`): each
    number is declared, each wire type fits, each value is complete.  What
    is inside a value it does not look at.

    A reader that knows nothing but the descriptor goes the same way, and
    stops where the check goes on in two places only: at a text that is
    not UTF-8, and at a run of packed numbers that is malformed.  So what
    a codec writes can be read with the registered schema exactly if the
    event type writes texts where it has declared texts, and runs of the
    declared kind (`Bound.encode_walks`).  A type that keeps the contract
    does.  A type that has described its bytes as text does not, and its
    envelopes get out all the same. -/

namespace EventCodec

open Schema Wire

/-! ### The way of the check -/

/-- A declared field found in a payload. -/
structure Found where
  field : Field
  wireType : WireType
  /-- What follows the key. -/
  value : Input

/-- The fields from here to the end, each declared, with a wire type that
    fits and a value that is complete. -/
inductive Schema.Descriptor.Walks (d : Descriptor) : Input → List Found → Prop where
  | done {i : Input} : i.size = 0 → d.Walks i []
  | field {i rest left : Input} {key : Key} {f : Field} {row : List Found} :
      Key.read i = .ok (key, rest) → d.field? key.number = some f →
      fitsField f key.wireType = true → skip recursionBudget key rest = .ok left →
      d.Walks left row → d.Walks i ({ field := f, wireType := key.wireType, value := rest } :: row)

variable {d : Descriptor} {i : Input} {row row' : List Found}

/-- There is one way only. -/
theorem Schema.Descriptor.Walks.unique (h : d.Walks i row) (h' : d.Walks i row') : row = row' := by
  induction h generalizing row' with
  | done hend =>
    cases h' with
    | done => rfl
    | field hkey =>
      have hsize := Key.size_read hkey
      omega
  | field hkey hfield _ hskip _ ih =>
    cases h' with
    | done hend =>
      have hsize := Key.size_read hkey
      omega
    | field hkey' hfield' _ hskip' hrest =>
      obtain ⟨rfl, rfl⟩ := Prod.mk.inj (Except.ok.inj (hkey.symm.trans hkey'))
      obtain rfl := Option.some.inj (hfield.symm.trans hfield')
      obtain rfl := Except.ok.inj (hskip.symm.trans hskip')
      rw [ih hrest]

theorem checkField_eq_ok {key : Key} {left : Input} (h : checkField d key i = .ok left) :
    ∃ f, d.field? key.number = some f ∧ fitsField f key.wireType = true ∧
      skip recursionBudget key i = .ok left := by
  unfold checkField at h
  split at h
  · contradiction
  · next f hfield =>
    split at h
    · next hfits =>
      refine ⟨f, hfield, hfits, ?_⟩
      cases hskip : skip recursionBudget key i with
      | error e =>
        rw [hskip] at h
        contradiction
      | ok rest =>
        rw [hskip] at h
        exact congrArg Except.ok (Except.ok.inj h)
    · contradiction

/-- The check passes what can be walked through, and nothing else. -/
theorem checkFields_eq_ok_iff : checkFields d i = .ok () ↔ ∃ row, d.Walks i row := by
  constructor
  · intro h
    fun_induction checkFields d i with
    | case1 i hend => exact ⟨[], .done hend⟩
    | case4 i _ key rest hkey left hfield ih =>
      obtain ⟨f, hdeclared, hfits, hskip⟩ := checkField_eq_ok hfield
      obtain ⟨row, hrow⟩ := ih h
      exact ⟨_, .field hkey hdeclared hfits hskip hrow⟩
    | _ => contradiction
  · rintro ⟨row, hrow⟩
    induction hrow with
    | done hend => rw [checkFields, if_pos hend]
    | field hkey hfield hfits hskip _ ih =>
      rw [Contract.checkFields_step hkey (Contract.checkField_of_fits hfield hfits hskip)]
      exact ih

/-! ### Readers that know the descriptor -/

/-- How a field that was declared is read. -/
def Schema.Field.shape (f : Field) : Shape :=
  if f.repeated then .repeated f.kind false else .single f.kind

/-- Whether the fields from here to the end can be read with nothing but
    the descriptor. -/
def Schema.Descriptor.accepts (d : Descriptor) (i : Input) : Bool :=
  if i.size = 0 then true
  else
    match _key : Key.read i with
    | .error _ => false
    | .ok (key, rest) =>
      match d.field? key.number with
      | none => false
      | some f =>
        match _chunk : readChunk recursionBudget f.shape key.wireType rest with
        | .error _ => false
        | .ok (_, left) => d.accepts left
termination_by i.size
decreasing_by
  have := Key.size_read _key
  have := size_readChunk _chunk
  omega

/-- What can be read, the check lets pass, and it goes on at the same
    place. -/
theorem Schema.Field.fits_of_readChunk {f : Field} {key : Key} {chunk : f.shape.Chunk} {left : Input}
    (h : readChunk recursionBudget f.shape key.wireType i = .ok (chunk, left)) :
    fitsField f key.wireType = true ∧ skip recursionBudget key i = .ok left := by
  obtain ⟨number, name, kind, repeated⟩ := f
  obtain ⟨keyNumber, w⟩ := key
  have hsingle : ∀ {v : ScalarValue kind}, readSingle kind w i = .ok (v, left) →
      w = wireTypeOf kind ∧ skip recursionBudget { number := keyNumber, wireType := w } i = .ok left := by
    intro v hread
    obtain ⟨rfl, hvalue⟩ := readSingle_eq_ok_iff.mp hread
    exact ⟨rfl, skip_of_skipPlain (skipPlain_of_readScalar hvalue)⟩
  cases repeated with
  | false =>
    obtain ⟨hw, hskip⟩ := hsingle h
    exact ⟨by simp [fitsField, hw], hskip⟩
  | true =>
    rcases readRepeated_cases h with ⟨-, rfl, limit, start, hlimit, hrun⟩ | ⟨v, hread⟩
    · exact ⟨by simp [fitsField], skip_of_skipPlain (skipPlain_of_readRun hlimit hrun)⟩
    · obtain ⟨hw, hskip⟩ := hsingle hread
      exact ⟨by simp [fitsField, hw], hskip⟩

namespace Found

variable {found : Found}

/-- The value can be read as the kind that was declared. -/
def IsRead (found : Found) : Prop :=
  ∃ chunk left,
    readChunk recursionBudget found.field.shape found.wireType found.value = .ok (chunk, left)

/-- The value is a text. -/
def HasText (found : Found) : Prop :=
  ∃ content left text,
    readDelimited found.value = .ok (content, left) ∧ Bytes.toText? content = some text

/-- The value is a run of packed numbers of the kind that was declared. -/
def HasRun (found : Found) : Prop :=
  ∃ limit start vs left, readLimit found.value = .ok (limit, start) ∧
    readRun found.field.kind limit [] start = .ok (vs, left)

/-- A text is what is read as one. -/
theorem hasText_iff : found.HasText ↔ ∃ v left, readScalar .string found.value = .ok (v, left) := by
  constructor
  · rintro ⟨content, left, text, hread, htext⟩
    exact ⟨text, left, by simp only [readScalar, hread, htext]⟩
  · rintro ⟨v, left, hread⟩
    simp only [readScalar] at hread
    split at hread
    · contradiction
    · next content rest hcontent =>
      split at hread
      · next text htext => exact ⟨content, rest, text, hcontent, htext⟩
      · contradiction

/-- With the wire type of its kind a value is read on its own, whether or
    not the field is repeated. -/
theorem isRead_iff_single (hw : found.wireType = wireTypeOf found.field.kind) :
    found.IsRead ↔ ∃ v left, readScalar found.field.kind found.value = .ok (v, left) := by
  obtain ⟨⟨number, name, kind, repeated⟩, w, value⟩ := found
  obtain rfl : w = wireTypeOf kind := hw
  cases repeated with
  | false =>
    constructor
    · rintro ⟨v, left, hread⟩
      exact ⟨v, left, (readSingle_eq_ok_iff.mp hread).2⟩
    · rintro ⟨v, left, hread⟩
      exact ⟨v, left, readSingle_eq_ok_iff.mpr ⟨rfl, hread⟩⟩
  | true =>
    constructor
    · rintro ⟨vs, left, hread⟩
      rcases readRepeated_cases hread with ⟨hnumeric, hdelimited, -⟩ | ⟨v, hsingle⟩
      · exact absurd hdelimited (wireTypeOf_ne_of_isNumeric hnumeric)
      · exact ⟨v, left, (readSingle_eq_ok_iff.mp hsingle).2⟩
    · rintro ⟨v, left, hread⟩
      exact ⟨[v], left, readRepeated_of_single wireTypeOf_ne_of_isNumeric
        (readSingle_eq_ok_iff.mpr ⟨rfl, hread⟩)⟩

/-- Numbers under any other wire type are read as a run. -/
theorem isRead_iff_run (hrepeated : found.field.repeated = true)
    (hnumeric : found.field.kind.isNumeric = true) (hw : found.wireType = .lengthDelimited) :
    found.IsRead ↔ found.HasRun := by
  obtain ⟨⟨number, name, kind, repeated⟩, w, value⟩ := found
  obtain rfl : repeated = true := hrepeated
  obtain rfl : w = .lengthDelimited := hw
  constructor
  · rintro ⟨vs, left, hread⟩
    rcases readRepeated_cases hread with ⟨-, -, limit, start, hlimit, hrun⟩ | ⟨v, hsingle⟩
    · exact ⟨limit, start, vs, left, hlimit, hrun⟩
    · exact absurd (readSingle_eq_ok_iff.mp hsingle).1.symm (wireTypeOf_ne_of_isNumeric hnumeric)
  · rintro ⟨limit, start, vs, left, hlimit, hrun⟩
    exact ⟨vs, left, readRepeated_of_run hnumeric hlimit hrun⟩

/-- Where the check passes, it is for the texts and the runs whether the
    value can be read. -/
theorem isRead_iff {number : UInt32} {left : Input}
    (hfits : fitsField found.field found.wireType = true)
    (hskip : skip recursionBudget { number, wireType := found.wireType } found.value = .ok left) :
    found.IsRead ↔
      (found.field.kind = .string → found.HasText) ∧
        (found.field.kind.isNumeric = true → found.wireType = .lengthDelimited → found.HasRun) := by
  by_cases hw : found.wireType = wireTypeOf found.field.kind
  · have hrun : found.field.kind.isNumeric = true → found.wireType ≠ .lengthDelimited :=
      fun hnumeric hdelimited => wireTypeOf_ne_of_isNumeric hnumeric (hw.symm.trans hdelimited)
    rw [isRead_iff_single hw]
    by_cases htext : found.field.kind = .string
    · rw [htext, ← hasText_iff]
      exact ⟨fun h => ⟨fun _ => h, nofun⟩, fun h => h.1 rfl⟩
    · -- all but texts can be read if they can be skipped
      have hplain : skipPlain (wireTypeOf found.field.kind) found.value = .ok left := by
        rw [hw] at hskip
        exact skipPlain_of_skip (wireTypeOf_ne_startGroup _) hskip
      obtain ⟨v, hread⟩ := readScalar_of_skipPlain htext hplain
      constructor
      · intro _
        exact ⟨fun h => absurd h htext, fun hnumeric h => absurd h (hrun hnumeric)⟩
      · intro _
        exact ⟨v, left, hread⟩
  · -- only runs of numbers have another wire type than their kind
    obtain ⟨hrepeated, hdelimited⟩ :
        found.field.repeated = true ∧ found.wireType = .lengthDelimited := by
      simpa [fitsField, hw] using hfits
    have hnumeric : found.field.kind.isNumeric = true := by
      rw [hdelimited] at hw
      cases hkind : found.field.kind with
      | string | bytes =>
        rw [hkind] at hw
        exact absurd rfl hw
      | _ => rfl
    have htext : found.field.kind ≠ .string := by
      intro h
      rw [h] at hnumeric
      contradiction
    rw [isRead_iff_run hrepeated hnumeric hdelimited]
    constructor
    · intro h
      exact ⟨fun hstring => absurd hstring htext, fun _ _ => h⟩
    · intro h
      exact h.2 hnumeric hdelimited

end Found

/-- Of each field on the way of the check it is for the texts and the runs
    whether it can be read. -/
theorem Schema.Descriptor.Walks.isRead_iff (h : d.Walks i row) {found : Found}
    (hfound : found ∈ row) :
    found.IsRead ↔
      (found.field.kind = .string → found.HasText) ∧
        (found.field.kind.isNumeric = true → found.wireType = .lengthDelimited → found.HasRun) := by
  induction h with
  | done => contradiction
  | field hkey hfield hfits hskip _ ih =>
    rcases List.mem_cons.mp hfound with rfl | hrest
    · exact Found.isRead_iff hfits hskip
    · exact ih hrest

theorem Schema.Descriptor.accepts_step {key : Key} {f : Field} {rest left : Input}
    {chunk : f.shape.Chunk} (hkey : Key.read i = .ok (key, rest))
    (hfield : d.field? key.number = some f)
    (hchunk : readChunk recursionBudget f.shape key.wireType rest = .ok (chunk, left)) :
    d.accepts i = d.accepts left := by
  have hsize := Key.size_read hkey
  rw [Descriptor.accepts, if_neg (by omega)]
  grind

/-- Reading and checking go the same way, but for what is inside the
    values. -/
theorem Schema.Descriptor.accepts_iff :
    d.accepts i = true ↔ ∃ row, d.Walks i row ∧ ∀ found ∈ row, found.IsRead := by
  constructor
  · intro h
    fun_induction Descriptor.accepts d i with
    | case1 i hend => exact ⟨[], .done hend, by simp⟩
    | case5 i _ key rest hkey f hfield chunk left hchunk ih =>
      obtain ⟨hfits, hskip⟩ := Field.fits_of_readChunk hchunk
      obtain ⟨row, hrow, hread⟩ := ih h
      refine ⟨_, .field hkey hfield hfits hskip hrow, ?_⟩
      intro found hfound
      rcases List.mem_cons.mp hfound with rfl | hfound
      · exact ⟨chunk, left, hchunk⟩
      · exact hread found hfound
    | _ => contradiction
  · rintro ⟨row, hrow, hread⟩
    induction hrow with
    | done hend =>
      rw [Descriptor.accepts, if_pos hend]
    | @field i rest left key f row hkey hfield hfits hskip _ ih =>
      obtain ⟨chunk, left', hchunk⟩ := hread _ List.mem_cons_self
      obtain rfl : left' = left :=
        Except.ok.inj ((Field.fits_of_readChunk hchunk).2.symm.trans hskip)
      rw [accepts_step hkey hfield hchunk]
      exact ih fun found hfound => hread found (List.mem_cons_of_mem _ hfound)

/-! ### Types that keep the contract -/

/-- A piece written under a shape can be read as what that shape was
    declared as. -/
theorem Schema.Field.exists_holds_shape {s : Shape} {chunk : s.Chunk} {p : Piece} {g : Field}
    (h : Piece.Holds s chunk p) (hdeclared : (.scalar g.kind, g.repeated) = s.declared) :
    ∃ c : g.shape.Chunk, Piece.Holds g.shape c p := by
  obtain ⟨number, name, kind, repeated⟩ := g
  cases s with
  | single k | optional k =>
    obtain ⟨rfl, rfl⟩ : kind = k ∧ repeated = false := by simpa [Shape.declared] using hdeclared
    exact ⟨chunk, h⟩
  | repeated k packed =>
    obtain ⟨rfl, rfl⟩ : kind = k ∧ repeated = true := by simpa [Shape.declared] using hdeclared
    exact ⟨chunk, h⟩
  | map k => contradiction

/-- Parts can be read if each holds what its field has declared. -/
theorem Schema.Descriptor.accepts_parts {d : Descriptor} {parts : List Part}
    (hlegal : ∀ part ∈ parts, part.IsLegal)
    (hdeclared : ∀ part ∈ parts, ∃ g, d.field? part.1 = some g ∧
      ∃ c : g.shape.Chunk, Piece.Holds g.shape c part.2) :
    d.accepts (.ofBytes (parts.flatMap Part.encode)) = true := by
  induction parts with
  | nil =>
    rw [Descriptor.accepts]
    simp
  | cons part parts ih =>
    obtain ⟨number, p⟩ := part
    have hpart := hlegal (number, p) List.mem_cons_self
    obtain ⟨g, hg, c, hc⟩ := hdeclared (number, p) List.mem_cons_self
    have hkey := Key.read_encode (k := { number, wireType := p.wireType })
      (p.content ++ parts.flatMap Part.encode) hpart.number
    have hchunk := Piece.readChunk_of_holds hc hpart.size (parts.flatMap Part.encode)
    rw [List.flatMap_cons, Part.encode, Piece.encode, List.append_assoc,
      accepts_step hkey hg hchunk]
    exact ih (fun q hq => hlegal q (List.mem_cons_of_mem _ hq))
      fun q hq => hdeclared q (List.mem_cons_of_mem _ hq)

/-- A type that keeps the contract writes nothing that its descriptor
    does not read. -/
theorem Contract.accepts_of_encode {c : Contract} {b : Bound Record} (h : c.Binds b) {v : Record}
    (hv : v.IsOf c.layout) {bytes : Bytes} (hwrite : b.encode v = .ok bytes) :
    b.descriptor.accepts (.ofBytes (b.type.encode v)) = true := by
  have hencode : b.type.encode v = v.encode := by rw [h.type]; rfl
  have hsize : v.encode.length < 2 ^ 64 :=
    Nat.lt_of_le_of_lt (of_encode_eq_ok h hv hwrite).1 (by decide)
  rw [hencode, v.encode_eq_parts]
  refine Descriptor.accepts_parts (fun _ => Record.parts_isLegal hv (isRegular h) hsize) ?_
  intro part hpart
  obtain ⟨g, hg, s, chunk, hdeclared, hchunk⟩ := exists_holds_of_mem h hv hpart
  exact ⟨g, hg, g.exists_holds_shape hchunk hdeclared⟩

/-! ### What gets out -/

/-- What a codec writes is the header and the payload of the value, and
    the payload has passed the check. -/
theorem Bound.encode_eq_ok {α : Type} {b : Bound α} {v : α} {bytes : Bytes}
    (h : b.encode v = .ok bytes) :
    bytes = Envelope.encode { schemaId := b.schemaId, payload := b.type.encode v } ∧
      checkPayload b.descriptor (b.type.encode v) = .ok () := by
  unfold Bound.encode at h
  cases hwrite : b.write v with
  | error e =>
    rw [hwrite] at h
    contradiction
  | ok written =>
    rw [hwrite] at h
    obtain rfl := Except.ok.inj h
    unfold Bound.write at hwrite
    split at hwrite
    · contradiction
    · dsimp only at hwrite
      split at hwrite
      · contradiction
      · split at hwrite
        · contradiction
        · next hcheck =>
          exact ⟨(Except.ok.inj hwrite).symm, hcheck⟩

/-- **What gets out.**  In whatever a codec writes every field is declared,
    has a wire type that fits and a complete value.  A reader that knows
    nothing but the registered descriptor accepts it exactly if every
    value declared as text is a text, and every length-delimited value of
    a number a run of that kind. -/
theorem Bound.encode_walks {α : Type} {b : Bound α} {v : α} {bytes : Bytes}
    (h : b.encode v = .ok bytes) :
    bytes = Envelope.encode { schemaId := b.schemaId, payload := b.type.encode v } ∧
    ∃ row, b.descriptor.Walks (.ofBytes (b.type.encode v)) row ∧
      (b.descriptor.accepts (.ofBytes (b.type.encode v)) = true ↔
        ∀ found ∈ row, (found.field.kind = .string → found.HasText) ∧
          (found.field.kind.isNumeric = true → found.wireType = .lengthDelimited →
            found.HasRun)) := by
  obtain ⟨hbytes, hcheck⟩ := encode_eq_ok h
  obtain ⟨row, hrow⟩ := checkFields_eq_ok_iff.mp hcheck
  refine ⟨hbytes, row, hrow, ?_⟩
  have hread : b.descriptor.accepts (.ofBytes (b.type.encode v)) = true ↔
      ∀ found ∈ row, found.IsRead := by
    rw [Descriptor.accepts_iff]
    constructor
    · rintro ⟨row', hrow', hall⟩
      rwa [hrow.unique hrow']
    · intro hall
      exact ⟨row, hrow, hall⟩
  rw [hread]
  exact forall₂_congr fun found hfound => hrow.isRead_iff hfound

/-! ### Notes that claim too much -/

namespace Note

/-- A note is written as bytes, under the number 15. -/
def layout : Layout where
  name := "Note"
  fields := [{ number := 15, name := "text", shape := .single .bytes }]

/-- The bytes of a note. -/
def ofBytes (content : Bytes) : Record :=
  [{ field := { number := 15, name := "text", shape := .single .bytes }, value := content }]

/-- What a note may claim to hold under its number. -/
def descriptor (kind : Scalar) (repeated : Bool) : Descriptor where
  name := "Note"
  fields := #[{ number := 15, name := "text", kind, repeated }]
  isIdentifier_name := by decide
  isFieldSet :=
    { legal := by cases kind <;> cases repeated <;> decide
      sorted := List.pairwise_singleton _ _
      names := List.pairwise_singleton _ _ }

/-- Notes under a claim. -/
def type (kind : Scalar) (repeated : Bool) : EventType Record :=
  (layout.eventType fun _ => none).describedAs (descriptor kind repeated).declared

def codec (kind : Scalar) (repeated : Bool) : Bound Record :=
  .new (type kind repeated) 1 (descriptor kind repeated)

theorem resolve_type (kind : Scalar) (repeated : Bool) :
    (type kind repeated).resolve = .ok (descriptor kind repeated) := by
  cases kind <;> cases repeated <;> decide +kernel

/-- Claimed to be a text: a byte that no text begins with. -/
theorem encode_text :
    (codec .string false).encode (ofBytes [0xFF]) = .ok [0, 0, 0, 0, 1, 0x7A, 1, 0xFF] := by
  decide +kernel

theorem not_accepts_text :
    (descriptor .string false).accepts
      (.ofBytes ((type .string false).encode (ofBytes [0xFF]))) ≠ true := by
  decide +kernel

/-- Claimed to be a run of numbers: a number that does not end. -/
theorem encode_run :
    (codec .int32 true).encode (ofBytes [0x80]) = .ok [0, 0, 0, 0, 1, 0x7A, 1, 0x80] := by
  decide +kernel

theorem not_accepts_run :
    (descriptor .int32 true).accepts
      (.ofBytes ((type .int32 true).encode (ofBytes [0x80]))) ≠ true := by
  decide +kernel

/-- The check is not enough: even under the descriptor its type resolves
    to, a codec writes what a reader of that descriptor refuses. -/
theorem not_forall_accepts :
    ¬ ∀ (α : Type) (b : Bound α) (v : α) (bytes : Bytes),
      b.type.resolve = .ok b.descriptor → b.encode v = .ok bytes →
        b.descriptor.accepts (.ofBytes (b.type.encode v)) = true := by
  intro h
  exact not_accepts_text
    (h Record (codec .string false) (ofBytes [0xFF]) _ (resolve_type .string false) encode_text)

/-- The way of the check through the run that is none. -/
theorem exists_walks_run :
    ∃ row, (descriptor .int32 true).Walks
        (.ofBytes ((type .int32 true).encode (ofBytes [0x80]))) row ∧
      ¬ ∀ found ∈ row, (found.field.kind = .string → found.HasText) ∧
        (found.field.kind.isNumeric = true → found.wireType = .lengthDelimited →
          found.HasRun) := by
  obtain ⟨-, row, hrow, haccepts⟩ := Bound.encode_walks encode_run
  refine ⟨row, hrow, ?_⟩
  intro hall
  exact not_accepts_run (haccepts.mpr hall)

end Note

end EventCodec
