import EventCodec.Proofs.Codec.Contract
import EventCodec.Proofs.Envelope

/-! # What a codec writes, it reads

    A codec bound to a type that keeps the contract reads every envelope
    it has written.  The only change a value suffers is the sign of a
    single negative zero. -/

namespace EventCodec.Contract

open Schema Wire

variable {c : Contract} {b : Bound Record} {v : Record}

/-! ### Writing -/

/-- A valid value of the type is written, unless its payload is too
    large. -/
theorem write_eq_ok (h : c.Binds b) (hv : v.IsOf c.layout) (hvalid : c.validate v = none)
    (hsize : v.encode.length ≤ Envelope.maxPayloadSize) :
    b.write v = .ok (Envelope.encode { schemaId := b.schemaId, payload := v.encode }) := by
  -- such a payload is short enough for every length in it to be written
  have hlength : v.encode.length < 2 ^ 64 := Nat.lt_of_le_of_lt hsize (by decide)
  have hcheck := checkPayload_encode h hv hlength
  have hvalidate : b.type.validate v = none := by rw [h.type]; exact hvalid
  have hencode : b.type.encode v = v.encode := by rw [h.type]; rfl
  simp only [Bound.write, hvalidate, hencode, hcheck]
  rw [if_neg (by omega)]
  rfl

theorem encode_eq_ok (h : c.Binds b) (hv : v.IsOf c.layout) (hvalid : c.validate v = none)
    (hsize : v.encode.length ≤ Envelope.maxPayloadSize) :
    b.encode v = .ok (Envelope.encode { schemaId := b.schemaId, payload := v.encode }) := by
  rw [Bound.encode, write_eq_ok h hv hvalid hsize]
  rfl

/-- A payload that is too large never gets out, whatever else is wrong. -/
theorem encode_eq_error (h : c.Binds b) (hsize : Envelope.maxPayloadSize < v.encode.length) :
    ∃ e, b.encode v = .error e ∧ e.kind = .encode := by
  have hencode : b.type.encode v = v.encode := by rw [h.type]; rfl
  -- a complaint about the value comes first, and is an error as well
  have hwrite : ∃ e, b.write v = .error e := by
    unfold Bound.write
    split
    · exact ⟨_, rfl⟩
    · rw [hencode, if_pos hsize]
      exact ⟨_, rfl⟩
  obtain ⟨e, he⟩ := hwrite
  exact ⟨e.toCodec, by rw [Bound.encode, he]; rfl, rfl⟩

/-- What was written was valid and not too large. -/
theorem of_encode_eq_ok (h : c.Binds b) (hv : v.IsOf c.layout) {data : Bytes}
    (hwrite : b.encode v = .ok data) :
    v.encode.length ≤ Envelope.maxPayloadSize ∧
      data = Envelope.encode { schemaId := b.schemaId, payload := v.encode } := by
  rcases Nat.lt_or_ge Envelope.maxPayloadSize v.encode.length with hlarge | hsize
  · obtain ⟨e, he, -⟩ := encode_eq_error h hlarge
    rw [he] at hwrite
    contradiction
  · cases hvalid : c.validate v with
    | none =>
      rw [encode_eq_ok h hv hvalid hsize] at hwrite
      exact ⟨hsize, (Except.ok.inj hwrite).symm⟩
    | some complaint =>
      have hvalidate : b.type.validate v = some complaint := by rw [h.type]; exact hvalid
      simp only [Bound.encode, Bound.write, hvalidate] at hwrite
      contradiction

/-! ### Reading -/

theorem decodePayload_encode (h : c.Binds b) (hv : v.IsOf c.layout)
    (hsize : v.encode.length < 2 ^ 64) : b.decodePayload v.encode = .ok v.readBack := by
  have hdecode : b.type.decode v.encode = .ok v.readBack := by
    rw [h.type]
    exact Layout.decode_encode_self hv (isRegular h) hsize
  rw [Bound.decodePayload, hdecode]
  rfl

/-- **Round trip**: every valid value whose payload is not too large is
    written; the envelope carries the ID the codec is bound to; and the
    codec reads it back with the registry and without, leaving itself and
    the registry's world as they are.  A payload that is too large is
    refused. -/
theorem encode_decode_round_trip (h : c.Binds b) (hv : v.IsOf c.layout) :
    (c.validate v = none → v.encode.length ≤ Envelope.maxPayloadSize →
      ∃ data, b.encode v = .ok data ∧
        Envelope.parse data = .ok { schemaId := b.schemaId, payload := v.encode } ∧
        b.decodeBound data = .ok v.readBack ∧
        ∀ {σ : Type} (r : Registry σ) (ctx : Context) (s : σ),
          b.decode r data ctx s = (.ok v.readBack, b, s)) ∧
    (Envelope.maxPayloadSize < v.encode.length → ∃ e, b.encode v = .error e ∧ e.kind = .encode) := by
  refine ⟨fun hvalid hsize => ?_, encode_eq_error h⟩
  have hparse := Envelope.parse_encode (e := { schemaId := b.schemaId, payload := v.encode }) hsize
  have hpayload := decodePayload_encode h hv (Nat.lt_of_le_of_lt hsize (by decide))
  refine ⟨_, encode_eq_ok h hv hvalid hsize, hparse, ?_, ?_⟩
  · simp only [Bound.decodeBound, hparse, if_true, hpayload]
  · intro σ r ctx s
    simp only [Bound.decode, hparse, if_true, hpayload]

/-! ### Readings -/

namespace Readings

/-- A number, a run of numbers and a text that may be absent, not in the
    order of their numbers. -/
def layout : Layout where
  name := "Readings"
  fields :=
    [{ number := 2048, name := "scale", shape := .single .double },
      { number := 1, name := "offsets", shape := .repeated .sint32 true },
      { number := 16, name := "unit", shape := .optional .string }]

def descriptor : Descriptor where
  name := "Readings"
  fields :=
    #[{ number := 1, name := "offsets", kind := .sint32, repeated := true },
      { number := 16, name := "unit", kind := .string, repeated := false },
      { number := 2048, name := "scale", kind := .double, repeated := false }]
  isIdentifier_name := by decide
  isFieldSet := by decide

def contract : Contract :=
  .ofDescriptor descriptor layout (fun _ => none) (by simp [layout, Shape.IsScalar]) (by decide)

def codec : Bound Record :=
  .new contract.type 7 descriptor

theorem binds : contract.Binds codec where
  type := rfl
  descriptor := resolve_ofDescriptor ..

/-- Readings with the given scale. -/
def scaled (scale : UInt64) : Record :=
  [{ field := { number := 2048, name := "scale", shape := .single .double }, value := scale },
    { field := { number := 1, name := "offsets", shape := .repeated .sint32 true },
      value := ([-2147483648, 0, 2147483647] : List Int32) },
    { field := { number := 16, name := "unit", shape := .optional .string },
      value := some "" }]

end Readings

/-- Readings whose scale is negative zero come back with the scale zero. -/
theorem readings_round_trip :
    ∃ data, Readings.codec.encode (Readings.scaled 0x8000000000000000) = .ok data ∧
      Readings.codec.decodeBound data = .ok (Readings.scaled 0) := by
  have hof : (Readings.scaled 0x8000000000000000).IsOf Readings.contract.layout := by decide
  have hsize : (Readings.scaled 0x8000000000000000).encode.length ≤ Envelope.maxPayloadSize := by
    decide +kernel
  obtain ⟨data, hwrite, -, hread, -⟩ := (encode_decode_round_trip Readings.binds hof).1 rfl hsize
  exact ⟨data, hwrite, hread⟩

end EventCodec.Contract
