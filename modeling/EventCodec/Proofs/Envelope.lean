import EventCodec.Envelope
import Mathlib.Algebra.Group.Nat.Defs

/-! # Envelopes are read as they were written

    The four bytes of an ID are its digits in base 256, so putting them
    together again gives the ID (`idOfBytes_idBytes`), and any four bytes
    are those of one ID (`idBytes_idOfBytes`).  With that, parsing undoes
    encoding for every payload that is not too large, and what it takes
    is an envelope as it is encoded (`parse_eq_ok_iff`).

    What is no envelope fails at the first of three things: it has no
    header, the header has another magic byte, the payload is too large.
    The ID alone is read up to the second of them. -/

namespace EventCodec.Envelope

/-! ### The bytes of an ID -/

/-- Where no bit is set in both numbers, disjunction is addition. -/
theorem or_eq_add {x y i : Nat} (hx : 2 ^ i ∣ x) (hy : y < 2 ^ i) : x ||| y = x + y := by
  obtain ⟨k, rfl⟩ := hx
  exact (Nat.two_pow_add_eq_or_of_lt hy k).symm

theorem toNat_idOfBytes (a b c d : UInt8) :
    (idOfBytes a b c d).toNat =
      a.toNat * 16777216 + b.toNat * 65536 + c.toNat * 256 + d.toNat := by
  have ha := a.toNat_lt
  have hb := b.toNat_lt
  have hc := c.toNat_lt
  have hd := d.toNat_lt
  have h24 : a.toNat * 16777216 ||| b.toNat * 65536 = a.toNat * 16777216 + b.toNat * 65536 :=
    or_eq_add (i := 24) (by omega) (by omega)
  have h16 := or_eq_add (x := a.toNat * 16777216 + b.toNat * 65536) (y := c.toNat * 256) (i := 16)
    (by omega) (by omega)
  have h8 := or_eq_add (x := a.toNat * 16777216 + b.toNat * 65536 + c.toNat * 256) (y := d.toNat)
    (i := 8) (by omega) (by omega)
  simp only [idOfBytes, UInt32.toNat_or, UInt32.toNat_shiftLeft, UInt8.toNat_toUInt32,
    Nat.shiftLeft_eq]
  simp only [UInt32.reduceToNat, Nat.reduceMod, Nat.reducePow]
  rw [Nat.mod_eq_of_lt (by omega), Nat.mod_eq_of_lt (by omega), Nat.mod_eq_of_lt (by omega),
    h24, h16, h8]

theorem idOfBytes_idBytes (id : UInt32) :
    idOfBytes (id >>> 24).toUInt8 (id >>> 16).toUInt8 (id >>> 8).toUInt8 id.toUInt8 = id := by
  have hlt := id.toNat_lt
  apply UInt32.toNat_inj.mp
  rw [toNat_idOfBytes]
  simp [Nat.shiftRight_eq_div_pow]
  omega

theorem idBytes_idOfBytes (a b c d : UInt8) : idBytes (idOfBytes a b c d) = [a, b, c, d] := by
  have hid := toNat_idOfBytes a b c d
  have ha := a.toNat_lt
  have hb := b.toNat_lt
  have hc := c.toNat_lt
  have hd := d.toNat_lt
  -- a byte of the ID is what is left of it behind the higher ones
  have hbyte : ∀ (id : UInt32) (x : UInt8), id.toNat % 256 = x.toNat → id.toUInt8 = x :=
    fun id x h => UInt8.toNat_inj.mp (by simpa using h)
  have h24 : (idOfBytes a b c d >>> 24).toUInt8 = a :=
    hbyte _ _ (by simp [Nat.shiftRight_eq_div_pow]; omega)
  have h16 : (idOfBytes a b c d >>> 16).toUInt8 = b :=
    hbyte _ _ (by simp [Nat.shiftRight_eq_div_pow]; omega)
  have h8 : (idOfBytes a b c d >>> 8).toUInt8 = c :=
    hbyte _ _ (by simp [Nat.shiftRight_eq_div_pow]; omega)
  have h0 : (idOfBytes a b c d).toUInt8 = d := hbyte _ _ (by omega)
  rw [idBytes, h24, h16, h8, h0]

/-- The header is the magic byte and the ID, the high byte first. -/
theorem exists_header (id : UInt32) : ∃ a b c d : UInt8, header id = [0, a, b, c, d] ∧
    id.toNat = a.toNat * 16777216 + b.toNat * 65536 + c.toNat * 256 + d.toNat := by
  refine ⟨_, _, _, _, rfl, ?_⟩
  rw [← toNat_idOfBytes, idOfBytes_idBytes]

/-! ### Whole envelopes -/

theorem split_encode (e : Envelope) : split e.encode = .ok (e.schemaId, e.payload) := by
  show split (magicByte :: (e.schemaId >>> 24).toUInt8 :: (e.schemaId >>> 16).toUInt8 ::
    (e.schemaId >>> 8).toUInt8 :: e.schemaId.toUInt8 :: e.payload) = _
  rw [split, if_pos rfl, idOfBytes_idBytes]

theorem parse_encode {e : Envelope} (h : e.payload.length ≤ maxPayloadSize) :
    parse e.encode = .ok e := by
  simp only [parse, split_encode]
  rw [if_neg (by omega)]

theorem encode_injective : Function.Injective encode := by
  intro e e' h
  have hsplit := split_encode e
  rw [h, split_encode e'] at hsplit
  obtain ⟨hid, hpayload⟩ := Prod.mk.inj (Except.ok.inj hsplit)
  cases e; cases e'
  simp_all

/-! ### What is read from any bytes -/

variable {data : Bytes}

/-- Bytes are short of a header, have a header with another magic byte, or
    are an envelope as it is encoded. -/
theorem split_cases (data : Bytes) :
    (data.length < headerSize ∧ split data = .error (.tooShort data.length)) ∨
    (∃ m, headerSize ≤ data.length ∧ data.head? = some m ∧ m ≠ magicByte ∧
      split data = .error (.badMagic m)) ∨
    ∃ e : Envelope, data = e.encode := by
  unfold split
  split
  · next magic a b c d payload =>
    right
    by_cases hmagic : magic = magicByte
    · right
      refine ⟨{ schemaId := idOfBytes a b c d, payload }, ?_⟩
      simp only [encode, header, idBytes_idOfBytes, hmagic]
      rfl
    · left
      exact ⟨magic, by simp [headerSize], rfl, hmagic, if_neg hmagic⟩
  · next short hshort =>
    left
    refine ⟨?_, rfl⟩
    match data, hshort with
    | [], _ | [_], _ | [_, _], _ | [_, _, _], _ | [_, _, _, _], _ => simp [headerSize]
    | m :: a :: b :: c :: d :: payload, hshort => exact absurd rfl (hshort m a b c d payload)

theorem length_encode (e : Envelope) : e.encode.length = headerSize + e.payload.length := by
  simp [encode, header, idBytes, headerSize]
  omega

theorem head?_encode (e : Envelope) : e.encode.head? = some magicByte := rfl

theorem split_of_short (h : data.length < headerSize) :
    split data = .error (.tooShort data.length) := by
  rcases split_cases data with ⟨-, hsplit⟩ | ⟨m, hlong, -⟩ | ⟨e, rfl⟩
  · exact hsplit
  · omega
  · rw [length_encode] at h
    omega

theorem split_of_magic {m : UInt8} (hlong : headerSize ≤ data.length)
    (hhead : data.head? = some m) (hmagic : m ≠ magicByte) :
    split data = .error (.badMagic m) := by
  rcases split_cases data with ⟨hshort, -⟩ | ⟨m', -, hhead', -, hsplit⟩ | ⟨e, rfl⟩
  · omega
  · obtain rfl := Option.some.inj (hhead.symm.trans hhead')
    exact hsplit
  · rw [head?_encode] at hhead
    exact absurd (Option.some.inj hhead).symm hmagic

theorem parse_of_split_error {err : EnvelopeError} (h : split data = .error err) :
    parse data = .error err := by
  simp only [parse, h]

theorem parse_of_large {e : Envelope} (h : maxPayloadSize < e.payload.length) :
    parse e.encode = .error (.payloadTooLarge e.payload.length) := by
  simp only [parse, split_encode]
  rw [if_pos h]

/-- What bytes come to when an envelope is read from them. -/
inductive Verdict : Bytes → Except EnvelopeError Envelope → Prop where
  | short {data : Bytes} : data.length < headerSize → Verdict data (.error (.tooShort data.length))
  | magic {data : Bytes} {m : UInt8} : headerSize ≤ data.length → data.head? = some m →
      m ≠ magicByte → Verdict data (.error (.badMagic m))
  | large {e : Envelope} : maxPayloadSize < e.payload.length →
      Verdict e.encode (.error (.payloadTooLarge e.payload.length))
  | fits {e : Envelope} : e.payload.length ≤ maxPayloadSize → Verdict e.encode (.ok e)

theorem verdict_parse (data : Bytes) : Verdict data (parse data) := by
  rcases split_cases data with ⟨hshort, hsplit⟩ | ⟨m, hlong, hhead, hmagic, hsplit⟩ | ⟨e, rfl⟩
  · rw [parse_of_split_error hsplit]
    exact .short hshort
  · rw [parse_of_split_error hsplit]
    exact .magic hlong hhead hmagic
  · rcases Nat.lt_or_ge maxPayloadSize e.payload.length with hlarge | hfits
    · rw [parse_of_large hlarge]
      exact .large hlarge
    · rw [parse_encode hfits]
      exact .fits hfits

theorem parse_eq_iff {result : Except EnvelopeError Envelope} :
    parse data = result ↔ Verdict data result := by
  constructor
  · rintro rfl
    exact verdict_parse data
  · intro h
    cases h with
    | short hshort => exact parse_of_split_error (split_of_short hshort)
    | magic hlong hhead hmagic => exact parse_of_split_error (split_of_magic hlong hhead hmagic)
    | large hlarge => exact parse_of_large hlarge
    | fits hfits => exact parse_encode hfits

theorem parse_eq_ok_iff {e : Envelope} :
    parse data = .ok e ↔ data = e.encode ∧ e.payload.length ≤ maxPayloadSize := by
  rw [parse_eq_iff]
  constructor
  · intro h
    cases h with
    | fits hfits => exact ⟨rfl, hfits⟩
  · rintro ⟨rfl, hfits⟩
    exact .fits hfits

/-! ### The ID alone -/

theorem peekSchemaId_encode (e : Envelope) : peekSchemaId e.encode = .ok e.schemaId := by
  rw [peekSchemaId, split_encode]
  rfl

/-- Whoever looks for the ID alone fails like parsing, unless it is the
    payload that parsing fails at. -/
theorem peekSchemaId_eq_error_iff {err : EnvelopeError} :
    peekSchemaId data = .error err ↔
      parse data = .error err ∧ ∀ n, err ≠ .payloadTooLarge n := by
  rcases split_cases data with ⟨-, hsplit⟩ | ⟨m, -, -, -, hsplit⟩ | ⟨e, rfl⟩
  · rw [peekSchemaId, parse_of_split_error hsplit, hsplit]
    grind [Except.map]
  · rw [peekSchemaId, parse_of_split_error hsplit, hsplit]
    grind [Except.map]
  · rw [peekSchemaId_encode, parse_eq_iff]
    constructor
    · intro h
      contradiction
    · rintro ⟨h, hpayload⟩
      generalize hdata : e.encode = data at h
      cases h with
      | short hshort =>
        rw [← hdata, length_encode] at hshort
        omega
      | magic _ hhead hmagic =>
        rw [← hdata, head?_encode] at hhead
        exact absurd (Option.some.inj hhead).symm hmagic
      | large => exact absurd rfl (hpayload _)

theorem peekSchemaId_eq_ok_iff {id : UInt32} :
    peekSchemaId data = .ok id ↔ ∃ payload, data = header id ++ payload := by
  constructor
  · intro h
    rcases split_cases data with ⟨-, hsplit⟩ | ⟨m, -, -, -, hsplit⟩ | ⟨e, rfl⟩
    · rw [peekSchemaId, hsplit] at h
      contradiction
    · rw [peekSchemaId, hsplit] at h
      contradiction
    · rw [peekSchemaId_encode] at h
      obtain rfl := Except.ok.inj h
      exact ⟨e.payload, rfl⟩
  · rintro ⟨payload, rfl⟩
    exact peekSchemaId_encode { schemaId := id, payload }

/-! ### The format -/

/-- **Envelopes are exactly what is parsed**: bytes are read as an ID and a
    payload if and only if they are the header of the ID with the payload
    behind it, and the payload has at most 16 MiB.  So parsing undoes
    writing, writing undoes parsing, and different envelopes are written
    differently, however large.  What is refused is refused for its length
    first, then for its magic byte, then for its payload; and the ID is
    found in everything that has a header. -/
theorem parse_is_exact :
    (∀ id : UInt32, ∃ a b c d : UInt8, header id = [0, a, b, c, d] ∧
      id.toNat = a.toNat * 16777216 + b.toNat * 65536 + c.toNat * 256 + d.toNat) ∧
    (∀ (data : Bytes) (id : UInt32) (payload : Bytes),
      parse data = .ok { schemaId := id, payload } ↔
        data = header id ++ payload ∧ payload.length ≤ 16777216) ∧
    (∀ (id : UInt32) (payload : Bytes), payload.length ≤ 16777216 →
      parse (header id ++ payload) = .ok { schemaId := id, payload }) ∧
    (∀ (data : Bytes) (e : Envelope), parse data = .ok e → header e.schemaId ++ e.payload = data) ∧
    (∀ (id id' : UInt32) (payload payload' : Bytes),
      header id ++ payload = header id' ++ payload' → id = id' ∧ payload = payload') ∧
    (∀ (data : Bytes) (n : Nat),
      parse data = .error (.tooShort n) ↔ data.length < 5 ∧ n = data.length) ∧
    (∀ (data : Bytes) (m : UInt8),
      parse data = .error (.badMagic m) ↔ 5 ≤ data.length ∧ data.head? = some m ∧ m ≠ 0) ∧
    (∀ (data : Bytes) (n : Nat), parse data = .error (.payloadTooLarge n) ↔
      ∃ id payload, data = header id ++ payload ∧ n = payload.length ∧ 16777216 < n) ∧
    (∀ (data : Bytes) (err : EnvelopeError), peekSchemaId data = .error err ↔
      parse data = .error err ∧ ∀ n, err ≠ .payloadTooLarge n) ∧
    (∀ (data : Bytes) (id : UInt32),
      peekSchemaId data = .ok id ↔ ∃ payload, data = header id ++ payload) := by
  refine ⟨exists_header, ?ok, ?undoes, ?back, ?distinct, ?short, ?magic, ?large, ?peekError, ?peek⟩
  case ok =>
    intro data id payload
    exact parse_eq_ok_iff
  case undoes =>
    intro id payload hfits
    exact parse_eq_ok_iff.mpr ⟨rfl, hfits⟩
  case back =>
    intro data e h
    exact (parse_eq_ok_iff.mp h).1.symm
  case distinct =>
    intro id id' payload payload' h
    have hsame : ({ schemaId := id, payload } : Envelope) =
        { schemaId := id', payload := payload' } := encode_injective h
    exact Envelope.mk.inj hsame
  case short =>
    intro data n
    rw [parse_eq_iff]
    constructor
    · intro h
      cases h with
      | short hshort => exact ⟨hshort, rfl⟩
    · rintro ⟨hshort, rfl⟩
      exact .short hshort
  case magic =>
    intro data m
    rw [parse_eq_iff]
    constructor
    · intro h
      cases h with
      | magic hlong hhead hmagic => exact ⟨hlong, hhead, hmagic⟩
    · rintro ⟨hlong, hhead, hmagic⟩
      exact .magic hlong hhead hmagic
  case large =>
    intro data n
    rw [parse_eq_iff]
    constructor
    · intro h
      cases h with
      | large hlarge => exact ⟨_, _, rfl, rfl, hlarge⟩
    · rintro ⟨id, payload, rfl, rfl, hlarge⟩
      exact .large (e := { schemaId := id, payload }) hlarge
  case peekError =>
    intro data err
    exact peekSchemaId_eq_error_iff
  case peek =>
    intro data id
    exact peekSchemaId_eq_ok_iff

end EventCodec.Envelope
