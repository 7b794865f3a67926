import EventCodec.Proofs.Codec.Conformance
import EventCodec.Proofs.Wire.Form

/-! # Which payloads pass the check

    A payload passes if it is a row of complete fields, each declared and
    with a wire type that fits (`Descriptor.IsEntry`).  Every payload
    falls into such fields and what is left when no further one can be
    found (`exists_entries`).  If that is nothing, the payload passes; if
    not, what is wrong with it is what the check reports
    (`Descriptor.Violates`).

    The fields in front do not matter to what the check says of the rest
    (`checkFields_entries`), so there is only one way to take a payload
    apart, and the check takes it. -/

namespace EventCodec

open Schema Wire

/-! ### Fields and what is none -/

/-- The field a key announces, with a wire type that fits: that of its
    kind, or that of a row if the field is repeated. -/
structure Schema.Descriptor.Declares (d : Descriptor) (key : Key) (f : Field) : Prop where
  mem : f ∈ d.fields.toList
  number : f.number = key.number
  wireType : key.wireType = wireTypeOf f.kind ∨
    (f.repeated = true ∧ key.wireType = .lengthDelimited)

/-- The bytes of one complete field. -/
inductive Schema.Descriptor.IsEntry (d : Descriptor) : Bytes → Prop where
  | mk {keyBytes value : Bytes} {key : Key} {f : Field} : IsKey keyBytes key → d.Declares key f →
      IsValue key.wireType value → d.IsEntry (keyBytes ++ value)

/-- What is wrong behind a key. -/
inductive Schema.Descriptor.FieldFault (d : Descriptor) (key : Key) (bs : Bytes) :
    PayloadError → Prop where
  | undeclared : (∀ f ∈ d.fields.toList, f.number ≠ key.number) →
      FieldFault d key bs (.undeclared key.number d.name)
  | unfit {f : Field} : f ∈ d.fields.toList → f.number = key.number → ¬ d.Declares key f →
      FieldFault d key bs (.unfit f key.wireType)
  | value {f : Field} {fault : Fault} : d.Declares key f → ValueFault bs key.wireType fault →
      FieldFault d key bs (.broken fault)

/-- What is wrong with bytes that do not begin with a complete field. -/
inductive Schema.Descriptor.Violates (d : Descriptor) : Bytes → PayloadError → Prop where
  | key {bs : Bytes} {fault : Fault} : bs ≠ [] → KeyFault bs fault → d.Violates bs (.broken fault)
  | field {keyBytes rest : Bytes} {key : Key} {error : PayloadError} : IsKey keyBytes key →
      d.FieldFault key rest error → d.Violates (keyBytes ++ rest) error

variable {d : Descriptor} {key : Key} {f : Field} {i rest : Input} {error : PayloadError}
  {entries : List Bytes}

theorem fitsField_iff {w : WireType} :
    fitsField f w = true ↔ w = wireTypeOf f.kind ∨ (f.repeated = true ∧ w = .lengthDelimited) := by
  simp [fitsField]

theorem Schema.Descriptor.declares_iff :
    d.Declares key f ↔ d.field? key.number = some f ∧ fitsField f key.wireType = true := by
  rw [fitsField_iff, field?_eq_some_iff]
  exact ⟨fun h => ⟨⟨h.mem, h.number⟩, h.wireType⟩, fun h => ⟨h.1.1, h.1.2, h.2⟩⟩

/-- Nothing is declared as a group. -/
theorem Schema.Descriptor.Declares.ne_group (h : d.Declares key f) :
    key.wireType ≠ .startGroup ∧ key.wireType ≠ .endGroup := by
  rcases h.wireType with hw | ⟨-, hw⟩
  · rw [hw]
    cases f.kind <;> decide
  · rw [hw]
    decide

/-! ### One field -/

/-- Behind a key that announces a field only its value is looked at. -/
theorem checkField_of_declares (h : d.Declares key f) (i : Input) :
    checkField d key i = (skipPlain key.wireType i).mapError .broken := by
  obtain ⟨hfield, hfits⟩ := Descriptor.declares_iff.mp h
  simp only [checkField, hfield, hfits, if_true, skip_eq_skipPlain h.ne_group.1]

theorem checkField_eq_ok_iff :
    checkField d key i = .ok rest ↔
      ∃ f, d.Declares key f ∧ ∃ value, i.bytes = value ++ rest.bytes ∧
        IsValue key.wireType value := by
  constructor
  · intro h
    obtain ⟨f, hfield, hfits, hskip⟩ := checkField_eq_ok h
    have hdeclares := Descriptor.declares_iff.mpr ⟨hfield, hfits⟩
    rw [skip_eq_skipPlain hdeclares.ne_group.1] at hskip
    exact ⟨f, hdeclares, skipPlain_eq_ok_iff.mp hskip⟩
  · rintro ⟨f, hdeclares, hvalue⟩
    rw [checkField_of_declares hdeclares, skipPlain_eq_ok_iff.mpr hvalue]
    rfl

theorem checkField_eq_error_iff :
    checkField d key i = .error error ↔ d.FieldFault key i.bytes error := by
  constructor
  · intro h
    cases hfield : d.field? key.number with
    | none =>
      rw [checkField, hfield] at h
      obtain rfl := Except.error.inj h
      exact .undeclared (Descriptor.field?_eq_none_iff.mp hfield)
    | some f =>
      by_cases hfits : fitsField f key.wireType = true
      · have hdeclares := Descriptor.declares_iff.mpr ⟨hfield, hfits⟩
        rw [checkField_of_declares hdeclares] at h
        cases hskip : skipPlain key.wireType i with
        | ok left =>
          rw [hskip] at h
          contradiction
        | error fault =>
          rw [hskip] at h
          obtain rfl := Except.error.inj h
          obtain ⟨hstart, hend⟩ := hdeclares.ne_group
          exact .value hdeclares ((skipPlain_eq_error_iff hstart hend).mp hskip)
      · obtain ⟨hmem, hnumber⟩ := Descriptor.field?_eq_some_iff.mp hfield
        simp only [checkField, hfield, if_neg hfits] at h
        obtain rfl := Except.error.inj h
        exact .unfit hmem hnumber fun h => hfits (Descriptor.declares_iff.mp h).2
  · intro h
    cases h with
    | undeclared hnone => rw [checkField, Descriptor.field?_eq_none_iff.mpr hnone]
    | unfit hmem hnumber hunfit =>
      have hfield := Descriptor.field?_eq_some_iff.mpr ⟨hmem, hnumber⟩
      have hfits : ¬ fitsField _ key.wireType = true :=
        fun h => hunfit (Descriptor.declares_iff.mpr ⟨hfield, h⟩)
      simp only [checkField, hfield, if_neg hfits]
    | value hdeclares hfault =>
      obtain ⟨hstart, hend⟩ := hdeclares.ne_group
      rw [checkField_of_declares hdeclares, (skipPlain_eq_error_iff hstart hend).mpr hfault]
      rfl

/-- A group is refused for its key alone. -/
theorem checkField_group (hgroup : key.wireType = .startGroup ∨ key.wireType = .endGroup)
    (i : Input) :
    checkField d key i = .error (.undeclared key.number d.name) ∨
      ∃ f, checkField d key i = .error (.unfit f key.wireType) := by
  cases hfield : d.field? key.number with
  | none => exact .inl (by rw [checkField, hfield])
  | some f =>
    have hfits : ¬ fitsField f key.wireType = true := by
      intro hfits
      obtain ⟨hstart, hend⟩ := (Descriptor.declares_iff.mpr ⟨hfield, hfits⟩).ne_group
      rcases hgroup with hw | hw
      · exact hstart hw
      · exact hend hw
    exact .inr ⟨f, by simp only [checkField, hfield, if_neg hfits]⟩

/-! ### All fields -/

/-- A complete field in front does not matter to the rest. -/
theorem checkFields_entry {e : Bytes} (h : d.IsEntry e) (rest : Bytes) :
    checkFields d (.ofBytes (e ++ rest)) = checkFields d (.ofBytes rest) := by
  cases h with
  | @mk keyBytes value key f hkey hdeclares hvalue =>
    have hread : Key.read (.ofBytes (keyBytes ++ value ++ rest)) =
        .ok (key, .ofBytes (value ++ rest)) :=
      Key.read_eq_ok_iff.mpr ⟨keyBytes, by simp, hkey⟩
    have hfield : checkField d key (.ofBytes (value ++ rest)) = .ok (.ofBytes rest) :=
      checkField_eq_ok_iff.mpr ⟨f, hdeclares, value, rfl, hvalue⟩
    exact Contract.checkFields_step hread hfield

theorem checkFields_entries (h : ∀ e ∈ entries, d.IsEntry e) (rest : Bytes) :
    checkFields d (.ofBytes (entries.flatten ++ rest)) = checkFields d (.ofBytes rest) := by
  induction entries with
  | nil => rfl
  | cons e entries ih =>
    rw [List.flatten_cons, List.append_assoc, checkFields_entry (h e List.mem_cons_self)]
    apply ih
    intro e he
    exact h e (List.mem_cons_of_mem _ he)

/-- What cannot be a complete field is reported. -/
theorem checkFields_of_violates {rest : Bytes} (h : d.Violates rest error) :
    checkFields d (.ofBytes rest) = .error error := by
  have hne : ∀ {bs : Bytes}, bs ≠ [] → ¬ (Input.ofBytes bs).size = 0 :=
    fun hbs hzero => hbs (List.eq_nil_of_length_eq_zero hzero)
  -- in both cases the check does not end here, and reads a key first
  cases h with
  | key hnonempty hfault =>
    have hread : Key.read (.ofBytes rest) = .error _ := Key.read_eq_error_iff.mpr hfault
    rw [checkFields, if_neg (hne hnonempty)]
    grind
  | @field keyBytes rest key error hkey hfault =>
    have hread : Key.read (.ofBytes (keyBytes ++ rest)) = .ok (key, .ofBytes rest) :=
      Key.read_eq_ok_iff.mpr ⟨keyBytes, rfl, hkey⟩
    have hfield : checkField d key (.ofBytes rest) = .error error :=
      checkField_eq_error_iff.mpr hfault
    have hsize := Key.size_read hread
    rw [checkFields, if_neg (by omega)]
    grind

/-- Every payload falls into complete fields and a rest that is empty or
    does not begin with one. -/
theorem exists_entries (d : Descriptor) (bs : Bytes) :
    ∃ (entries : List Bytes) (rest : Bytes), bs = entries.flatten ++ rest ∧
      (∀ e ∈ entries, d.IsEntry e) ∧ (rest = [] ∨ ∃ error, d.Violates rest error) := by
  -- the check itself finds them, one in each round
  suffices h : ∀ i : Input, ∃ (entries : List Bytes) (rest : Bytes),
      i.bytes = entries.flatten ++ rest ∧ (∀ e ∈ entries, d.IsEntry e) ∧
        (rest = [] ∨ ∃ error, d.Violates rest error) from h (.ofBytes bs)
  intro i
  fun_induction checkFields d i with
  | case1 i hend =>
    have hnil : i.bytes = [] := List.eq_nil_of_length_eq_zero (i.length_bytes.trans hend)
    exact ⟨[], [], hnil, by simp, .inl rfl⟩
  | case2 i hmore fault hkey =>
    have hne : i.bytes ≠ [] := by
      intro hnil
      have hsize := i.length_bytes
      rw [hnil] at hsize
      exact hmore hsize.symm
    exact ⟨[], i.bytes, rfl, by simp, .inr ⟨_, .key hne (Key.read_eq_error_iff.mp hkey)⟩⟩
  | case3 i _ key left hkey error hfield =>
    obtain ⟨keyBytes, hbytes, hkey⟩ := Key.read_eq_ok_iff.mp hkey
    have hfault := checkField_eq_error_iff.mp hfield
    exact ⟨[], i.bytes, rfl, by simp, .inr ⟨error, hbytes ▸ .field hkey hfault⟩⟩
  | case4 i _ key left hkey after hfield ih =>
    obtain ⟨entries, rest, hafter, hentries, hrest⟩ := ih
    obtain ⟨keyBytes, hbytes, hkey⟩ := Key.read_eq_ok_iff.mp hkey
    obtain ⟨f, hdeclares, value, hleft, hvalue⟩ := checkField_eq_ok_iff.mp hfield
    refine ⟨(keyBytes ++ value) :: entries, rest, ?_, ?_, hrest⟩
    · rw [hbytes, hleft, hafter]
      simp
    · intro e he
      rcases List.mem_cons.mp he with rfl | he
      · exact .mk hkey hdeclares hvalue
      · exact hentries e he

theorem checkFields_nil : checkFields d (.ofBytes []) = .ok () := by
  rw [checkFields]
  rfl

theorem checkPayload_eq_ok_iff {p : Bytes} :
    checkPayload d p = .ok () ↔
      ∃ entries : List Bytes, p = entries.flatten ∧ ∀ e ∈ entries, d.IsEntry e := by
  constructor
  · intro h
    obtain ⟨entries, rest, rfl, hentries, hrest⟩ := exists_entries d p
    rcases hrest with rfl | ⟨error, hviolates⟩
    · exact ⟨entries, List.append_nil _, hentries⟩
    · rw [checkPayload, checkFields_entries hentries, checkFields_of_violates hviolates] at h
      contradiction
  · rintro ⟨entries, rfl, hentries⟩
    have hcheck := checkFields_entries hentries []
    rw [List.append_nil, checkFields_nil] at hcheck
    exact hcheck

theorem checkPayload_eq_error_iff {p : Bytes} :
    checkPayload d p = .error error ↔
      ∃ (entries : List Bytes) (rest : Bytes), p = entries.flatten ++ rest ∧
        (∀ e ∈ entries, d.IsEntry e) ∧ d.Violates rest error := by
  constructor
  · intro h
    obtain ⟨entries, rest, rfl, hentries, hrest⟩ := exists_entries d p
    rw [checkPayload, checkFields_entries hentries] at h
    rcases hrest with rfl | ⟨error', hviolates⟩
    · rw [checkFields_nil] at h
      contradiction
    · rw [checkFields_of_violates hviolates] at h
      obtain rfl := Except.error.inj h
      exact ⟨entries, rest, rfl, hentries, hviolates⟩
  · rintro ⟨entries, rest, rfl, hentries, hviolates⟩
    rw [checkPayload, checkFields_entries hentries]
    exact checkFields_of_violates hviolates

/-! ### What is written -/

/-- A value is written unless it is invalid, too large, or does not pass
    the check. -/
theorem Bound.exists_encode_iff {α : Type} {b : Bound α} {v : α} :
    (∃ bytes, b.encode v = .ok bytes) ↔
      b.type.validate v = none ∧ (b.type.encode v).length ≤ 16 * 1024 * 1024 ∧
        checkPayload b.descriptor (b.type.encode v) = .ok () := by
  unfold encode write
  dsimp only
  cases b.type.validate v with
  | some complaint => simp [Except.mapError]
  | none =>
    by_cases hsize : Envelope.maxPayloadSize < (b.type.encode v).length
    · have hlarge : ¬ (b.type.encode v).length ≤ 16 * 1024 * 1024 := Nat.not_le.mpr hsize
      simp [if_pos hsize, Except.mapError, hlarge]
    · have hfits : (b.type.encode v).length ≤ 16 * 1024 * 1024 := Nat.not_lt.mp hsize
      simp only [if_neg hsize]
      cases checkPayload b.descriptor (b.type.encode v) with
      | error e => simp [Except.mapError]
      | ok _ => simp [Except.mapError, hfits]

/-- **The check is exact**: for every descriptor a payload passes exactly
    if it is a row of complete fields, each declared and with a wire type
    that fits.  Of any other payload the check reports what is wrong with
    the first field from the left that is none: a number that is not
    declared, a wire type that does not fit, or broken bytes.  Groups are
    refused for their keys, and each round takes at least one byte.  So a
    value is written exactly if it is valid, its payload is at most 16 MiB
    and has this form. -/
theorem Schema.Descriptor.check_is_exact (d : Descriptor) :
    (∀ p : Bytes, checkPayload d p = .ok () ↔
      ∃ entries : List Bytes, p = entries.flatten ∧ ∀ e ∈ entries, d.IsEntry e) ∧
    (∀ (p : Bytes) (error : PayloadError), checkPayload d p = .error error ↔
      ∃ (entries : List Bytes) (rest : Bytes), p = entries.flatten ++ rest ∧
        (∀ e ∈ entries, d.IsEntry e) ∧ d.Violates rest error) ∧
    (∀ (key : Key) (i : Input), key.wireType = .startGroup ∨ key.wireType = .endGroup →
      checkField d key i = .error (.undeclared key.number d.name) ∨
        ∃ f, checkField d key i = .error (.unfit f key.wireType)) ∧
    (∀ (key : Key) (i rest left : Input), Key.read i = .ok (key, rest) →
      checkField d key rest = .ok left → left.size < i.size) ∧
    ∀ (α : Type) (b : Bound α) (v : α), b.descriptor = d →
      ((∃ bytes, b.encode v = .ok bytes) ↔
        b.type.validate v = none ∧ (b.type.encode v).length ≤ 16 * 1024 * 1024 ∧
          ∃ entries : List Bytes, b.type.encode v = entries.flatten ∧
            ∀ e ∈ entries, d.IsEntry e) := by
  refine ⟨fun _ => checkPayload_eq_ok_iff, fun _ _ => checkPayload_eq_error_iff,
    fun _ i hgroup => checkField_group hgroup i, ?progress, ?encode⟩
  case progress =>
    intro key i rest left hkey hfield
    exact Nat.lt_of_le_of_lt (size_checkField hfield) (Key.size_read hkey)
  case encode =>
    rintro α b v rfl
    rw [Bound.exists_encode_iff, checkPayload_eq_ok_iff]

end EventCodec
