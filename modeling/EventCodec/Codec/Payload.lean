import EventCodec.Schema.Descriptor
import EventCodec.Wire.Skip
import EventCodec.Wire.Scalar

/-! # Checking a payload against a descriptor

    An event type writes its own bytes.  Before they leave the codec,
    every field in them has to be one that the descriptor declares, with
    the wire type of its kind.  A repeated field may also be
    length-delimited, whatever its kind: that is how packed numbers are
    written. -/

namespace EventCodec

open Schema Wire

/-- The first thing wrong with a payload. -/
inductive PayloadError where
  /-- A field that the named message does not declare. -/
  | undeclared (number : UInt32) (messageName : String)
  /-- A declared field with another wire type. -/
  | unfit (field : Field) (found : WireType)
  /-- Bytes that are no field at all. -/
  | broken (fault : Fault)
deriving DecidableEq, Repr

namespace PayloadError

def message : PayloadError → String
  | .undeclared number messageName =>
    "字段 #" ++ toString number.toNat ++ " 未在 " ++ messageName ++ " 的结构描述中声明"
  | .unfit field found =>
    "字段 #" ++ toString field.number.toNat ++ " " ++ field.name ++ " 声明为 " ++
      field.kind.keyword ++ "，负载线上类型为 " ++ found.shown
  | .broken fault => (Failure.ofFault fault).message

end PayloadError

/-- Whether a field may be written with a wire type. -/
def fitsField (f : Field) (found : WireType) : Bool :=
  found = wireTypeOf f.kind || (f.repeated && found = .lengthDelimited)

/-- Checks one key and skips its value. -/
def checkField (d : Descriptor) (key : Key) (i : Input) : Except PayloadError Input :=
  match d.field? key.number with
  | none => .error (.undeclared key.number d.name)
  | some f =>
    if fitsField f key.wireType then (skip recursionBudget key i).mapError .broken
    else .error (.unfit f key.wireType)

theorem size_checkField {d : Descriptor} {key : Key} {i rest : Input}
    (h : checkField d key i = .ok rest) : rest.size ≤ i.size := by
  unfold checkField at h
  split at h
  · contradiction
  · split at h
    · cases hs : skip recursionBudget key i with
      | error e =>
        rw [hs] at h
        exact nomatch h
      | ok r =>
        rw [hs] at h
        obtain rfl := Except.ok.inj h
        exact size_skip hs
    · contradiction

/-- Checks the fields to the end of the input. -/
def checkFields (d : Descriptor) (i : Input) : Except PayloadError Unit :=
  if i.size = 0 then .ok ()
  else
    match _key : Key.read i with
    | .error e => .error (.broken e)
    | .ok (key, rest) =>
      match _field : checkField d key rest with
      | .error e => .error e
      | .ok rest => checkFields d rest
termination_by i.size
decreasing_by
  have := Key.size_read _key
  have := size_checkField _field
  omega

/-- Whether a payload holds only what a descriptor declares. -/
def checkPayload (d : Descriptor) (payload : Bytes) : Except PayloadError Unit :=
  checkFields d (.ofBytes payload)

end EventCodec
