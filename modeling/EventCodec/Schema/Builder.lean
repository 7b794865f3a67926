import EventCodec.Schema.Descriptor
import EventCodec.Schema.Error

/-! # Building descriptors

    An event type declares its fields in any order and with any kinds.
    Building sorts the declarations by number and takes them one after
    the other; the first that breaks a rule, given those taken before it,
    decides the error.

    The rules are tried in this order: the name is an identifier, the
    number is in range, it is not reserved, the kind is a scalar, the
    number is new, the name is new. -/

namespace EventCodec.Schema

/-- A field as declared, legal or not. -/
structure Declaration where
  number : UInt32
  name : String
  kind : Kind
  repeated : Bool
deriving DecidableEq, Repr

/-- The declaration that asks for exactly this field. -/
def Field.declaration (f : Field) : Declaration :=
  { number := f.number, name := f.name, kind := .scalar f.kind, repeated := f.repeated }

/-- A message as declared. -/
structure Builder where
  name : String
  /-- The declarations, in the order they were made. -/
  declarations : List Declaration
deriving DecidableEq, Repr

namespace Builder

/-- A message without fields. -/
def new (name : String) : Builder :=
  { name, declarations := [] }

def push (b : Builder) (d : Declaration) : Builder :=
  { b with declarations := b.declarations ++ [d] }

/-- Declares a field with one value. -/
def field (b : Builder) (number : UInt32) (name : String) (kind : Kind) : Builder :=
  b.push { number, name, kind, repeated := false }

/-- Declares a field with any number of values. -/
def repeated (b : Builder) (number : UInt32) (name : String) (kind : Kind) : Builder :=
  b.push { number, name, kind, repeated := true }

/-! ### Taking one declaration -/

/-- The rules for one declaration; `taken` are the fields before it, the
    nearest first. -/
def accept (taken : List Field) (d : Declaration) : Except SchemaError Field :=
  if !isIdentifier d.name then .error (.invalidName d.name)
  else if !isInRange d.number then .error (.numberOutOfRange d.number)
  else if isReserved d.number then .error (.reservedNumber d.number)
  else match d.kind with
    | .scalar kind =>
      if taken.head?.any fun f => f.number == d.number then .error (.duplicateNumber d.number)
      else if taken.any fun f => f.name == d.name then .error (.duplicateName d.name)
      else .ok { number := d.number, name := d.name, kind, repeated := d.repeated }
    | kind => .error (.unsupportedField d.name kind.name)

theorem accept_ok {taken : List Field} {d : Declaration} {f : Field} (h : accept taken d = .ok f) :
    f.declaration = d ∧ f.IsLegal ∧ (∀ g ∈ taken.head?, g.number ≠ f.number) ∧
      ∀ g ∈ taken, g.name ≠ f.name := by
  unfold accept at h
  split at h
  · contradiction
  split at h
  · contradiction
  split at h
  · contradiction
  rename_i nameOk inRange notReserved
  split at h
  · rename_i kind kindEq
    split at h
    · contradiction
    split at h
    · contradiction
    rename_i newNumber newName
    obtain rfl := Except.ok.inj h
    refine ⟨?_, ⟨by simpa using nameOk, by simpa using inRange, by simpa using notReserved⟩, ?_, ?_⟩
    · cases d
      simp_all [Field.declaration]
    · intro g hg
      simpa [Option.mem_def.1 hg] using newNumber
    · simpa using newName
  · contradiction

/-! ### Taking all of them -/

/-- Takes sorted declarations one by one. -/
def acceptAll (taken : List Field) : List Declaration → Except SchemaError (List Field)
  | [] => .ok taken.reverse
  | d :: ds =>
    match accept taken d with
    | .error e => .error e
    | .ok f => acceptAll (f :: taken) ds

/-- Rising numbers, equal ones included. -/
def numberLE (d e : Declaration) : Bool :=
  d.number ≤ e.number

/-- What has been taken so far, the nearest first. -/
structure IsTaken (taken : List Field) : Prop where
  legal : ∀ f ∈ taken, f.IsLegal
  sorted : taken.Pairwise fun f g => g.number < f.number
  names : taken.Pairwise fun f g => g.name ≠ f.name

theorem IsTaken.nil : IsTaken [] :=
  ⟨by simp, .nil, .nil⟩

theorem IsTaken.cons {taken : List Field} {d : Declaration} {f : Field} (h : IsTaken taken)
    (above : ∀ g ∈ taken, g.number ≤ d.number) (ok : accept taken d = .ok f) :
    IsTaken (f :: taken) := by
  obtain ⟨rfl, legal, newNumber, newName⟩ := accept_ok ok
  refine ⟨?_, ?_, ?_⟩
  · intro g hg
    rcases List.mem_cons.1 hg with rfl | hg
    · exact legal
    · exact h.legal g hg
  · refine List.pairwise_cons.2 ⟨?_, h.sorted⟩
    intro g hg
    cases taken with
    | nil => simp at hg
    | cons last older =>
      have step : last.number < f.number :=
        UInt32.lt_of_le_of_ne (above last (by simp)) (newNumber last (by simp))
      rcases List.mem_cons.1 hg with rfl | hg
      · exact step
      · exact UInt32.lt_trans ((List.pairwise_cons.1 h.sorted).1 g hg) step
  · exact List.pairwise_cons.2 ⟨newName, h.names⟩

theorem acceptAll_isFieldSet {taken : List Field} {ds : List Declaration} {fs : List Field}
    (h : IsTaken taken) (sorted : ds.Pairwise fun d e => numberLE d e)
    (above : ∀ g ∈ taken, ∀ d ∈ ds, g.number ≤ d.number) (ok : acceptAll taken ds = .ok fs) :
    IsFieldSet fs := by
  induction ds generalizing taken with
  | nil =>
    obtain rfl := Except.ok.inj ok
    exact ⟨by simpa using h.legal, List.pairwise_reverse.2 h.sorted, List.pairwise_reverse.2 h.names⟩
  | cons d ds ih =>
    simp only [acceptAll] at ok
    split at ok
    · contradiction
    · rename_i f hf
      have aboveHead : ∀ g ∈ taken, g.number ≤ d.number := fun g hg => above g hg d (by simp)
      refine ih (h.cons aboveHead hf) (List.pairwise_cons.1 sorted).2 ?_ ok
      intro g hg e he
      rcases List.mem_cons.1 hg with rfl | hg
      · obtain ⟨rfl, -⟩ := accept_ok hf
        exact of_decide_eq_true ((List.pairwise_cons.1 sorted).1 e he)
      · exact above g hg e (by simp [he])

/-! ### Building -/

/-- The declarations by number, those of one number in their own order. -/
def sorted (b : Builder) : List Declaration :=
  b.declarations.mergeSort numberLE

theorem pairwise_sorted (b : Builder) : b.sorted.Pairwise fun d e => numberLE d e :=
  List.pairwise_mergeSort
    (by
      intro d e f h k
      simp only [numberLE, decide_eq_true_eq] at *
      exact UInt32.le_trans h k)
    (by
      intro d e
      simp only [numberLE, Bool.or_eq_true, decide_eq_true_eq]
      exact UInt32.le_total _ _)
    _

/-- The descriptor of the declared message, or the first rule broken. -/
def build (b : Builder) : Except SchemaError Descriptor :=
  if name : isIdentifier b.name then
    match taken : acceptAll [] b.sorted with
    | .error e => .error e
    | .ok fields =>
      .ok {
        name := b.name
        fields := fields.toArray
        isIdentifier_name := name
        isFieldSet := by
          simpa using acceptAll_isFieldSet IsTaken.nil b.pairwise_sorted (by simp) taken }
  else .error (.invalidName b.name)

end Builder

end EventCodec.Schema
