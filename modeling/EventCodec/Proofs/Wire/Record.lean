import EventCodec.Proofs.Maps
import EventCodec.Proofs.Wire.Scalar
import EventCodec.Wire.Reader
import EventCodec.Wire.Writer
import Mathlib.Data.List.Forall2

/-! # A written record, read with another layout

    The bytes of a record are a row of parts: field numbers with what
    follows their keys.  Any layout can read them that sees each part as
    an occurrence of a field of its own, or has no field with that number
    and skips the part (`occurrencesFrom_parts`).

    Which record comes out depends on the parts of each field alone: the
    reader's record is what it takes over from the writer's
    (`decode_encode_eq_adopt`).  Reader and writer may be the same layout;
    the record then comes back as it was, except that a single negative
    zero has lost its sign. -/

namespace EventCodec.Wire

open Schema (Scalar isInRange)

/-! ### Values that come back -/

/-- What is read back for a single value: a negative zero is left out
    like a positive one and comes back as a positive one. -/
def ScalarValue.readBack : (k : Scalar) → ScalarValue k → ScalarValue k
  | .double, (bits : UInt64) => if bits = 0x8000000000000000 then (0 : UInt64) else bits
  | .float, (bits : UInt32) => if bits = 0x80000000 then (0 : UInt32) else bits
  | _, v => v

theorem ScalarValue.readBack_of_isDefault {k : Scalar} {v : ScalarValue k}
    (h : isDefault k v = true) : readBack k v = default k := by
  cases k with
  | double | float =>
    simp only [isDefault, Bool.or_eq_true, beq_iff_eq] at h
    rcases h with rfl | rfl <;> rfl
  | _ => exact of_decide_eq_true h

theorem ScalarValue.readBack_of_not_isDefault {k : Scalar} {v : ScalarValue k}
    (h : isDefault k v = false) : readBack k v = v := by
  cases k with
  | double | float =>
    simp only [isDefault, Bool.or_eq_false_iff, beq_eq_false_iff_ne] at h
    exact if_neg h.2
  | _ => rfl

namespace Shape

/-- Everything but a map from text. -/
def IsScalar : Shape → Prop
  | .map _ => False
  | _ => True

def readBack : (s : Shape) → s.Value → s.Value
  | .single k, v => ScalarValue.readBack k v
  | .optional _, v => v
  | .repeated _ _, vs => vs
  | .map _, entries => entries

/-- Whether values are packed or not, they can be taken over. -/
inductive Agrees : Shape → Shape → Prop where
  | refl {s : Shape} : s.IsScalar → Agrees s s
  | repacked (k : Scalar) (p q : Bool) : Agrees (.repeated k p) (.repeated k q)

/-- A value seen under another shape, if that has the same kind and
    arity. -/
def carry? : (s t : Shape) → s.Value → Option t.Value
  | .single k, .single k', v => if h : k = k' then some (h ▸ v) else none
  | .optional k, .optional k', v => if h : k = k' then some (h ▸ v) else none
  | .repeated k _, .repeated k' _, vs => if h : k = k' then some (h ▸ vs) else none
  | _, _, _ => none

theorem carry?_self {s : Shape} (h : s.IsScalar) (v : s.Value) : carry? s s v = some v := by
  cases s with
  | map k => contradiction
  | _ => simp [carry?]

end Shape

def Slot.readBack (s : Slot) : Slot :=
  { s with value := s.field.shape.readBack s.value }

namespace Record

/-- The record with every single negative zero made positive. -/
def readBack (r : Record) : Record :=
  r.map Slot.readBack

/-- A record gives each field of a layout a value, and nothing else. -/
def IsOf (r : Record) (l : Layout) : Prop :=
  r.map Slot.field = l.fields

instance (r : Record) (l : Layout) : Decidable (r.IsOf l) :=
  inferInstanceAs (Decidable (_ = _))

/-- The slot under a field number. -/
def slot? (r : Record) (number : UInt32) : Option Slot :=
  r.find? fun s => s.field.number == number

/-- What a field can take over from a record: the value under its number,
    or else its default. -/
def valueFor (r : Record) (f : FieldLayout) : f.shape.Value :=
  match r.slot? f.number with
  | some s => ((s.field.shape.carry? f.shape (s.field.shape.readBack s.value))).getD f.shape.default
  | none => f.shape.default

end Record

/-- The record of a layout that takes over what it can from another
    record. -/
def Layout.adopt (l : Layout) (r : Record) : Record :=
  l.fields.map fun f => { field := f, value := r.valueFor f }

/-! ### Parts -/

namespace Piece

/-- Packed numbers in one run. -/
def run (k : Scalar) (vs : List (ScalarValue k)) : Piece :=
  { wireType := .lengthDelimited, content := delimited (vs.flatMap (encodeScalar k)) }

/-- The piece is a way to write what one occurrence of a field
    contributes. -/
def Holds : (s : Shape) → s.Chunk → Piece → Prop
  | .single k, v, p => p = .ofScalar k v
  | .optional k, v, p => p = .ofScalar k v
  | .repeated k _, vs, p => (∃ v, vs = [v] ∧ p = .ofScalar k v) ∨ (k.isNumeric = true ∧ p = .run k vs)
  | .map _, _, _ => False

end Piece

/-- A field number and what follows the key. -/
abbrev Part : Type := UInt32 × Piece

namespace Part

def encode (part : Part) : Bytes :=
  part.2.encode part.1

/-- The number is legal and all lengths can be written. -/
structure IsLegal (part : Part) : Prop where
  number : isInRange part.1 = true
  size : part.2.content.length < 2 ^ 64
  holds : ∃ (s : Shape) (c : s.Chunk), Piece.Holds s c part.2

end Part

def Slot.parts (s : Slot) : List Part :=
  (pieces s.field.shape s.value).map fun p => (s.field.number, p)

/-- The parts of a record, in the order they are written. -/
def Record.parts (r : Record) : List Part :=
  r.flatMap Slot.parts

theorem Record.encode_eq_parts (r : Record) : r.encode = r.parts.flatMap Part.encode := by
  unfold Record.encode Record.parts
  rw [List.flatMap_assoc]
  congr 1
  funext s
  rw [Slot.encode, Slot.parts, List.flatMap_map]
  rfl

theorem Record.size_of_mem_parts {r : Record} {part : Part} (h : part ∈ r.parts) :
    part.2.content.length ≤ r.encode.length := by
  -- the key stands before the content, the other parts around it
  have hsub : List.Sublist part.2.content r.encode := by
    rw [r.encode_eq_parts]
    refine List.Sublist.trans ?_ (List.sublist_flatten_of_mem (List.mem_map_of_mem h))
    exact List.sublist_append_right _ _
  exact hsub.length_le

/-! ### Reading one part -/

theorem readLimit_delimited {content : Bytes} (rest : Bytes) (h : content.length < 2 ^ 64) :
    readLimit (.ofBytes (delimited content ++ rest)) =
      .ok (rest.length, .ofBytes (content ++ rest)) := by
  unfold readLimit delimited
  rw [List.append_assoc, Varint.read_encode _ h]
  simp

theorem readRun_encode {k : Scalar} (h : k.isNumeric = true) (before vs : List (ScalarValue k))
    (rest : Bytes) :
    readRun k rest.length before (.ofBytes (vs.flatMap (encodeScalar k) ++ rest)) =
      .ok (before.reverse ++ vs, .ofBytes rest) := by
  -- the run ends where only the rest is left
  induction vs generalizing before with
  | nil =>
    rw [readRun]
    simp
  | cons v vs ih =>
    have hread := readScalar_number h v (vs.flatMap (encodeScalar k) ++ rest)
    have hsize := size_readScalar hread
    have hmore : rest.length <
        (Input.ofBytes (encodeScalar k v ++ (vs.flatMap (encodeScalar k) ++ rest))).size := by
      simp only [Input.size_ofBytes, List.length_append] at hsize ⊢
      omega
    rw [List.flatMap_cons, List.append_assoc, readRun, if_pos hmore]
    split
    · next hfail => rw [hread] at hfail; contradiction
    · next w rest' hok =>
      rw [hread] at hok
      obtain ⟨rfl, rfl⟩ := Prod.mk.inj (Except.ok.inj hok)
      rw [ih (v :: before)]
      simp

namespace Piece

/-- What a piece holds is read from it, and from nothing behind it. -/
theorem readChunk_of_holds {s : Shape} {c : s.Chunk} {p : Piece} (h : Holds s c p)
    (hsize : p.content.length < 2 ^ 64) (rest : Bytes) :
    readChunk recursionBudget s p.wireType (.ofBytes (p.content ++ rest)) =
      .ok (c, .ofBytes rest) := by
  have hsingle : ∀ (k : Scalar) (v : ScalarValue k), (ofScalar k v).content.length < 2 ^ 64 →
      readSingle k (ofScalar k v).wireType (.ofBytes ((ofScalar k v).content ++ rest)) =
        .ok (v, .ofBytes rest) := by
    intro k v hv
    simp only [readSingle, ofScalar, expectWireType, if_true]
    exact readScalar_encodeScalar k v rest hv
  cases s with
  | single k =>
    obtain rfl : p = .ofScalar k c := h
    exact hsingle k c hsize
  | optional k =>
    obtain rfl : p = .ofScalar k c := h
    exact hsingle k c hsize
  | repeated k packed =>
    rcases h with ⟨v, rfl, rfl⟩ | ⟨hk, rfl⟩
    -- a numeric kind is never delimited on its own, so this is no run
    · have hone : (k.isNumeric && (ofScalar k v).wireType = .lengthDelimited) = false := by
        cases k <;> rfl
      simp only [readChunk, readRepeated, hone, hsingle k v hsize]
      rfl
    · have hlen : (List.flatMap (encodeScalar k) c).length < 2 ^ 64 :=
        Nat.lt_of_le_of_lt (length_le_length_delimited _) hsize
      simp only [readChunk, readRepeated, run, hk, decide_true, Bool.and_self, if_true,
        readLimit_delimited rest hlen]
      exact readRun_encode hk [] c rest
  | map k => contradiction

/-- A piece holds one thing only. -/
theorem holds_unique {s : Shape} {c d : s.Chunk} {p : Piece} (hc : Holds s c p)
    (hd : Holds s d p) (hsize : p.content.length < 2 ^ 64) : c = d := by
  have hread := readChunk_of_holds hc hsize []
  rw [readChunk_of_holds hd hsize []] at hread
  exact (Prod.mk.inj (Except.ok.inj hread)).1.symm

/-- Nobody has to know the field to skip what a piece holds. -/
theorem skip_of_holds {s : Shape} {c : s.Chunk} {p : Piece} (h : Holds s c p)
    (hsize : p.content.length < 2 ^ 64) (number : UInt32) (rest : Bytes) :
    skip recursionBudget { number, wireType := p.wireType } (.ofBytes (p.content ++ rest)) =
      .ok (.ofBytes rest) := by
  have hsingle : ∀ (k : Scalar) (v : ScalarValue k), p = .ofScalar k v →
      skipPlain p.wireType (.ofBytes (p.content ++ rest)) = .ok (.ofBytes rest) := by
    rintro k v rfl
    exact skipPlain_of_readScalar (readScalar_encodeScalar k v rest hsize)
  apply skip_of_skipPlain
  cases s with
  | single k => exact hsingle k c h
  | optional k => exact hsingle k c h
  | repeated k packed =>
    rcases h with ⟨v, -, hp⟩ | ⟨-, rfl⟩
    · exact hsingle k v hp
    · have hlen := Nat.lt_of_le_of_lt (length_le_length_delimited _) hsize
      exact skipPlain_of_readDelimited (readDelimited_delimited rest hlen)
  | map k => contradiction

end Piece

/-! ### Reading all parts -/

namespace Layout

variable {l : Layout} {before : List Occurrence}

theorem occurrencesFrom_nil : l.occurrencesFrom before (.ofBytes []) = .ok before.reverse := by
  rw [occurrencesFrom]
  simp

theorem occurrencesFrom_skip {i rest left : Input} {key : Key} (hkey : Key.read i = .ok (key, rest))
    (hfield : l.field? key.number = none) (hskip : skip recursionBudget key rest = .ok left) :
    l.occurrencesFrom before i = l.occurrencesFrom before left := by
  have hsize := Key.size_read hkey
  rw [occurrencesFrom, if_neg (by omega)]
  grind

theorem occurrencesFrom_take {i rest left : Input} {key : Key} {f : FieldLayout}
    {c : f.shape.Chunk} (hkey : Key.read i = .ok (key, rest))
    (hfield : l.field? key.number = some f)
    (hread : readChunk recursionBudget f.shape key.wireType rest = .ok (c, left)) :
    l.occurrencesFrom before i = l.occurrencesFrom ({ field := f, chunk := c } :: before) left := by
  have hsize := Key.size_read hkey
  rw [occurrencesFrom, if_neg (by omega)]
  grind

/-- What a layout makes of a row of parts: it skips those whose number it
    does not know, and takes all others for occurrences of its fields. -/
inductive Sees (l : Layout) : List Part → List Occurrence → Prop where
  | nil : l.Sees [] []
  | skip {number : UInt32} {p : Piece} {parts : List Part} {os : List Occurrence} :
      l.field? number = none → l.Sees parts os → l.Sees ((number, p) :: parts) os
  | take {number : UInt32} {p : Piece} {f : FieldLayout} {c : f.shape.Chunk} {parts : List Part}
      {os : List Occurrence} :
      l.field? number = some f → Piece.Holds f.shape c p → l.Sees parts os →
        l.Sees ((number, p) :: parts) ({ field := f, chunk := c } :: os)

theorem exists_sees {parts : List Part}
    (h : ∀ part ∈ parts, ∀ f, l.field? part.1 = some f → ∃ c, Piece.Holds f.shape c part.2) :
    ∃ os, l.Sees parts os := by
  induction parts with
  | nil => exact ⟨[], .nil⟩
  | cons part parts ih =>
    obtain ⟨os, hos⟩ := ih fun q hq => h q (List.mem_cons_of_mem _ hq)
    cases hf : l.field? part.1 with
    | none => exact ⟨os, .skip hf hos⟩
    | some f =>
      obtain ⟨c, hc⟩ := h part (by simp) f hf
      exact ⟨_, .take hf hc hos⟩

/-- The bytes of legal parts are read as the layout sees them. -/
theorem occurrencesFrom_parts {parts : List Part} {os : List Occurrence} (h : l.Sees parts os)
    (hlegal : ∀ part ∈ parts, part.IsLegal) (before : List Occurrence) :
    l.occurrencesFrom before (.ofBytes (parts.flatMap Part.encode)) = .ok (before.reverse ++ os) := by
  -- each part is either skipped or taken, and leaves what follows it
  induction h generalizing before with
  | nil => simp [occurrencesFrom_nil]
  | @skip number p parts os hf _ ih =>
    have hpart := hlegal (number, p) (by simp)
    obtain ⟨s, c, hc⟩ := hpart.holds
    have hkey := Key.read_encode (k := { number, wireType := p.wireType })
      (p.content ++ parts.flatMap Part.encode) hpart.number
    have hskip := Piece.skip_of_holds hc hpart.size number (parts.flatMap Part.encode)
    rw [List.flatMap_cons, Part.encode, Piece.encode, List.append_assoc,
      occurrencesFrom_skip hkey hf hskip]
    exact ih (fun q hq => hlegal q (List.mem_cons_of_mem _ hq)) before
  | @take number p f c parts os hf hc _ ih =>
    have hpart := hlegal (number, p) (by simp)
    have hkey := Key.read_encode (k := { number, wireType := p.wireType })
      (p.content ++ parts.flatMap Part.encode) hpart.number
    have hread := Piece.readChunk_of_holds hc hpart.size (parts.flatMap Part.encode)
    rw [List.flatMap_cons, Part.encode, Piece.encode, List.append_assoc,
      occurrencesFrom_take hkey hf hread, ih fun q hq => hlegal q (List.mem_cons_of_mem _ hq)]
    simp

/-! ### What one field gets -/

/-- The parts under the number of a field. -/
def partsOf (f : FieldLayout) (parts : List Part) : List Piece :=
  (parts.filter fun part => part.1 == f.number).map Prod.snd

theorem field?_eq_some {number : UInt32} {f : FieldLayout} (h : l.field? number = some f) :
    f ∈ l.fields ∧ f.number = number := by
  refine ⟨List.mem_of_find?_eq_some h, ?_⟩
  simpa using List.find?_some h

/-- A field gets exactly what the parts under its number hold. -/
theorem chunksOf_of_sees {parts : List Part} {os : List Occurrence} {f : FieldLayout}
    (h : l.Sees parts os) (hf : l.field? f.number = some f) :
    List.Forall₂ (Piece.Holds f.shape) (chunksOf f os) (partsOf f parts) := by
  induction h with
  | nil => exact .nil
  | @skip number p parts os hnone _ ih =>
    have hne : number ≠ f.number := by
      rintro rfl
      rw [hf] at hnone
      contradiction
    simpa [partsOf, hne] using ih
  | @take number p g c parts os hg hc _ ih =>
    -- the number decides which field takes the part
    by_cases hnumber : number = f.number
    · obtain rfl : g = f := by
        rw [hnumber, hf] at hg
        exact (Option.some.inj hg).symm
      have hchunks : chunksOf g ({ field := g, chunk := c } :: os) = c :: chunksOf g os := by
        simp [chunksOf]
      have hparts : partsOf g ((number, p) :: parts) = p :: partsOf g parts := by
        simp [partsOf, hnumber]
      rw [hchunks, hparts]
      exact .cons hc ih
    · have hne : g ≠ f := by
        rintro rfl
        exact hnumber (field?_eq_some hg).2.symm
      simpa [chunksOf, partsOf, hne, hnumber] using ih

end Layout

theorem holds_unique_all {s : Shape} {cs ds : List s.Chunk} {ps : List Piece}
    (hc : List.Forall₂ (Piece.Holds s) cs ps) (hd : List.Forall₂ (Piece.Holds s) ds ps)
    (hsize : ∀ p ∈ ps, p.content.length < 2 ^ 64) : cs = ds := by
  induction hc generalizing ds with
  | nil => cases hd; rfl
  | @cons c p cs ps hhead _ ih =>
    cases hd with
    | @cons d _ ds _ hhead' htail =>
      rw [Piece.holds_unique hhead hhead' (hsize p (by simp)),
        ih htail fun q hq => hsize q (List.mem_cons_of_mem _ hq)]

/-! ### From values to parts and back -/

namespace Shape

theorem pieces_packed {k : Scalar} (h : k.isNumeric = true) {vs : List (ScalarValue k)}
    (hne : vs ≠ []) : pieces (.repeated k true) vs = [.run k vs] := by
  simp [pieces, Piece.run, h, hne]

theorem pieces_unpacked {k : Scalar} {p : Bool} (h : (p && k.isNumeric) = false)
    (vs : List (ScalarValue k)) : pieces (.repeated k p) vs = vs.map (Piece.ofScalar k) := by
  simp [pieces, h]

/-- Repeated values are seen whether they were packed or not, and whether
    the reader would pack them or not. -/
theorem exists_chunks_repeated (k : Scalar) (p q : Bool) (vs : List (ScalarValue k)) :
    ∃ cs : List (List (ScalarValue k)),
      List.Forall₂ (Piece.Holds (.repeated k q)) cs (pieces (.repeated k p) vs) ∧
        cs.flatten = vs := by
  cases hpacked : (p && k.isNumeric) with
  | false =>
    refine ⟨vs.map fun v => [v], ?_, ?_⟩
    · rw [pieces_unpacked hpacked, List.forall₂_map_left_iff, List.forall₂_map_right_iff,
        List.forall₂_same]
      exact fun v _ => .inl ⟨v, rfl, rfl⟩
    · rw [← List.flatMap_def, List.flatMap_singleton']
  | true =>
    obtain ⟨rfl, hk⟩ : p = true ∧ k.isNumeric = true := by simpa using hpacked
    by_cases hempty : vs = []
    · exact ⟨[], by simp [pieces, hempty], by simp [hempty]⟩
    · rw [pieces_packed hk hempty]
      exact ⟨[vs], .cons (.inr ⟨hk, rfl⟩) .nil, by simp⟩

/-- A written value is seen, through every shape that agrees, as
    occurrences that make up the value again. -/
theorem exists_chunks {s t : Shape} (h : Agrees s t) (v : s.Value) :
    ∃ cs : List t.Chunk, List.Forall₂ (Piece.Holds t) cs (pieces s v) ∧
      carry? s t (readBack s v) = some (t.combine cs) := by
  cases h with
  | repacked k p q =>
    obtain ⟨cs, hcs, hflat⟩ := exists_chunks_repeated k p q v
    exact ⟨cs, hcs, by simp [carry?, readBack, combine, hflat]⟩
  | refl hs =>
    rw [carry?_self hs]
    cases s with
    | single k =>
      cases hdefault : ScalarValue.isDefault k v with
      | true =>
        -- nothing is written, and nothing comes back as the default
        refine ⟨[], by simp [pieces, hdefault], ?_⟩
        simp [combine, readBack, ScalarValue.readBack_of_isDefault hdefault]
      | false =>
        refine ⟨[v], by simp [pieces, hdefault, Piece.Holds], ?_⟩
        simp [combine, readBack, ScalarValue.readBack_of_not_isDefault hdefault]
    | optional k =>
      cases v with
      | none => exact ⟨[], .nil, rfl⟩
      | some v => exact ⟨[v], .cons rfl .nil, rfl⟩
    | repeated k p =>
      obtain ⟨cs, hcs, hflat⟩ := exists_chunks_repeated k p p v
      exact ⟨cs, hcs, by simp [readBack, combine, hflat]⟩
    | map k => contradiction

theorem exists_holds {s t : Shape} (h : Agrees s t) {v : s.Value} {p : Piece}
    (hp : p ∈ pieces s v) : ∃ c : t.Chunk, Piece.Holds t c p := by
  obtain ⟨cs, hcs, -⟩ := exists_chunks h v
  obtain ⟨i, hi, rfl⟩ := List.getElem_of_mem hp
  have hlen := hcs.length_eq
  exact ⟨_, (List.forall₂_iff_get.mp hcs).2 i (by omega) hi⟩

end Shape

/-! ### Records -/

/-- Fields with legal numbers, no two of them the same, and no maps. -/
structure Layout.IsRegular (l : Layout) : Prop where
  scalar : ∀ f ∈ l.fields, f.shape.IsScalar
  number : ∀ f ∈ l.fields, isInRange f.number = true
  distinct : l.fields.Pairwise fun f g => f.number ≠ g.number

namespace Layout

theorem field?_of_mem {l : Layout} (h : l.IsRegular) {f : FieldLayout} (hf : f ∈ l.fields) :
    l.field? f.number = some f :=
  find?_of_distinct h.distinct hf

theorem partsOf_append (f : FieldLayout) (ps qs : List Part) :
    partsOf f (ps ++ qs) = partsOf f ps ++ partsOf f qs := by
  simp [partsOf]

theorem partsOf_slot (f : FieldLayout) (s : Slot) :
    partsOf f s.parts = if s.field.number = f.number then pieces s.field.shape s.value else [] := by
  split
  · next h => simp [partsOf, Slot.parts, List.filter_map, Function.comp_def, h]
  · next h => simp [partsOf, Slot.parts, List.filter_map, Function.comp_def, h]

end Layout

namespace Record

variable {r : Record} {w : Layout}

theorem distinct_of_isOf (hr : r.IsOf w) (hw : w.IsRegular) :
    r.Pairwise fun s t => s.field.number ≠ t.field.number := by
  have h := hw.distinct
  rwa [← hr, List.pairwise_map] at h

theorem mem_fields_of_isOf (hr : r.IsOf w) {s : Slot} (hs : s ∈ r) : s.field ∈ w.fields := by
  rw [← hr]
  exact List.mem_map_of_mem hs

theorem slot?_eq_some {number : UInt32} {s : Slot} (h : r.slot? number = some s) :
    s ∈ r ∧ s.field.number = number := by
  refine ⟨List.mem_of_find?_eq_some h, ?_⟩
  simpa using List.find?_some h

/-- The parts under a number are those of the slot under that number. -/
theorem partsOf_parts (h : r.Pairwise fun s t => s.field.number ≠ t.field.number)
    (f : FieldLayout) :
    Layout.partsOf f r.parts =
      match r.slot? f.number with
      | some s => pieces s.field.shape s.value
      | none => [] := by
  induction h with
  | nil => rfl
  | @cons s r hne _ ih =>
    rw [parts, List.flatMap_cons, Layout.partsOf_append, Layout.partsOf_slot, slot?]
    by_cases hs : s.field.number = f.number
    -- no later slot has the number as well
    · have hrest : Record.slot? r f.number = none := by
        refine List.find?_eq_none.mpr fun t ht => ?_
        simpa [← hs] using (hne t ht).symm
      rw [hrest] at ih
      rw [if_pos hs, List.find?_cons_of_pos (by simpa using hs)]
      simpa [parts] using ih
    · rw [if_neg hs, List.find?_cons_of_neg (by simpa using hs)]
      exact ih

theorem parts_isLegal (hr : r.IsOf w) (hw : w.IsRegular) (hsize : r.encode.length < 2 ^ 64)
    {part : Part} (h : part ∈ r.parts) : part.IsLegal := by
  obtain ⟨s, hs, hpart⟩ := List.mem_flatMap.mp h
  obtain ⟨p, hp, rfl⟩ := List.mem_map.mp hpart
  have hmem := mem_fields_of_isOf hr hs
  obtain ⟨c, hc⟩ := Shape.exists_holds (.refl (hw.scalar _ hmem)) hp
  exact ⟨hw.number _ hmem, Nat.lt_of_le_of_lt (size_of_mem_parts h) hsize, _, c, hc⟩

end Record

/-! ### Reading a record -/

namespace Layout

variable {w l : Layout} {r : Record}

/-- Where both layouts have a number, its values can be taken over. -/
def Fits (w l : Layout) : Prop :=
  ∀ f ∈ w.fields, ∀ g ∈ l.fields, f.number = g.number → f.shape.Agrees g.shape

theorem exists_sees_parts (hr : r.IsOf w) (hfits : w.Fits l) : ∃ os, l.Sees r.parts os := by
  refine exists_sees fun part hpart g hg => ?_
  obtain ⟨s, hs, hmem⟩ := List.mem_flatMap.mp hpart
  obtain ⟨p, hp, rfl⟩ := List.mem_map.mp hmem
  obtain ⟨hgmem, hnumber⟩ := field?_eq_some hg
  exact Shape.exists_holds (hfits _ (Record.mem_fields_of_isOf hr hs) g hgmem hnumber.symm) hp

/-- Each field is given what the record has for it. -/
theorem combine_of_sees {os : List Occurrence} (hr : r.IsOf w) (hw : w.IsRegular) (hl : l.IsRegular)
    (hfits : w.Fits l) (hsize : r.encode.length < 2 ^ 64) (hsees : l.Sees r.parts os)
    {f : FieldLayout} (hf : f ∈ l.fields) :
    f.shape.combine (chunksOf f os) = r.valueFor f := by
  have hchunks := chunksOf_of_sees hsees (field?_of_mem hl hf)
  rw [Record.partsOf_parts (Record.distinct_of_isOf hr hw)] at hchunks
  unfold Record.valueFor
  cases hslot : r.slot? f.number with
  | none =>
    rw [hslot] at hchunks
    rw [List.forall₂_nil_right_iff.mp hchunks]
    cases f.shape <;> rfl
  | some s =>
    rw [hslot] at hchunks
    obtain ⟨hs, hnumber⟩ := Record.slot?_eq_some hslot
    have hagrees := hfits _ (Record.mem_fields_of_isOf hr hs) f hf hnumber
    obtain ⟨cs, hcs, hcarry⟩ := Shape.exists_chunks hagrees s.value
    have hsizes : ∀ p ∈ pieces s.field.shape s.value, p.content.length < 2 ^ 64 := by
      intro p hp
      have hpart : (s.field.number, p) ∈ r.parts :=
        List.mem_flatMap.mpr ⟨s, hs, List.mem_map_of_mem hp⟩
      exact Nat.lt_of_le_of_lt (Record.size_of_mem_parts hpart) hsize
    -- what was seen is what the value was written as: pieces hold one thing
    rw [holds_unique_all hchunks hcs hsizes]
    simp only [hcarry, Option.getD_some]

/-- The main fact about reading: whatever layout a record was written
    with, a layout that fits reads what it takes over from it. -/
theorem decode_encode_eq_adopt (hr : r.IsOf w) (hw : w.IsRegular) (hl : l.IsRegular)
    (hfits : w.Fits l) (hsize : r.encode.length < 2 ^ 64) :
    l.decode r.encode = .ok (l.adopt r) := by
  obtain ⟨os, hsees⟩ := exists_sees_parts hr hfits
  have hread := occurrencesFrom_parts hsees
    (fun _ hpart => Record.parts_isLegal hr hw hsize hpart) []
  have hrecord : l.record os = l.adopt r := by
    unfold record adopt
    refine List.map_congr_left fun f hf => ?_
    rw [combine_of_sees hr hw hl hfits hsize hsees hf]
  rw [decode, occurrences, r.encode_eq_parts, hread]
  exact congrArg Except.ok hrecord

theorem fits_self (h : l.IsRegular) : l.Fits l := by
  intro f hf g hg hnumber
  have hfind := field?_of_mem h hf
  rw [hnumber, field?_of_mem h hg] at hfind
  obtain rfl := Option.some.inj hfind
  exact .refl (h.scalar g hg)

theorem adopt_self (hr : r.IsOf l) (h : l.IsRegular) : l.adopt r = r.readBack := by
  have hdistinct := Record.distinct_of_isOf hr h
  unfold adopt Record.readBack
  rw [← hr, List.map_map]
  refine List.map_congr_left fun s hs => ?_
  have hslot : r.slot? s.field.number = some s := find?_of_distinct hdistinct hs
  have hscalar := h.scalar _ (Record.mem_fields_of_isOf hr hs)
  simp only [Function.comp_apply, Record.valueFor, hslot, Shape.carry?_self hscalar,
    Option.getD_some]
  rfl

/-- A layout reads its own records back. -/
theorem decode_encode_self (hr : r.IsOf l) (h : l.IsRegular) (hsize : r.encode.length < 2 ^ 64) :
    l.decode r.encode = .ok r.readBack := by
  rw [decode_encode_eq_adopt hr h h (fits_self h) hsize, adopt_self hr h]

end Layout

end EventCodec.Wire
