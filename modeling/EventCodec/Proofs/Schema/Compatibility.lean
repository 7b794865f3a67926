import EventCodec.Proofs.Schema.Descriptor
import EventCodec.Schema.Compatibility

/-! # What compatibility says

    Two descriptors are compatible if and only if the fields they share by
    number have the same kind and are repeated alike
    (`checkCompatible_eq_ok_iff`).  The check goes through the reader's
    fields alone; nothing is missed, because bisection finds each number
    in the writer.

    What is reported is the conflict with the smallest number
    (`conflict?_eq_some_iff`), since the reader's numbers rise.  This says
    nothing about who reads whom: the other direction meets the same
    conflict with its two sides exchanged (`conflict?_swap`). -/

namespace EventCodec.Schema

theorem Field.agrees_iff {f g : Field} :
    f.agrees g = true ↔ f.kind = g.kind ∧ f.repeated = g.repeated := by
  simp [agrees]

theorem conflictAt?_eq_none_iff {writer : Descriptor} {g : Field} :
    conflictAt? writer g = none ↔
      ∀ f, writer.field? g.number = some f → f.kind = g.kind ∧ f.repeated = g.repeated := by
  unfold conflictAt?
  cases writer.field? g.number with
  | none => simp
  | some f =>
    by_cases h : f.agrees g = true
    · simpa [h] using Field.agrees_iff.mp h
    · have hne : ¬ (f.kind = g.kind ∧ f.repeated = g.repeated) := mt Field.agrees_iff.mpr h
      simpa [h] using hne

/-- Two descriptors are compatible if and only if they agree on every
    number they share. -/
theorem checkCompatible_eq_ok_iff {writer reader : Descriptor} :
    checkCompatible writer reader = .ok () ↔
      ∀ g ∈ reader.fields.toList, ∀ f, writer.field? g.number = some f →
        f.kind = g.kind ∧ f.repeated = g.repeated := by
  have hconflict : checkCompatible writer reader = .ok () ↔ conflict? writer reader = none := by
    unfold checkCompatible
    cases conflict? writer reader <;> simp
  rw [hconflict, conflict?, List.findSome?_eq_none_iff]
  exact forall₂_congr fun g _ => conflictAt?_eq_none_iff

/-! ### Conflicts -/

/-- The conflict seen from the other side. -/
def Conflict.swap (c : Conflict) : Conflict :=
  { written := c.read, read := c.written }

/-- Two fields of one number that do not have the same type. -/
structure IsConflict (writer reader : Descriptor) (c : Conflict) : Prop where
  written : c.written ∈ writer.fields.toList
  read : c.read ∈ reader.fields.toList
  number : c.written.number = c.read.number
  differ : ¬ (c.written.kind = c.read.kind ∧ c.written.repeated = c.read.repeated)

/-- No conflict has a smaller number. -/
structure IsFirstConflict (writer reader : Descriptor) (c : Conflict) : Prop where
  conflict : IsConflict writer reader c
  first : ∀ c', IsConflict writer reader c' → c.read.number ≤ c'.read.number

section Conflicts

variable {writer reader : Descriptor} {c c' : Conflict}

theorem IsConflict.swap (h : IsConflict writer reader c) : IsConflict reader writer c.swap where
  written := h.read
  read := h.written
  number := h.number.symm
  differ := fun ⟨hkind, hrepeated⟩ => h.differ ⟨hkind.symm, hrepeated.symm⟩

theorem IsFirstConflict.swap (h : IsFirstConflict writer reader c) :
    IsFirstConflict reader writer c.swap where
  conflict := h.conflict.swap
  first c' hc' := by
    have hle := h.first c'.swap hc'.swap
    have hnumber : c.written.number = c.read.number := h.conflict.number
    have hnumber' : c'.written.number = c'.read.number := hc'.number
    show c.written.number ≤ c'.read.number
    rw [hnumber, ← hnumber']
    exact hle

/-- A descriptor has one field for a number. -/
theorem Descriptor.eq_of_number {d : Descriptor} {f g : Field} (hf : f ∈ d.fields.toList)
    (hg : g ∈ d.fields.toList) (h : f.number = g.number) : f = g := by
  have hfound := Descriptor.field?_eq_some_iff.mpr ⟨hf, h⟩
  exact Option.some.inj (hfound.symm.trans (Descriptor.field?_eq_some_iff.mpr ⟨hg, rfl⟩))

theorem IsFirstConflict.unique (h : IsFirstConflict writer reader c)
    (h' : IsFirstConflict writer reader c') : c = c' := by
  have hread : c.read.number = c'.read.number :=
    UInt32.le_antisymm (h.first c' h'.conflict) (h'.first c h.conflict)
  have hwritten : c.written.number = c'.written.number :=
    h.conflict.number.trans (hread.trans h'.conflict.number.symm)
  cases c; cases c'
  congr
  · exact Descriptor.eq_of_number h.conflict.written h'.conflict.written hwritten
  · exact Descriptor.eq_of_number h.conflict.read h'.conflict.read hread

theorem conflictAt?_eq_some_iff {g : Field} (hg : g ∈ reader.fields.toList) :
    conflictAt? writer g = some c ↔ IsConflict writer reader c ∧ c.read = g := by
  unfold conflictAt?
  cases hfield : writer.field? g.number with
  | none =>
    simp only [reduceCtorEq, false_iff, not_and]
    rintro hc rfl
    exact Descriptor.field?_eq_none_iff.mp hfield c.written hc.written hc.number
  | some f =>
    obtain ⟨hf, hnumber⟩ := Descriptor.field?_eq_some_iff.mp hfield
    by_cases hagrees : f.agrees g = true
    · simp only [hagrees, if_true, reduceCtorEq, false_iff, not_and]
      rintro hc rfl
      obtain rfl := Descriptor.eq_of_number hc.written hf (hc.number.trans hnumber.symm)
      exact hc.differ (Field.agrees_iff.mp hagrees)
    · simp only [hagrees]
      constructor
      · intro h
        obtain rfl := Option.some.inj h
        exact ⟨⟨hf, hg, hnumber, mt Field.agrees_iff.mpr hagrees⟩, rfl⟩
      · rintro ⟨hc, rfl⟩
        obtain rfl := Descriptor.eq_of_number hc.written hf (hc.number.trans hnumber.symm)
        rfl

/-- Without a conflict at any field there is none at all. -/
theorem conflict?_eq_none_iff :
    conflict? writer reader = none ↔ ∀ c, ¬ IsConflict writer reader c := by
  rw [conflict?, List.findSome?_eq_none_iff]
  constructor
  · intro h c hc
    have hnone := h c.read hc.read
    rw [(conflictAt?_eq_some_iff hc.read).mpr ⟨hc, rfl⟩] at hnone
    contradiction
  · intro h g hg
    cases hat : conflictAt? writer g with
    | none => rfl
    | some c => exact absurd ((conflictAt?_eq_some_iff hg).mp hat).1 (h c)

theorem isFirstConflict_of_conflict? (h : conflict? writer reader = some c) :
    IsFirstConflict writer reader c := by
  obtain ⟨before, g, after, hfields, hat, hbefore⟩ := List.findSome?_eq_some_iff.mp h
  have hg : g ∈ reader.fields.toList := by simp [hfields]
  obtain ⟨hc, rfl⟩ := (conflictAt?_eq_some_iff hg).mp hat
  refine ⟨hc, ?_⟩
  intro c' hc'
  have hmem := hc'.read
  rw [hfields, List.mem_append, List.mem_cons] at hmem
  rcases hmem with hmem | heq | hmem
  · -- the check would have stopped there
    have hnone := hbefore c'.read hmem
    rw [(conflictAt?_eq_some_iff hc'.read).mpr ⟨hc', rfl⟩] at hnone
    contradiction
  · rw [heq]
    exact UInt32.le_refl _
  · have hsorted := reader.isFieldSet.sorted
    rw [hfields, List.pairwise_append, List.pairwise_cons] at hsorted
    exact UInt32.le_of_lt (hsorted.2.1.1 c'.read hmem)

/-- The check finds the conflict with the smallest number. -/
theorem conflict?_eq_some_iff :
    conflict? writer reader = some c ↔ IsFirstConflict writer reader c := by
  refine ⟨isFirstConflict_of_conflict?, fun h => ?_⟩
  cases hfound : conflict? writer reader with
  | none => exact absurd h.conflict (conflict?_eq_none_iff.mp hfound c)
  | some c' => rw [(isFirstConflict_of_conflict? hfound).unique h]

/-- The other direction meets the same conflict. -/
theorem conflict?_swap (writer reader : Descriptor) :
    conflict? reader writer = (conflict? writer reader).map Conflict.swap := by
  cases hfound : conflict? writer reader with
  | none =>
    rw [conflict?_eq_none_iff] at hfound
    exact conflict?_eq_none_iff.mpr fun c hc => hfound c.swap hc.swap
  | some c => exact conflict?_eq_some_iff.mpr (conflict?_eq_some_iff.mp hfound).swap

end Conflicts

/-! ### What the check depends on -/

/-- What the check looks at in a field. -/
def Field.type (f : Field) : Scalar × Bool :=
  (f.kind, f.repeated)

/-- The two types of a number that both descriptors have. -/
def sharedTypes? (writer reader : Descriptor) (number : UInt32) :
    Option ((Scalar × Bool) × (Scalar × Bool)) :=
  match writer.field? number, reader.field? number with
  | some f, some g => some (f.type, g.type)
  | _, _ => none

section Dependence

variable {writer reader writer' reader' : Descriptor} {c : Conflict} {number : UInt32}

theorem sharedTypes?_eq_some_iff {s t : Scalar × Bool} :
    sharedTypes? writer reader number = some (s, t) ↔
      ∃ f g, writer.field? number = some f ∧ reader.field? number = some g ∧
        f.type = s ∧ g.type = t := by
  unfold sharedTypes?
  cases writer.field? number <;> cases reader.field? number <;> simp

theorem typeText_of_type {f g : Field} (h : f.type = g.type) : f.typeText = g.typeText := by
  obtain ⟨hkind, hrepeated⟩ := Prod.mk.inj h
  rw [Field.typeText, Field.typeText, hkind, hrepeated]

/-- Where the shared types are the same, so are the conflicts. -/
theorem IsConflict.transfer (h : IsConflict writer reader c)
    (hsame : ∀ n, sharedTypes? writer reader n = sharedTypes? writer' reader' n) :
    ∃ c', IsConflict writer' reader' c' ∧ c'.read.number = c.read.number ∧
      c'.written.type = c.written.type ∧ c'.read.type = c.read.type := by
  have hshared : sharedTypes? writer reader c.read.number = some (c.written.type, c.read.type) :=
    sharedTypes?_eq_some_iff.mpr ⟨c.written, c.read,
      Descriptor.field?_eq_some_iff.mpr ⟨h.written, h.number⟩,
      Descriptor.field?_eq_some_iff.mpr ⟨h.read, rfl⟩, rfl, rfl⟩
  rw [hsame, sharedTypes?_eq_some_iff] at hshared
  obtain ⟨f, g, hf, hg, hwritten, hread⟩ := hshared
  obtain ⟨hf, hfnumber⟩ := Descriptor.field?_eq_some_iff.mp hf
  obtain ⟨hg, hgnumber⟩ := Descriptor.field?_eq_some_iff.mp hg
  refine ⟨{ written := f, read := g }, ⟨hf, hg, hfnumber.trans hgnumber.symm, ?_⟩, hgnumber,
    hwritten, hread⟩
  rintro ⟨hkind, hrepeated⟩
  have htype : c.written.type = c.read.type := by
    rw [← hwritten, ← hread]
    exact Prod.ext hkind hrepeated
  exact h.differ (Prod.mk.inj htype)

theorem IsFirstConflict.transfer (h : IsFirstConflict writer reader c)
    (hsame : ∀ n, sharedTypes? writer reader n = sharedTypes? writer' reader' n) :
    ∃ c', IsFirstConflict writer' reader' c' ∧ c'.reason = c.reason := by
  obtain ⟨c', hc', hnumber, hwritten, hread⟩ := h.conflict.transfer hsame
  refine ⟨c', ⟨hc', ?_⟩, ?_⟩
  · intro d' hd'
    obtain ⟨d, hd, hback, -, -⟩ := hd'.transfer fun n => (hsame n).symm
    rw [hnumber, ← hback]
    exact h.first d hd
  · rw [Conflict.reason, Conflict.reason, hnumber, typeText_of_type hwritten,
      typeText_of_type hread]

/-- The check depends on nothing but the types of shared numbers: not on
    names, and not on the fields that only one side has. -/
theorem checkCompatible_congr
    (hsame : ∀ n, sharedTypes? writer reader n = sharedTypes? writer' reader' n) :
    checkCompatible writer reader = checkCompatible writer' reader' := by
  unfold checkCompatible
  cases hfound : conflict? writer reader with
  | none =>
    have hnone : conflict? writer' reader' = none := by
      rw [conflict?_eq_none_iff] at hfound ⊢
      intro c' hc'
      obtain ⟨c, hc, -⟩ := hc'.transfer fun n => (hsame n).symm
      exact hfound c hc
    rw [hnone]
  | some c =>
    obtain ⟨c', hc', hreason⟩ := (conflict?_eq_some_iff.mp hfound).transfer hsame
    rw [conflict?_eq_some_iff.mpr hc']
    simp only [Conflict.toError, hreason]

end Dependence

/-! ### Agreement -/

/-- Fields of one number have one type. -/
def Descriptor.Agrees (writer reader : Descriptor) : Prop :=
  ∀ f ∈ writer.fields.toList, ∀ g ∈ reader.fields.toList, f.number = g.number →
    f.kind = g.kind ∧ f.repeated = g.repeated

section Agreement

variable {writer reader : Descriptor}

theorem checkCompatible_eq_ok_iff_agrees :
    checkCompatible writer reader = .ok () ↔ writer.Agrees reader := by
  rw [checkCompatible_eq_ok_iff]
  constructor
  · intro h f hf g hg hnumber
    exact h g hg f (Descriptor.field?_eq_some_iff.mpr ⟨hf, hnumber⟩)
  · intro h g hg f hfound
    obtain ⟨hf, hnumber⟩ := Descriptor.field?_eq_some_iff.mp hfound
    exact h f hf g hg hnumber

theorem Descriptor.Agrees.refl (d : Descriptor) : d.Agrees d := by
  intro f hf g hg hnumber
  rw [Descriptor.eq_of_number hf hg hnumber]
  exact ⟨rfl, rfl⟩

theorem Descriptor.Agrees.symm (h : writer.Agrees reader) : reader.Agrees writer := by
  intro g hg f hf hnumber
  obtain ⟨hkind, hrepeated⟩ := h f hf g hg hnumber.symm
  exact ⟨hkind.symm, hrepeated.symm⟩

theorem Descriptor.Agrees.mono {writer' reader' : Descriptor} (h : writer.Agrees reader)
    (hwriter : ∀ f ∈ writer'.fields.toList, f ∈ writer.fields.toList)
    (hreader : ∀ g ∈ reader'.fields.toList, g ∈ reader.fields.toList) :
    writer'.Agrees reader' :=
  fun f hf g hg hnumber => h f (hwriter f hf) g (hreader g hg) hnumber

/-- **Compatibility is agreement on shared numbers**: writer and reader are
    compatible if and only if their fields of one number have the same
    kind and are repeated alike.  So a descriptor can read itself, who can
    read can be read, and leaving fields out does no harm; and the outcome
    as a whole, its wording included, depends on nothing but the types of
    the numbers that both have.  A conflict is reported at the smallest
    number where there is one, and in both directions alike, with the two
    sides exchanged. -/
theorem compatible_iff_agrees (writer reader : Descriptor) :
    (checkCompatible writer reader = .ok () ↔
      ∀ f ∈ writer.fields.toList, ∀ g ∈ reader.fields.toList, f.number = g.number →
        f.kind = g.kind ∧ f.repeated = g.repeated) ∧
    (∀ writer' reader' : Descriptor,
      (∀ n, sharedTypes? writer reader n = sharedTypes? writer' reader' n) →
      checkCompatible writer reader = checkCompatible writer' reader') ∧
    checkCompatible writer writer = .ok () ∧
    (checkCompatible writer reader = .ok () ↔ checkCompatible reader writer = .ok ()) ∧
    (∀ writer' reader' : Descriptor, (∀ f ∈ writer'.fields.toList, f ∈ writer.fields.toList) →
      (∀ g ∈ reader'.fields.toList, g ∈ reader.fields.toList) →
      checkCompatible writer reader = .ok () → checkCompatible writer' reader' = .ok ()) ∧
    (checkCompatible writer reader ≠ .ok () → ∃ f ∈ writer.fields.toList,
      ∃ g ∈ reader.fields.toList, f.number = g.number ∧
        ¬ (f.kind = g.kind ∧ f.repeated = g.repeated) ∧
        (∀ f' ∈ writer.fields.toList, ∀ g' ∈ reader.fields.toList, f'.number = g'.number →
          ¬ (f'.kind = g'.kind ∧ f'.repeated = g'.repeated) → f.number ≤ f'.number) ∧
        checkCompatible writer reader = .error (.incompatible
          ("字段 #" ++ toString f.number.toNat ++ " 写方为 " ++ f.typeText ++
            "，读方为 " ++ g.typeText)) ∧
        checkCompatible reader writer = .error (.incompatible
          ("字段 #" ++ toString f.number.toNat ++ " 写方为 " ++ g.typeText ++
            "，读方为 " ++ f.typeText))) := by
  refine ⟨checkCompatible_eq_ok_iff_agrees, ?depends, ?refl, ?symm, ?drop, ?conflict⟩
  case depends =>
    intro writer' reader' hsame
    exact checkCompatible_congr hsame
  case refl => exact checkCompatible_eq_ok_iff_agrees.mpr (.refl writer)
  case symm =>
    rw [checkCompatible_eq_ok_iff_agrees, checkCompatible_eq_ok_iff_agrees]
    exact ⟨.symm, .symm⟩
  case drop =>
    intro writer' reader' hwriter hreader
    rw [checkCompatible_eq_ok_iff_agrees, checkCompatible_eq_ok_iff_agrees]
    exact fun h => h.mono hwriter hreader
  case conflict =>
    intro hfails
    cases hfound : conflict? writer reader with
    | none => exact absurd (by rw [checkCompatible, hfound]) hfails
    | some c =>
      have hfirst := conflict?_eq_some_iff.mp hfound
      have hnumber : c.written.number = c.read.number := hfirst.conflict.number
      refine ⟨c.written, hfirst.conflict.written, c.read, hfirst.conflict.read, hnumber,
        hfirst.conflict.differ, ?_, ?_, ?_⟩
      · intro f' hf' g' hg' hnumber' hdiffer
        rw [hnumber, hnumber']
        exact hfirst.first { written := f', read := g' } ⟨hf', hg', hnumber', hdiffer⟩
      · rw [checkCompatible, hfound, hnumber]
        rfl
      · rw [checkCompatible, conflict?_swap, hfound]
        rfl

end Agreement

end EventCodec.Schema
