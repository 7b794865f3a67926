import EventCodec.Schema.Builder

/-! # What building makes of declarations, and how fields are found

    A descriptor's fields are the declarations it was built from, in
    another order (`build_eq_ok`), and declarations that were a
    descriptor's fields build that descriptor again (`build_declared`).

    Bisection finds a field by its number if and only if there is one
    (`field?_eq_some_iff`): the numbers rise, so that the half thrown away
    cannot hold it. -/

namespace EventCodec.Schema

/-! ### Deciding what a descriptor is made of -/

instance (f : Field) : Decidable f.IsLegal :=
  decidable_of_iff
    (isIdentifier f.name = true ∧ isInRange f.number = true ∧ isReserved f.number = false)
    ⟨fun ⟨h₁, h₂, h₃⟩ => ⟨h₁, h₂, h₃⟩, fun ⟨h₁, h₂, h₃⟩ => ⟨h₁, h₂, h₃⟩⟩

instance (fields : List Field) : Decidable (IsFieldSet fields) :=
  decidable_of_iff
    ((∀ f ∈ fields, f.IsLegal) ∧ (fields.Pairwise fun f g => f.number < g.number) ∧
      fields.Pairwise fun f g => f.name ≠ g.name)
    ⟨fun ⟨h₁, h₂, h₃⟩ => ⟨h₁, h₂, h₃⟩, fun ⟨h₁, h₂, h₃⟩ => ⟨h₁, h₂, h₃⟩⟩

/-! ### Bisection -/

namespace Descriptor

variable {fields : Array Field} {number : UInt32} {low high : Nat}

theorem search_sound {bound : high ≤ fields.size} {f : Field}
    (h : search fields number low high bound = some f) :
    f ∈ fields ∧ f.number = number := by
  fun_induction search fields number low high bound with
  | case1 low high bound hlt middle inside g hnumber =>
    obtain rfl := Option.some.inj h
    exact ⟨Array.getElem_mem inside, hnumber⟩
  | case2 low high bound hlt middle inside g _ _ ih => exact ih h
  | case3 low high bound hlt middle inside g _ _ ih => exact ih h
  | case4 => contradiction

/-- The numbers of two positions rise with the positions. -/
theorem number_lt_of_lt (h : fields.toList.Pairwise fun f g => f.number < g.number) {i j : Nat}
    (hij : i < j) (hj : j < fields.size) : fields[i].number < fields[j].number := by
  have hpair := List.pairwise_iff_getElem.mp h i j (by simp; omega) (by simpa using hj) hij
  simpa using hpair

theorem search_complete {bound : high ≤ fields.size}
    (h : fields.toList.Pairwise fun f g => f.number < g.number) {i : Nat} (hi : i < fields.size)
    (hnumber : fields[i].number = number) (hlow : low ≤ i) (hhigh : i < high) :
    search fields number low high bound = some fields[i] := by
  fun_induction search fields number low high bound with
  | case1 low high bound hlt middle inside g hmiddle =>
    have heq : middle = i := by
      have hsame : fields[middle].number = fields[i].number := Eq.trans hmiddle hnumber.symm
      rcases Nat.lt_trichotomy middle i with hlt | heq | hgt
      · exact absurd hsame (UInt32.ne_of_lt (number_lt_of_lt h hlt hi))
      · exact heq
      · exact absurd hsame.symm (UInt32.ne_of_lt (number_lt_of_lt h hgt inside))
    simp only [g, heq]
  | case2 low high bound hlt middle inside g hne hless ih =>
    -- a smaller number in the middle: the field lies behind it
    refine ih ?_ hhigh
    rcases Nat.lt_trichotomy middle i with hlt | heq | hgt
    · exact hlt
    · subst heq
      exact absurd hnumber hne
    · have hlt := number_lt_of_lt h hgt inside
      rw [hnumber] at hlt
      exact absurd (UInt32.lt_trans hlt hless) (UInt32.lt_irrefl _)
  | case3 low high bound hlt middle inside g hne hless ih =>
    -- a larger one: the field lies before it
    refine ih hlow ?_
    rcases Nat.lt_trichotomy i middle with hlt | heq | hgt
    · exact hlt
    · subst heq
      exact absurd hnumber hne
    · have hlt := number_lt_of_lt h hgt hi
      rw [hnumber] at hlt
      exact absurd hlt hless
  | case4 low high bound hge => omega

/-- Bisection finds exactly the fields that are there. -/
theorem field?_eq_some_iff {d : Descriptor} {number : UInt32} {f : Field} :
    d.field? number = some f ↔ f ∈ d.fields.toList ∧ f.number = number := by
  constructor
  · intro h
    simpa using search_sound h
  · rintro ⟨hmem, hnumber⟩
    obtain ⟨i, hi, rfl⟩ := Array.getElem_of_mem (Array.mem_def.mpr hmem)
    exact search_complete d.isFieldSet.sorted hi hnumber (Nat.zero_le i) hi

theorem field?_eq_none_iff {d : Descriptor} {number : UInt32} :
    d.field? number = none ↔ ∀ f ∈ d.fields.toList, f.number ≠ number := by
  constructor
  · intro h f hf hnumber
    rw [field?_eq_some_iff.mpr ⟨hf, hnumber⟩] at h
    contradiction
  · intro h
    cases hfound : d.field? number with
    | none => rfl
    | some f =>
      obtain ⟨hf, hnumber⟩ := field?_eq_some_iff.mp hfound
      exact absurd hnumber (h f hf)

end Descriptor

/-! ### Building -/

namespace Builder

theorem acceptAll_declaration {taken fs : List Field} {ds : List Declaration}
    (h : acceptAll taken ds = .ok fs) :
    fs.map Field.declaration = taken.reverse.map Field.declaration ++ ds := by
  induction ds generalizing taken with
  | nil =>
    obtain rfl := Except.ok.inj h
    simp
  | cons d ds ih =>
    -- taking a declaration changes nothing about it
    simp only [acceptAll] at h
    split at h
    · contradiction
    · next f hf =>
      obtain ⟨rfl, -⟩ := accept_ok hf
      simpa using ih h

/-- The descriptor's fields are the declared ones, sorted by number. -/
theorem build_eq_ok {b : Builder} {d : Descriptor} (h : b.build = .ok d) :
    d.name = b.name ∧ d.fields.toList.map Field.declaration = b.sorted := by
  unfold build at h
  split at h
  · split at h
    · contradiction
    · next fields htaken =>
      obtain rfl := Except.ok.inj h
      exact ⟨rfl, by simpa using acceptAll_declaration htaken⟩
  · contradiction

theorem sorted_perm (b : Builder) : b.sorted.Perm b.declarations :=
  List.mergeSort_perm b.declarations numberLE

theorem accept_declaration {taken : List Field} {f : Field} (hlegal : f.IsLegal)
    (hnumber : ∀ g ∈ taken, g.number ≠ f.number) (hname : ∀ g ∈ taken, g.name ≠ f.name) :
    accept taken f.declaration = .ok f := by
  have hhead : (taken.head?.any fun g => g.number == f.number) = false := by
    cases taken with
    | nil => rfl
    | cons g taken => simpa using hnumber g (by simp)
  have hany : (taken.any fun g => g.name == f.name) = false := by
    simpa [List.any_eq_false] using hname
  simp [accept, Field.declaration, hlegal.name, hlegal.inRange, hlegal.notReserved, hhead, hany]

theorem acceptAll_of_isFieldSet (taken : List Field) {fs : List Field}
    (h : IsFieldSet (taken.reverse ++ fs)) :
    acceptAll taken (fs.map Field.declaration) = .ok (taken.reverse ++ fs) := by
  induction fs generalizing taken with
  | nil => simp [acceptAll]
  | cons f fs ih =>
    have hsorted := List.pairwise_append.mp h.sorted
    have hnames := List.pairwise_append.mp h.names
    have hf : accept taken f.declaration = .ok f := by
      refine accept_declaration (h.legal f (by simp)) ?_ ?_
      · intro g hg
        exact (UInt32.ne_of_lt (hsorted.2.2 g (by simpa using hg) f (by simp)))
      · intro g hg
        exact hnames.2.2 g (by simpa using hg) f (by simp)
    simp only [List.map_cons, acceptAll, hf]
    rw [ih (f :: taken) (by simpa using h)]
    simp

end Builder

/-- The declarations of a descriptor's own fields. -/
def Descriptor.declared (d : Descriptor) : Builder :=
  { name := d.name, declarations := d.fields.toList.map Field.declaration }

theorem Descriptor.sorted_declared (d : Descriptor) :
    d.declared.sorted = d.fields.toList.map Field.declaration := by
  refine List.mergeSort_of_pairwise (List.pairwise_map.mpr ?_)
  refine d.isFieldSet.sorted.imp fun {f g} hlt => ?_
  exact decide_eq_true (UInt32.le_of_lt hlt)

/-- Nothing is lost: a descriptor is built again from its fields. -/
theorem Descriptor.build_declared (d : Descriptor) : d.declared.build = .ok d := by
  -- the fields are in order already, so sorting leaves them alone
  have htaken : Builder.acceptAll [] d.declared.sorted = .ok d.fields.toList := by
    rw [d.sorted_declared]
    exact Builder.acceptAll_of_isFieldSet [] d.isFieldSet
  have hname : isIdentifier d.declared.name = true := d.isIdentifier_name
  rw [Builder.build, dif_pos hname]
  split
  · next hfail => rw [htaken] at hfail; contradiction
  · next fields hok =>
    rw [htaken] at hok
    obtain rfl := Except.ok.inj hok
    exact congrArg Except.ok (Descriptor.ext rfl rfl)

end EventCodec.Schema
