import EventCodec.Proofs.Schema.Descriptor
import Mathlib.Data.List.Induction
import Mathlib.Data.List.Nodup
import Mathlib.Data.List.Perm.Basic

/-! # Which declarations build

    A message builds if its declarations are legal one by one and no
    number and no name stands twice (`IsValid`).  This says nothing about
    their order, and so the order does not matter: what builds, builds to
    the same descriptor however it was declared.

    Building goes through the declarations in the order of their numbers.
    The rules are stated here without that (`Breaks`): a declaration may
    be at odds with any of those before it.  Building compares a number
    only with the one right before; that is enough, because the numbers
    rise (`accept_spec`).  What is reported is the first declaration that
    breaks a rule, and of its rules the first in their order
    (`FirstFault`). -/

namespace EventCodec.Schema

/-! ### Identifiers -/

/-- A letter or underscore, then letters, digits and underscores, all of
    ASCII. -/
def IsIdentifier (name : String) : Prop :=
  ∃ c cs, name.toList = c :: cs ∧ (c.isAlpha = true ∨ c = '_') ∧
    ∀ d ∈ cs, d.isAlphanum = true ∨ d = '_'

theorem isLetter_eq_isAlpha (c : Char) : isLetter c = c.isAlpha := by
  unfold isLetter Char.isAlpha Char.isUpper Char.isLower
  rw [Bool.or_comm]
  simp [Char.le_def]

theorem startsIdentifier_iff {c : Char} :
    startsIdentifier c = true ↔ c.isAlpha = true ∨ c = '_' := by
  simp [startsIdentifier, isLetter_eq_isAlpha]

theorem continuesIdentifier_iff {c : Char} :
    continuesIdentifier c = true ↔ c.isAlphanum = true ∨ c = '_' := by
  have hdigit : ('0' ≤ c && c ≤ '9') = c.isDigit := by
    simp [Char.isDigit, Char.le_def]
  rw [continuesIdentifier, hdigit, Bool.or_eq_true, startsIdentifier_iff, Char.isAlphanum,
    Bool.or_eq_true]
  exact or_right_comm

theorem isIdentifier_iff {name : String} : isIdentifier name = true ↔ IsIdentifier name := by
  unfold isIdentifier IsIdentifier
  cases name.toList with
  | nil => simp
  | cons c cs => simp [startsIdentifier_iff, continuesIdentifier_iff]

namespace Builder

/-! ### The rules -/

/-- A declaration with the given ones before it breaks a rule, and this is
    the error that says so. -/
inductive Breaks (before : List Declaration) (d : Declaration) : SchemaError → Prop where
  | name : ¬ IsIdentifier d.name → Breaks before d (.invalidName d.name)
  | range : d.number.toNat < 1 ∨ 536870911 < d.number.toNat →
      Breaks before d (.numberOutOfRange d.number)
  | reserved : 19000 ≤ d.number.toNat → d.number.toNat ≤ 19999 →
      Breaks before d (.reservedNumber d.number)
  | kind : (∀ s, d.kind ≠ .scalar s) → Breaks before d (.unsupportedField d.name d.kind.name)
  | sameNumber : d.number ∈ before.map Declaration.number →
      Breaks before d (.duplicateNumber d.number)
  | sameName : d.name ∈ before.map Declaration.name → Breaks before d (.duplicateName d.name)

/-- The place of an error's rule in the order in which they are tried. -/
def rank : SchemaError → Nat
  | .invalidName _ => 0
  | .numberOutOfRange _ => 1
  | .reservedNumber _ => 2
  | .unsupportedField _ _ => 3
  | .duplicateNumber _ => 4
  | .duplicateName _ => 5
  | .parse _ | .incompatible _ => 6

/-- The rules before a place in their order are kept. -/
def KeepsUpTo (place : Nat) (before : List Declaration) (d : Declaration) : Prop :=
  ∀ e, Breaks before d e → place ≤ rank e

/-- Of the rules that are broken, this is the first. -/
structure BreaksFirst (before : List Declaration) (d : Declaration) (e : SchemaError) : Prop where
  breaks : Breaks before d e
  first : KeepsUpTo (rank e) before d

/-- No rule is broken. -/
def Fits (before : List Declaration) (d : Declaration) : Prop :=
  ∀ e, ¬ Breaks before d e

/-- Every declaration of a row fits behind those before it. -/
def IsClear (row : List Declaration) : Prop :=
  ∀ before d after, row = before ++ d :: after → Fits before d

/-- The first declaration of a row that does not fit, and the first rule
    it breaks. -/
def FirstFault (row : List Declaration) (e : SchemaError) : Prop :=
  ∃ before d after, row = before ++ d :: after ∧ IsClear before ∧ BreaksFirst before d e

/-- What is asked of a declaration on its own. -/
structure Stands (d : Declaration) : Prop where
  name : IsIdentifier d.name
  inRange : 1 ≤ d.number.toNat ∧ d.number.toNat ≤ 536870911
  notReserved : ¬ (19000 ≤ d.number.toNat ∧ d.number.toNat ≤ 19999)
  scalar : ∃ s, d.kind = .scalar s

/-- What is asked of a message, whatever the order of its declarations. -/
structure IsValid (name : String) (ds : List Declaration) : Prop where
  name : IsIdentifier name
  legal : ∀ d ∈ ds, Stands d
  numbersDiffer : (ds.map Declaration.number).Nodup
  namesDiffer : (ds.map Declaration.name).Nodup

section Rules

variable {before : List Declaration} {d : Declaration} {e e' : SchemaError}

/-- A rule has one error for one declaration. -/
theorem Breaks.eq_of_rank (h : Breaks before d e) (h' : Breaks before d e')
    (hrank : rank e = rank e') : e = e' := by
  cases h <;> cases h' <;> first | rfl | (simp [rank] at hrank)

theorem BreaksFirst.unique (h : BreaksFirst before d e) (h' : BreaksFirst before d e') :
    e = e' := by
  have hle : rank e ≤ rank e' := h.first e' h'.breaks
  have hge : rank e' ≤ rank e := h'.first e h.breaks
  exact h.breaks.eq_of_rank h'.breaks (Nat.le_antisymm hle hge)

theorem KeepsUpTo.next {place : Nat} (h : KeepsUpTo place before d)
    (hkept : ∀ e, Breaks before d e → rank e ≠ place) : KeepsUpTo (place + 1) before d := by
  intro e he
  exact Nat.lt_of_le_of_ne (h e he) (hkept e he).symm

/-- There are six rules. -/
theorem Breaks.rank_lt (h : Breaks before d e) : rank e < 6 := by
  cases h <;> simp [rank]

theorem fits_of_keepsUpTo (h : KeepsUpTo 6 before d) : Fits before d := by
  intro e he
  exact absurd (h e he) (Nat.not_le.mpr he.rank_lt)

theorem fits_iff :
    Fits before d ↔ Stands d ∧ d.number ∉ before.map Declaration.number ∧
      d.name ∉ before.map Declaration.name := by
  constructor
  · intro h
    refine ⟨⟨?name, ?inRange, ?notReserved, ?scalar⟩, ?sameNumber, ?sameName⟩
    case name => exact Classical.byContradiction fun hname => h _ (.name hname)
    case inRange =>
      have hrange : ¬ (d.number.toNat < 1 ∨ 536870911 < d.number.toNat) :=
        fun hout => h _ (.range hout)
      omega
    case notReserved => exact fun hreserved => h _ (.reserved hreserved.1 hreserved.2)
    case scalar =>
      exact Classical.byContradiction fun hkind => h _ (.kind (not_exists.mp hkind))
    case sameNumber => exact fun hnumber => h _ (.sameNumber hnumber)
    case sameName => exact fun hname => h _ (.sameName hname)
  · rintro ⟨⟨hname, hrange, hreserved, s, hs⟩, hnumber, hnames⟩ e h
    cases h with
    | name h => exact h hname
    | range h => omega
    | reserved h h' => exact hreserved ⟨h, h'⟩
    | kind h => exact h s hs
    | sameNumber h => exact hnumber h
    | sameName h => exact hnames h

end Rules

/-! ### Rows -/

section Rows

variable {row : List Declaration} {d : Declaration} {e e' : SchemaError}

theorem isClear_nil : IsClear [] := by
  intro before d after h
  simp at h

theorem isClear_concat : IsClear (row ++ [d]) ↔ IsClear row ∧ Fits row d := by
  constructor
  · intro h
    refine ⟨?_, h row d [] rfl⟩
    rintro before d' after rfl
    exact h before d' (after ++ [d]) (by simp)
  · rintro ⟨hrow, hd⟩ before d' after heq
    rcases List.eq_nil_or_concat after with rfl | ⟨after, last, rfl⟩
    · -- the last one
      obtain ⟨rfl, rfl⟩ := List.append_singleton_inj.mp heq
      exact hd
    · have hsplit : row ++ [d] = (before ++ d' :: after) ++ [last] := by simpa using heq
      exact hrow before d' after (List.append_singleton_inj.mp hsplit).1

/-- A row is clear if and only if its declarations are legal and differ. -/
theorem isClear_iff_isValid {name : String} (hname : IsIdentifier name) :
    IsClear row ↔ IsValid name row := by
  induction row using List.reverseRecOn with
  | nil => exact ⟨fun _ => ⟨hname, by simp, .nil, .nil⟩, fun _ => isClear_nil⟩
  | append_singleton row d ih =>
    have hdiffer : ∀ {α : Type} (f : Declaration → α),
        ((row ++ [d]).map f).Nodup ↔ f d ∉ row.map f ∧ (row.map f).Nodup := by
      intro α f
      rw [List.map_append, List.map_singleton, ← List.concat_eq_append, List.nodup_concat]
    have hlegal : (∀ e ∈ row ++ [d], Stands e) ↔ (∀ e ∈ row, Stands e) ∧ Stands d := by
      rw [List.forall_mem_append, List.forall_mem_singleton]
    rw [isClear_concat, ih, fits_iff]
    constructor
    · rintro ⟨h, hd, hnumber, hnames⟩
      exact ⟨hname, hlegal.mpr ⟨h.legal, hd⟩, (hdiffer _).mpr ⟨hnumber, h.numbersDiffer⟩,
        (hdiffer _).mpr ⟨hnames, h.namesDiffer⟩⟩
    · intro h
      obtain ⟨hrow, hd⟩ := hlegal.mp h.legal
      obtain ⟨hnumber, hnumbers⟩ := (hdiffer _).mp h.numbersDiffer
      obtain ⟨hsame, hnames⟩ := (hdiffer _).mp h.namesDiffer
      exact ⟨⟨hname, hrow, hnumbers, hnames⟩, hd, hnumber, hsame⟩

theorem FirstFault.not_isClear (h : FirstFault row e) : ¬ IsClear row := by
  obtain ⟨before, d, after, rfl, -, hfirst⟩ := h
  exact fun hclear => hclear before d after rfl e hfirst.breaks

/-- A row has one first fault. -/
theorem FirstFault.unique (h : FirstFault row e) (h' : FirstFault row e') : e = e' := by
  obtain ⟨before, d, after, rfl, hclear, hfirst⟩ := h
  obtain ⟨before', d', after', heq, hclear', hfirst'⟩ := h'
  rcases List.append_eq_append_iff.mp heq with ⟨more, rfl, hmore⟩ | ⟨more, rfl, hmore⟩
  · cases more with
    | nil =>
      obtain ⟨rfl, rfl⟩ := List.cons.inj hmore
      rw [List.append_nil] at hfirst'
      exact hfirst.unique hfirst'
    | cons x more =>
      -- the other one would lie behind a fault
      obtain ⟨rfl, -⟩ := List.cons.inj hmore
      exact absurd hfirst.breaks (hclear' before d more rfl e)
  · cases more with
    | nil =>
      obtain ⟨rfl, rfl⟩ := List.cons.inj hmore
      rw [List.append_nil] at hfirst
      exact hfirst.unique hfirst'
    | cons x more =>
      obtain ⟨rfl, -⟩ := List.cons.inj hmore
      exact absurd hfirst'.breaks (hclear before' d' more rfl e')

end Rows

/-- The validity of a message does not depend on the order. -/
theorem IsValid.perm {name : String} {ds es : List Declaration} (h : IsValid name ds)
    (hperm : es.Perm ds) : IsValid name es where
  name := h.name
  legal d hd := h.legal d (hperm.mem_iff.mp hd)
  numbersDiffer := (hperm.map _).nodup_iff.mpr h.numbersDiffer
  namesDiffer := (hperm.map _).nodup_iff.mpr h.namesDiffer

/-! ### Taking declarations -/

section Taking

variable {taken : List Field} {d : Declaration} {ds : List Declaration}

/-- The declarations that were taken, in their order. -/
def declarationsOf (taken : List Field) : List Declaration :=
  taken.reverse.map Field.declaration

theorem mem_numbers_declarationsOf {number : UInt32} :
    number ∈ (declarationsOf taken).map Declaration.number ↔ ∃ f ∈ taken, f.number = number := by
  simp [declarationsOf, Field.declaration]

theorem mem_names_declarationsOf {name : String} :
    name ∈ (declarationsOf taken).map Declaration.name ↔ ∃ f ∈ taken, f.name = name := by
  simp [declarationsOf, Field.declaration]

/-- Where numbers rise, one that was taken already is the last that was
    taken. -/
theorem IsTaken.any_head?_iff (h : IsTaken taken) (above : ∀ f ∈ taken, f.number ≤ d.number) :
    (taken.head?.any fun f => f.number == d.number) = true ↔ ∃ f ∈ taken, f.number = d.number := by
  cases taken with
  | nil => simp
  | cons last older =>
    constructor
    · intro hlast
      exact ⟨last, List.mem_cons_self, by simpa using hlast⟩
    · rintro ⟨f, hf, hnumber⟩
      rcases List.mem_cons.mp hf with rfl | hf
      · simpa using hnumber
      · have hlt : f.number < last.number := (List.pairwise_cons.mp h.sorted).1 f hf
        have hle : last.number ≤ d.number := above last List.mem_cons_self
        rw [hnumber] at hlt
        exact absurd hlt (UInt32.not_lt.mpr hle)

theorem isInRange_iff {number : UInt32} :
    isInRange number = true ↔ 1 ≤ number.toNat ∧ number.toNat ≤ 536870911 := by
  have hzero : number ≠ 0 ↔ 1 ≤ number.toNat := by
    rw [ne_eq, ← UInt32.toNat_inj]
    show ¬ number.toNat = 0 ↔ _
    omega
  simp [isInRange, hzero, UInt32.le_iff_toNat_le, maxFieldNumber]

theorem isReserved_iff {number : UInt32} :
    isReserved number = true ↔ 19000 ≤ number.toNat ∧ number.toNat ≤ 19999 := by
  simp [isReserved, UInt32.le_iff_toNat_le, firstReserved, lastReserved]

/-- A declaration is taken if it fits, and refused for the first rule it
    breaks. -/
theorem accept_spec (h : IsTaken taken) (above : ∀ f ∈ taken, f.number ≤ d.number) :
    match accept taken d with
    | .ok f => f.declaration = d ∧ Fits (declarationsOf taken) d
    | .error e => BreaksFirst (declarationsOf taken) d e := by
  have hsame := h.any_head?_iff above
  rw [← mem_numbers_declarationsOf] at hsame
  have hnames : (taken.any fun f => f.name == d.name) = true ↔
      d.name ∈ (declarationsOf taken).map Declaration.name := by
    rw [mem_names_declarationsOf]
    simp
  have hkept : KeepsUpTo 0 (declarationsOf taken) d := fun e _ => Nat.zero_le (rank e)
  -- the rules in their order; behind each one it is known to be kept
  unfold accept
  by_cases hname : isIdentifier d.name = true
  case neg =>
    rw [if_pos (by simpa using hname)]
    exact ⟨.name (mt isIdentifier_iff.mpr hname), hkept⟩
  rw [if_neg (by simpa using hname)]
  replace hkept := hkept.next fun e he => by
    cases he with
    | name hbad => exact absurd (isIdentifier_iff.mp hname) hbad
    | _ => simp [rank]
  by_cases hrange : isInRange d.number = true
  case neg =>
    rw [if_pos (by simpa using hrange)]
    rw [isInRange_iff] at hrange
    exact ⟨.range (by omega), hkept⟩
  rw [if_neg (by simpa using hrange)]
  replace hkept := hkept.next fun e he => by
    cases he with
    | range hbad =>
      rw [isInRange_iff] at hrange
      omega
    | _ => simp [rank]
  by_cases hreserved : isReserved d.number = true
  case pos =>
    rw [if_pos hreserved]
    rw [isReserved_iff] at hreserved
    exact ⟨.reserved hreserved.1 hreserved.2, hkept⟩
  rw [if_neg hreserved]
  replace hkept := hkept.next fun e he => by
    cases he with
    | reserved hlow hhigh => exact absurd (isReserved_iff.mpr ⟨hlow, hhigh⟩) hreserved
    | _ => simp [rank]
  cases hkind : d.kind with
  | message text | map key value =>
    dsimp only
    rw [← hkind]
    exact ⟨.kind (by simp [hkind]), hkept⟩
  | scalar kind =>
    dsimp only
    replace hkept := hkept.next fun e he => by
      cases he with
      | kind hbad => exact absurd hkind (hbad kind)
      | _ => simp [rank]
    by_cases hnumber : (taken.head?.any fun f => f.number == d.number) = true
    case pos =>
      rw [if_pos hnumber]
      exact ⟨.sameNumber (hsame.mp hnumber), hkept⟩
    rw [if_neg hnumber]
    replace hkept := hkept.next fun e he => by
      cases he with
      | sameNumber hbad => exact absurd (hsame.mpr hbad) hnumber
      | _ => simp [rank]
    by_cases hknown : (taken.any fun f => f.name == d.name) = true
    case pos =>
      rw [if_pos hknown]
      exact ⟨.sameName (hnames.mp hknown), hkept⟩
    rw [if_neg hknown]
    replace hkept := hkept.next fun e he => by
      cases he with
      | sameName hbad => exact absurd (hnames.mpr hbad) hknown
      | _ => simp [rank]
    exact ⟨by simp [Field.declaration, ← hkind], fits_of_keepsUpTo hkept⟩

/-- Taking sorted declarations ends with all of them, or at the first
    fault. -/
theorem acceptAll_spec (h : IsTaken taken) (sorted : ds.Pairwise fun d e => numberLE d e)
    (above : ∀ f ∈ taken, ∀ d ∈ ds, f.number ≤ d.number) (clear : IsClear (declarationsOf taken)) :
    match acceptAll taken ds with
    | .ok _ => IsClear (declarationsOf taken ++ ds)
    | .error e => FirstFault (declarationsOf taken ++ ds) e := by
  induction ds generalizing taken with
  | nil => simpa [acceptAll] using clear
  | cons d ds ih =>
    have aboveHead : ∀ f ∈ taken, f.number ≤ d.number := fun f hf => above f hf d List.mem_cons_self
    have hspec := accept_spec h aboveHead
    rw [acceptAll]
    cases haccept : accept taken d with
    | error e =>
      rw [haccept] at hspec
      exact ⟨declarationsOf taken, d, ds, rfl, clear, hspec⟩
    | ok f =>
      rw [haccept] at hspec
      obtain ⟨rfl, hfits⟩ := hspec
      have hmore : declarationsOf (f :: taken) = declarationsOf taken ++ [f.declaration] := by
        simp [declarationsOf]
      have hrest := ih (h.cons aboveHead haccept) (List.pairwise_cons.mp sorted).2 ?above ?clear
      · rwa [hmore, List.append_assoc] at hrest
      case above =>
        intro g hg e he
        rcases List.mem_cons.mp hg with rfl | hg
        · exact of_decide_eq_true ((List.pairwise_cons.mp sorted).1 e he)
        · exact above g hg e (List.mem_cons_of_mem _ he)
      case clear =>
        rw [hmore]
        exact isClear_concat.mpr ⟨clear, hfits⟩

end Taking

/-! ### The order of numbers -/

/-- The declarations in the order of their numbers, those of one number in
    the order in which they were made. -/
structure IsStableOrder (ds row : List Declaration) : Prop where
  perm : row.Perm ds
  rising : row.Pairwise fun d e => d.number ≤ e.number
  stable : ∀ number, row.filter (·.number = number) = ds.filter (·.number = number)

theorem numberLE_trans (d e f : Declaration) (h : numberLE d e = true) (k : numberLE e f = true) :
    numberLE d f = true :=
  decide_eq_true (UInt32.le_trans (of_decide_eq_true h) (of_decide_eq_true k))

theorem numberLE_total (d e : Declaration) : (numberLE d e || numberLE e d) = true := by
  simp only [numberLE, Bool.or_eq_true, decide_eq_true_eq]
  exact UInt32.le_total d.number e.number

theorem isStableOrder_sorted (b : Builder) : IsStableOrder b.declarations b.sorted where
  perm := b.sorted_perm
  rising := b.pairwise_sorted.imp fun h => of_decide_eq_true h
  stable number := by
    let same := b.declarations.filter (·.number = number)
    have hsame : same.Pairwise fun d e => numberLE d e := by
      refine List.pairwise_of_forall_mem_list fun d hd e he => ?_
      have hd' : d.number = number := of_decide_eq_true (List.mem_filter.mp hd).2
      have he' : e.number = number := of_decide_eq_true (List.mem_filter.mp he).2
      exact decide_eq_true (UInt32.le_of_eq (hd'.trans he'.symm))
    -- sorting leaves a row that is in order already as it is
    have hkept : same.Sublist b.sorted :=
      List.sublist_mergeSort numberLE_trans numberLE_total hsame List.filter_sublist
    have hfiltered : same.Sublist (b.sorted.filter (·.number = number)) := by
      have hself : same.filter (·.number = number) = same :=
        List.filter_eq_self.mpr fun d hd => (List.mem_filter.mp hd).2
      exact hself ▸ hkept.filter (·.number = number)
    have hlength := (b.sorted_perm.filter (·.number = number)).length_eq
    exact (hfiltered.eq_of_length hlength.symm).symm

/-- What a row has under each number decides where it begins. -/
theorem number_le_of_filter {d : Declaration} {row row' : List Declaration}
    (hrising : (d :: row).Pairwise fun d e => d.number ≤ e.number)
    (hfilter : ∀ number, (d :: row).filter (·.number = number) = row'.filter (·.number = number))
    {e : Declaration} (he : e ∈ row') : d.number ≤ e.number := by
  have hmem : e ∈ (d :: row).filter (·.number = e.number) := by
    rw [hfilter]
    exact List.mem_filter.mpr ⟨he, decide_eq_true rfl⟩
  rcases List.mem_cons.mp (List.mem_filter.mp hmem).1 with rfl | hrow
  · exact UInt32.le_refl _
  · exact (List.pairwise_cons.mp hrising).1 e hrow

/-- Rising rows with the same declarations under each number are the same. -/
theorem eq_of_rising {row row' : List Declaration}
    (hrising : row.Pairwise fun d e => d.number ≤ e.number)
    (hrising' : row'.Pairwise fun d e => d.number ≤ e.number)
    (hfilter : ∀ number, row.filter (·.number = number) = row'.filter (·.number = number)) :
    row = row' := by
  induction row generalizing row' with
  | nil =>
    refine (List.eq_nil_iff_forall_not_mem.mpr fun d hd => ?_).symm
    have hmem : d ∈ row'.filter (·.number = d.number) :=
      List.mem_filter.mpr ⟨hd, decide_eq_true rfl⟩
    rw [← hfilter] at hmem
    simp at hmem
  | cons d row ih =>
    cases row' with
    | nil =>
      have hempty := hfilter d.number
      simp at hempty
    | cons d' row' =>
      have hnumber : d'.number = d.number :=
        UInt32.le_antisymm
          (number_le_of_filter hrising' (fun number => (hfilter number).symm) List.mem_cons_self)
          (number_le_of_filter hrising hfilter List.mem_cons_self)
      have hheads := hfilter d.number
      simp only [List.filter_cons, hnumber, decide_true, if_true] at hheads
      obtain ⟨rfl, hsame⟩ := List.cons.inj hheads
      have hrest : ∀ number, row.filter (·.number = number) = row'.filter (·.number = number) := by
        intro number
        by_cases hd : d.number = number
        · rwa [← hd]
        · have htails := hfilter number
          simpa only [List.filter_cons, hd, decide_false, Bool.false_eq_true, if_false] using htails
      rw [ih (List.pairwise_cons.mp hrising).2 (List.pairwise_cons.mp hrising').2 hrest]

/-- There is one stable order. -/
theorem IsStableOrder.eq_sorted {b : Builder} {row : List Declaration}
    (h : IsStableOrder b.declarations row) : row = b.sorted :=
  eq_of_rising h.rising b.isStableOrder_sorted.rising fun number =>
    (h.stable number).trans (b.isStableOrder_sorted.stable number).symm

/-! ### Building -/

section Building

variable {b : Builder} {d : Descriptor} {e : SchemaError}

theorem build_of_refused (hname : isIdentifier b.name = true)
    (h : acceptAll [] b.sorted = .error e) : b.build = .error e := by
  rw [build, dif_pos hname]
  split
  · next e' htaken =>
    rw [htaken] at h
    exact congrArg Except.error (Except.error.inj h)
  · next fields htaken =>
    rw [htaken] at h
    contradiction

theorem build_of_taken (hname : isIdentifier b.name = true) {fields : List Field}
    (h : acceptAll [] b.sorted = .ok fields) : ∃ d, b.build = .ok d := by
  rw [build, dif_pos hname]
  split
  · next e htaken =>
    rw [htaken] at h
    contradiction
  · exact ⟨_, rfl⟩

/-- A message builds from a clear row, and else fails for its name or for
    the first fault of the row. -/
theorem build_spec (b : Builder) :
    match b.build with
    | .ok _ => IsIdentifier b.name ∧ IsClear b.sorted
    | .error e =>
      (¬ IsIdentifier b.name ∧ e = .invalidName b.name) ∨
        (IsIdentifier b.name ∧ FirstFault b.sorted e) := by
  have hspec := acceptAll_spec IsTaken.nil b.pairwise_sorted (by simp) isClear_nil
  by_cases hname : isIdentifier b.name = true
  · cases htaken : acceptAll [] b.sorted with
    | error e =>
      rw [htaken] at hspec
      rw [build_of_refused hname htaken]
      exact .inr ⟨isIdentifier_iff.mp hname, hspec⟩
    | ok fields =>
      rw [htaken] at hspec
      obtain ⟨d, hd⟩ := build_of_taken hname htaken
      rw [hd]
      exact ⟨isIdentifier_iff.mp hname, hspec⟩
  · rw [build, dif_neg hname]
    exact .inl ⟨mt isIdentifier_iff.mpr hname, rfl⟩

theorem exists_build_iff : (∃ d, b.build = .ok d) ↔ IsValid b.name b.declarations := by
  have hspec := b.build_spec
  constructor
  · rintro ⟨d, hd⟩
    rw [hd] at hspec
    exact ((isClear_iff_isValid hspec.1).mp hspec.2).perm b.sorted_perm.symm
  · intro h
    have hclear : IsClear b.sorted := (isClear_iff_isValid h.name).mpr (h.perm b.sorted_perm)
    cases hbuild : b.build with
    | ok d => exact ⟨d, rfl⟩
    | error e =>
      rw [hbuild] at hspec
      rcases hspec with ⟨hname, -⟩ | ⟨-, hfault⟩
      · exact absurd h.name hname
      · exact absurd hclear hfault.not_isClear

theorem build_eq_error_iff :
    b.build = .error e ↔
      (¬ IsIdentifier b.name ∧ e = .invalidName b.name) ∨
        (IsIdentifier b.name ∧ FirstFault b.sorted e) := by
  have hspec := b.build_spec
  constructor
  · intro h
    rwa [h] at hspec
  · intro h
    cases hbuild : b.build with
    | ok d =>
      rw [hbuild] at hspec
      rcases h with ⟨hname, -⟩ | ⟨-, hfault⟩
      · exact absurd hspec.1 hname
      · exact absurd hspec.2 hfault.not_isClear
    | error e' =>
      rw [hbuild] at hspec
      rcases h with ⟨hname, rfl⟩ | ⟨hname, hfault⟩
      · rcases hspec with ⟨-, rfl⟩ | ⟨hname', -⟩
        · rfl
        · exact absurd hname' hname
      · rcases hspec with ⟨hname', -⟩ | ⟨-, hfault'⟩
        · exact absurd hname hname'
        · rw [hfault.unique hfault']

theorem perm_of_build (h : b.build = .ok d) :
    (d.fields.toList.map Field.declaration).Perm b.declarations := by
  rw [(build_eq_ok h).2]
  exact b.sorted_perm

theorem declaration_injective : Function.Injective Field.declaration := by
  intro f g h
  cases f
  cases g
  simpa [Field.declaration] using h

/-- The same declarations in another order build the same descriptor. -/
theorem build_of_perm {b' : Builder} (h : b.build = .ok d) (hname : b'.name = b.name)
    (hperm : b'.declarations.Perm b.declarations) : b'.build = .ok d := by
  have hvalid : IsValid b'.name b'.declarations := by
    rw [hname]
    exact (exists_build_iff.mp ⟨d, h⟩).perm hperm
  obtain ⟨d', hd'⟩ := exists_build_iff.mpr hvalid
  have hsame : d'.fields.toList.Perm d.fields.toList := by
    apply (List.map_perm_map_iff declaration_injective).mp
    exact (perm_of_build hd').trans (hperm.trans (perm_of_build h).symm)
  -- rising rows of the same fields are the same row
  have hfields : d'.fields.toList = d.fields.toList := by
    refine hsame.eq_of_pairwise ?_ d'.isFieldSet.sorted d.isFieldSet.sorted
    intro f g _ _ hlt hgt
    exact absurd hgt (UInt32.lt_asymm hlt)
  have heq : d' = d := by
    apply Descriptor.ext
    · rw [(build_eq_ok hd').1, (build_eq_ok h).1, hname]
    · exact Array.toList_inj.mp hfields
  rw [hd', heq]

end Building

/-! ### Calls -/

/-- The builder after a sequence of calls, each of which declares one
    field. -/
def ofCalls (name : String) (ds : List Declaration) : Builder :=
  ds.foldl
    (fun b d =>
      if d.repeated then b.repeated d.number d.name d.kind else b.field d.number d.name d.kind)
    (new name)

/-- Calls are taken down as they are made. -/
theorem ofCalls_eq (name : String) (ds : List Declaration) :
    ofCalls name ds = { name, declarations := ds } := by
  have hcall : ∀ (b : Builder) (d : Declaration),
      (if d.repeated then b.repeated d.number d.name d.kind else b.field d.number d.name d.kind) =
        b.push d := by
    rintro b ⟨number, name, kind, repeated⟩
    cases repeated <;> rfl
  have hpushed : ∀ b : Builder,
      ds.foldl push b = { name := b.name, declarations := b.declarations ++ ds } := by
    induction ds with
    | nil => simp
    | cons d ds ih => simp [ih, push]
  unfold ofCalls
  simp only [hcall]
  exact hpushed (new name)

end Builder

/-- **Building is exact**: whatever fields are declared in whatever order,
    a message builds if and only if its declarations are valid.  The
    descriptor then has the declared fields and no others, by rising
    number, and any other order of the same calls builds the same one.

    Otherwise the message's own name is refused, or else the first
    declaration, in the stable order of the numbers, that breaks a rule
    given those before it; of the rules it breaks, the first. -/
theorem Builder.build_is_exact (name : String) (ds : List Declaration) :
    ((∃ d, (ofCalls name ds).build = .ok d) ↔ IsValid name ds) ∧
    (∀ d, (ofCalls name ds).build = .ok d →
      d.name = name ∧ (d.fields.toList.map Field.declaration).Perm ds ∧
      d.fields.toList.Pairwise (fun f g => f.number < g.number) ∧
      ∀ es, es.Perm ds → (ofCalls name es).build = .ok d) ∧
    (∀ e, (ofCalls name ds).build = .error e ↔
      (¬ IsIdentifier name ∧ e = .invalidName name) ∨
        (IsIdentifier name ∧ ∃ row, IsStableOrder ds row ∧ FirstFault row e)) := by
  refine ⟨?accepted, ?normal, ?refused⟩
  case accepted =>
    rw [ofCalls_eq]
    exact exists_build_iff
  case normal =>
    intro d h
    refine ⟨?_, ?_, d.isFieldSet.sorted, ?_⟩
    · rw [(build_eq_ok h).1, ofCalls_eq]
    · have hperm := perm_of_build h
      rwa [ofCalls_eq] at hperm
    · intro es hes
      rw [ofCalls_eq] at h ⊢
      exact build_of_perm h rfl hes
  case refused =>
    intro e
    rw [ofCalls_eq, build_eq_error_iff]
    have hrow : (∃ row, IsStableOrder ds row ∧ FirstFault row e) ↔
        FirstFault { name, declarations := ds : Builder }.sorted e := by
      constructor
      · rintro ⟨row, horder, hfault⟩
        exact IsStableOrder.eq_sorted (b := { name, declarations := ds }) horder ▸ hfault
      · exact fun hfault => ⟨_, isStableOrder_sorted { name, declarations := ds }, hfault⟩
    rw [hrow]

end EventCodec.Schema
