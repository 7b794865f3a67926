import EventCodec.Proofs.Maps
import EventCodec.Proofs.Schema.Descriptor
import Mathlib.Algebra.Group.Nat.Defs

/-! # Looking a field up

    Bisection finds what going through the fields one by one finds
    (`field?_eq_find?`): no number and no name stands twice, so a field
    is alone under either (`filter_of_distinct`).

    `search` may assume that its positions are the array's and that there
    are fewer of them each time.  Here it is taken apart into single looks
    that assume neither (`Bisection.look`): the array is asked for a
    position that it may not have, and nothing makes the looking stop.
    Two facts about one look are carried along all of them: the positions
    stay inside the array and `search` returns for them what it returned
    before (`Leads.look`), and at most half of them are left
    (`width_look`).  Neither depends on the order of the fields. -/

namespace EventCodec.Schema

/-! ### Single looks -/

/-- Where a bisection stands. -/
inductive Bisection where
  /-- The positions from `low` up to before `high` are left. -/
  | looking (low high : Nat)
  /-- The field is at this position. -/
  | found (position : Nat)
  /-- The array was asked for a position that it does not have. -/
  | outside (position : Nat)
deriving DecidableEq, Repr

namespace Bisection

/-- One look at the middle of what is left, wherever that is. -/
def look (fields : Array Field) (number : UInt32) : Bisection → Bisection
  | .looking low high =>
    if low < high then
      let middle := low + (high - low) / 2
      match fields[middle]? with
      | none => .outside middle
      | some f =>
        if f.number = number then .found middle
        else if f.number < number then .looking (middle + 1) high
        else .looking low middle
    else .looking low high
  | .found position => .found position
  | .outside position => .outside position

/-- A bisection of all fields after so many looks. -/
def after (fields : Array Field) (number : UInt32) : Nat → Bisection
  | 0 => .looking 0 fields.size
  | looks + 1 => look fields number (after fields number looks)

/-- How many positions are left. -/
def width : Bisection → Nat
  | .looking low high => high - low
  | .found _ => 0
  | .outside _ => 0

/-- A bisection inside the array from which `search` returns this. -/
inductive Leads (fields : Array Field) (number : UInt32) (answer : Option Field) :
    Bisection → Prop where
  | looking {low high : Nat} (bound : high ≤ fields.size) :
      Descriptor.search fields number low high bound = answer →
      Leads fields number answer (.looking low high)
  | found {position : Nat} (inside : position < fields.size) :
      some fields[position] = answer → Leads fields number answer (.found position)

/-- How a bisection has to end, given what is to be found: at a position of
    the array, or with no position left. -/
def Ends (fields : Array Field) (answer : Option Field) : Bisection → Prop
  | .looking low high => high ≤ low ∧ answer = none
  | .found position => ∃ inside : position < fields.size, answer = some fields[position]
  | .outside _ => False

section Looks

variable {fields : Array Field} {number : UInt32} {answer : Option Field} {b : Bisection}

/-- A look inside the array. -/
theorem look_eq {low high : Nat} (hlt : low < high)
    (inside : low + (high - low) / 2 < fields.size) :
    look fields number (.looking low high) =
      if fields[low + (high - low) / 2].number = number then .found (low + (high - low) / 2)
      else if fields[low + (high - low) / 2].number < number then
        .looking (low + (high - low) / 2 + 1) high
      else .looking low (low + (high - low) / 2) := by
  simp only [look, if_pos hlt, Array.getElem?_eq_getElem inside]

/-- One look neither leaves the array nor changes what is found. -/
theorem Leads.look (h : Leads fields number answer b) :
    Leads fields number answer (b.look fields number) := by
  cases h with
  | found inside hanswer => exact .found inside hanswer
  | @looking low high bound hanswer =>
    by_cases hlt : low < high
    · have inside : low + (high - low) / 2 < fields.size := by omega
      rw [Descriptor.search, dif_pos hlt] at hanswer
      rw [look_eq hlt inside]
      by_cases hnumber : fields[low + (high - low) / 2].number = number
      · rw [if_pos hnumber] at hanswer ⊢
        exact .found inside hanswer
      rw [if_neg hnumber] at hanswer ⊢
      by_cases hless : fields[low + (high - low) / 2].number < number
      · rw [if_pos hless] at hanswer ⊢
        exact .looking bound hanswer
      · rw [if_neg hless] at hanswer ⊢
        exact .looking (Nat.le_of_lt inside) hanswer
    · -- nothing is left to look at
      rw [Bisection.look, if_neg hlt]
      exact .looking bound hanswer

theorem leads_after (fields : Array Field) (number : UInt32) (looks : Nat) :
    Leads fields number (Descriptor.search fields number 0 fields.size (Nat.le_refl _))
      (after fields number looks) := by
  induction looks with
  | zero => exact .looking (Nat.le_refl _) rfl
  | succ looks ih => exact ih.look

/-- One look leaves at most half of the positions. -/
theorem width_look (fields : Array Field) (number : UInt32) (b : Bisection) :
    (b.look fields number).width ≤ b.width / 2 := by
  cases b with
  | found | outside => exact Nat.zero_le _
  | looking low high =>
    by_cases hlt : low < high
    · simp only [look, if_pos hlt]
      cases fields[low + (high - low) / 2]? with
      | none => exact Nat.zero_le _
      | some f =>
        dsimp only
        split
        · exact Nat.zero_le _
        -- what lies behind the middle, or what lies before it
        split <;> simp only [width] <;> omega
    · have hnone : high - low = 0 := Nat.sub_eq_zero_of_le (Nat.le_of_not_lt hlt)
      simp only [look, if_neg hlt, width, hnone, Nat.zero_div, Nat.le_refl]

theorem width_after (fields : Array Field) (number : UInt32) (looks : Nat) :
    (after fields number looks).width ≤ fields.size / 2 ^ looks := by
  induction looks with
  | zero => simp [after, width]
  | succ looks ih =>
    calc (after fields number (looks + 1)).width
        ≤ (after fields number looks).width / 2 := width_look fields number _
      _ ≤ fields.size / 2 ^ looks / 2 := Nat.div_le_div_right ih
      _ = fields.size / 2 ^ (looks + 1) := by rw [Nat.div_div_eq_div_mul, Nat.pow_succ]

/-- With no position left a bisection has ended. -/
theorem Leads.ends (h : Leads fields number answer b) (hwidth : b.width = 0) :
    b.Ends fields answer := by
  cases h with
  | found inside hanswer => exact ⟨inside, hanswer.symm⟩
  | @looking low high bound hanswer =>
    have hle : high ≤ low := Nat.le_of_sub_eq_zero hwidth
    rw [Descriptor.search, dif_neg (Nat.not_lt.mpr hle)] at hanswer
    exact ⟨hle, hanswer.symm⟩

end Looks

end Bisection

/-! ### One by one -/

namespace Descriptor

variable {d : Descriptor}

theorem numbers_differ (d : Descriptor) :
    d.fields.toList.Pairwise fun f g => f.number ≠ g.number :=
  d.isFieldSet.sorted.imp UInt32.ne_of_lt

/-- Bisection finds what a search from the first field on finds. -/
theorem field?_eq_find? (d : Descriptor) (number : UInt32) :
    d.field? number = d.fields.toList.find? fun f => f.number == number := by
  cases hfield : d.field? number with
  | none =>
    have hnone := field?_eq_none_iff.mp hfield
    exact (List.find?_eq_none.mpr (by simpa using hnone)).symm
  | some f =>
    obtain ⟨hf, rfl⟩ := field?_eq_some_iff.mp hfield
    exact (find?_of_distinct d.numbers_differ hf).symm

theorem fieldByName?_of_mem {f : Field} (hf : f ∈ d.fields.toList) :
    d.fieldByName? f.name = some f := by
  rw [fieldByName?, ← Array.find?_toList]
  exact find?_of_distinct d.isFieldSet.names hf

/-- **Bisection is a linear search**: for every descriptor, wherever it
    comes from, and every number, bisection finds what a search from the
    first field on finds: the field that has the number, if there is one.
    No other field has it, and by its name the same field is found.
    Nothing is asked of the descriptor, since each is one that building
    returns (`build_declared`).

    Taken look by look, bisection never asks for a position that the
    descriptor does not have.  It is over after as many looks as the
    count of the fields has binary digits: it has come to the position of
    the field, or no position is left and there is no such field. -/
theorem lookup_is_linear_search (d : Descriptor) (number : UInt32) :
    (d.field? number = d.fields.toList.find? fun f => f.number == number) ∧
    (∀ f, d.field? number = some f ↔ f ∈ d.fields.toList ∧ f.number = number) ∧
    (∀ f, d.field? number = some f →
      d.fields.toList.filter (fun g => g.number == number) = [f] ∧
      d.fieldByName? f.name = some f) ∧
    (∀ looks position, Bisection.after d.fields number looks ≠ .outside position) ∧
    (∀ looks, d.fields.size < 2 ^ looks →
      (Bisection.after d.fields number looks).Ends d.fields (d.field? number)) := by
  refine ⟨field?_eq_find? d number, fun f => field?_eq_some_iff, ?alone, ?inside, ?ends⟩
  case alone =>
    intro f hfield
    obtain ⟨hf, rfl⟩ := field?_eq_some_iff.mp hfield
    exact ⟨filter_of_distinct d.numbers_differ hf, fieldByName?_of_mem hf⟩
  case inside =>
    intro looks position hafter
    have hleads := Bisection.leads_after d.fields number looks
    rw [hafter] at hleads
    cases hleads
  case ends =>
    intro looks hlooks
    have hwidth : (Bisection.after d.fields number looks).width = 0 := by
      have hle := Bisection.width_after d.fields number looks
      rwa [Nat.div_eq_of_lt hlooks, Nat.le_zero] at hle
    exact (Bisection.leads_after d.fields number looks).ends hwidth

end Descriptor

end EventCodec.Schema
