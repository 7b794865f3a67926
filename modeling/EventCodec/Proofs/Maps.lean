import EventCodec.Ordered
import EventCodec.Table

/-! # What is found in a map after a change

    A change under one key is seen under that key and under no other.
    This holds whatever the order of the entries; that the keys of an
    ordered map rise is needed only to tell its entries from what is
    found in it.

    Where no key stands twice, an entry is alone under its key
    (`filter_of_distinct`) and so is the one that is found by it. -/

namespace EventCodec

/-! ### Rows with a key -/

section Keys

variable {α κ : Type} [BEq κ] [LawfulBEq κ] {key : α → κ} {row : List α} {a : α}

/-- Where no key stands twice, an entry is alone under its own. -/
theorem filter_of_distinct (h : row.Pairwise fun b c => key b ≠ key c) (ha : a ∈ row) :
    row.filter (fun b => key b == key a) = [a] := by
  induction row with
  | nil => simp at ha
  | cons b row ih =>
    obtain ⟨hdiffer, hrow⟩ := List.pairwise_cons.mp h
    rcases List.mem_cons.mp ha with rfl | ha
    · have hnone : row.filter (fun b => key b == key a) = [] := by
        simpa using fun b hb => (hdiffer b hb).symm
      rw [List.filter_cons_of_pos (by simp), hnone]
    · rw [List.filter_cons_of_neg (by simpa using hdiffer a ha), ih hrow ha]

/-- Where no key stands twice, an entry is found by its own. -/
theorem find?_of_distinct (h : row.Pairwise fun b c => key b ≠ key c) (ha : a ∈ row) :
    row.find? (fun b => key b == key a) = some a := by
  rw [← List.head?_filter, filter_of_distinct h ha, List.head?_singleton]

end Keys

/-! ### Maps in no particular order -/

namespace Table

variable {κ α : Type} [DecidableEq κ] {entries : List (κ × α)} {key : κ} {value : α}

theorem get?_erase (other : κ) :
    get? other (erase key entries) = if other = key then none else get? other entries := by
  unfold get? erase
  rw [List.find?_filter]
  split
  · next heq =>
    subst heq
    simp
  · next hne =>
    congr 2
    funext e
    by_cases he : e.1 = other
    · simp [he, hne]
    · simp [he]

theorem erase_eq_filter : erase key entries = entries.filter fun e => ¬ e.1 = key := by
  apply List.filter_congr
  intro e _
  rw [Bool.eq_iff_iff]
  simp

theorem get?_append (other : List (κ × α)) :
    get? key (entries ++ other) = (get? key entries).or (get? key other) := by
  unfold get?
  rw [List.find?_append]
  cases List.find? (fun e => e.1 == key) entries <;> rfl

theorem get?_insert (other : κ) :
    get? other (insert key value entries) =
      if other = key then some value else get? other entries := by
  rw [insert, get?_append, get?_erase]
  split
  · next heq =>
    subst heq
    simp [get?]
  · next hne =>
    have hsingle : get? other [(key, value)] = none := by simp [get?, Ne.symm hne]
    rw [hsingle, Option.or_none]

/-- Where no key occurs twice, what is found is an entry, and each entry is
    found. -/
theorem get?_eq_some_iff (h : (entries.map Prod.fst).Nodup) :
    get? key entries = some value ↔ (key, value) ∈ entries := by
  induction entries with
  | nil => simp [get?]
  | cons e rest ih =>
    obtain ⟨hhead, htail⟩ := List.nodup_cons.mp h
    unfold get? at ih ⊢
    by_cases he : e.1 = key
    -- none of the other entries has the key
    · have hrest : (key, value) ∉ rest := fun hmem => hhead (he ▸ List.mem_map_of_mem hmem)
      rw [List.find?_cons_of_pos (by simpa using he)]
      simp only [Option.map_some, Option.some.injEq, List.mem_cons, hrest, or_false]
      rw [← he]
      exact ⟨fun h => by rw [← h], fun h => by rw [← h]⟩
    · rw [List.find?_cons_of_neg (by simpa using he), ih htail]
      have hne : (key, value) ≠ e := fun heq => he (heq ▸ rfl)
      simp [hne]

/-- A key that is not there has no entry to remove. -/
theorem erase_eq_self (h : get? key entries = none) : erase key entries = entries := by
  rw [get?, Option.map_eq_none_iff, List.find?_eq_none] at h
  refine List.filter_eq_self.mpr fun e he => ?_
  have hne := h e he
  simpa using hne

/-- What was put in under a new key can be taken out again. -/
theorem erase_insert (h : get? key entries = none) : erase key (insert key value entries) = entries := by
  have herase : erase key entries = entries := erase_eq_self h
  rw [insert, herase, erase, List.filter_append]
  have hsingle : [(key, value)].filter (fun e => e.1 != key) = [] := by simp
  rw [hsingle, List.append_nil]
  exact herase

end Table

/-! ### Maps with rising keys -/

namespace Ordered

variable {α : Type} {entries : List (String × α)} {key : String} {value : α}

theorem get?_insert (other : String) :
    get? other (insert key value entries) =
      if other = key then some value else get? other entries := by
  -- the entries before the place of the key have other keys
  induction entries with
  | nil =>
    by_cases h : other = key
    · simp [insert, get?, h]
    · simp [insert, get?, h, Ne.symm h]
  | cons e rest ih =>
    unfold get? at ih ⊢
    rw [insert]
    split
    · by_cases h : other = key
      · simp [h]
      · simp [h, Ne.symm h]
    · split
      · next hkey =>
        by_cases h : other = key
        · simp [h]
        · simp [h, Ne.symm h, ← hkey]
      · next hkey =>
        by_cases h : e.1 = other
        · have hne : other ≠ key := fun heq => hkey (heq ▸ h.symm)
          simp [h, hne]
        · rw [List.find?_cons_of_neg (by simpa using h), List.find?_cons_of_neg (by simpa using h)]
          exact ih

theorem get?_erase (other : String) :
    get? other (erase key entries) = if other = key then none else get? other entries :=
  Table.get?_erase other

/-- The keys rise. -/
def IsSorted (entries : List (String × α)) : Prop :=
  entries.Pairwise fun e f => e.1 < f.1

theorem IsSorted.nil : IsSorted ([] : List (String × α)) :=
  List.Pairwise.nil

theorem mem_insert {e : String × α} (h : e ∈ insert key value entries) :
    e = (key, value) ∨ e ∈ entries := by
  induction entries with
  | nil => simpa [insert] using h
  | cons f rest ih =>
    rw [insert] at h
    split at h
    · simpa using h
    · split at h
      · rcases List.mem_cons.mp h with h | h
        · exact .inl h
        · exact .inr (List.mem_cons_of_mem _ h)
      · rcases List.mem_cons.mp h with h | h
        · exact .inr (h ▸ List.mem_cons_self)
        · rcases ih h with h | h
          · exact .inl h
          · exact .inr (List.mem_cons_of_mem _ h)

theorem IsSorted.insert (h : IsSorted entries) : IsSorted (insert key value entries) := by
  induction h with
  | nil => exact List.pairwise_singleton _ _
  | @cons e rest hhead htail ih =>
    rw [Ordered.insert]
    split
    · next hlt =>
      refine .cons ?_ (.cons hhead htail)
      intro f hf
      rcases List.mem_cons.mp hf with rfl | hf
      · exact hlt
      · exact String.lt_trans hlt (hhead f hf)
    · next hge =>
      split
      · next heq => exact .cons (heq ▸ hhead) htail
      · next hne =>
        have hlt : e.1 < key := Std.lt_of_le_of_ne (String.not_lt.mp hge) (Ne.symm hne)
        refine .cons ?_ ih
        intro f hf
        rcases mem_insert hf with rfl | hf
        · exact hlt
        · exact hhead f hf

theorem IsSorted.erase (h : IsSorted entries) : IsSorted (erase key entries) :=
  List.Pairwise.filter _ h

/-- What was put in under a new key can be taken out again. -/
theorem erase_insert (h : get? key entries = none) : erase key (insert key value entries) = entries := by
  induction entries with
  | nil => simp [insert, erase]
  | cons e rest ih =>
    have hne : e.1 ≠ key := by
      intro heq
      simp [get?, heq] at h
    have hrest : get? key rest = none := by
      unfold get? at h ⊢
      rwa [List.find?_cons_of_neg (by simpa using hne)] at h
    have herase : erase key (e :: rest) = e :: rest := Table.erase_eq_self h
    rw [insert]
    split
    · -- in front of the others
      show List.filter (fun f => f.1 != key) ((key, value) :: e :: rest) = e :: rest
      rw [List.filter_cons_of_neg (by simp)]
      exact herase
    · rw [if_neg (Ne.symm hne)]
      show List.filter (fun f => f.1 != key) (e :: insert key value rest) = e :: rest
      rw [List.filter_cons_of_pos (by simpa using hne)]
      exact congrArg (e :: ·) (ih hrest)

/-- What is found is an entry, and each entry is found. -/
theorem get?_eq_some_iff (h : IsSorted entries) :
    get? key entries = some value ↔ (key, value) ∈ entries := by
  induction h with
  | nil => simp [get?]
  | @cons e rest hhead _ ih =>
    unfold get? at ih ⊢
    by_cases he : e.1 = key
    -- the keys rise, so none of the later entries has this one
    · have hrest : (key, value) ∉ rest := by
        intro hmem
        have hlt := hhead (key, value) hmem
        rw [he] at hlt
        exact String.lt_irrefl key hlt
      rw [List.find?_cons_of_pos (by simpa using he)]
      simp only [Option.map_some, Option.some.injEq, List.mem_cons, hrest, or_false]
      rw [← he]
      exact ⟨fun h => by rw [← h], fun h => by rw [← h]⟩
    · rw [List.find?_cons_of_neg (by simpa using he), ih]
      have hne : (key, value) ≠ e := fun heq => he (heq ▸ rfl)
      simp [hne]

end Ordered

end EventCodec
