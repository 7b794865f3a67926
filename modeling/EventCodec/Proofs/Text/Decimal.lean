import EventCodec.Text.Decimal

/-! # Decimal numbers come back

    The digits of a number are read as that number, provided it is below
    the bound. -/

namespace EventCodec.Text

theorem isDigit_eq (c : Char) : isDigit c = c.isDigit := rfl

/-- What holds of the ten digits. -/
theorem forall_isDigit {P : Char → Prop} (hall : ∀ k : Fin 10, P (Char.ofNat (48 + k))) {c : Char}
    (h : isDigit c = true) : P c := by
  simp only [isDigit, Bool.and_eq_true, decide_eq_true_eq, Char.le_def, UInt32.le_iff_toNat_le] at h
  have hlow : 48 ≤ c.toNat := h.1
  have hhigh : c.toNat ≤ 57 := h.2
  have hdigit := hall ⟨c.toNat - 48, by omega⟩
  dsimp only at hdigit
  rwa [Nat.add_sub_cancel' hlow, Char.ofNat_toNat] at hdigit

theorem digitsValue_eq (digits : List Char) (soFar : Nat) :
    digitsValue soFar digits = Nat.ofDigitChars 10 digits soFar := by
  induction digits generalizing soFar with
  | nil => rfl
  | cons c cs ih =>
    have hstep : soFar * 10 + digitValue c = 10 * soFar + (c.toNat - '0'.toNat) := by
      rw [digitValue, Nat.mul_comm]
    rw [Nat.ofDigitChars_cons, ← hstep, ← ih]
    rfl

theorem isDigit_of_mem_toString {n : Nat} {c : Char} (h : c ∈ (toString n).toList) :
    isDigit c = true := by
  rw [Nat.toString_eq_ofList_toDigits, String.toList_ofList] at h
  rw [isDigit_eq]
  exact Nat.isDigit_of_mem_toDigits (by decide) (by decide) h

theorem digitsValue_toString (n : Nat) : digitsValue 0 (toString n).toList = n := by
  rw [digitsValue_eq, Nat.toString_eq_ofList_toDigits, String.toList_ofList]
  exact Nat.ofDigitChars_toDigits (by decide) (by decide)

/-- Only zero is written with a zero in front. -/
theorem head?_toString {n : Nat} (h : 0 < n) : (toString n).toList.head? ≠ some '0' := by
  rw [Nat.toString_eq_ofList_toDigits, String.toList_ofList]
  -- the first digit is that of the number without its last one
  induction n using Nat.strongRecOn with
  | ind n ih =>
    by_cases hsmall : n < 10
    · have hdigit : ∀ k : Fin 10, 0 < k.val → k.val.digitChar ≠ '0' := by decide
      rw [Nat.toDigits_of_lt_base hsmall, List.head?_cons]
      intro heq
      exact hdigit ⟨n, hsmall⟩ h (Option.some.inj heq)
    · have hhead := ih (n / 10) (by omega) (by omega)
      rw [Nat.toDigits_of_base_le (by decide) (by omega)]
      cases hdigits : Nat.toDigits 10 (n / 10) with
      | nil => exact absurd hdigits Nat.toDigits_ne_nil
      | cons c tail =>
        rw [hdigits] at hhead
        exact hhead

/-- A number that fits is read back from its decimal text. -/
theorem readDigits?_toString {bound n : Nat} (h : n < bound) :
    readDigits? bound (toString n).toList = some n := by
  have hall : (toString n).toList.all isDigit = true :=
    List.all_eq_true.mpr fun c hc => isDigit_of_mem_toString hc
  have hempty : (toString n).toList.isEmpty = false := by
    simp
  simp only [readDigits?, hempty, hall, digitsValue_toString, if_pos h]
  rfl

theorem readNat?_toString {bound n : Nat} (h : n < bound) :
    readNat? bound (toString n).toList = some n := by
  unfold readNat?
  split
  · next digits hsign =>
    -- no digit is a sign
    have hdigit := isDigit_of_mem_toString (n := n) (c := '+') (by rw [hsign]; exact List.mem_cons_self)
    contradiction
  · exact readDigits?_toString h

end EventCodec.Text
