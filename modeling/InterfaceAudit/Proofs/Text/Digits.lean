import InterfaceAudit.Text.CharClass
import Mathlib.Data.Nat.Basic

/-!
Digits of written numbers.
-/

namespace InterfaceAudit.Text

variable {number : Nat} {c other : Char}

/-- A number is written with the ten ASCII digits. -/
theorem isAsciiDigit_of_mem_toDigits (member : c ∈ Nat.toDigits 10 number) :
    isAsciiDigit c = true := by
  have digit : c.isDigit = true := Nat.isDigit_of_mem_toDigits (by decide) (by decide) member
  rw [Char.isDigit, Bool.and_eq_true, decide_eq_true_eq, decide_eq_true_eq] at digit
  have least : '0' ≤ c := digit.1
  have most : c ≤ '9' := digit.2
  rw [isAsciiDigit, decide_eq_true least, decide_eq_true most]
  rfl

/-- The ASCII digits are digits. -/
theorem isDigit_of_isAsciiDigit (digit : isAsciiDigit c = true) : isDigit c = true := by
  have most : c ≤ '9' := by
    rw [isAsciiDigit, Bool.and_eq_true, decide_eq_true_eq, decide_eq_true_eq] at digit
    exact digit.2
  have small : c.toNat < 128 := Nat.lt_of_le_of_lt (show c.toNat ≤ 57 from most) (by decide)
  rw [isDigit, if_pos small, digit]

/-- A digit is none of the other characters. -/
theorem ne_of_digit (digit : isAsciiDigit c = true) (notDigit : isAsciiDigit other = false) :
    other ≠ c := by
  intro same
  rw [same, digit] at notDigit
  contradiction

/-- A number is written with at least one digit. -/
theorem exists_digit (number : Nat) :
    ∃ first others, Nat.toDigits 10 number = first :: others ∧ isAsciiDigit first = true := by
  obtain ⟨first, others, digits⟩ :=
    List.exists_cons_of_ne_nil (Nat.toDigits_ne_nil (n := number) (b := 10))
  have member : first ∈ Nat.toDigits 10 number := by
    rw [digits]
    exact List.mem_cons_self
  exact ⟨first, others, digits, isAsciiDigit_of_mem_toDigits member⟩

/-- The digits of a number that is not zero do not begin with a zero. -/
theorem head_toDigits_ne_zero (positive : 0 < number) :
    (Nat.toDigits 10 number).head? ≠ some '0' := by
  induction number using Nat.strongRecOn with
  | ind number inductionHypothesis =>
    rw [Nat.toDigits_eq_if (by decide)]
    split
    · next small =>
      have notZero : ∀ digit < 10, 0 < digit → some (Nat.digitChar digit) ≠ some '0' := by decide
      exact notZero number small positive
    · next large =>
      obtain ⟨first, others, digits, -⟩ := exists_digit (number / 10)
      have notZero := inductionHypothesis (number / 10) (by omega) (by omega)
      rw [digits] at notZero ⊢
      exact notZero

end InterfaceAudit.Text
