import Mathlib.Data.List.Basic
import Mathlib.Tactic.Ring
import ReportQuery.Proofs.Text.Scan
import ReportQuery.Text.Digits

set_option autoImplicit false
set_option relaxedAutoImplicit false

/-!
Numbers written in decimal digits and read back. The digits of a number have no zeros in front, so no text
of the number is shorter.
-/

namespace ReportQuery.Text

variable {c : Char} {cs digits : List Char} {n width : Nat}

theorem isAsciiDigit_iff : isAsciiDigit c ↔ 48 ≤ c.toNat ∧ c.toNat ≤ 57 := by
  rw [isAsciiDigit, Bool.and_eq_true, decide_eq_true_eq, decide_eq_true_eq]
  exact Iff.rfl

/-- In ASCII every digit is its own ASCII digit. -/
theorem toAsciiDigit_of_ascii (ascii : c.toNat < 0x80) : toAsciiDigit c = c := by
  rw [toAsciiDigit, digitValue?, if_pos ascii]
  by_cases digit : isAsciiDigit c
  · have low := (isAsciiDigit_iff.mp digit).1
    have whole : c.toNat - '0'.toNat + '0'.toNat = c.toNat := Nat.sub_add_cancel low
    rw [if_pos digit]
    dsimp only
    rw [asciiDigit, whole, Char.ofNat_toNat]
  · rw [if_neg digit]

theorem map_toAsciiDigit (ascii : ∀ c ∈ cs, c.toNat < 0x80) : cs.map toAsciiDigit = cs :=
  (List.map_congr_left fun c member => toAsciiDigit_of_ascii (ascii c member)).trans (List.map_id cs)

theorem digitsValue_eq (digits : List Char) : digitsValue digits = Nat.ofDigitChars 10 digits 0 := rfl

theorem digitsOf_ne_nil (n : Nat) : digitsOf n ≠ [] :=
  Nat.toDigits_ne_nil

theorem isAsciiDigit_of_mem_digitsOf (member : c ∈ digitsOf n) : isAsciiDigit c :=
  isAsciiDigit_iff.mpr
    (Char.isDigit_iff_toNat.mp (Nat.isDigit_of_mem_toDigits (by decide) le_rfl member))

/-- The digits of a number are read back. -/
theorem digitsValue_digitsOf (n : Nat) : digitsValue (digitsOf n) = n :=
  Nat.ofDigitChars_ten_toDigits

/-- Zeros in front do not count. -/
theorem digitsValue_zeros (count : Nat) (digits : List Char) :
    digitsValue (List.replicate count '0' ++ digits) = digitsValue digits := by
  rw [digitsValue_eq, Nat.ofDigitChars_append, Nat.ofDigitChars_replicate_zero, Nat.mul_zero]
  rfl

theorem digitsValue_lt (digital : ∀ c ∈ digits, isAsciiDigit c) :
    digitsValue digits < 10 ^ digits.length := by
  induction digits with
  | nil => decide
  | cons c digits ih =>
    obtain ⟨first, later⟩ := List.forall_mem_cons.mp digital
    have small : c.toNat - '0'.toNat ≤ 9 := Nat.sub_le_sub_right (isAsciiDigit_iff.mp first).2 48
    have value : digitsValue (c :: digits) =
        10 ^ digits.length * (c.toNat - '0'.toNat) + digitsValue digits := by
      rw [digitsValue_eq, Nat.ofDigitChars_cons, Nat.ofDigitChars_eq_ofDigitChars_zero, Nat.mul_zero,
        Nat.zero_add, digitsValue_eq]
    calc digitsValue (c :: digits)
        = 10 ^ digits.length * (c.toNat - '0'.toNat) + digitsValue digits := value
      _ < 10 ^ digits.length * (c.toNat - '0'.toNat) + 10 ^ digits.length := by
        exact Nat.add_lt_add_left (ih later) _
      _ ≤ 10 ^ digits.length * 9 + 10 ^ digits.length :=
        Nat.add_le_add_right (Nat.mul_le_mul_left _ small) _
      _ = 10 ^ (c :: digits).length := by rw [List.length_cons, pow_succ]; ring

/-- The digits of a number are no more than those it was read from. -/
theorem length_digitsOf_digitsValue_le (digital : ∀ c ∈ digits, isAsciiDigit c) (nonempty : digits ≠ []) :
    (digitsOf (digitsValue digits)).length ≤ digits.length :=
  (Nat.length_toDigits_le_iff (by decide) (List.length_pos_iff.mpr nonempty)).mpr
    (digitsValue_lt digital)

section Padded

theorem isAsciiDigit_of_mem_padded (member : c ∈ padded width n) : isAsciiDigit c := by
  rcases List.mem_append.mp member with zero | digit
  · rw [List.eq_of_mem_replicate zero]
    decide
  · exact isAsciiDigit_of_mem_digitsOf digit

theorem digitsValue_padded (width n : Nat) : digitsValue (padded width n) = n := by
  rw [padded, digitsValue_zeros, digitsValue_digitsOf]

/-- A number is led by zeros up to the width if it fits. -/
theorem length_padded (positive : 0 < width) (fits : n < 10 ^ width) :
    (padded width n).length = width := by
  have short : (digitsOf n).length ≤ width :=
    (Nat.length_toDigits_le_iff (by decide) positive).mpr fits
  rw [padded, List.length_append, List.length_replicate]
  omega

end Padded

end ReportQuery.Text
