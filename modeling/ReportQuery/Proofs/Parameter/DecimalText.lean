import ReportQuery.Parameter.Decimal
import ReportQuery.Proofs.Text.Digits

set_option autoImplicit false
set_option relaxedAutoImplicit false

/-!
The scientific text of a decimal number reads back as the number, with its exponent and its trailing zeros.
-/

namespace ReportQuery.Parameter

open Text (isAsciiDigit isAsciiDigit_iff digitsValue digitsOf digitsOf_ne_nil digitsValue_digitsOf
  digitsValue_zeros isAsciiDigit_of_mem_digitsOf toAsciiDigit map_toAsciiDigit takeWhile_append_stop)

/-- A character of the text of a number: a digit, a sign, a point or the mark of an exponent. -/
def IsNumeral (c : Char) : Prop :=
  isAsciiDigit c ∨ c ∈ ['-', '+', '.', 'E']

theorem IsNumeral.toNat_lt {c : Char} (numeral : IsNumeral c) : c.toNat < 0x80 := by
  rcases numeral with digit | mark
  · exact Nat.lt_of_le_of_lt (isAsciiDigit_iff.mp digit).2 (by decide)
  · simp only [List.mem_cons, List.not_mem_nil, or_false] at mark
    rcases mark with rfl | rfl | rfl | rfl <;> decide

theorem IsNumeral.ne_underscore {c : Char} (numeral : IsNumeral c) : c ≠ '_' := by
  rintro rfl
  exact absurd numeral (by unfold IsNumeral; decide)

namespace Decimal

variable {negative : Bool} {number : Decimal} {whole fraction tail cs : List Char} {exponent : Int}

theorem readSign_of_digit (digit : ∀ c ∈ cs.head?, isAsciiDigit c) : readSign cs = (false, cs) := by
  cases cs with
  | nil => rfl
  | cons c cs =>
    have first := digit c rfl
    unfold readSign
    split
    · rename_i same
      obtain ⟨rfl, -⟩ := List.cons.inj same
      exact absurd first (by decide)
    · rename_i same
      obtain ⟨rfl, -⟩ := List.cons.inj same
      exact absurd first (by decide)
    · rfl

/-- A sign is read back before a digit. -/
theorem readSign_signText (digit : ∀ c ∈ cs.head?, isAsciiDigit c) :
    readSign (signText negative ++ cs) = (negative, cs) := by
  cases negative with
  | true => rfl
  | false => exact readSign_of_digit digit

/-- The text of a fraction, if there is one. -/
def fractionText : List Char → List Char
  | [] => []
  | c :: cs => '.' :: c :: cs

/-- The digits behind a point, if there is one, and what follows them. -/
def splitFraction : List Char → List Char × List Char
  | '.' :: cs => (cs.takeWhile isAsciiDigit, cs.dropWhile isAsciiDigit)
  | cs => ([], cs)

theorem readAscii?_eq (cs : List Char) :
    readAscii? cs =
      let unsigned := (readSign cs).2
      let (fraction, rest) := splitFraction (unsigned.dropWhile isAsciiDigit)
      if (unsigned.takeWhile isAsciiDigit).isEmpty && fraction.isEmpty then none
      else
        (readExponent? rest).map fun exponent =>
          ⟨(readSign cs).1, digitsValue (unsigned.takeWhile isAsciiDigit ++ fraction),
            exponent - fraction.length⟩ := rfl

/-- The digits of a fraction are read up to the mark of an exponent. -/
theorem splitFraction_fractionText (digital : ∀ c ∈ fraction, isAsciiDigit c)
    (ends : ∀ c ∈ tail.head?, c = 'E') :
    splitFraction (fractionText fraction ++ tail) = (fraction, tail) := by
  have stop : ∀ c ∈ tail.head?, isAsciiDigit c = false := by
    intro c first
    rw [ends c first]
    rfl
  cases fraction with
  | nil =>
    rw [fractionText, List.nil_append]
    unfold splitFraction
    split
    · exact absurd (ends '.' rfl) (by decide)
    · rfl
  | cons c fraction =>
    obtain ⟨taken, left⟩ := takeWhile_append_stop digital stop
    rw [fractionText, List.cons_append, splitFraction, taken, left]

/-- How a number can be written: digits, a fraction and an exponent, with its value. -/
structure IsLayout (number : Decimal) (whole fraction tail : List Char) (exponent : Int) : Prop where
  nonempty : whole ≠ []
  digital : ∀ c ∈ whole ++ fraction, isAsciiDigit c
  ends : ∀ c ∈ tail.head?, c = 'E'
  numeral : ∀ c ∈ tail, IsNumeral c
  read : readExponent? tail = some exponent
  coefficient : digitsValue (whole ++ fraction) = number.coefficient
  places : exponent - fraction.length = number.exponent

/-- The text of a layout, with the sign of the number. -/
def layoutText (number : Decimal) (whole fraction tail : List Char) : List Char :=
  signText number.negative ++ (whole ++ (fractionText fraction ++ tail))

theorem IsLayout.head (layout : IsLayout number whole fraction tail exponent) :
    ∀ c ∈ (whole ++ (fractionText fraction ++ tail)).head?, isAsciiDigit c := by
  intro c first
  obtain ⟨d, ds, rfl⟩ := List.exists_cons_of_ne_nil layout.nonempty
  obtain rfl : d = c := Option.some.inj first
  exact layout.digital d (by simp)

theorem IsLayout.isNumeral (layout : IsLayout number whole fraction tail exponent) :
    ∀ c ∈ layoutText number whole fraction tail, IsNumeral c := by
  have sign : ∀ c ∈ signText number.negative, IsNumeral c := by
    intro c member
    cases negative : number.negative with
    | true =>
      rw [negative] at member
      rw [List.mem_singleton.mp member]
      exact .inr (by decide)
    | false =>
      rw [negative] at member
      cases member
  have point : ∀ c ∈ fractionText fraction, IsNumeral c := by
    intro c member
    cases fraction with
    | nil => cases member
    | cons d ds =>
      rcases List.mem_cons.mp member with rfl | digit
      · exact .inr (by decide)
      · exact .inl (layout.digital c (List.mem_append_right _ digit))
  intro c member
  rcases List.mem_append.mp member with signed | unsigned
  · exact sign c signed
  rcases List.mem_append.mp unsigned with digit | behind
  · exact .inl (layout.digital c (List.mem_append_left _ digit))
  rcases List.mem_append.mp behind with digit | mark
  · exact point c digit
  · exact layout.numeral c mark

/-- What is laid out is read back. -/
theorem IsLayout.readAscii? (layout : IsLayout number whole fraction tail exponent) :
    readAscii? (layoutText number whole fraction tail) = some number := by
  have stop : ∀ c ∈ (fractionText fraction ++ tail).head?, isAsciiDigit c = false := by
    intro c first
    cases fraction with
    | nil =>
      rw [layout.ends c first]
      rfl
    | cons d ds =>
      obtain rfl : '.' = c := Option.some.inj first
      rfl
  obtain ⟨digital, digitalFraction⟩ := List.forall_mem_append.mp layout.digital
  obtain ⟨taken, left⟩ := takeWhile_append_stop digital stop
  rw [readAscii?_eq, layoutText, readSign_signText layout.head]
  dsimp only
  rw [taken, left, splitFraction_fractionText digitalFraction layout.ends]
  dsimp only
  have filled : ¬ (whole.isEmpty && fraction.isEmpty) := by
    rw [Bool.and_eq_true, List.isEmpty_iff]
    exact fun empty => layout.nonempty empty.1
  rw [if_neg filled, layout.read, Option.map_some, layout.coefficient, layout.places]

theorem readExponent?_exponentText (exponent : Int) :
    readExponent? (exponentText exponent) = some exponent := by
  have digital : (digitsOf exponent.natAbs).all isAsciiDigit :=
    List.all_eq_true.mpr fun c member => isAsciiDigit_of_mem_digitsOf member
  have nonempty : (digitsOf exponent.natAbs).isEmpty = false := by
    simpa using digitsOf_ne_nil exponent.natAbs
  rw [exponentText, readExponent?, if_pos (.inr rfl)]
  by_cases below : exponent < 0
  · rw [if_pos below, readSign]
    dsimp only
    rw [nonempty, digital, digitsValue_digitsOf]
    simp only [Bool.not_true, Bool.or_false, Bool.false_eq_true, if_false, if_true, Option.some.injEq]
    omega
  · rw [if_neg below, readSign]
    dsimp only
    rw [nonempty, digital, digitsValue_digitsOf]
    simp only [Bool.not_true, Bool.or_false, Bool.false_eq_true, if_false, Option.some.injEq]
    omega

theorem isNumeral_of_mem_exponentText {c : Char} (member : c ∈ exponentText exponent) : IsNumeral c := by
  rcases List.mem_cons.mp member with rfl | behind
  · exact .inr (by decide)
  rcases List.mem_cons.mp behind with sign | digit
  · rw [sign]
    split
    · exact .inr (by decide)
    · exact .inr (by decide)
  · exact .inl (isAsciiDigit_of_mem_digitsOf digit)

/-- The mantissa is the first digit with the others for a fraction. -/
theorem mantissa_cons (first : Char) (rest : List Char) :
    mantissa (first :: rest) = [first] ++ fractionText rest := by
  cases rest with
  | nil => rfl
  | cons second rest => rfl

/-- A point parts the digits, with zeros before them where they are too few. -/
theorem withPoint_eq (digits : List Char) {places : Nat} (positive : 0 < places) :
    ∃ whole fraction, withPoint digits places = whole ++ fractionText fraction ∧ whole ≠ [] ∧
      fraction.length = places ∧
      whole ++ fraction = List.replicate (places + 1 - digits.length) '0' ++ digits := by
  unfold withPoint
  generalize zeros : List.replicate (places + 1 - digits.length) '0' ++ digits = all
  dsimp only
  have long : places < all.length := by
    rw [← zeros, List.length_append, List.length_replicate]
    omega
  have size : (all.drop (all.length - places)).length = places := by
    rw [List.length_drop]
    omega
  refine ⟨all.take (all.length - places), all.drop (all.length - places), ?_, ?_, size,
    List.take_append_drop _ _⟩
  · obtain ⟨c, cs, fraction⟩ := List.exists_cons_of_length_pos (size.symm ▸ positive)
    rw [fraction, fractionText]
  · rw [← List.length_pos_iff, List.length_take]
    omega

/-- The text of a number is laid out with an exponent, without a fraction or with one. -/
theorem exists_layout (number : Decimal) : ∃ whole fraction tail exponent,
    number.text = layoutText number whole fraction tail ∧
      IsLayout number whole fraction tail exponent := by
  have digital : ∀ c ∈ digitsOf number.coefficient, isAsciiDigit c :=
    fun c member => isAsciiDigit_of_mem_digitsOf member
  unfold text
  dsimp only
  split
  · obtain ⟨first, rest, digits⟩ := List.exists_cons_of_ne_nil (digitsOf_ne_nil number.coefficient)
    refine ⟨[first], rest, exponentText number.adjusted, number.adjusted, ?_, ?_⟩
    · rw [digits, mantissa_cons, layoutText, List.append_assoc]
    · refine ⟨by simp, by rwa [List.singleton_append, ← digits], ?_,
        fun c member => isNumeral_of_mem_exponentText member, readExponent?_exponentText _, ?_, ?_⟩
      · intro c head
        exact (Option.some.inj head).symm
      · rw [List.singleton_append, ← digits, digitsValue_digitsOf]
      · rw [adjusted, digits, List.length_cons]
        omega
  split
  · rename_i zero
    refine ⟨digitsOf number.coefficient, [], [], 0, ?_, ?_⟩
    · rw [layoutText, fractionText, List.append_nil, List.append_nil]
    · refine ⟨digitsOf_ne_nil _, by simpa using digital, by simp, by simp, rfl, ?_, by simp [zero]⟩
      rw [List.append_nil, digitsValue_digitsOf]
  · rename_i small nonzero
    have below : number.exponent < 0 := by
      simp only [Bool.or_eq_true, decide_eq_true_eq, not_or] at small
      omega
    obtain ⟨whole, fraction, point, nonempty, size, all⟩ :=
      withPoint_eq (digitsOf number.coefficient) (Int.natAbs_pos.mpr nonzero)
    refine ⟨whole, fraction, [], 0, ?_, nonempty, ?_, by simp, by simp, rfl, ?_, by omega⟩
    · rw [point, layoutText, List.append_nil]
    · rw [all]
      intro c member
      rcases List.mem_append.mp member with zero | digit
      · rw [List.eq_of_mem_replicate zero]
        decide
      · exact digital c digit
    · rw [all, digitsValue_zeros, digitsValue_digitsOf]

/-- A text of characters of numbers is read as it stands. -/
theorem read?_of_isNumeral (numeral : ∀ c ∈ cs, IsNumeral c) : read? cs = (readAscii? cs).filter inRange := by
  have plain : cs.filter (· != '_') = cs := by
    refine List.filter_eq_self.mpr fun c member => ?_
    simpa using (numeral c member).ne_underscore
  rw [read?, plain, map_toAsciiDigit fun c member => (numeral c member).toNat_lt]

theorem isNumeral_of_mem_text {c : Char} (member : c ∈ number.text) : IsNumeral c := by
  obtain ⟨whole, fraction, tail, exponent, text, layout⟩ := number.exists_layout
  rw [text] at member
  exact layout.isNumeral c member

/-- A number within its bounds is read back from its text. -/
theorem read?_text (inRange : number.inRange) : read? number.text = some number := by
  obtain ⟨whole, fraction, tail, exponent, text, layout⟩ := number.exists_layout
  rw [read?_of_isNumeral fun c member => isNumeral_of_mem_text member, text, layout.readAscii?,
    Option.filter_some, if_pos inRange]

theorem inRange_of_read? (read : read? cs = some number) : number.inRange :=
  (Option.filter_eq_some_iff.mp read).2

end Decimal

end ReportQuery.Parameter
