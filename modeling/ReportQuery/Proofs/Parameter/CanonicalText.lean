import Mathlib
import ReportQuery.Parameter.Value
import ReportQuery.Proofs.Parameter.DayText
import ReportQuery.Proofs.Parameter.DecimalText
import ReportQuery.Proofs.Text.Blank

set_option autoImplicit false
set_option relaxedAutoImplicit false

/-!
Typed values and their canonical texts. Whatever text a value was read from, it is of the declared type, and
its canonical text reads back as the value.
-/

namespace ReportQuery.Parameter

open Text (isAsciiDigit isAsciiDigit_iff digitsValue digitsOf digitsOf_ne_nil digitsValue_digitsOf isBlank
  length_digitsOf_digitsValue_le isAsciiDigit_of_mem_digitsOf map_toAsciiDigit toAsciiDigit blankCodes
  toNat_mem_blankCodes IsTrimmed trimChars)

variable {kind : Kind} {value : Value} {cs digits : List Char} {n : Int}

section Numerals

/-- No character of a number is a blank. -/
theorem IsNumeral.isBlank_eq_false {c : Char} (numeral : IsNumeral c) : isBlank c = false := by
  have apart : ∀ code ∈ blankCodes,
      isAsciiDigit (Char.ofNat code) = false ∧ Char.ofNat code ∉ ['-', '+', '.', 'E'] := by
    decide
  refine Bool.eq_false_iff.mpr fun blank => ?_
  obtain ⟨digit, mark⟩ := apart _ (toNat_mem_blankCodes blank)
  rw [Char.ofNat_toNat] at digit mark
  rcases numeral with digital | marked
  · rw [digit] at digital
    cases digital
  · exact mark marked

theorem trimChars_of_isNumeral (numeral : ∀ c ∈ cs, IsNumeral c) : trimChars cs = cs := by
  refine IsTrimmed.trimChars_eq ⟨fun c first => ?_, fun c last => ?_⟩
  · exact (numeral c (List.mem_of_mem_head? first)).isBlank_eq_false
  · exact (numeral c (List.mem_of_mem_getLast? last)).isBlank_eq_false

theorem isNumeral_of_mem_intText {c : Char} (member : c ∈ intText n) : IsNumeral c := by
  rcases List.mem_append.mp member with sign | digit
  · unfold Decimal.signText at sign
    split at sign
    · rw [List.mem_singleton.mp sign]
      exact .inr (by decide)
    · cases sign
  · exact .inl (isAsciiDigit_of_mem_digitsOf digit)

theorem isNumeral_of_mem_dayText {date : Date} {c : Char} (member : c ∈ date.text) : IsNumeral c := by
  rcases Date.isAsciiDigit_or_hyphen member with digit | rfl
  · exact .inl digit
  · exact .inr (by decide)

end Numerals

section Integers

/-- Digits without underscores are taken as they stand. -/
theorem groupedDigits?_of_digits (digital : ∀ c ∈ digits, isAsciiDigit c) {last : Char}
    (ends : digits = [] → last ≠ '_') : groupedDigits? last digits = some digits := by
  induction digits generalizing last with
  | nil => rw [groupedDigits?, if_neg (ends rfl)]
  | cons c digits ih =>
    obtain ⟨first, later⟩ := List.forall_mem_cons.mp digital
    have plain : c ≠ '_' := by
      rintro rfl
      exact absurd first (by decide)
    rw [groupedDigits?, if_neg plain, if_pos first, ih later fun _ => plain]
    rfl

theorem isAsciiDigit_of_groupedDigits? {last : Char} (read : groupedDigits? last cs = some digits) :
    ∀ c ∈ digits, isAsciiDigit c := by
  induction cs generalizing last digits with
  | nil =>
    rw [groupedDigits?] at read
    split at read
    · cases read
    · obtain rfl := Option.some.inj read
      exact List.forall_mem_nil _
  | cons c cs ih =>
    rw [groupedDigits?] at read
    split at read
    · split at read
      · cases read
      · exact ih read
    · split at read
      · rename_i digit
        obtain ⟨others, later, rfl⟩ := Option.map_eq_some_iff.mp read
        exact List.forall_mem_cons.mpr ⟨digit, ih later⟩
      · cases read

/-- An integer that is read has no more digits than may be read. -/
theorem length_digitsOf_le_of_readInt? (read : readInt? cs = some n) :
    (digitsOf n.natAbs).length ≤ maxIntDigits := by
  unfold readInt? at read
  dsimp only at read
  split at read
  · cases read
  · cases read
  rename_i digits nonempty grouped
  split at read
  · cases read
  rename_i short
  have size : n.natAbs = digitsValue digits := by
    obtain rfl := Option.some.inj read
    split
    · rw [Int.natAbs_neg, Int.natAbs_natCast]
    · rw [Int.natAbs_natCast]
  rw [size]
  have fewer := length_digitsOf_digitsValue_le (isAsciiDigit_of_groupedDigits? grouped) nonempty
  omega

/-- An integer that has not too many digits is read back from its text. -/
theorem readInt?_intText (short : (digitsOf n.natAbs).length ≤ maxIntDigits) :
    readInt? (intText n) = some n := by
  have digital : ∀ c ∈ digitsOf n.natAbs, isAsciiDigit c := fun c member =>
    isAsciiDigit_of_mem_digitsOf member
  have first : ∀ c ∈ (digitsOf n.natAbs).head?, isAsciiDigit c := fun c head =>
    digital c (List.mem_of_mem_head? head)
  have grouped : groupedDigits? '_' (digitsOf n.natAbs) = some (digitsOf n.natAbs) :=
    groupedDigits?_of_digits digital fun empty => absurd empty (digitsOf_ne_nil _)
  unfold readInt?
  rw [map_toAsciiDigit fun c member => (isNumeral_of_mem_intText member).toNat_lt, intText,
    Decimal.readSign_signText first]
  dsimp only
  rw [grouped]
  split
  · rename_i empty
    exact absurd (Option.some.inj empty) (digitsOf_ne_nil _)
  · rename_i none
    cases none
  · rename_i digits _ same
    obtain rfl := Option.some.inj same
    rw [if_neg (Nat.not_lt.mpr short), digitsValue_digitsOf]
    simp only [decide_eq_true_eq, Option.some.injEq]
    split <;> omega

example : readInt? "-0_07".toList = some (-7) ∧ intText (-7) = "-7".toList := by decide

end Integers

/-- The value is of a type: its number is finite and within the bounds of numbers, its text the one given. -/
structure Value.IsOf (value : Value) (kind : Kind) (given : String) : Prop where
  ofKind : value.kind = kind
  bounded : ∀ number, value = .decimal number → number.inRange
  unchanged : ∀ text, value = .string text → text = given

/-- A value that is read is of the type asked for, and its canonical text gives it again. -/
theorem ofText?_text {text : String} (read : Value.ofText? kind text = some value) :
    value.IsOf kind text ∧ Value.ofText? kind value.text = some value := by
  cases kind with
  | string =>
    obtain rfl := Option.some.inj read
    exact ⟨⟨rfl, nofun, fun other same => (Value.string.inj same).symm⟩, rfl⟩
  | int =>
    obtain ⟨n, found, rfl⟩ := Option.map_eq_some_iff.mp read
    refine ⟨⟨rfl, nofun, nofun⟩, ?_⟩
    rw [Value.text, Value.ofText?, String.toList_ofList,
      trimChars_of_isNumeral fun c member => isNumeral_of_mem_intText member,
      readInt?_intText (length_digitsOf_le_of_readInt? found)]
    rfl
  | decimal =>
    obtain ⟨number, found, rfl⟩ := Option.map_eq_some_iff.mp read
    have inRange := Decimal.inRange_of_read? found
    refine ⟨⟨rfl, fun other same => Value.decimal.inj same ▸ inRange, nofun⟩, ?_⟩
    rw [Value.text, Value.ofText?, String.toList_ofList,
      trimChars_of_isNumeral fun c member => Decimal.isNumeral_of_mem_text member,
      Decimal.read?_text inRange]
    rfl
  | date =>
    obtain ⟨date, found, rfl⟩ := Option.map_eq_some_iff.mp read
    refine ⟨⟨rfl, nofun, nofun⟩, ?_⟩
    rw [Value.text, Value.ofText?, String.toList_ofList,
      trimChars_of_isNumeral fun c member => isNumeral_of_mem_dayText member, DateText.read?_text]
    rfl
  | bool =>
    obtain ⟨truth, found, rfl⟩ := Option.map_eq_some_iff.mp read
    refine ⟨⟨rfl, nofun, nofun⟩, ?_⟩
    cases truth <;> rfl

/-- A text that is given a value of a declared type gives one of that type, and the canonical text of the
value gives exactly the value again. -/
theorem coerce_text (name text : String) (value : Value)
    (coerced : coerce (Kind.ofName name) (some text) = some value) :
    value.IsOf (Kind.ofName name) text ∧
      coerce (Kind.ofName name) (some value.text) = some value := by
  rw [coerce, Option.bind_some] at coerced ⊢
  exact ofText?_text coerced

/-- A number with a sign, an underscore and an exponent is read back from its scientific text. -/
theorem grouped_number_read_back :
    coerce (Kind.ofName " Numeric ") (some " +1_0.50e3 ") = some (.decimal ⟨false, 1050, 1⟩) ∧
      (Value.decimal ⟨false, 1050, 1⟩).text = "1.050E+4" ∧
      coerce (Kind.ofName " Numeric ") (some "1.050E+4") = some (.decimal ⟨false, 1050, 1⟩) := by
  have read : coerce (Kind.ofName " Numeric ") (some " +1_0.50e3 ") =
      some (.decimal ⟨false, 1050, 1⟩) := by cbv
  have written : (Value.decimal ⟨false, 1050, 1⟩).text = "1.050E+4" := by cbv
  obtain ⟨-, again⟩ := coerce_text " Numeric " " +1_0.50e3 " _ read
  rw [written] at again
  exact ⟨read, written, again⟩

end ReportQuery.Parameter
