import ReportQuery.Parameter.DateText
import ReportQuery.Proofs.Text.Digits

set_option autoImplicit false
set_option relaxedAutoImplicit false

/-!
The text of a day is read back in the first of the international forms: ten characters with hyphens, and no
time behind them.
-/

namespace ReportQuery.Parameter

open Text (isAsciiDigit digitsValue padded length_padded digitsValue_padded isAsciiDigit_of_mem_padded)

variable {digits rest : List Char} {year month day : Nat}

/-- What the numbers of a day are bounded by. -/
theorem isDay_bounds (named : isDay year month day) :
    year < 10 ^ 4 ∧ month < 10 ^ 2 ∧ day < 10 ^ 2 := by
  have short : ∀ length ∈ monthLengths year, length ≤ 31 := by
    unfold monthLengths
    cases isLeapYear year <;> decide
  rw [isDay, Bool.and_eq_true, Bool.and_eq_true, Bool.and_eq_true, Bool.and_eq_true, decide_eq_true_eq,
    decide_eq_true_eq, decide_eq_true_eq, decide_eq_true_eq] at named
  obtain ⟨⟨⟨⟨-, years⟩, -⟩, -⟩, days⟩ := named
  cases here : (monthLengths year)[month - 1]? with
  | none =>
    rw [here] at days
    cases days
  | some length =>
    rw [here] at days
    have inside : month - 1 < (monthLengths year).length := (List.getElem?_eq_some_iff.mp here).1
    have months : (monthLengths year).length = 12 := rfl
    have most := short length (List.mem_of_getElem? here)
    have within : day ≤ length := of_decide_eq_true days
    omega

/-- Digits of the right number are read as their value. -/
theorem readDigits?_append (digital : ∀ c ∈ digits, isAsciiDigit c) (rest : List Char) :
    readDigits? digits.length (digits ++ rest) = some (digitsValue digits, rest) := by
  have all : digits.all isAsciiDigit := List.all_eq_true.mpr digital
  rw [readDigits?, List.take_left, List.drop_left]
  exact if_pos ⟨rfl, all⟩

theorem readDigits?_padded {width n : Nat} (positive : 0 < width) (fits : n < 10 ^ width)
    (rest : List Char) : readDigits? width (padded width n ++ rest) = some (n, rest) := by
  have read := readDigits?_append
    (fun c (member : c ∈ padded width n) => isAsciiDigit_of_mem_padded member) rest
  rwa [length_padded positive fits, digitsValue_padded] at read

theorem exists_padded_cons {width n : Nat} (positive : 0 < width) (fits : n < 10 ^ width) :
    ∃ c cs, padded width n = c :: cs ∧ isAsciiDigit c := by
  have size := length_padded positive fits
  obtain ⟨c, cs, whole⟩ := List.exists_cons_of_length_pos (size.symm ▸ positive)
  exact ⟨c, cs, whole, isAsciiDigit_of_mem_padded (whole ▸ List.mem_cons_self)⟩

namespace Date

theorem text_eq (date : Date) :
    date.text = padded 4 date.year ++ ('-' :: (padded 2 date.month ++ ('-' :: padded 2 date.day))) :=
  List.append_assoc _ _ _

theorem length_text (date : Date) : date.text.length = 10 := by
  obtain ⟨years, months, days⟩ := isDay_bounds date.isDay
  rw [text_eq, List.length_append, List.length_cons, List.length_append, List.length_cons,
    length_padded (by decide) years, length_padded (by decide) months, length_padded (by decide) days]

theorem isAsciiDigit_or_hyphen {date : Date} {c : Char} (member : c ∈ date.text) :
    isAsciiDigit c ∨ c = '-' := by
  rw [text_eq, List.mem_append, List.mem_cons, List.mem_append, List.mem_cons] at member
  rcases member with digit | hyphen | digit | hyphen | digit
  · exact .inl (isAsciiDigit_of_mem_padded digit)
  · exact .inr hyphen
  · exact .inl (isAsciiDigit_of_mem_padded digit)
  · exact .inr hyphen
  · exact .inl (isAsciiDigit_of_mem_padded digit)

end Date

namespace DateText

/-- The text of a day belongs to the day as a whole. -/
theorem dayLength_text (date : Date) : dayLength date.text = 10 := by
  obtain ⟨years, months, -⟩ := isDay_bounds date.isDay
  obtain ⟨c, cs, month, digit⟩ := exists_padded_cons (by decide) months
  have four : (padded 4 date.year).length = 4 := length_padded (by decide) years
  have hyphen : date.text[4]? = some '-' := by
    rw [Date.text_eq, List.getElem?_append_right four.le, four]
    rfl
  have later : date.text[5]? = some c := by
    rw [Date.text_eq, List.getElem?_append_right (by omega), four, month]
    rfl
  have other : some c ≠ some 'W' := by
    rintro ⟨⟩
    exact absurd digit (by decide)
  rw [dayLength, date.length_text, if_neg (by decide), if_pos hyphen, later, if_neg other]

theorem readMonth?_text (date : Date) :
    readMonth? date.year true (padded 2 date.month ++ ('-' :: padded 2 date.day)) = some date := by
  obtain ⟨-, months, days⟩ := isDay_bounds date.isDay
  have last := readDigits?_padded (by decide) days []
  rw [List.append_nil] at last
  rw [readMonth?, readDigits?_padded (by decide) months]
  simp only [Option.bind_eq_bind, Option.bind_some, readHyphen?, if_true, last]
  rw [Date.ofNumbers?, dif_pos date.isDay]

theorem readDay?_text (date : Date) : readDay? 10 date.text = some date := by
  obtain ⟨years, months, -⟩ := isDay_bounds date.isDay
  obtain ⟨c, cs, month, digit⟩ := exists_padded_cons (by decide) months
  have read := readMonth?_text date
  rw [readDay?, Date.text_eq, readDigits?_padded (by decide) years]
  rw [month, List.cons_append] at read ⊢
  simp only [Option.bind_eq_bind, Option.bind_some]
  split
  · rename_i same
    obtain ⟨rfl, -⟩ := List.cons.inj same
    exact absurd digit (by decide)
  · exact read

/-- A day is read back from its text. -/
theorem read?_text (date : Date) : read? date.text = some date := by
  have international : readInternational? date.text = some date := by
    rw [readInternational?, dayLength_text, readDay?_text, date.length_text]
    rfl
  rw [read?, international]
  rfl

end DateText

end ReportQuery.Parameter
