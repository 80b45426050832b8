import ReportQuery.Proofs.Sql.DottedScan

set_option autoImplicit false
set_option relaxedAutoImplicit false

/-!
Keywords as the scans read them, against keywords that are spelled out in a text.
-/

namespace ReportQuery.Sql

open Text

variable {letters word cs rest tail : List Char} {c letter : Char} {before : Option Char}
  {name : String} {keywords : List String}

/-- The keyword is written in capital letters. -/
def isCapitals (name : String) : Bool :=
  name.toList.all fun c => 'A' ≤ c && c ≤ 'Z'

private theorem toUpper_eq_self (large : ¬ c.toNat < 0x80) : c.toUpper = c := by
  refine dif_neg fun lowerCase => ?_
  have bound : c.toNat ≤ 122 := UInt32.le_iff_toNat_le.mp lowerCase.2
  omega

theorem eq_toUpper_or (c : Char) : c = c.toUpper ∨ c = Char.ofNat (c.toUpper.toNat + 32) := by
  have ascii : ∀ c : Char, c.toNat < 0x80 →
      c = c.toUpper ∨ c = Char.ofNat (c.toUpper.toNat + 32) := forall_ascii (by decide)
  by_cases small : c.toNat < 0x80
  · exact ascii c small
  · exact .inl (toUpper_eq_self small).symm

theorem meetsLetter_toUpper (c : Char) : meetsLetter c.toUpper c := by
  have ascii : ∀ c : Char, c.toNat < 0x80 → meetsLetter c.toUpper c :=
    forall_ascii (by decide)
  by_cases small : c.toNat < 0x80
  · exact ascii c small
  · rw [toUpper_eq_self small]
    simp [meetsLetter]

theorem isIdentifierChar_of_meetsLetter (capital : 'A' ≤ letter && letter ≤ 'Z')
    (meets : meetsLetter letter c) : isIdentifierChar c := by
  simp only [Bool.and_eq_true, decide_eq_true_eq, Char.le_def, UInt32.le_iff_toNat_le] at capital
  have low : 65 ≤ letter.toNat := capital.1
  have high : letter.toNat ≤ 90 := capital.2
  have latin : ∀ n < 0x80, 65 ≤ n ∧ n ≤ 90 ∨ 97 ≤ n ∧ n ≤ 122 → isIdentifierChar (Char.ofNat n) := by
    decide
  have ofNat : ∀ n < 0x80, c.toNat = n → 65 ≤ n ∧ n ≤ 90 ∨ 97 ≤ n ∧ n ≤ 122 → isIdentifierChar c := by
    intro n small same range
    rw [← Char.ofNat_toNat c, same]
    exact latin n small range
  simp only [meetsLetter, Bool.or_eq_true, Bool.and_eq_true, beq_iff_eq] at meets
  rcases meets with (((rfl | small) | ⟨-, rfl | rfl⟩) | ⟨-, rfl⟩) | ⟨-, rfl⟩
  · exact ofNat c.toNat (by omega) rfl (by omega)
  · have shift : c.toNat = letter.toNat + 32 := small
    exact ofNat (letter.toNat + 32) (by omega) shift (by omega)
  all_goals decide

theorem afterKeyword?_spelled (spelled : word.map Char.toUpper = letters) (rest : List Char) :
    afterKeyword? letters (word ++ rest) = some rest := by
  induction letters generalizing word with
  | nil =>
    obtain rfl := List.map_eq_nil_iff.mp spelled
    rfl
  | cons letter letters ih =>
    obtain ⟨c, tail, rfl, rfl, others⟩ := List.map_eq_cons_iff.mp spelled
    rw [List.cons_append, afterKeyword?, if_pos (meetsLetter_toUpper c), ih others]

theorem startsApart_spelled (capitals : isCapitals name) (nonempty : name.toList ≠ [])
    (spelled : word.map Char.toUpper = name.toList) (rest : List Char) :
    startsApart (word ++ rest) = false := by
  cases word with
  | nil => exact absurd spelled.symm nonempty
  | cons c word =>
    rw [isCapitals, ← spelled, List.map_cons] at capitals
    obtain ⟨capital, -⟩ := (Bool.and_eq_true _ _).mp capitals
    have identifier := isIdentifierChar_of_meetsLetter capital (meetsLetter_toUpper c)
    simp [startsApart, identifier]

/-- A keyword in front of a text that begins no identifier is read inside the front. -/
theorem afterKeyword?_append (capitals : letters.all fun c => 'A' ≤ c && c ≤ 'Z')
    (apart : startsApart rest) (read : afterKeyword? letters (cs ++ rest) = some tail) :
    ∃ left, afterKeyword? letters cs = some left ∧ tail = left ++ rest := by
  induction letters generalizing cs with
  | nil =>
    cases read
    exact ⟨cs, rfl, rfl⟩
  | cons letter letters ih =>
    obtain ⟨capital, others⟩ := (Bool.and_eq_true _ _).mp capitals
    cases cs with
    | nil =>
      cases rest with
      | nil => cases read
      | cons d ds =>
        rw [List.nil_append, afterKeyword?] at read
        split at read
        · rename_i meets
          simp [startsApart, isIdentifierChar_of_meetsLetter capital meets] at apart
        · cases read
    | cons d ds =>
      rw [List.cons_append, afterKeyword?] at read
      split at read
      · rename_i meets
        rw [afterKeyword?, if_pos meets]
        exact ih others read
      · cases read

/-- A keyword at the front of a text that begins no identifier further on is a word of the front. -/
theorem startsWithWord_append (capitals : keywords.all isCapitals) (apart : startsApart rest)
    (starts : startsWithWord keywords (cs ++ rest)) : startsWithWord keywords cs := by
  obtain ⟨name, member, found⟩ := List.any_eq_true.mp starts
  obtain ⟨after, word⟩ := Option.isSome_iff_exists.mp found
  unfold afterWord? at word
  split at word
  · rename_i tail read
    obtain ⟨left, inside, rfl⟩ :=
      afterKeyword?_append (List.all_eq_true.mp capitals name member) apart read
    refine List.any_eq_true.mpr ⟨name, member, ?_⟩
    have ends : ¬ isWordChar? left.head? = true := by
      intro continues
      cases left with
      | nil => cases continues
      | cons d ds =>
        rw [List.cons_append, List.head?_cons] at word
        rw [List.head?_cons] at continues
        rw [if_pos continues] at word
        cases word
    rw [afterWord?, inside]
    simp [ends]
  · cases word

theorem isWordChar?_eq_false (apart : ∀ c ∈ before, isIdentifierChar c = false) :
    isWordChar? before = false := by
  cases before with
  | none => rfl
  | some c =>
    by_contra word
    have identifier := isIdentifierChar_of_isWordChar (by simpa [isWordChar?] using word)
    rw [apart c rfl] at identifier
    cases identifier

private theorem isWordChar?_head?_eq_false (apart : startsApart rest) :
    isWordChar? rest.head? = false := by
  refine isWordChar?_eq_false fun c head => ?_
  obtain ⟨tail, rfl⟩ := List.head?_eq_some_iff.mp head
  simpa [startsApart] using apart

/-- A keyword that is spelled out before other characters is read as a word. -/
theorem startsWithWord_spelled (spelled : word.map Char.toUpper = name.toList)
    (member : name ∈ keywords) (apart : startsApart rest) :
    startsWithWord keywords (word ++ rest) := by
  refine List.any_eq_true.mpr ⟨name, member, ?_⟩
  have read := afterKeyword?_spelled spelled rest
  simp [afterWord?, read, isWordChar?_head?_eq_false apart]

theorem isWordAt_spelled (spelled : word.map Char.toUpper = name.toList) (member : name ∈ keywords)
    (apartBefore : ∀ c ∈ before, isIdentifierChar c = false) (apart : startsApart rest) :
    isWordAt keywords before (word ++ rest) := by
  rw [isWordAt, isWordChar?_eq_false apartBefore, startsWithWord_spelled spelled member apart]
  rfl

end ReportQuery.Sql
