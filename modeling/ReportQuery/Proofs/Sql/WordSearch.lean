import ReportQuery.Proofs.Sql.ListedTable
import ReportQuery.Proofs.Sql.WordPlace

set_option autoImplicit false
set_option relaxedAutoImplicit false

/-!
Searching a text for keywords. A keyword is found just when it stands at some place, so a character of
no word parts a text into two that are searched apart, and blanks at its ends do not matter.
-/

namespace ReportQuery.Sql

open Text

variable {keywords : List String} {c : Char} {left right text : List Char}

/-- Where no keyword stands, none is found. -/
theorem Wordless.not_containsWord (wordless : Wordless keywords none text []) :
    ¬ containsWord keywords text := by
  intro contains
  have passed := wordless.pieces_keyword
  rw [Text.pieces_nil, List.append_nil, List.append_nil] at passed
  rw [containsWord, findFirst?, findAll, passed] at contains
  simp [List.filterMap_map, Piece.value?] at contains

/-- A keyword is found in a text just when it stands at some place of it. -/
theorem containsWord_iff_isWordAt (words : areKeywords keywords) :
    containsWord keywords text ↔
      ∃ left right, text = left ++ right ∧ isWordAt keywords left.getLast? right := by
  constructor
  · intro contains
    by_contra nowhere
    refine Wordless.not_containsWord (fun left c tail same => ?_) contains
    rw [Option.or_none, List.append_nil]
    by_contra word
    exact nowhere ⟨left, c :: tail, same, by simpa using word⟩
  · rintro ⟨left, right, rfl, word⟩
    by_contra without
    cases right with
    | nil =>
      rw [isWordAt_nil words] at word
      cases word
    | cons c tail =>
      have nothing : isWordAt keywords left.getLast? (c :: (tail ++ [])) = false :=
        isWordAt_eq_false (capitals_of_areKeywords words) (nonempty_of_areKeywords words) without rfl
      rw [List.append_nil, word] at nothing
      cases nothing

private theorem afterKeyword?_extended {letters tail : List Char}
    (read : afterKeyword? letters text = some tail) (behind : List Char) :
    afterKeyword? letters (text ++ behind) = some (tail ++ behind) := by
  induction letters generalizing text with
  | nil =>
    obtain rfl := Option.some.inj read
    rfl
  | cons letter letters ih =>
    cases text with
    | nil => cases read
    | cons c text =>
      rw [afterKeyword?] at read
      split at read
      · rename_i meets
        rw [List.cons_append, afterKeyword?, if_pos meets]
        exact ih read
      · cases read

/-- A keyword at the front of a text is one before any character of no word. -/
private theorem startsWithWord_extended (mark : isIdentifierChar c = false)
    (starts : startsWithWord keywords text) : startsWithWord keywords (text ++ c :: right) := by
  obtain ⟨name, member, found⟩ := List.any_eq_true.mp starts
  obtain ⟨after, read⟩ := Option.isSome_iff_exists.mp found
  unfold afterWord? at read
  split at read
  · rename_i tail inside
    have ends : isWordChar? (tail ++ c :: right).head? = false := by
      cases tail with
      | nil => exact isWordChar?_eq_false (by simpa using mark)
      | cons d tail =>
        by_contra continues
        rw [List.cons_append, List.head?_cons] at continues
        rw [List.head?_cons, if_pos (by simpa using continues)] at read
        cases read
    refine List.any_eq_true.mpr ⟨name, member, ?_⟩
    rw [afterWord?, afterKeyword?_extended inside]
    dsimp only
    rw [ends]
    rfl
  · cases read

/-- Behind a character of no word keywords are read as at the start of a text. -/
private theorem isWordAt_behind (mark : isIdentifierChar c = false) (left before behind : List Char) :
    isWordAt keywords (left ++ c :: before).getLast? behind =
      isWordAt keywords before.getLast? behind := by
  rw [List.getLast?_append, List.getLast?_cons]
  cases before.getLast? with
  | none =>
    have parted : isWordChar? (some c) = false := isWordChar?_eq_false (by simpa using mark)
    rw [Option.getD_none, Option.some_or, isWordAt, isWordAt, parted]
    rfl
  | some e => rfl

/-- A character of no word parts a text into two in which keywords are looked for apart. -/
theorem containsWord_append_cons (words : areKeywords keywords) (mark : isIdentifierChar c = false) :
    containsWord keywords (left ++ c :: right) ↔
      containsWord keywords left ∨ containsWord keywords right := by
  have apart : startsApart (c :: right) := by simp [startsApart, mark]
  rw [containsWord_iff_isWordAt words, containsWord_iff_isWordAt words, containsWord_iff_isWordAt words]
  constructor
  · rintro ⟨before, behind, split, word⟩
    rcases List.append_eq_append_iff.mp split with ⟨middle, rfl, cut⟩ | ⟨middle, rfl, rfl⟩
    · cases middle with
      | nil =>
        rw [List.nil_append] at cut
        rw [← cut, isWordAt_mark words mark] at word
        cases word
      | cons d middle =>
        obtain ⟨rfl, rfl⟩ := List.cons.inj cut
        rw [isWordAt_behind mark] at word
        exact .inr ⟨middle, behind, rfl, word⟩
    · obtain ⟨free, starts⟩ := (Bool.and_eq_true _ _).mp word
      have inside := startsWithWord_append (capitals_of_areKeywords words) apart starts
      exact .inl ⟨before, middle, rfl, (Bool.and_eq_true _ _).mpr ⟨free, inside⟩⟩
  · rintro (⟨before, behind, rfl, word⟩ | ⟨before, behind, rfl, word⟩)
    · obtain ⟨free, starts⟩ := (Bool.and_eq_true _ _).mp word
      have longer : startsWithWord keywords (behind ++ c :: right) := startsWithWord_extended mark starts
      exact ⟨before, behind ++ c :: right, List.append_assoc _ _ _,
        (Bool.and_eq_true _ _).mpr ⟨free, longer⟩⟩
    · refine ⟨left ++ c :: before, behind, by simp, ?_⟩
      rwa [isWordAt_behind mark]

theorem containsWord_nil (words : areKeywords keywords) : ¬ containsWord keywords [] := by
  intro contains
  obtain ⟨left, right, same, word⟩ := (containsWord_iff_isWordAt words).mp contains
  obtain ⟨rfl, rfl⟩ := List.append_eq_nil_iff.mp same.symm
  rw [isWordAt_nil words] at word
  cases word

theorem containsWord_marks_append (words : areKeywords keywords)
    (marks : ∀ c ∈ left, isIdentifierChar c = false) :
    containsWord keywords (left ++ text) ↔ containsWord keywords text := by
  induction left with
  | nil => exact Iff.rfl
  | cons c left ih =>
    obtain ⟨here, there⟩ := List.forall_mem_cons.mp marks
    have parts : containsWord keywords ([] ++ c :: (left ++ text)) ↔ _ :=
      containsWord_append_cons words here
    exact parts.trans ((or_iff_right (containsWord_nil words)).trans (ih there))

private theorem containsWord_append_marks (words : areKeywords keywords)
    (marks : ∀ c ∈ right, isIdentifierChar c = false) :
    containsWord keywords (text ++ right) ↔ containsWord keywords text := by
  cases right with
  | nil => rw [List.append_nil]
  | cons c right =>
    obtain ⟨here, there⟩ := List.forall_mem_cons.mp marks
    have rest : containsWord keywords (right ++ []) ↔ _ := containsWord_marks_append words there
    rw [List.append_nil] at rest
    exact (containsWord_append_cons words here).trans
      (or_iff_left fun contains => containsWord_nil words (rest.mp contains))

/-- Blanks at the ends of a text hold no keyword. -/
theorem containsWord_trimChars (words : areKeywords keywords) :
    containsWord keywords (trimChars text) ↔ containsWord keywords text := by
  have marks {cs : List Char} (blank : ∀ c ∈ cs, isBlank c) : ∀ c ∈ cs, isIdentifierChar c = false :=
    fun c member => isIdentifierChar_eq_false_of_isBlank (blank c member)
  have front : text.takeWhile isBlank ++ trimFrontChars text = text := List.takeWhile_append_dropWhile
  obtain ⟨back, whole, blank⟩ := exists_dropped_back isBlank (trimFrontChars text)
  rw [← trimBackChars, ← trimChars] at whole
  have behind : containsWord keywords (trimFrontChars text) ↔ containsWord keywords (trimChars text) := by
    rw [← whole]
    exact containsWord_append_marks words (marks blank)
  have before : containsWord keywords (text.takeWhile isBlank ++ trimFrontChars text) ↔ _ :=
    containsWord_marks_append words (marks fun c member => List.mem_takeWhile_imp member)
  rw [front] at before
  exact (before.trans behind).symm

end ReportQuery.Sql
