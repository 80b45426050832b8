import ReportQuery.Proofs.Sql.ListedTable
import ReportQuery.Proofs.Sql.WordPlace

set_option autoImplicit false
set_option relaxedAutoImplicit false

/-!
The table list that a plain FROM opens behind a SELECT at its level, where no parentheses follow.
-/

namespace ReportQuery.Sql

open Text

variable {passed cs text masked body front back : List Char} {c : Char}

section Parentheses

theorem Balanced.append (first : Balanced front) (second : Balanced back) :
    Balanced (front ++ back) := by
  induction first with
  | nil => exact second
  | other plain _ ih => exact .other plain ih
  | parens inside _ _ ih =>
    rw [List.cons_append, List.append_assoc, List.cons_append]
    exact .parens inside ih
  | brackets inside _ _ ih =>
    rw [List.cons_append, List.append_assoc, List.cons_append]
    exact .brackets inside ih

/-- A SELECT stands at the level of the place behind the text. -/
def BehindSelect (passed : List Char) : Prop :=
  ∀ ahead, followsSelect 0 passed ahead

theorem BehindSelect.balanced (behind : BehindSelect passed) (balanced : Balanced cs) :
    BehindSelect (cs.reverse ++ passed) :=
  fun ahead => followsSelect_balanced balanced (behind (cs ++ ahead))

theorem behindSelect_select : BehindSelect "SELECT ".toList.reverse := by
  intro ahead
  have letters : Balanced "ELECT ".toList := balanced_of_all (by decide)
  have split : "SELECT ".toList.reverse = "ELECT ".toList.reverse ++ ['S'] := rfl
  rw [split]
  refine followsSelect_balanced letters ?_
  have word : isWordAt ["SELECT"] none ('S' :: ("ELECT ".toList ++ ahead)) := by
    have spelled : isWordAt ["SELECT"] none ("SELECT".toList ++ (' ' :: ahead)) :=
      isWordAt_spelled (show "SELECT".toList.map Char.toUpper = "SELECT".toList by decide) (by decide)
        (by simp) (by simp [startsApart]; decide)
    exact spelled
  rw [followsSelect.eq_def]
  dsimp only
  rw [if_neg (by decide), if_neg (by decide), if_pos ⟨rfl, word⟩]

/-- Without parentheses the whole list stands at one level. -/
theorem tableListAfter_of_not_mem (plain : ∀ c ∈ masked, c ≠ '(' ∧ c ≠ ')')
    (length : text.length = masked.length) :
    tableListAfter text masked = beforeListEnd none text masked := by
  have level : sameLevel 0 text masked = text.zip masked := by
    induction masked generalizing text with
    | nil =>
      obtain rfl := List.eq_nil_of_length_eq_zero length
      rfl
    | cons m masked ih =>
      obtain ⟨t, text, rfl⟩ := List.exists_cons_of_length_eq_add_one length
      obtain ⟨⟨opens, closes⟩, there⟩ := List.forall_mem_cons.mp plain
      rw [sameLevel.eq_def]
      dsimp only
      rw [if_neg closes, if_neg opens, if_pos rfl, ih there (by simpa using length), List.zip_cons_cons]
  rw [tableListAfter, level, List.unzip_zip length]

end Parentheses

section Opening

theorem endsWithWord_eq_false {keyword : String} (words : areKeywords [keyword])
    (apart : ∀ c ∈ (passed.dropWhile isBlank).head?, isIdentifierChar c = false) :
    endsWithWord keyword passed = false := by
  obtain ⟨capitals, nonempty⟩ := (Bool.and_eq_true _ _).mp
    (List.all_eq_true.mp words keyword List.mem_cons_self)
  obtain ⟨letter, letters, spelled⟩ : ∃ letter letters, keyword.toList.reverse = letter :: letters := by
    refine List.exists_cons_of_ne_nil fun none => ?_
    rw [String.toList_eq_nil_iff.mp (List.reverse_eq_nil_iff.mp none)] at nonempty
    cases nonempty
  have capital : 'A' ≤ letter && letter ≤ 'Z' := by
    refine List.all_eq_true.mp capitals letter ?_
    rw [← List.mem_reverse, spelled]
    exact List.mem_cons_self
  have unread : endsWithWord.go (letter :: letters) (passed.dropWhile isBlank) = none := by
    cases rest : passed.dropWhile isBlank with
    | nil => rfl
    | cons c rest =>
      have unmet : ¬ meetsLetter letter c = true := by
        intro meets
        have outside := apart c (by rw [rest]; rfl)
        rw [isIdentifierChar_of_meetsLetter capital meets] at outside
        cases outside
      rw [endsWithWord.go, if_neg unmet]
  rw [endsWithWord, spelled, unread]

/-- A FROM behind SELECT opens a list. -/
theorem tableListsFrom_from (plain : ∀ c ∈ body, isNameChar c)
    (spelled : upper (String.ofList body) = "FROM") (apartBefore : IsApart passed.head?)
    (apart : startsApart masked) (starts : startsTableList passed (body ++ masked)) :
    tableListsFrom passed (body ++ text) (body ++ masked) =
      tableListAfter text masked :: tableListsFrom (body.reverse ++ passed) text masked := by
  have word : isWordAt ["FROM"] passed.head? (body ++ masked) := by
    rw [isWordAt_plain (by decide) plain apartBefore apart, spelled]
    rfl
  have upperCase : body.map Char.toUpper = "FROM".toList := by
    rw [upper_of_plain plain] at spelled
    rw [← spelled, String.toList_ofList]
  have capitals : "FROM".toList = 'F' :: "ROM".toList := rfl
  obtain ⟨c, letters, rfl, -, others⟩ := List.map_eq_cons_iff.mp (upperCase.trans capitals)
  have three : letters.length = 3 := by
    have lengths := congrArg List.length others
    rw [List.length_map] at lengths
    exact lengths
  obtain ⟨letter, plainLetters⟩ := List.forall_mem_cons.mp plain
  -- inside the word no other FROM begins
  have inside : Wordless ["FROM"] (c :: passed).head? letters masked := by
    refine wordless_plain plainLetters ?_
    rw [isWordAt, List.head?_cons, isWordChar?, isWordChar_of_isNameChar letter]
    rfl
  have behind {tail : List Char} : (letters ++ tail).drop 3 = tail := by
    rw [← three, List.drop_left]
  simp only [List.cons_append] at word starts ⊢
  rw [tableListsFrom, word, starts, Bool.and_self, if_pos rfl, behind, behind,
    inside.tableListsFrom rfl, List.reverse_cons, List.append_assoc]
  rfl

end Opening

end ReportQuery.Sql
