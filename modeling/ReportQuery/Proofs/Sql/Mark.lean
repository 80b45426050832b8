import ReportQuery.Proofs.Sql.WordPlace
import ReportQuery.Proofs.Text.Places
import ReportQuery.Sql.Prepared

set_option autoImplicit false
set_option relaxedAutoImplicit false

/-!
How a colon marks a bind and an at sign a placeholder: what is read depends on the character before the
sign and on the name behind it, up to the first character that is none of a name.
-/

namespace ReportQuery.Sql

open Text

variable {before : Option Char} {c : Char} {cs ds name rest : List Char}

theorem isBindChar_of_isNameChar (char : isNameChar c) : isBindChar c := by
  rw [isBindChar, isWordChar_of_isNameChar char, Bool.true_or]

theorem isNameChar_of_isNameStart (start : isNameStart c) : isNameChar c := by
  rw [isNameChar, start, Bool.true_or]

theorem head?_dropWhile_stop {p : Char → Bool} :
    ∀ c ∈ (cs.dropWhile p).head?, p c = false := by
  have stops := List.head?_dropWhile_not p cs
  cases left : (cs.dropWhile p).head? with
  | none => simp
  | some c => simpa [left] using stops

theorem colonBind_colon : colonBind before (':' :: cs) =
    if joinsBind before || before == some '\\' || (cs.takeWhile isBindChar).isEmpty ||
        joinsBind (cs.dropWhile isBindChar).head? then none
    else some ((cs.takeWhile isBindChar).length + 1, cs.takeWhile isBindChar) := by
  rw [colonBind, drop_length_takeWhile]

/-- A bind is read from what follows its colon up to the first character that is none of a name. -/
theorem colonBind_congr (same : cs.takeWhile isBindChar = ds.takeWhile isBindChar)
    (next : cs.takeWhile isBindChar ≠ [] →
      joinsBind (cs.dropWhile isBindChar).head? = joinsBind (ds.dropWhile isBindChar).head?) :
    colonBind before (':' :: cs) = colonBind before (':' :: ds) := by
  rw [colonBind_colon, colonBind_colon, ← same]
  by_cases empty : cs.takeWhile isBindChar = []
  · simp [empty]
  · rw [next empty]

theorem colonBind_of_ne (other : c ≠ ':') : colonBind before (c :: cs) = none := by
  unfold colonBind
  split
  · rename_i same
    exact absurd (List.cons.inj same).1 other
  · rfl

theorem colonBind_eq_some {n : Nat} (read : colonBind before cs = some (n, name)) :
    ∃ rest, cs = ':' :: (name ++ rest) ∧ n = name.length + 1 ∧ ∀ c ∈ name, isBindChar c := by
  cases cs with
  | nil => cases read
  | cons c cs =>
    by_cases colon : c = ':'
    · subst colon
      rw [colonBind_colon] at read
      split at read
      · cases read
      · obtain ⟨rfl, rfl⟩ := Prod.mk.inj (Option.some.inj read)
        refine ⟨cs.dropWhile isBindChar, by rw [List.takeWhile_append_dropWhile], rfl, ?_⟩
        exact fun c member => List.mem_takeWhile_imp member
    · rw [colonBind_of_ne colon] at read
      cases read

theorem opensWith_colonBind : OpensWith ':' colonBind := by
  intro before cs n name read
  obtain ⟨rest, whole, size, chars⟩ := colonBind_eq_some read
  exact ⟨name, rest, whole, size, fun colon => absurd (chars ':' colon) (by decide)⟩

theorem placeholder_of_ne_at (other : c ≠ '@') : placeholder before (c :: cs) = none := by
  unfold placeholder
  split
  · rename_i same
    exact absurd (List.cons.inj same).1 other
  · rfl

theorem placeholder_at : placeholder before ('@' :: cs) =
    if joinsPlaceholder before || !isPlainName (cs.takeWhile isNameChar) then none
    else some ((cs.takeWhile isNameChar).length + 1, cs.takeWhile isNameChar) := by
  cases cs with
  | nil => simp [placeholder, isPlainName]
  | cons c cs =>
    cases start : isNameStart c with
    | false =>
      have unread : isPlainName ((c :: cs).takeWhile isNameChar) = false := by
        cases char : isNameChar c <;> simp [char, start, isPlainName]
      simp [placeholder, start, unread]
    | true =>
      have taken : (c :: cs).takeWhile isNameChar = c :: cs.takeWhile isNameChar :=
        List.takeWhile_cons_of_pos (isNameChar_of_isNameStart start)
      have plain : isPlainName (c :: cs.takeWhile isNameChar) := by
        rw [isPlainName, start, Bool.true_and]
        exact List.all_eq_true.mpr fun d member => List.mem_takeWhile_imp member
      simp [placeholder, start, taken, plain]

/-- A placeholder is read from what follows its at sign up to the first character that is none of a
name. -/
theorem placeholder_congr (same : cs.takeWhile isNameChar = ds.takeWhile isNameChar) :
    placeholder before ('@' :: cs) = placeholder before ('@' :: ds) := by
  rw [placeholder_at, placeholder_at, same]

theorem all_isNameChar_of_isPlainName (plain : isPlainName name) : ∀ c ∈ name, isNameChar c := by
  cases name with
  | nil => cases plain
  | cons c name =>
    obtain ⟨start, chars⟩ := (Bool.and_eq_true _ _).mp plain
    exact List.forall_mem_cons.mpr ⟨isNameChar_of_isNameStart start, List.all_eq_true.mp chars⟩

/-- A placeholder is read where a plain name follows an at sign that nothing joins. -/
theorem placeholder_eq_some_iff {n : Nat} :
    placeholder before cs = some (n, name) ↔
      ∃ rest, cs = '@' :: (name ++ rest) ∧ n = name.length + 1 ∧ joinsPlaceholder before = false ∧
        isPlainName name ∧ ∀ c ∈ rest.head?, isNameChar c = false := by
  constructor
  · intro read
    cases cs with
    | nil => cases read
    | cons c cs =>
      by_cases sign : c = '@'
      · subst sign
        rw [placeholder_at] at read
        split at read
        · cases read
        · rename_i opens
          obtain ⟨apart, plain⟩ : joinsPlaceholder before = false ∧
              isPlainName (cs.takeWhile isNameChar) := by simpa using opens
          obtain ⟨rfl, rfl⟩ := Prod.mk.inj (Option.some.inj read)
          exact ⟨cs.dropWhile isNameChar, by rw [List.takeWhile_append_dropWhile], rfl, apart, plain,
            head?_dropWhile_stop⟩
      · rw [placeholder_of_ne_at sign] at read
        cases read
  · rintro ⟨rest, rfl, rfl, apart, plain, stop⟩
    rw [placeholder_at, (takeWhile_append_stop (all_isNameChar_of_isPlainName plain) stop).1, apart, plain]
    rfl

theorem opensWith_placeholder : OpensWith '@' placeholder := by
  intro before cs n name read
  obtain ⟨rest, whole, size, -, plain, -⟩ := placeholder_eq_some_iff.mp read
  exact ⟨name, rest, whole, size,
    fun sign => absurd (all_isNameChar_of_isPlainName plain '@' sign) (by decide)⟩

end ReportQuery.Sql
