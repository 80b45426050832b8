import ReportQuery.Proofs.Sql.OutsideGroups

set_option autoImplicit false
set_option relaxedAutoImplicit false

/-!
A keyword that is found in the code of a statement stands in the statement itself. Stripping, masking
and taking out groups put characters of no word in place of parts that begin with such a character
and behind which no word goes on, so that no word comes about where there was none.
-/

namespace ReportQuery.Sql

open Text

variable {α : Type} {matcher : Matcher α} {f : List Char → α → List Char} {keywords : List String}
  {c first last : Char} {n : Nat} {cs left right source middle rest : List Char}

section Fenced

/-- A part of a text that begins with a character of no word, and behind which no word goes on. -/
structure IsFenced (source rest : List Char) : Prop where
  front : ∀ c ∈ source.head?, isIdentifierChar c = false
  back : startsApart rest ∨ ∀ c ∈ source.getLast?, isIdentifierChar c = false

/-- The matches of a matcher are fenced off from the text around them. -/
def Fences (matcher : Matcher α) : Prop :=
  ∀ before c cs n a, matcher before (c :: cs) = some (n + 1, a) →
    IsFenced ((c :: cs).take (n + 1)) (cs.drop n)

/-- What is put in place of a part of a text: characters of no word. -/
def IsBlanking (f : List Char → α → List Char) : Prop :=
  ∀ source a, f source a ≠ [] ∧ ∀ c ∈ f source a, isIdentifierChar c = false

/-- Where the text behind begins with a character of no word, keywords are looked for apart. -/
theorem containsWord_append_apart (words : areKeywords keywords) (apart : startsApart right) :
    containsWord keywords (left ++ right) ↔
      containsWord keywords left ∨ containsWord keywords right := by
  cases right with
  | nil => rw [List.append_nil, or_iff_left (containsWord_nil words)]
  | cons c right =>
    have mark : isIdentifierChar c = false := by simpa [startsApart] using apart
    have behind : containsWord keywords ([] ++ c :: right) ↔ _ := containsWord_append_cons words mark
    rw [List.nil_append, or_iff_right (containsWord_nil words)] at behind
    rw [containsWord_append_cons words mark, behind]

theorem startsApart_append (nonempty : source ≠ [])
    (front : ∀ c ∈ source.head?, isIdentifierChar c = false) : startsApart (source ++ rest) := by
  obtain ⟨c, cs, rfl⟩ := List.exists_cons_of_ne_nil nonempty
  simp [startsApart, front c rfl]

/-- A keyword behind a part that is fenced off stands in the text with this part. -/
theorem IsFenced.containsWord_append (fenced : IsFenced source rest) (words : areKeywords keywords)
    (contains : containsWord keywords rest) : containsWord keywords (source ++ rest) := by
  rcases fenced.back with apart | marked
  · exact (containsWord_append_apart words apart).mpr (.inr contains)
  · rcases List.eq_nil_or_concat source with rfl | ⟨init, last, rfl⟩
    · exact contains
    · rw [List.concat_eq_append] at marked ⊢
      have mark : isIdentifierChar last = false := marked last List.getLast?_concat
      rw [List.append_assoc, List.singleton_append]
      exact (containsWord_append_cons words mark).mpr (.inr contains)

/-- No keyword comes about where fenced parts are blanked. -/
theorem containsWord_of_pieces (words : areKeywords keywords) (fences : Fences matcher)
    (blanks : IsBlanking f) (before : Option Char) (run : List Char)
    (contains : containsWord keywords (run ++ (pieces matcher before cs).flatMap (·.replaced f))) :
    containsWord keywords (run ++ cs) := by
  fun_induction pieces matcher before cs generalizing run with
  | case1 => exact contains
  | case2 before c cs n a hit ih =>
    obtain ⟨nonempty, marks⟩ := blanks ((c :: cs).take (n + 1)) a
    have fenced := fences before c cs n a hit
    have whole : (c :: cs).take (n + 1) ++ cs.drop n = c :: cs := by simp
    have opens : startsApart (c :: cs) := by
      rw [← whole]
      exact startsApart_append (by simp) fenced.front
    rw [List.flatMap_cons, Piece.replaced, containsWord_append_apart words (startsApart_append nonempty
      fun d here => marks d (List.mem_of_head? here)), containsWord_marks_append words marks] at contains
    rw [containsWord_append_apart words opens]
    refine contains.imp id fun later => ?_
    have behind : containsWord keywords (cs.drop n) := ih [] later
    rw [← whole]
    exact fenced.containsWord_append words behind
  | case3 before c cs miss ih =>
    rw [List.flatMap_cons, Piece.replaced, ← List.append_assoc] at contains
    rw [List.append_cons]
    exact ih (run ++ [c]) contains

theorem containsWord_of_replaceAll (words : areKeywords keywords) (fences : Fences matcher)
    (blanks : IsBlanking f) (contains : containsWord keywords (replaceAll matcher f cs)) :
    containsWord keywords cs :=
  containsWord_of_pieces words fences blanks none [] contains

end Fenced

section Matchers

/-- A match between two characters of no word is fenced off. -/
private theorem isFenced_between (whole : c :: cs = first :: (middle ++ last :: rest))
    (size : n + 1 = middle.length + 2) (opens : isIdentifierChar first = false)
    (closes : isIdentifierChar last = false) :
    IsFenced ((c :: cs).take (n + 1)) (cs.drop n) := by
  have taken : (c :: cs).take (n + 1) = first :: (middle ++ [last]) := by
    rw [whole, size, List.append_cons, ← List.cons_append]
    exact List.take_left' (by simp)
  rw [taken]
  constructor
  · simpa using opens
  · right
    rw [← List.cons_append, List.getLast?_concat]
    simpa using closes

theorem fences_blockComment : Fences blockComment := by
  intro before c cs n a hit
  unfold blockComment at hit
  split at hit
  · rename_i inside whole
    obtain ⟨m, ends, same⟩ := Option.map_eq_some_iff.mp hit
    obtain ⟨middle, rest, rfl, rfl, -⟩ := blockCommentEnd?_eq_some ends
    have enclosed : '/' :: '*' :: (middle ++ '*' :: '/' :: rest) =
        '/' :: (('*' :: (middle ++ ['*'])) ++ '/' :: rest) := by simp
    refine isFenced_between (whole.trans enclosed) ?_ (by decide) (by decide)
    have size := (Prod.mk.inj same).1
    simp
    omega
  · cases hit

theorem fences_lineComment : Fences lineComment := by
  intro before c cs n a hit
  unfold lineComment at hit
  split at hit
  · rename_i inside whole
    obtain ⟨rfl, rfl⟩ := List.cons.inj whole
    have size : (inside.takeWhile (· != '\n')).length + 1 = n := by
      have := (Prod.mk.inj (Option.some.inj hit)).1
      omega
    constructor
    · simp
      decide
    · left
      rw [← size, List.drop_succ_cons, drop_length_takeWhile]
      have stops := List.head?_dropWhile_not (· != '\n') inside
      cases behind : inside.dropWhile (· != '\n') with
      | nil => rfl
      | cons d ds =>
        rw [behind] at stops
        obtain rfl : d = '\n' := by simpa using stops
        rfl
  · cases hit

theorem fences_quotedSegment {quote : Char} (mark : isIdentifierChar quote = false) :
    Fences (quotedSegment quote) := by
  intro before c cs n a hit
  obtain ⟨m, segment, same⟩ := Option.map_eq_some_iff.mp hit
  obtain ⟨middle, rest, whole, rfl⟩ := Quoted.segment?_eq_some segment
  exact isFenced_between whole (Prod.mk.inj same).1.symm mark mark

theorem fences_innermostGroup : Fences innermostGroup := by
  intro before c cs n a hit
  obtain ⟨rfl, middle, rest, rfl, -, size⟩ := exists_of_innermostGroup hit
  exact isFenced_between rfl size (by decide) (by decide)

end Matchers

section Code

theorem containsWord_of_stripLiterals (words : areKeywords keywords)
    (contains : containsWord keywords (stripLiterals cs)) : containsWord keywords cs := by
  have blank : IsBlanking fun (_ : List Char) (_ : Unit) => [' '] := by
    intro source a
    simp
    decide
  have quotes : IsBlanking fun (_ : List Char) (_ : Unit) => ['\'', '\''] := by
    intro source a
    simp
    decide
  refine containsWord_of_replaceAll words fences_blockComment blank ?_
  refine containsWord_of_replaceAll words fences_lineComment blank ?_
  exact containsWord_of_replaceAll words (fences_quotedSegment (by decide)) quotes contains

theorem containsWord_of_maskQuoted (words : areKeywords keywords)
    (contains : containsWord keywords (maskQuoted cs)) : containsWord keywords cs := by
  refine containsWord_of_replaceAll words (fences_quotedSegment (by decide)) (fun source a => ?_)
    contains
  refine ⟨by simp, fun c member => ?_⟩
  simp only [List.mem_cons, List.mem_append, List.mem_replicate, List.not_mem_nil, or_false]
    at member
  rcases member with (rfl | ⟨-, rfl⟩) | rfl <;> decide

theorem containsWord_of_collapseGroups (words : areKeywords keywords)
    (contains : containsWord keywords (collapseGroups cs)) : containsWord keywords cs := by
  have blank : IsBlanking fun (_ : List Char) (_ : Unit) => [' '] := by
    intro source a
    simp
    decide
  fun_induction collapseGroups cs with
  | case1 cs shorter ih =>
    exact containsWord_of_replaceAll words fences_innermostGroup blank (ih contains)
  | case2 cs same => exact contains

/-- A LIMIT that the test finds stands in the text, be it in a comment, a quoted part or a group. -/
theorem containsWord_of_hasLimit (found : hasLimit cs) : containsWord ["LIMIT"] cs := by
  have words : areKeywords ["LIMIT"] := by decide
  exact containsWord_of_stripLiterals words
    (containsWord_of_maskQuoted words (containsWord_of_collapseGroups words found))

end Code

end ReportQuery.Sql
