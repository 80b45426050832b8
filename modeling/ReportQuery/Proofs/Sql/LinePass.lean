import Mathlib.Data.List.TakeWhile
import ReportQuery.Proofs.Sql.Trace

set_option autoImplicit false
set_option relaxedAutoImplicit false

/-!
The second pass of stripping, which looks for line comments wherever two dashes may stand. A
comment that begins in a stretch of text stays in it if a line ends there after the dashes.
-/

namespace ReportQuery.Sql

open Text (Piece pieces pieces_nil pieces_before pieces_append_of_match pieces_of_none findAll
  pieces_of_findAll_eq_nil exists_found_of_findAll_ne_nil)

variable {c : Char} {cs front back inside rest : List Char} {before : Option Char}

private theorem lineComment_blind (before : Option Char) (cs : List Char) :
    lineComment before cs = lineComment none cs := by
  unfold lineComment
  split <;> simp_all

private theorem lineComment_eq_none (other : ¬ (c = '-' ∧ cs.head? = some '-')) :
    lineComment before (c :: cs) = none := by
  unfold lineComment
  split
  · rename_i tail whole
    obtain ⟨rfl, rfl⟩ := List.cons.inj whole
    exact absurd ⟨rfl, rfl⟩ other
  · rfl

theorem pieces_lineComment_plain (other : ¬ (c = '-' ∧ cs.head? = some '-')) :
    pieces lineComment none (c :: cs) = .plain c :: pieces lineComment none cs := by
  rw [pieces_of_none (lineComment_eq_none other), pieces_before lineComment_blind]

/-- A line comment is found up to the end of its line. -/
theorem pieces_lineComment_found (line : '\n' ∉ inside)
    (ends : rest = [] ∨ rest.head? = some '\n') :
    pieces lineComment none ('-' :: '-' :: (inside ++ rest)) =
      .found ('-' :: '-' :: inside) () :: pieces lineComment none rest := by
  have all : ∀ c ∈ inside, (c != '\n') = true := by
    intro c member
    rw [bne_iff_ne]
    rintro rfl
    exact line member
  have stop : rest.takeWhile (· != '\n') = [] := by
    cases rest with
    | nil => rfl
    | cons d ds =>
      obtain rfl : d = '\n' := by simpa using ends
      simp
  have hit : lineComment none ('-' :: '-' :: inside ++ rest) =
      some (('-' :: '-' :: inside).length, ()) := by
    simp [lineComment, List.takeWhile_append_of_pos all, stop]
  have cut := pieces_append_of_match (by simp) hit
  rw [pieces_before lineComment_blind (List.getLast? _)] at cut
  simpa using cut

/-- Two dashes stand in the text after which no line ends in it. -/
def opensLine : List Char → Bool
  | [] => false
  | c :: cs => (c == '-' && cs.head? == some '-' && !cs.contains '\n') || opensLine cs

private theorem opensLine_plain (other : ¬ (c = '-' ∧ cs.head? = some '-')) :
    opensLine (c :: cs) = opensLine cs := by
  have closed : (c == '-' && cs.head? == some '-') = false := by
    simpa using other
  rw [opensLine, closed, Bool.false_and, Bool.false_or]

theorem opensLine_append_line (inside rest : List Char) :
    opensLine (inside ++ '\n' :: rest) = opensLine ('\n' :: rest) := by
  induction inside with
  | nil => rfl
  | cons c cs ih =>
    have ends : (cs ++ '\n' :: rest).contains '\n' = true := by simp
    rw [List.cons_append, opensLine, ends, Bool.not_true, Bool.and_false, Bool.false_or, ih]

/-- On two parts of a text the pass works apart, unless two dashes in the first part find no end of
the line there: then the comment covers the last character of that part. -/
private theorem splits_lineComment (front back : List Char)
    (dash : front.getLast? = some '-' → back.head? ≠ some '-') :
    Splits lineComment 0 (fun front => opensLine front = true) front back := by
  induction size : front.length using Nat.strongRecOn generalizing front with
  | ind n ih =>
    subst size
    have nonempty : ¬ opensLine [] = true := by simp [opensLine]
    cases front with
    | nil => exact .inl ⟨nonempty, by simp⟩
    | cons c cs =>
      have rest_splits : ∀ ds, ds <:+ c :: cs → ds.length < (c :: cs).length →
          Splits lineComment 0 (fun front => opensLine front = true) ds back := by
        rintro ds ⟨first, whole⟩ shorter
        refine ih _ shorter ds (fun found => dash ?_) rfl
        rw [← whole, List.getLast?_append, found]
        rfl
      by_cases opens : c = '-' ∧ cs.head? = some '-'
      · obtain ⟨rfl, next⟩ := opens
        obtain ⟨ws, rfl⟩ : ∃ ws, cs = '-' :: ws := ⟨cs.tail, (List.cons_head?_tail next).symm⟩
        by_cases line : '\n' ∈ ws
        · obtain ⟨inside, rest, rfl, unended⟩ := List.eq_append_cons_of_mem line
          have ends : ∀ more : List Char, '\n' :: more = [] ∨ ('\n' :: more).head? = some '\n' :=
            fun more => .inr rfl
          have found := pieces_lineComment_found unended (ends rest)
          have suffix : '\n' :: rest <:+ '-' :: '-' :: (inside ++ '\n' :: rest) :=
            ⟨'-' :: '-' :: inside, by simp⟩
          refine (rest_splits ('\n' :: rest) suffix (by simp; omega)).of_piece
            (.found ('-' :: '-' :: inside) ()) rfl found ?_ nonempty ?_
          · simpa [Piece.source] using pieces_lineComment_found unended (ends (rest ++ back))
          · exact iff_of_eq (congrArg (· = true) (opensLine_append_line ('-' :: '-' :: inside) rest))
        · have opensHere : opensLine ('-' :: '-' :: ws) = true := by
            simp [opensLine, line]
          have tail : ws ++ back = (ws ++ back.takeWhile (· != '\n')) ++ back.dropWhile (· != '\n') := by
            rw [List.append_assoc, List.takeWhile_append_dropWhile]
          have unended : '\n' ∉ ws ++ back.takeWhile (· != '\n') := by
            intro member
            rcases List.mem_append.mp member with early | late
            · exact line early
            · simpa using List.mem_takeWhile_imp late
          have ends : back.dropWhile (· != '\n') = [] ∨
              (back.dropWhile (· != '\n')).head? = some '\n' := by
            have stops := List.head?_dropWhile_not (· != '\n') back
            cases rest : back.dropWhile (· != '\n') with
            | nil => exact .inl rfl
            | cons d ds =>
              rw [rest] at stops
              exact .inr (by simpa using stops)
          refine .inr ⟨opensHere, fun i _ high => ?_⟩
          rw [List.cons_append, List.cons_append, tail, pieces_lineComment_found unended ends]
          refine covers_found ?_
          simp only [List.length_cons, List.length_append] at high ⊢
          omega
      · have other : ¬ (c = '-' ∧ (cs ++ back).head? = some '-') := by
          rintro ⟨rfl, next⟩
          cases cs with
          | nil => exact dash rfl next
          | cons d ds => exact opens ⟨rfl, next⟩
        refine (rest_splits cs (List.suffix_cons _ _) (by simp)).of_piece (.plain c) rfl
          (pieces_lineComment_plain opens) (pieces_lineComment_plain other) nonempty ?_
        exact iff_of_eq (congrArg (· = true) (opensLine_plain opens))

variable {front back : List Char}

/-- Unless two dashes in the first part find no end of the line there, the pass works apart. -/
theorem pieces_lineComment_append (dash : front.getLast? = some '-' → back.head? ≠ some '-')
    (apart : opensLine front = false) :
    pieces lineComment none (front ++ back) =
      pieces lineComment none front ++ pieces lineComment none back := by
  rcases splits_lineComment front back dash with ⟨-, cut⟩ | ⟨opens, -⟩
  · exact cut
  · rw [apart] at opens
    cases opens

/-- Two dashes after which no line ends in the first part take its last character away. -/
theorem covers_lineComment (dash : front.getLast? = some '-' → back.head? ≠ some '-')
    (opens : opensLine front = true) :
    Covers (pieces lineComment none (front ++ back)) (front.length - 1) := by
  have nonempty : 0 < front.length := by
    refine List.length_pos_iff.mpr ?_
    rintro rfl
    cases opens
  rcases splits_lineComment front back dash with ⟨closed, -⟩ | ⟨-, covered⟩
  · exact absurd opens closed
  · exact covered _ (by omega) (by omega)

/-- In a text without line comments no dashes wait for the end of a line. -/
theorem opensLine_of_findAll_eq_nil (nothing : findAll lineComment cs = []) :
    opensLine cs = false := by
  by_contra opens
  have covered : Covers (pieces lineComment none (cs ++ [])) (cs.length - 1) :=
    covers_lineComment (by simp) (by simpa using opens)
  rw [List.append_nil, pieces_of_findAll_eq_nil nothing] at covered
  obtain ⟨first, source, last, whole, -⟩ := covered
  have member : .found source () ∈ cs.map Piece.plain := by simp [whole]
  simp at member

end ReportQuery.Sql
