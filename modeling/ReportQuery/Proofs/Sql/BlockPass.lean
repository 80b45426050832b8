import ReportQuery.Proofs.Sql.Trace

set_option autoImplicit false
set_option relaxedAutoImplicit false

/-!
The first pass of stripping, which looks for block comments wherever they may stand. On a stretch of
text it either finds the comments that lie in it, or a comment begins there and ends only later.
-/

namespace ReportQuery.Sql

open Text (Piece pieces pieces_nil pieces_before pieces_append_of_match pieces_of_none replaceAll)

variable {c : Char} {cs front back inside rest : List Char} {before : Option Char}

theorem blockCommentEnd?_cons (c : Char) (cs : List Char) :
    blockCommentEnd? (c :: cs) =
      if c = '*' ∧ cs.head? = some '/' then some 2 else (blockCommentEnd? cs).map (· + 1) := by
  rw [blockCommentEnd?.eq_def]
  split
  · simp_all
  · rename_i d ds whole
    obtain ⟨rfl, rfl⟩ := List.cons.inj whole
    split
    · simp
    · rename_i other
      have goes_on : ¬ (c = '*' ∧ cs.head? = some '/') := by
        rintro ⟨star, slash⟩
        exact other cs.tail star (List.cons_head?_tail slash).symm
      rw [if_neg goes_on]

theorem blockCommentEnd?_eq_none_iff : blockCommentEnd? cs = none ↔ ¬ ['*', '/'] <:+: cs := by
  induction cs with
  | nil => simp [blockCommentEnd?]
  | cons c cs ih =>
    have front_iff : ['*', '/'] <+: c :: cs ↔ c = '*' ∧ cs.head? = some '/' := by
      cases cs <;> simp [eq_comm]
    rw [blockCommentEnd?_cons, List.infix_cons_iff, front_iff, not_or, ← ih]
    split <;> simp_all

theorem blockCommentEnd?_append (unclosed : ¬ ['*', '/'] <:+: inside) (rest : List Char) :
    blockCommentEnd? (inside ++ '*' :: '/' :: rest) = some (inside.length + 2) := by
  induction inside with
  | nil => simp [blockCommentEnd?_cons]
  | cons c cs ih =>
    rw [List.infix_cons_iff, not_or] at unclosed
    have goes_on : ¬ (c = '*' ∧ (cs ++ '*' :: '/' :: rest).head? = some '/') := by
      rintro ⟨rfl, slash⟩
      cases cs with
      | nil => simp at slash
      | cons d ds =>
        obtain rfl : d = '/' := by simpa using slash
        exact unclosed.1 (by simp)
    rw [List.cons_append, blockCommentEnd?_cons, if_neg goes_on, ih unclosed.2]
    simp

theorem blockCommentEnd?_eq_some {n : Nat} (ends : blockCommentEnd? cs = some n) :
    ∃ inside rest, cs = inside ++ '*' :: '/' :: rest ∧ n = inside.length + 2 ∧
      ¬ ['*', '/'] <:+: inside := by
  induction cs generalizing n with
  | nil => cases ends
  | cons c cs ih =>
    rw [blockCommentEnd?_cons] at ends
    split at ends
    · rename_i here
      obtain rfl := Option.some.inj ends
      refine ⟨[], cs.tail, ?_, rfl, by simp⟩
      rw [here.1, List.nil_append, List.cons_head?_tail here.2]
    · rename_i goes_on
      obtain ⟨m, later, rfl⟩ := Option.map_eq_some_iff.mp ends
      obtain ⟨inside, rest, rfl, rfl, unclosed⟩ := ih later
      refine ⟨c :: inside, rest, rfl, rfl, fun here => ?_⟩
      rcases List.infix_cons_iff.mp here with first | later
      · cases inside with
        | nil => simp at first
        | cons d ds =>
          obtain ⟨rfl, rfl⟩ : '*' = c ∧ '/' = d := by simpa using first
          exact goes_on ⟨rfl, rfl⟩
      · exact unclosed later

private theorem blockComment_blind (before : Option Char) (cs : List Char) :
    blockComment before cs = blockComment none cs := by
  unfold blockComment
  split <;> simp_all

private theorem blockComment_eq_none (other : ¬ (c = '/' ∧ cs.head? = some '*')) :
    blockComment before (c :: cs) = none := by
  unfold blockComment
  split
  · rename_i tail whole
    obtain ⟨rfl, rfl⟩ := List.cons.inj whole
    exact absurd ⟨rfl, rfl⟩ other
  · rfl

theorem pieces_blockComment_plain (other : ¬ (c = '/' ∧ cs.head? = some '*')) :
    pieces blockComment none (c :: cs) = .plain c :: pieces blockComment none cs := by
  rw [pieces_of_none (blockComment_eq_none other), pieces_before blockComment_blind]

/-- A closed block comment is found where it opens. -/
theorem pieces_blockComment_closed (unclosed : ¬ ['*', '/'] <:+: inside) (rest : List Char) :
    pieces blockComment none ('/' :: '*' :: (inside ++ '*' :: '/' :: rest)) =
      .found ('/' :: '*' :: (inside ++ ['*', '/'])) () :: pieces blockComment none rest := by
  have hit : blockComment none ('/' :: '*' :: (inside ++ ['*', '/']) ++ rest) =
      some (('/' :: '*' :: (inside ++ ['*', '/'])).length, ()) := by
    simp [blockComment, blockCommentEnd?_append unclosed]
  have cut := pieces_append_of_match (by simp) hit
  rw [pieces_before blockComment_blind (List.getLast? _)] at cut
  simpa using cut

theorem pieces_blockComment_unclosed (unclosed : ¬ ['*', '/'] <:+: cs) :
    pieces blockComment none ('/' :: '*' :: cs) =
      .plain '/' :: pieces blockComment none ('*' :: cs) := by
  have miss : blockComment none ('/' :: '*' :: cs) = none := by
    simp [blockComment, blockCommentEnd?_eq_none_iff.mpr unclosed]
  rw [pieces_of_none miss, pieces_before blockComment_blind]

/-- The text after the first pass. -/
def blankBlocks (cs : List Char) : List Char :=
  replaceAll blockComment (fun _ _ => [' ']) cs

/-- A block comment opens in the text that does not close in it. -/
def OpensBlock (cs : List Char) : Prop :=
  ['/', '*'] <:+: blankBlocks cs

/-- A block comment can close in the text. -/
def ClosesBlock (cs : List Char) : Prop :=
  ['*', '/'] <:+: cs

private theorem blankBlocks_plain
    (plain : pieces blockComment none (c :: cs) = .plain c :: pieces blockComment none cs) :
    blankBlocks (c :: cs) = c :: blankBlocks cs := by
  rw [blankBlocks, replaceAll, plain]
  rfl

private theorem blankBlocks_closed (unclosed : ¬ ['*', '/'] <:+: inside) (rest : List Char) :
    blankBlocks ('/' :: '*' :: (inside ++ '*' :: '/' :: rest)) = ' ' :: blankBlocks rest := by
  rw [blankBlocks, replaceAll, pieces_blockComment_closed unclosed]
  rfl

private theorem blankBlocks_nil : blankBlocks [] = [] := by
  simp [blankBlocks, replaceAll]

/-- Of a text at whose front no match is found the first character stays. -/
private theorem head?_of_blankBlocks (star : (blankBlocks cs).head? = some '*') :
    cs.head? = some '*' := by
  cases cs with
  | nil => simp [blankBlocks_nil] at star
  | cons c cs =>
    rw [blankBlocks, replaceAll, pieces] at star
    split at star
    · simp [Piece.replaced] at star
    · simpa [Piece.replaced] using star

private theorem opensBlock_plain
    (plain : pieces blockComment none (c :: cs) = .plain c :: pieces blockComment none cs)
    (other : ¬ (c = '/' ∧ cs.head? = some '*')) : OpensBlock (c :: cs) ↔ OpensBlock cs := by
  unfold OpensBlock
  rw [blankBlocks_plain plain, List.infix_cons_iff]
  refine or_iff_right fun first => other ?_
  cases blanked : blankBlocks cs with
  | nil => simp [blanked] at first
  | cons d ds =>
    obtain ⟨rfl, rfl⟩ : '/' = c ∧ '*' = d := by simpa [blanked] using first
    exact ⟨rfl, head?_of_blankBlocks (by simp [blanked])⟩

private theorem opensBlock_closed (unclosed : ¬ ['*', '/'] <:+: inside) (rest : List Char) :
    OpensBlock ('/' :: '*' :: (inside ++ '*' :: '/' :: rest)) ↔ OpensBlock rest := by
  unfold OpensBlock
  rw [blankBlocks_closed unclosed, List.infix_cons_iff]
  exact or_iff_right (by simp)

private theorem opensBlock_unclosed (unclosed : ¬ ['*', '/'] <:+: cs) :
    OpensBlock ('/' :: '*' :: cs) := by
  have star : blankBlocks ('*' :: cs) = '*' :: blankBlocks cs :=
    blankBlocks_plain (pieces_blockComment_plain (by simp))
  unfold OpensBlock
  rw [blankBlocks_plain (pieces_blockComment_unclosed unclosed), star]
  exact ⟨[], blankBlocks cs, rfl⟩

private theorem not_opensBlock_nil : ¬ OpensBlock [] := by
  simp [OpensBlock, blankBlocks_nil]

/-- An end mark that only the two parts together have stands in the second part, unless it is cut. -/
private theorem closesBlock_of_append {after : List Char} {n : Nat}
    (none_front : ¬ ['*', '/'] <:+: front) (ends : blockCommentEnd? (front ++ after) = some n)
    (uncut : front.getLast? = some '*' → after.head? ≠ some '/') :
    ClosesBlock after ∧ front.length + 2 ≤ n := by
  obtain ⟨inside, rest, whole, rfl, -⟩ := blockCommentEnd?_eq_some ends
  rcases List.append_eq_append_iff.mp whole with ⟨between, rfl, rfl⟩ | ⟨between, rfl, marks⟩
  · refine ⟨⟨between, rest, by simp⟩, ?_⟩
    rw [List.length_append]
    omega
  · cases between with
    | nil =>
      refine ⟨⟨[], rest, by simpa using marks⟩, by simp⟩
    | cons c between =>
      obtain ⟨rfl, tail⟩ := List.cons.inj marks
      cases between with
      | nil =>
        refine absurd ?_ (uncut (by simp))
        rw [show after = '/' :: rest from tail.symm]
        rfl
      | cons d between =>
        obtain ⟨rfl, -⟩ := List.cons.inj tail
        exact absurd ⟨inside, between, by simp⟩ none_front

/-- On two parts of a text the pass works apart, unless a block comment that opens in the first
part closes in the second: then it covers the characters on both sides of the cut. -/
private theorem splits_blockComment (front back : List Char)
    (slash : front.getLast? = some '/' → back.head? ≠ some '*')
    (star : front.getLast? = some '*' → back.head? ≠ some '/') :
    Splits blockComment 1 (fun front => OpensBlock front ∧ ClosesBlock back) front back := by
  induction size : front.length using Nat.strongRecOn generalizing front with
  | ind n ih =>
    subst size
    have nonempty : ¬ (OpensBlock [] ∧ ClosesBlock back) := fun opens => not_opensBlock_nil opens.1
    cases front with
    | nil => exact .inl ⟨nonempty, by simp⟩
    | cons c cs =>
      have last : ∀ ds d, ds <:+ c :: cs → ds.getLast? = some d → (c :: cs).getLast? = some d := by
        rintro ds d ⟨first, whole⟩ found
        rw [← whole, List.getLast?_append, found]
        rfl
      have rest_splits : ∀ ds, ds <:+ c :: cs → ds.length < (c :: cs).length →
          Splits blockComment 1 (fun front => OpensBlock front ∧ ClosesBlock back) ds back :=
        fun ds suffix shorter => ih _ shorter ds (fun h => slash (last ds _ suffix h))
          (fun h => star (last ds _ suffix h)) rfl
      by_cases opens : c = '/' ∧ cs.head? = some '*'
      · obtain ⟨rfl, next⟩ := opens
        obtain ⟨ws, rfl⟩ : ∃ ws, cs = '*' :: ws := ⟨cs.tail, (List.cons_head?_tail next).symm⟩
        cases alone : blockCommentEnd? ws with
        | some m =>
          obtain ⟨inside, rest, rfl, -, unclosed⟩ := blockCommentEnd?_eq_some alone
          have splits := rest_splits rest ⟨'/' :: '*' :: (inside ++ ['*', '/']), by simp⟩ (by simp; omega)
          have whole : '/' :: '*' :: (inside ++ '*' :: '/' :: rest) =
              ('/' :: '*' :: (inside ++ ['*', '/'])) ++ rest := by simp
          rw [whole]
          refine splits.of_piece (.found _ ()) rfl ?_ ?_ nonempty ?_
          · rw [← whole, pieces_blockComment_closed unclosed]
          · rw [← pieces_blockComment_closed unclosed]
            simp
          · rw [← whole, opensBlock_closed unclosed]
        | none =>
          have unclosed := blockCommentEnd?_eq_none_iff.mp alone
          have opensHere : OpensBlock ('/' :: '*' :: ws) := opensBlock_unclosed unclosed
          cases together : blockCommentEnd? (ws ++ back) with
          | none =>
            have never := blockCommentEnd?_eq_none_iff.mp together
            have notClosed : ¬ ClosesBlock back := fun closes =>
              never (closes.trans (List.suffix_append ws back).isInfix)
            refine (rest_splits ('*' :: ws) (List.suffix_cons _ _) (by simp)).of_piece
              (.plain '/') rfl (pieces_blockComment_unclosed unclosed)
              (pieces_blockComment_unclosed never) nonempty ?_
            simp [notClosed]
          | some m =>
            have uncut : ws.getLast? = some '*' → back.head? ≠ some '/' := fun found =>
              star (last ws '*' ⟨['/', '*'], rfl⟩ found)
            obtain ⟨closes, long⟩ := closesBlock_of_append unclosed together uncut
            obtain ⟨inside, rest, whole, size, unclosed'⟩ := blockCommentEnd?_eq_some together
            have covered : ∀ i < m + 2,
                Covers (pieces blockComment none ('/' :: '*' :: (ws ++ back))) i := by
              intro i bound
              rw [whole, pieces_blockComment_closed unclosed']
              refine covers_found ?_
              simp only [List.length_cons, List.length_append, List.length_nil]
              omega
            refine .inr ⟨⟨opensHere, closes⟩, fun i low high => covered i ?_⟩
            simp only [List.length_cons] at high
            omega
      · have other : ¬ (c = '/' ∧ (cs ++ back).head? = some '*') := by
          rintro ⟨rfl, next⟩
          cases cs with
          | nil => exact slash rfl next
          | cons d ds => exact opens ⟨rfl, next⟩
        refine (rest_splits cs (List.suffix_cons _ _) (by simp)).of_piece (.plain c) rfl
          (pieces_blockComment_plain opens) (pieces_blockComment_plain other) nonempty ?_
        exact and_congr_left' (opensBlock_plain (pieces_blockComment_plain opens) opens)

variable {front back : List Char}

/-- Unless a block comment reaches from the first part into the second, the pass works apart. -/
theorem pieces_blockComment_append (slash : front.getLast? = some '/' → back.head? ≠ some '*')
    (star : front.getLast? = some '*' → back.head? ≠ some '/')
    (apart : ¬ (OpensBlock front ∧ ClosesBlock back)) :
    pieces blockComment none (front ++ back) =
      pieces blockComment none front ++ pieces blockComment none back := by
  rcases splits_blockComment front back slash star with ⟨-, cut⟩ | ⟨joined, -⟩
  · exact cut
  · exact absurd joined apart

/-- A block comment that opens in the first part and closes in the second covers both sides of the
cut. -/
theorem covers_blockComment (slash : front.getLast? = some '/' → back.head? ≠ some '*')
    (star : front.getLast? = some '*' → back.head? ≠ some '/')
    (joined : OpensBlock front ∧ ClosesBlock back) :
    Covers (pieces blockComment none (front ++ back)) (front.length - 1) ∧
      Covers (pieces blockComment none (front ++ back)) front.length := by
  have nonempty : 0 < front.length := by
    refine List.length_pos_iff.mpr ?_
    rintro rfl
    exact not_opensBlock_nil joined.1
  rcases splits_blockComment front back slash star with ⟨apart, -⟩ | ⟨-, covered⟩
  · exact absurd joined apart
  · exact ⟨covered _ (by omega) (by omega), covered _ (by omega) (by omega)⟩

end ReportQuery.Sql
