import ReportQuery.Proofs.Sql.BlockPass
import ReportQuery.Proofs.Sql.LinePass

set_option autoImplicit false
set_option relaxedAutoImplicit false

/-!
A string literal on its way through the first two passes. What is blanked in it ends between two
pairs of quotes, so it stays a literal with the quotes it had at its ends.
-/

namespace ReportQuery.Sql

open Text (Piece Matcher pieces flatMap_source_pieces Quoted.Paired)

variable {quote c : Char} {cs front inside rest : List Char} {ps : List (Piece Unit)}

/-- After a character other than the quote the pairs start anew. -/
theorem paired_of_append (other : c ≠ quote) (paired : Quoted.Paired quote (front ++ c :: rest)) :
    Quoted.Paired quote (c :: rest) := by
  generalize whole : front ++ c :: rest = all at paired
  induction paired generalizing front with
  | nil => simp at whole
  | @pair ds _ ih =>
    cases front with
    | nil => exact absurd (List.cons.inj whole).1 other
    | cons d front =>
      cases front with
      | nil => exact absurd (List.cons.inj (List.cons.inj whole).2).1 other
      | cons e front => exact ih (List.cons.inj (List.cons.inj whole).2).2
  | @other d ds different paired ih =>
    cases front with
    | nil =>
      rw [List.nil_append] at whole
      rw [whole]
      exact .other different paired
    | cons e front => exact ih (List.cons.inj whole).2

theorem paired_tail (other : c ≠ quote) (paired : Quoted.Paired quote (c :: rest)) :
    Quoted.Paired quote rest := by
  cases paired with
  | pair _ => exact absurd rfl other
  | other _ paired => exact paired

/-- A stretch of paired quotes before a quote that closes it, cut by a pass that blanks matches:
the closing quote is left alone, and the quotes before it stay in pairs. -/
def KeepsPairs (matcher : Matcher Unit) (inside : List Char) : Prop :=
  ∃ mid, pieces matcher none (inside ++ ['\'']) = mid ++ [.plain '\''] ∧
    mid.flatMap Piece.source = inside ∧
    Quoted.Paired '\'' (mid.flatMap (·.replaced fun _ _ => [' ']))

variable {matcher : Matcher Unit}

private theorem KeepsPairs.plain (keeps : KeepsPairs matcher cs) (other : c ≠ '\'')
    (cut : pieces matcher none (c :: (cs ++ ['\''])) =
      .plain c :: pieces matcher none (cs ++ ['\''])) : KeepsPairs matcher (c :: cs) := by
  obtain ⟨mid, rest_cut, whole, paired⟩ := keeps
  refine ⟨.plain c :: mid, ?_, ?_, ?_⟩
  · rw [List.cons_append, cut, rest_cut, List.cons_append]
  · rw [List.flatMap_cons, whole]
    rfl
  · exact .other other paired

private theorem KeepsPairs.pair (keeps : KeepsPairs matcher cs)
    (quote : ∀ ds, pieces matcher none ('\'' :: ds) = .plain '\'' :: pieces matcher none ds) :
    KeepsPairs matcher ('\'' :: '\'' :: cs) := by
  obtain ⟨mid, rest_cut, whole, paired⟩ := keeps
  refine ⟨.plain '\'' :: .plain '\'' :: mid, ?_, ?_, ?_⟩
  · rw [List.cons_append, List.cons_append, quote, quote, rest_cut]
    rfl
  · rw [List.flatMap_cons, List.flatMap_cons, whole]
    rfl
  · exact .pair paired

private theorem KeepsPairs.found (keeps : KeepsPairs matcher cs) (source : List Char)
    (cut : pieces matcher none (source ++ (cs ++ ['\''])) =
      .found source () :: pieces matcher none (cs ++ ['\''])) :
    KeepsPairs matcher (source ++ cs) := by
  obtain ⟨mid, rest_cut, whole, paired⟩ := keeps
  refine ⟨.found source () :: mid, ?_, ?_, ?_⟩
  · rw [List.append_assoc, cut, rest_cut, List.cons_append]
  · rw [List.flatMap_cons, whole]
    rfl
  · exact .other (by decide) paired

private theorem keepsPairs_nil
    (quote : ∀ ds, pieces matcher none ('\'' :: ds) = .plain '\'' :: pieces matcher none ds) :
    KeepsPairs matcher [] := by
  refine ⟨[], ?_, rfl, .nil⟩
  rw [List.nil_append, quote]
  simp

theorem keepsPairs_blockComment (paired : Quoted.Paired '\'' inside) :
    KeepsPairs blockComment inside := by
  have quote : ∀ ds, pieces blockComment none ('\'' :: ds) =
      .plain '\'' :: pieces blockComment none ds :=
    fun ds => pieces_blockComment_plain (by simp)
  induction size : inside.length using Nat.strongRecOn generalizing inside with
  | ind n ih =>
    subst size
    cases paired with
    | nil => exact keepsPairs_nil quote
    | pair paired => exact (ih _ (by simp only [List.length_cons]; omega) paired rfl).pair quote
    | @other c cs other paired =>
      have others := ih cs.length (by simp) paired rfl
      by_cases opens : c = '/' ∧ (cs ++ ['\'']).head? = some '*'
      · obtain ⟨rfl, next⟩ := opens
        obtain ⟨ws, rfl⟩ : ∃ ws, cs = '*' :: ws := by
          cases cs with
          | nil => simp at next
          | cons d ds => exact ⟨ds, by rw [show d = '*' by simpa using next]⟩
        cases ends : blockCommentEnd? (ws ++ ['\'']) with
        | none =>
          exact others.plain other
            (pieces_blockComment_unclosed (blockCommentEnd?_eq_none_iff.mp ends))
        | some m =>
          obtain ⟨inside, after, whole, -, unclosed⟩ := blockCommentEnd?_eq_some ends
          rcases List.eq_nil_or_concat' after with rfl | ⟨rest, d, rfl⟩
          · have last := congrArg List.getLast? whole
            simp at last
          · have both : ws ++ ['\''] = (inside ++ '*' :: '/' :: rest) ++ [d] := by simpa using whole
            obtain ⟨rfl, same⟩ := List.append_inj' both rfl
            obtain rfl : '\'' = d := by simpa using same
            have after_mark : Quoted.Paired '\'' rest := by
              have all : Quoted.Paired '\''
                  (('/' :: '*' :: inside ++ ['*']) ++ '/' :: rest) := by
                simpa using Quoted.Paired.other other paired
              exact paired_tail (by decide) (paired_of_append (by decide) all)
            have cut := pieces_blockComment_closed unclosed (rest ++ ['\''])
            have found := (ih rest.length (by simp; omega) after_mark rfl).found
              ('/' :: '*' :: (inside ++ ['*', '/'])) (by simpa using cut)
            simpa using found
      · exact others.plain other (pieces_blockComment_plain opens)

theorem keepsPairs_lineComment (paired : Quoted.Paired '\'' inside)
    (ended : opensLine (inside ++ ['\'']) = false) : KeepsPairs lineComment inside := by
  have quote : ∀ ds, pieces lineComment none ('\'' :: ds) =
      .plain '\'' :: pieces lineComment none ds :=
    fun ds => pieces_lineComment_plain (by simp)
  induction size : inside.length using Nat.strongRecOn generalizing inside with
  | ind n ih =>
    subst size
    cases paired with
    | nil => exact keepsPairs_nil quote
    | @pair cs paired =>
      have shorter : cs.length < ('\'' :: '\'' :: cs).length := by
        simp only [List.length_cons]
        omega
      exact (ih _ shorter paired (by simpa [opensLine] using ended) rfl).pair quote
    | @other c cs other paired =>
      have rest_ended : opensLine (cs ++ ['\'']) = false := by
        rw [List.cons_append, opensLine, Bool.or_eq_false_iff] at ended
        exact ended.2
      by_cases opens : c = '-' ∧ (cs ++ ['\'']).head? = some '-'
      · obtain ⟨rfl, next⟩ := opens
        obtain ⟨ws, rfl⟩ : ∃ ws, cs = '-' :: ws := by
          cases cs with
          | nil => simp at next
          | cons d ds => exact ⟨ds, by rw [show d = '-' by simpa using next]⟩
        have line : '\n' ∈ ws := by
          by_contra unended
          simp [opensLine, unended] at ended
        obtain ⟨inside, after, rfl, unended⟩ := List.eq_append_cons_of_mem line
        have from_line : Quoted.Paired '\'' ('\n' :: after) := by
          have all : Quoted.Paired '\'' (('-' :: '-' :: inside) ++ '\n' :: after) :=
            .other other paired
          exact paired_of_append (by decide) all
        have after_ended : opensLine ('\n' :: after ++ ['\'']) = false := by
          have all : opensLine (('-' :: '-' :: inside) ++ '\n' :: (after ++ ['\''])) = false := by
            simpa using ended
          rwa [opensLine_append_line] at all
        have cut : pieces lineComment none ('-' :: '-' :: (inside ++ '\n' :: (after ++ ['\'']))) =
            .found ('-' :: '-' :: inside) () :: pieces lineComment none ('\n' :: (after ++ ['\''])) :=
          pieces_lineComment_found unended (.inr rfl)
        have found := (ih ('\n' :: after).length (by simp; omega) from_line after_ended rfl).found
          ('-' :: '-' :: inside) (by simpa using cut)
        simpa using found
      · exact (ih cs.length (by simp) paired rest_ended rfl).plain other
          (pieces_lineComment_plain opens)

/-- A pass that keeps the pairs inside a literal keeps both of its ends. -/
theorem KeepsPairs.pass_eq (keeps : KeepsPairs matcher inside)
    (quote : ∀ ds, pieces matcher none ('\'' :: ds) = .plain '\'' :: pieces matcher none ds)
    {first last : Traced} {mid : List Traced} (opens : first.char = '\'')
    (closes : last.char = '\'') (shows : mid.map Traced.char = inside) :
    ∃ passed, pass matcher toBlank (first :: (mid ++ [last])) = first :: (passed ++ [last]) ∧
      Quoted.Paired '\'' (passed.map Traced.char) := by
  obtain ⟨ps, cut, whole, paired⟩ := keeps
  refine ⟨regroup toBlank ps mid, ?_, ?_⟩
  · have text : (first :: (mid ++ [last])).map Traced.char = '\'' :: (inside ++ ['\'']) := by
      simp [opens, closes, shows]
    have size : (ps.flatMap Piece.source).length = mid.length := by
      rw [whole, ← shows, List.length_map]
    have parts : regroup toBlank (ps ++ [.plain '\'']) (mid ++ [last]) =
        regroup toBlank ps mid ++ [last] :=
      regroup_append size
    rw [pass, text, quote, cut, regroup]
    exact congrArg (first :: ·) parts
  · have replaced : (regroup toBlank ps mid).map Traced.char =
        ps.flatMap (·.replaced fun _ _ => [' ']) := by
      refine map_char_regroup (fun source member part shown => ?_) (shows.trans whole.symm)
      have among : .found source () ∈ pieces matcher none (inside ++ ['\'']) := by
        rw [cut]
        exact List.mem_append_left _ member
      exact map_char_toBlank among shown
    rwa [replaced]

end ReportQuery.Sql
