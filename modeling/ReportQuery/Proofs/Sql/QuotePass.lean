import ReportQuery.Proofs.Sql.Trace

set_option autoImplicit false
set_option relaxedAutoImplicit false

/-!
The third pass of stripping, which looks for string literals wherever a quote stands. A stretch of
other text keeps its quotes when they stand in lone pairs, which read as empty literals, or when no
quote follows that could close a literal.
-/

namespace ReportQuery.Sql

open Text (Piece pieces pieces_before pieces_append_of_match pieces_of_none replaceAll_eq_self
  Quoted.closing? Quoted.closing?_cons_of_ne Quoted.closing?_eq_none_iff Quoted.closing?_eq_some
  Quoted.segment? Quoted.segment?_eq_some Quoted.segment?_of_paired Quoted.Paired)

variable {c quote : Char} {cs front back inside rest : List Char} {ps qs : List (Piece Unit)}
  {ts us : List Traced}

private theorem quotedSegment_blind (before : Option Char) (cs : List Char) :
    quotedSegment quote before cs = quotedSegment quote none cs :=
  rfl

/-- A text without quotes behind it changes nothing about where a segment ends. -/
theorem closing?_append (unquoted : quote ∉ back) (cs : List Char) :
    Quoted.closing? quote (cs ++ back) = Quoted.closing? quote cs := by
  have unread : Quoted.closing? quote back = none := Quoted.closing?_eq_none_iff.mpr unquoted
  fun_induction Quoted.closing? quote cs with
  | case1 => exact unread
  | case2 =>
    cases back with
    | nil => simp [Quoted.closing?]
    | cons d ds =>
      have different : d ≠ quote := fun same => unquoted (by simp [same])
      simp [Quoted.closing?, different]
  | case3 ds n found ih => simp [Quoted.closing?, ih, found]
  | case4 ds missed ih => simp [Quoted.closing?, ih, missed]
  | case5 d ds different => simp [Quoted.closing?, different]
  | case6 c cs different ih =>
    rw [List.cons_append, Quoted.closing?_cons_of_ne _ different, ih]

/-- A segment that is read at the front is the first piece. -/
theorem pieces_quotedSegment_found {n : Nat} (read : Quoted.segment? quote cs = some n) :
    ∃ source rest, cs = source ++ rest ∧ source.length = n ∧
      pieces (quotedSegment quote) none cs =
        .found source () :: pieces (quotedSegment quote) none rest := by
  obtain ⟨inside, rest, rfl, rfl⟩ := Quoted.segment?_eq_some read
  have whole : quote :: (inside ++ quote :: rest) = quote :: (inside ++ [quote]) ++ rest := by simp
  have size : (quote :: (inside ++ [quote])).length = inside.length + 2 := by simp
  refine ⟨quote :: (inside ++ [quote]), rest, whole, size, ?_⟩
  have hit : quotedSegment quote none (quote :: (inside ++ [quote]) ++ rest) =
      some ((quote :: (inside ++ [quote])).length, ()) := by
    rw [← whole, size, quotedSegment, read]
    rfl
  rw [whole, pieces_append_of_match (by simp) hit, pieces_before quotedSegment_blind]

theorem pieces_quotedSegment_missed (missed : Quoted.segment? quote (c :: cs) = none) :
    pieces (quotedSegment quote) none (c :: cs) =
      .plain c :: pieces (quotedSegment quote) none cs := by
  have none_here : quotedSegment quote none (c :: cs) = none := by
    rw [quotedSegment, missed]
    rfl
  rw [pieces_of_none none_here, pieces_before quotedSegment_blind]

private theorem segment?_eq_none_of_ne (other : c ≠ quote) :
    Quoted.segment? quote (c :: cs) = none := by
  simp [Quoted.segment?, other]

theorem quotedSegment_of_not_mem (unquoted : quote ∉ cs) (left : Option Char) :
    quotedSegment quote left cs = none := by
  cases cs with
  | nil => rfl
  | cons c cs =>
    have different : c ≠ quote := fun same => unquoted (same ▸ List.mem_cons_self)
    simp [quotedSegment, Quoted.segment?, different]

theorem maskQuoted_eq_self (unquoted : '"' ∉ cs) : maskQuoted cs = cs :=
  replaceAll_eq_self _ fun left _ suffix =>
    quotedSegment_of_not_mem (fun quote => unquoted (suffix.subset quote)) left

/-- A literal is found as a whole. -/
theorem pieces_quotedSegment_literal (paired : Quoted.Paired quote inside)
    (lone : rest.head? ≠ some quote) :
    pieces (quotedSegment quote) none (quote :: (inside ++ quote :: rest)) =
      .found (quote :: (inside ++ [quote])) () :: pieces (quotedSegment quote) none rest := by
  obtain ⟨source, after, whole, size, cut⟩ :=
    pieces_quotedSegment_found (Quoted.segment?_of_paired paired lone)
  have same : source = quote :: (inside ++ [quote]) ∧ after = rest := by
    refine (List.append_inj (whole.symm.trans ?_) ?_)
    · simp
    · simp [size]
  rw [cut, same.1, same.2]

theorem pieces_quotedSegment_plain (none_inside : quote ∉ front) (back : List Char) :
    pieces (quotedSegment quote) none (front ++ back) =
      front.map .plain ++ pieces (quotedSegment quote) none back := by
  induction front with
  | nil => rfl
  | cons c cs ih =>
    rw [List.mem_cons, not_or] at none_inside
    rw [List.cons_append, pieces_quotedSegment_missed (segment?_eq_none_of_ne (Ne.symm none_inside.1)),
      ih none_inside.2]
    rfl

/-- The quotes of a stretch are harmless: they stand in lone pairs, but for a last one that no quote
follows. `later` tells whether the text after the stretch has a quote. -/
def quotesApart (later : Bool) : List Char → Bool
  | [] => true
  | c :: cs =>
    if c = '\'' then
      match cs with
      | [] => !later
      | d :: ds =>
        if d = '\'' then
          if ds.head? = some '\'' then !(ds.tail.contains '\'' || later) else quotesApart later ds
        else !((d :: ds).contains '\'' || later)
    else quotesApart later cs

/-- All matches among the pieces are empty literals. -/
def OnlyPairs (ps : List (Piece Unit)) : Prop :=
  ∀ source, .found source () ∈ ps → source = ['\'', '\'']

/-- Empty literals keep both of their characters. -/
theorem regroup_toEnds_of_onlyPairs (pairs : OnlyPairs ps)
    (whole : (ps.flatMap Piece.source).length = ts.length) : regroup toEnds ps ts = ts := by
  induction ps generalizing ts with
  | nil =>
    obtain rfl : ts = [] := by simpa [eq_comm] using whole
    rfl
  | cons piece ps ih =>
    have later : OnlyPairs ps := fun source member => pairs source (List.mem_cons_of_mem piece member)
    rw [List.flatMap_cons, List.length_append] at whole
    have same : regroupPiece toEnds piece (ts.take piece.source.length) =
        ts.take piece.source.length := by
      cases piece with
      | plain c => rfl
      | found source value =>
        obtain rfl := pairs source List.mem_cons_self
        cases ts with
        | nil => rfl
        | cons t ts =>
          cases ts with
          | nil => rfl
          | cons u us => rfl
    rw [regroup, same, ih later (by rw [List.length_drop]; omega), List.take_append_drop]

/-- Of the first part only empty literals are found, and none that reaches into the second part. -/
def FallsIntoPairs (front back : List Char) : Prop :=
  ∃ ps, pieces (quotedSegment '\'') none (front ++ back) =
      ps ++ pieces (quotedSegment '\'') none back ∧
    ps.flatMap Piece.source = front ∧ OnlyPairs ps

private theorem fallsIntoPairs_plain (none_inside : '\'' ∉ front) (back : List Char) :
    FallsIntoPairs front back := by
  refine ⟨front.map .plain, pieces_quotedSegment_plain none_inside back, ?_, ?_⟩
  · simp [List.flatMap_map, Piece.source]
  · simp [OnlyPairs]

private theorem FallsIntoPairs.cons (others : FallsIntoPairs front back) (piece : Piece Unit)
    (pair : OnlyPairs [piece])
    (cut : pieces (quotedSegment '\'') none (piece.source ++ (front ++ back)) =
      piece :: pieces (quotedSegment '\'') none (front ++ back)) :
    FallsIntoPairs (piece.source ++ front) back := by
  obtain ⟨ps, rest_cut, whole, pairs⟩ := others
  refine ⟨piece :: ps, ?_, ?_, ?_⟩
  · rw [List.append_assoc, cut, rest_cut, List.cons_append]
  · rw [List.flatMap_cons, whole]
  · intro source member
    rcases List.mem_cons.mp member with here | later
    · exact pair source (List.mem_singleton.mpr here)
    · exact pairs source later

private theorem onlyPairs_singleton_plain : OnlyPairs [.plain c] := by
  simp [OnlyPairs]

private theorem onlyPairs_singleton_pair : OnlyPairs [.found ['\'', '\''] ()] := by
  intro source member
  simpa using member

/-- A quote that no other quote follows opens nothing. -/
private theorem segment?_eq_none_of_last (last : quote ∉ cs) :
    Quoted.segment? quote (quote :: cs) = none := by
  rw [Quoted.segment?, if_pos rfl, Quoted.closing?_eq_none_iff.mpr last]
  rfl

/-- Of three quotes that no other quote follows the first two are read. -/
private theorem pieces_three (last : quote ∉ cs) :
    pieces (quotedSegment quote) none (quote :: quote :: quote :: cs) =
      .found [quote, quote] () :: pieces (quotedSegment quote) none (quote :: cs) := by
  have read : Quoted.segment? quote (quote :: quote :: quote :: cs) = some 2 := by
    simp [Quoted.segment?, Quoted.closing?, Quoted.closing?_eq_none_iff.mpr last]
  obtain ⟨source, rest, whole, size, cut⟩ := pieces_quotedSegment_found read
  have parts : source = [quote, quote] ∧ rest = quote :: cs := by
    have same : source ++ rest = [quote, quote] ++ quote :: cs := whole.symm
    exact List.append_inj same size
  rw [cut, parts.1, parts.2]

/-- Quotes that are apart stay as they are. -/
theorem fallsIntoPairs_of_quotesApart (next : back.head? ≠ some '\'')
    (apart : quotesApart (back.contains '\'') front = true) : FallsIntoPairs front back := by
  induction front using quotesApart.induct with
  | case1 => exact ⟨[], rfl, rfl, by simp [OnlyPairs]⟩
  | case2 =>
    have last : '\'' ∉ back := by simpa [quotesApart] using apart
    exact (fallsIntoPairs_plain (by simp) back).cons (.plain '\'') onlyPairs_singleton_plain
      (pieces_quotedSegment_missed (segment?_eq_none_of_last last))
  | case3 ds third =>
    obtain ⟨ws, rfl⟩ : ∃ ws, ds = '\'' :: ws := ⟨ds.tail, (List.cons_head?_tail third).symm⟩
    obtain ⟨inside, outside⟩ : '\'' ∉ ws ∧ '\'' ∉ back := by simpa [quotesApart] using apart
    have last : '\'' ∉ ws ++ back := by simp [inside, outside]
    have third_quote : FallsIntoPairs ('\'' :: ws) back :=
      (fallsIntoPairs_plain inside back).cons (.plain '\'') onlyPairs_singleton_plain
        (pieces_quotedSegment_missed (segment?_eq_none_of_last last))
    exact third_quote.cons (.found ['\'', '\''] ()) onlyPairs_singleton_pair (pieces_three last)
  | case4 ds not_third ih =>
    have lone : (ds ++ back).head? ≠ some '\'' := by
      cases ds with
      | nil => exact next
      | cons d ds => exact not_third
    have others := ih (by simpa [quotesApart, not_third] using apart)
    exact others.cons (.found ['\'', '\''] ()) onlyPairs_singleton_pair
      (pieces_quotedSegment_literal .nil lone)
  | case5 d ds different =>
    obtain ⟨inside, outside⟩ : '\'' ∉ d :: ds ∧ '\'' ∉ back := by
      simpa [quotesApart, different] using apart
    exact (fallsIntoPairs_plain inside back).cons (.plain '\'') onlyPairs_singleton_plain
      (pieces_quotedSegment_missed (segment?_eq_none_of_last (by simp_all)))
  | case6 c cs different ih =>
    have others := ih (by rw [quotesApart.eq_def] at apart; simpa [different] using apart)
    exact others.cons (.plain c) onlyPairs_singleton_plain
      (pieces_quotedSegment_missed (segment?_eq_none_of_ne different))

theorem CoversInside.cons {i : Nat} (covered : CoversInside ps i) (piece : Piece Unit) :
    CoversInside (piece :: ps) (piece.source.length + i) := by
  obtain ⟨first, source, last, rfl, low, high⟩ := covered
  refine ⟨piece :: first, source, last, rfl, ?_⟩
  rw [List.flatMap_cons, List.length_append]
  omega

/-- A literal of at least three characters has one between its ends. -/
private theorem coversInside_one {n : Nat} (read : Quoted.segment? quote cs = some n)
    (long : 3 ≤ n) : CoversInside (pieces (quotedSegment quote) none cs) 1 := by
  obtain ⟨source, rest, -, size, cut⟩ := pieces_quotedSegment_found read
  refine ⟨[], source, _, cut, by simp, ?_⟩
  simp only [List.flatMap_nil, List.length_nil]
  omega

/-- A quote that another one follows, though not at once, opens a literal with something in it. -/
private theorem coversInside_of_later (next : cs.head? ≠ some quote) (later : quote ∈ cs) :
    CoversInside (pieces (quotedSegment quote) none (quote :: cs)) 1 := by
  have some_end : Quoted.closing? quote cs ≠ none := fun none => Quoted.closing?_eq_none_iff.mp none later
  obtain ⟨n, closes⟩ := Option.ne_none_iff_exists'.mp some_end
  have read : Quoted.segment? quote (quote :: cs) = some (n + 1) := by
    simp [Quoted.segment?, closes]
  obtain ⟨inside, rest, rfl, rfl⟩ := Quoted.closing?_eq_some closes
  have something : 0 < inside.length := by
    refine List.length_pos_iff.mpr ?_
    rintro rfl
    exact next rfl
  exact coversInside_one read (by omega)

/-- Three quotes that another one follows open a literal with something in it. -/
private theorem coversInside_three (later : quote ∈ cs) :
    CoversInside (pieces (quotedSegment quote) none (quote :: quote :: quote :: cs)) 1 := by
  have some_end : Quoted.closing? quote cs ≠ none := fun none => Quoted.closing?_eq_none_iff.mp none later
  obtain ⟨n, closes⟩ := Option.ne_none_iff_exists'.mp some_end
  have read : Quoted.segment? quote (quote :: quote :: quote :: cs) = some (n + 3) := by
    simp [Quoted.segment?, Quoted.closing?, closes]
  exact coversInside_one read (by omega)

/-- Of quotes that are not apart one opens a literal that takes a character of the stretch, or the
one after it, away. -/
theorem exists_coversInside (next : back.head? ≠ some '\'')
    (mixed : quotesApart (back.contains '\'') front = false) :
    ∃ i ≤ front.length,
      CoversInside (pieces (quotedSegment '\'') none (front ++ back)) i := by
  induction front using quotesApart.induct with
  | case1 => simp [quotesApart] at mixed
  | case2 =>
    have later : '\'' ∈ back := by simpa [quotesApart] using mixed
    exact ⟨1, by simp, coversInside_of_later next later⟩
  | case3 ds third =>
    obtain ⟨ws, rfl⟩ : ∃ ws, ds = '\'' :: ws := ⟨ds.tail, (List.cons_head?_tail third).symm⟩
    have later : '\'' ∈ ws ++ back := by
      simp only [quotesApart, List.head?_cons, if_true, List.tail_cons, Bool.not_eq_false',
        Bool.or_eq_true, List.contains_iff_mem] at mixed
      exact List.mem_append.mpr mixed
    exact ⟨1, by simp, coversInside_three later⟩
  | case4 ds not_third ih =>
    have lone : (ds ++ back).head? ≠ some '\'' := by
      cases ds with
      | nil => exact next
      | cons d ds => exact not_third
    obtain ⟨i, bound, covered⟩ := ih (by simpa [quotesApart, not_third] using mixed)
    refine ⟨2 + i, by simp; omega, ?_⟩
    have cut := pieces_quotedSegment_literal .nil lone
    have there := covered.cons (.found ['\'', '\''] ())
    rw [← List.nil_append ['\''], ← cut] at there
    exact there
  | case5 d ds different =>
    have later : '\'' ∈ (d :: ds) ++ back := by
      simp only [quotesApart, different, if_true, if_false, Bool.not_eq_false', Bool.or_eq_true,
        List.contains_iff_mem] at mixed
      exact List.mem_append.mpr mixed
    exact ⟨1, by simp, coversInside_of_later (by simpa using different) later⟩
  | case6 c cs different ih =>
    obtain ⟨i, bound, covered⟩ :=
      ih (by rw [quotesApart.eq_def] at mixed; simpa [different] using mixed)
    refine ⟨1 + i, by simp; omega, ?_⟩
    have missed : Quoted.segment? '\'' (c :: (cs ++ back)) = none :=
      segment?_eq_none_of_ne different
    have cut := pieces_quotedSegment_missed missed
    have there := covered.cons (.plain c)
    rw [← cut] at there
    exact there

end ReportQuery.Sql
