import ReportQuery.Proofs.Sql.Lexer
import ReportQuery.Proofs.Sql.PassedLiteral
import ReportQuery.Proofs.Sql.QuotePass

set_option autoImplicit false
set_option relaxedAutoImplicit false

/-!
The passes of stripping against the lexemes of a text. A pass works on one lexeme after the other
exactly when no match begins in a lexeme that the match is not about; otherwise a character is lost
that SQL's own reading keeps.
-/

namespace ReportQuery.Sql

open Text (Piece Matcher pieces findAll pieces_of_findAll_eq_nil exists_found_of_findAll_ne_nil
  flatMap_source_pieces Quoted.Paired)

/-- What stripping by lexemes leaves of a lexeme. -/
def Lexeme.traced (start : Nat) : Lexeme → List Traced
  | .code c => [.kept c start]
  | .name inside => trace start ('"' :: (inside ++ ['"']))
  | .literal inside => [.kept '\'' start, .kept '\'' (start + 1 + inside.length)]
  | .lineComment _ | .blockComment _ => [.blank start]

/-- Traced characters of all lexemes, one lexeme after the other. -/
def layout (f : Nat → Lexeme → List Traced) (start : Nat) : List Lexeme → List Traced
  | [] => []
  | lexeme :: rest => f start lexeme ++ layout f (start + lexeme.source.length) rest

/-- Stripping by lexemes, with the places of the characters. -/
def tracedScan (lexemes : List Lexeme) : List Traced :=
  layout Lexeme.traced 0 lexemes

/-- No block comment begins in the lexeme that is none: none closes after it, and in a quoted
identifier none closes at all. -/
def Lexeme.KeepsBlocks (rest : List Lexeme) : Lexeme → Prop
  | .code _ | .blockComment _ => True
  | .name inside =>
    ¬ (OpensBlock (name inside).source ∧ ClosesBlock (sourceOf rest)) ∧
      findAll Sql.blockComment (name inside).source = []
  | .literal inside => ¬ (OpensBlock (literal inside).source ∧ ClosesBlock (sourceOf rest))
  | .lineComment inside => ¬ (OpensBlock (lineComment inside).source ∧ ClosesBlock (sourceOf rest))

/-- No line comment begins in the lexeme that is none: in a literal it ends with a line of the
literal, and in a quoted identifier there are no two dashes. -/
def Lexeme.KeepsLines : Lexeme → Prop
  | .name inside => findAll Sql.lineComment (name inside).source = []
  | .literal inside => opensLine (blankBlocks (literal inside).source) = false
  | .code _ | .lineComment _ | .blockComment _ => True

/-- No literal begins in the lexeme that is none: the single quotes in a quoted identifier are apart
from each other and from what follows. -/
def Lexeme.KeepsQuotes (rest : List Lexeme) : Lexeme → Prop
  | .name inside => quotesApart ((strippedOf rest).contains '\'') inside = true
  | .code _ | .literal _ | .lineComment _ | .blockComment _ => True

variable {lexeme : Lexeme} {lexemes rest : List Lexeme} {start i p : Nat} {c : Char}
  {text after : List Char} {ts us : List Traced}

theorem getElem?_trace (start : Nat) (text : List Char) (i : Nat) :
    (trace start text)[i]? = text[i]?.map fun c => .kept c (start + i) := by
  induction text generalizing start i with
  | nil => simp [trace]
  | cons c cs ih =>
    cases i with
    | zero => simp [trace]
    | succ i =>
      rw [trace, List.getElem?_cons_succ, List.getElem?_cons_succ, ih]
      congr 2
      funext d
      congr 1
      omega

section AllKept

/-- Everything that stripping by lexemes keeps is there. -/
def AllKept (start : Nat) (lexemes : List Lexeme) (ts : List Traced) : Prop :=
  ∀ c p, .kept c p ∈ layout Lexeme.traced start lexemes → .kept c p ∈ ts

theorem bounds_of_mem_traced {t : Traced} (member : t ∈ lexeme.traced start) :
    start ≤ t.place ∧ t.place < start + lexeme.source.length := by
  cases lexeme with
  | name inside => exact le_place_of_mem_trace member
  | literal inside =>
    simp only [Lexeme.traced, List.mem_cons, List.not_mem_nil, or_false] at member
    simp only [Lexeme.source, List.length_cons, List.length_append, List.length_nil]
    rcases member with rfl | rfl
    · simp [Traced.place]
    · simp only [Traced.place]
      omega
  | _ =>
    obtain rfl := List.mem_singleton.mp member
    simp [Traced.place, Lexeme.source]

private theorem le_of_mem_layout {t : Traced}
    (member : t ∈ layout Lexeme.traced start lexemes) : start ≤ t.place := by
  induction lexemes generalizing start with
  | nil => cases member
  | cons lexeme rest ih =>
    rcases List.mem_append.mp member with here | later
    · exact (bounds_of_mem_traced here).1
    · have := ih later
      omega

/-- What is kept of the later lexemes is not among the characters of the first. -/
theorem AllKept.tail (all : AllKept start (lexeme :: rest) (ts ++ us))
    (bound : ∀ c p, .kept c p ∈ ts → p < start + lexeme.source.length) :
    AllKept (start + lexeme.source.length) rest us := by
  intro c p member
  rcases List.mem_append.mp (all c p (List.mem_append_right _ member)) with here | later
  · have early := bound c p here
    have late : start + lexeme.source.length ≤ p := le_of_mem_layout member
    omega
  · exact later

end AllKept

section Blocks

/-- What the first pass makes of a lexeme by itself. -/
def Lexeme.afterBlocks (start : Nat) (lexeme : Lexeme) : List Traced :=
  pass Sql.blockComment toBlank (trace start lexeme.source)

/-- Between two lexemes the first pass is cut. -/
private theorem pieces_blockComment_sourceOf (reads : lexeme.ReadsBefore (sourceOf rest))
    (keeps : lexeme.KeepsBlocks rest) :
    pieces blockComment none (lexeme.source ++ sourceOf rest) =
      pieces blockComment none lexeme.source ++ pieces blockComment none (sourceOf rest) := by
  cases lexeme with
  | code c =>
    have alone : pieces blockComment none [c] = [.plain c] := by
      rw [pieces_blockComment_plain (by simp)]
      simp
    rw [Lexeme.source, alone, List.singleton_append, pieces_blockComment_plain reads.2.2.2]
    rfl
  | blockComment inside =>
    have alone := pieces_blockComment_closed reads []
    have together := pieces_blockComment_closed reads (sourceOf rest)
    simpa [Lexeme.source, alone] using together
  | name inside =>
    have last : (Lexeme.name inside).source.getLast? = some '"' := by
      simp [Lexeme.source, List.getLast?_cons]
    exact pieces_blockComment_append (by simp [last]) (by simp [last]) keeps.1
  | literal inside =>
    have last : (Lexeme.literal inside).source.getLast? = some '\'' := by
      simp [Lexeme.source, List.getLast?_cons]
    have apart : ¬ (OpensBlock (Lexeme.literal inside).source ∧ ClosesBlock (sourceOf rest)) := keeps
    exact pieces_blockComment_append (by simp [last]) (by simp [last]) apart
  | lineComment inside =>
    have next : (sourceOf rest).head? = none ∨ (sourceOf rest).head? = some '\n' :=
      reads.2.imp (by simp +contextual) id
    have apart : ¬ (OpensBlock (Lexeme.lineComment inside).source ∧ ClosesBlock (sourceOf rest)) :=
      keeps
    refine pieces_blockComment_append (fun _ star => ?_) (fun _ slash => ?_) apart
    · simp [star] at next
    · simp [slash] at next

/-- The first pass works on one lexeme after the other. -/
theorem pass_blockComment (reads : Reads lexemes) (keeps : Everywhere Lexeme.KeepsBlocks lexemes)
    (start : Nat) :
    pass blockComment toBlank (trace start (sourceOf lexemes)) =
      layout Lexeme.afterBlocks start lexemes := by
  induction lexemes generalizing start with
  | nil => simp [sourceOf, trace, pass, regroup, layout]
  | cons lexeme rest ih =>
    have cut := pieces_blockComment_sourceOf reads.1 keeps.1
    rw [show sourceOf (lexeme :: rest) = lexeme.source ++ sourceOf rest from rfl, trace_append,
      pass_append (by simpa using cut), ih reads.2 keeps.2]
    rfl

private theorem lt_of_mem_afterBlocks (member : .kept c p ∈ lexeme.afterBlocks start) :
    p < start + lexeme.source.length :=
  (le_place_of_mem_trace (kept_mem_of_mem_regroup shrinks_toBlank member)).2

/-- A character of the text that a block comment covers is lost. -/
private theorem lost_of_covers (covered : Covers (pieces blockComment none text) i)
    (there : text[i]? = some c) :
    .kept c (start + i) ∉ pass blockComment toBlank (trace start text) := by
  refine kept_not_mem_pass_toBlank (i := i) (nodup_trace start text) (by simpa using covered) ?_
  rw [getElem?_trace, there]
  rfl

theorem mem_traced_name {inside : List Char}
    (there : (Lexeme.name inside).source[i]? = some c) :
    .kept c (start + i) ∈ (Lexeme.name inside).traced start := by
  refine List.mem_of_getElem? (i := i) ?_
  rw [Lexeme.traced, getElem?_trace]
  exact congrArg (Option.map _) there

/-- The line feed after a line comment is kept. -/
private theorem mem_layout_of_head? (next : (sourceOf rest).head? = some '\n') :
    .kept '\n' start ∈ layout Lexeme.traced start rest := by
  cases rest with
  | nil => cases next
  | cons lexeme rest =>
    cases lexeme with
    | code c =>
      obtain rfl : c = '\n' := by simpa [sourceOf, Lexeme.source] using next
      exact List.mem_append_left _ (List.mem_singleton.mpr rfl)
    | _ => simp [sourceOf, Lexeme.source] at next

private theorem covers_of_found {matcher : Matcher Unit} {source : List Char}
    (member : .found source () ∈ pieces matcher none text) (nonempty : source ≠ []) :
    ∃ i < text.length, Covers (pieces matcher none text) i := by
  obtain ⟨front, back, split⟩ := List.append_of_mem member
  have positive := List.length_pos_iff.mpr nonempty
  have whole := congrArg List.length (flatMap_source_pieces matcher none text)
  rw [split, List.flatMap_append, List.flatMap_cons, List.length_append, List.length_append] at whole
  simp only [Piece.source] at whole
  exact ⟨(front.flatMap Piece.source).length, by omega, front, source, back, split, le_refl _,
    by omega⟩

/-- If the first pass loses nothing, it works on one lexeme after the other. -/
theorem everywhere_keepsBlocks (reads : Reads lexemes)
    (all : AllKept start lexemes (pass blockComment toBlank (trace start (sourceOf lexemes)))) :
    Everywhere Lexeme.KeepsBlocks lexemes := by
  induction lexemes generalizing start with
  | nil => trivial
  | cons lexeme rest ih =>
    have text_eq : sourceOf (lexeme :: rest) = lexeme.source ++ sourceOf rest := rfl
    rw [text_eq] at all
    -- a covered character that is kept by lexemes contradicts the assumption
    have uncovered : ∀ i c, (lexeme.source ++ sourceOf rest)[i]? = some c →
        .kept c (start + i) ∈ layout Lexeme.traced start (lexeme :: rest) →
        ¬ Covers (pieces blockComment none (lexeme.source ++ sourceOf rest)) i :=
      fun i c there kept covered => lost_of_covers covered there (all c _ kept)
    have keeps : lexeme.KeepsBlocks rest := by
      cases lexeme with
      | code c => trivial
      | blockComment inside => trivial
      | literal inside =>
        intro joined
        have last : (Lexeme.literal inside).source.getLast? = some '\'' := by
          simp [Lexeme.source, List.getLast?_cons]
        refine uncovered _ '\'' ?_ ?_ (covers_blockComment (by simp [last]) (by simp [last]) joined).1
        · rw [List.getElem?_append_left (by simp [Lexeme.source]), ← List.getLast?_eq_getElem?, last]
        · refine List.mem_append_left _ ?_
          simp [Lexeme.traced, Lexeme.source]
          omega
      | lineComment inside =>
        intro joined
        have next : (sourceOf rest).head? = some '\n' := by
          refine reads.1.2.resolve_left fun none => ?_
          rw [none] at joined
          simp [ClosesBlock] at joined
        have apart : (sourceOf rest).head? ≠ some '*' ∧ (sourceOf rest).head? ≠ some '/' := by
          simp [next]
        refine uncovered _ '\n' ?_ ?_
          (covers_blockComment (fun _ => apart.1) (fun _ => apart.2) joined).2
        · rw [List.getElem?_append_right (le_refl _), Nat.sub_self, ← List.head?_eq_getElem?, next]
        · exact List.mem_append_right _ (mem_layout_of_head? next)
      | name inside =>
        have last : (Lexeme.name inside).source.getLast? = some '"' := by
          simp [Lexeme.source, List.getLast?_cons]
        have inside_uncovered : ∀ i < (Lexeme.name inside).source.length,
            ¬ Covers (pieces blockComment none ((Lexeme.name inside).source ++ sourceOf rest)) i := by
          intro i bound
          have there := List.getElem?_eq_getElem bound
          exact uncovered i _ ((List.getElem?_append_left bound).trans there)
            (List.mem_append_left _ (mem_traced_name there))
        have apart : ¬ (OpensBlock (Lexeme.name inside).source ∧ ClosesBlock (sourceOf rest)) := by
          intro joined
          refine inside_uncovered _ ?_ (covers_blockComment (by simp [last]) (by simp [last]) joined).1
          simp [Lexeme.source]
        refine ⟨apart, ?_⟩
        by_contra something
        obtain ⟨source, _, member, nonempty⟩ := exists_found_of_findAll_ne_nil something
        obtain ⟨i, bound, covered⟩ := covers_of_found member nonempty
        refine inside_uncovered i bound ?_
        rw [pieces_blockComment_append (by simp [last]) (by simp [last]) apart]
        exact covered.append _
    have cut := pieces_blockComment_sourceOf reads.1 keeps
    rw [trace_append, pass_append (by simpa using cut)] at all
    exact ⟨keeps, ih reads.2 (all.tail fun c p member => lt_of_mem_afterBlocks member)⟩

end Blocks

section Lines

/-- What the first two passes make of a lexeme by itself. -/
def Lexeme.afterLines (start : Nat) (lexeme : Lexeme) : List Traced :=
  pass Sql.lineComment toBlank (lexeme.afterBlocks start)

theorem map_char_afterBlocks (start : Nat) (lexeme : Lexeme) :
    (lexeme.afterBlocks start).map Traced.char = blankBlocks lexeme.source := by
  rw [Lexeme.afterBlocks, map_char_pass_toBlank, map_char_trace]
  rfl

theorem map_char_layout_afterBlocks (reads : Reads lexemes)
    (keeps : Everywhere Lexeme.KeepsBlocks lexemes) (start : Nat) :
    (layout Lexeme.afterBlocks start lexemes).map Traced.char = blankBlocks (sourceOf lexemes) := by
  rw [← pass_blockComment reads keeps, map_char_pass_toBlank, map_char_trace]
  rfl

theorem afterBlocks_code (start : Nat) (c : Char) :
    (Lexeme.code c).afterBlocks start = [.kept c start] := by
  have plain : pieces blockComment none [c] = [.plain c] := by
    rw [pieces_blockComment_plain (by simp)]
    simp
  have one : (Lexeme.code c).afterBlocks start =
      regroup toBlank (pieces blockComment none [c]) [.kept c start] := rfl
  rw [one, plain]
  rfl

theorem afterBlocks_blockComment {inside : List Char} (reads : ¬ ['*', '/'] <:+: inside)
    (start : Nat) : (Lexeme.blockComment inside).afterBlocks start = [.blank start] := by
  have closed := pieces_blockComment_closed reads []
  rw [Lexeme.afterBlocks, pass, map_char_trace, Lexeme.source, closed, Text.pieces_nil, regroup,
    List.take_of_length_le (by simp [Piece.source])]
  rfl

theorem afterBlocks_name {inside : List Char}
    (nothing : findAll blockComment (Lexeme.name inside).source = []) (start : Nat) :
    (Lexeme.name inside).afterBlocks start = trace start (Lexeme.name inside).source := by
  rw [Lexeme.afterBlocks, pass, map_char_trace, pieces_of_findAll_eq_nil nothing]
  exact regroup_plain _ (length_trace _ _).symm

private theorem pieces_blockComment_quote (cs : List Char) :
    pieces blockComment none ('\'' :: cs) = .plain '\'' :: pieces blockComment none cs :=
  pieces_blockComment_plain (by simp)

private theorem pieces_lineComment_quote (cs : List Char) :
    pieces lineComment none ('\'' :: cs) = .plain '\'' :: pieces lineComment none cs :=
  pieces_lineComment_plain (by simp)

theorem afterBlocks_lineComment (inside : List Char) (start : Nat) :
    (Lexeme.lineComment inside).afterBlocks start =
      .kept '-' start :: .kept '-' (start + 1) ::
        pass blockComment toBlank (trace (start + 1 + 1) inside) := by
  have dashes : pieces blockComment none ('-' :: '-' :: inside) =
      .plain '-' :: .plain '-' :: pieces blockComment none inside := by
    rw [pieces_blockComment_plain (by simp), pieces_blockComment_plain (by simp)]
  rw [Lexeme.afterBlocks, pass, map_char_trace, Lexeme.source, dashes, regroup, regroup, pass,
    map_char_trace]
  rfl

theorem eq_or_mem_of_mem_replaceAll {matcher : Matcher Unit} {c : Char} {cs : List Char}
    (member : c ∈ Text.replaceAll matcher (fun _ _ => [' ']) cs) : c = ' ' ∨ c ∈ cs := by
  obtain ⟨piece, among, shown⟩ := List.mem_flatMap.mp member
  cases piece with
  | found source value => exact .inl (List.mem_singleton.mp shown)
  | plain d =>
    refine .inr ?_
    rw [← flatMap_source_pieces matcher none cs]
    exact List.mem_flatMap.mpr ⟨_, among, shown⟩

theorem head?_of_replaceAll {matcher : Matcher Unit} {c : Char} {cs : List Char}
    (first : (Text.replaceAll matcher (fun _ _ => [' ']) cs).head? = some c) :
    c = ' ' ∨ cs.head? = some c := by
  cases cs with
  | nil => simp [Text.replaceAll] at first
  | cons d ds =>
    rw [Text.replaceAll, pieces] at first
    split at first
    · exact .inl (by simpa [Piece.replaced, eq_comm] using first)
    · exact .inr (by simpa [Piece.replaced] using first)

/-- After the first pass a literal still has its quotes, and pairs between them. -/
private theorem exists_afterBlocks_literal {inside : List Char} (paired : Quoted.Paired '\'' inside)
    (start : Nat) :
    ∃ mid, (Lexeme.literal inside).afterBlocks start =
        .kept '\'' start :: (mid ++ [.kept '\'' (start + 1 + inside.length)]) ∧
      Quoted.Paired '\'' (mid.map Traced.char) := by
  have spelled : trace start (Lexeme.literal inside).source =
      .kept '\'' start ::
        (trace (start + 1) inside ++ [.kept '\'' (start + 1 + inside.length)]) := by
    rw [Lexeme.source, trace, trace_append]
    rfl
  rw [Lexeme.afterBlocks, spelled]
  exact (keepsPairs_blockComment paired).pass_eq pieces_blockComment_quote rfl rfl
    (map_char_trace _ _)

/-- After the second pass too, if a line of the literal ends every line comment in it. -/
theorem exists_afterLines_literal {inside : List Char} (paired : Quoted.Paired '\'' inside)
    (keeps : (Lexeme.literal inside).KeepsLines) (start : Nat) :
    ∃ mid, (Lexeme.literal inside).afterLines start =
        .kept '\'' start :: (mid ++ [.kept '\'' (start + 1 + inside.length)]) ∧
      Quoted.Paired '\'' (mid.map Traced.char) := by
  obtain ⟨mid, first_pass, pairs⟩ := exists_afterBlocks_literal paired start
  have shown := map_char_afterBlocks start (.literal inside)
  rw [first_pass] at shown
  have ended : opensLine (mid.map Traced.char ++ ['\'']) = false := by
    have whole : opensLine (blankBlocks (Lexeme.literal inside).source) = false := keeps
    rw [← shown] at whole
    simpa [opensLine, Traced.char] using whole
  rw [Lexeme.afterLines, first_pass]
  exact (keepsPairs_lineComment pairs ended).pass_eq pieces_lineComment_quote rfl rfl rfl

/-- A line feed at the front of a text stays there in the first pass, and nothing else comes. -/
private theorem ends_blankBlocks (ends : text = [] ∨ text.head? = some '\n') :
    blankBlocks text = [] ∨ (blankBlocks text).head? = some '\n' := by
  rcases ends with rfl | next
  · exact .inl (by simp [blankBlocks, Text.replaceAll])
  · refine .inr ?_
    obtain ⟨tail, rfl⟩ : ∃ tail, text = '\n' :: tail :=
      ⟨text.tail, (List.cons_head?_tail next).symm⟩
    rw [blankBlocks, Text.replaceAll, pieces_blockComment_plain (by simp)]
    rfl

theorem map_char_lineComment (inside : List Char) :
    blankBlocks (Lexeme.lineComment inside).source = '-' :: '-' :: blankBlocks inside := by
  rw [← map_char_afterBlocks 0, afterBlocks_lineComment, List.map_cons, List.map_cons,
    map_char_pass_toBlank, map_char_trace]
  rfl

/-- Between two lexemes the second pass is cut. -/
private theorem pieces_lineComment_blankBlocks (reads : lexeme.ReadsBefore text)
    (keepsBlocks : lexeme.KeepsBlocks rest) (keeps : lexeme.KeepsLines) :
    pieces lineComment none (blankBlocks lexeme.source ++ blankBlocks text) =
      pieces lineComment none (blankBlocks lexeme.source) ++
        pieces lineComment none (blankBlocks text) := by
  cases lexeme with
  | code c =>
    have shown : blankBlocks (Lexeme.code c).source = [c] := by
      rw [← map_char_afterBlocks 0, afterBlocks_code]
      rfl
    have alone : pieces lineComment none [c] = [.plain c] := by
      rw [pieces_lineComment_plain (by simp)]
      simp
    have other : ¬ (c = '-' ∧ (blankBlocks text).head? = some '-') := by
      rintro ⟨rfl, next⟩
      rcases head?_of_replaceAll next with blank | first
      · cases blank
      · exact reads.2.2.1 ⟨rfl, first⟩
    rw [shown, alone, List.singleton_append, pieces_lineComment_plain other]
    rfl
  | blockComment inside =>
    have shown : blankBlocks (Lexeme.blockComment inside).source = [' '] := by
      rw [← map_char_afterBlocks 0, afterBlocks_blockComment reads]
      rfl
    rw [shown, List.singleton_append, pieces_lineComment_plain (by simp),
      pieces_lineComment_plain (by simp)]
    simp
  | lineComment inside =>
    have unended : '\n' ∉ blankBlocks inside := by
      intro member
      rcases eq_or_mem_of_mem_replaceAll member with blank | there
      · cases blank
      · exact reads.1 there
    have alone := pieces_lineComment_found unended (.inl rfl)
    have together := pieces_lineComment_found unended (ends_blankBlocks reads.2)
    rw [List.append_nil] at alone
    rw [map_char_lineComment, alone]
    simpa using together
  | literal inside =>
    obtain ⟨mid, first_pass, -⟩ := exists_afterBlocks_literal reads.1 0
    have shown := map_char_afterBlocks 0 (.literal inside)
    rw [first_pass] at shown
    have last : (blankBlocks (Lexeme.literal inside).source).getLast? = some '\'' := by
      rw [← shown]
      simp [List.getLast?_cons, Traced.char]
    exact pieces_lineComment_append (by simp [last]) keeps
  | name inside =>
    have shown : blankBlocks (Lexeme.name inside).source = (Lexeme.name inside).source := by
      rw [← map_char_afterBlocks 0, afterBlocks_name keepsBlocks.2, map_char_trace]
    have last : (Lexeme.name inside).source.getLast? = some '"' := by
      simp [Lexeme.source, List.getLast?_cons]
    rw [shown]
    exact pieces_lineComment_append (by simp [last]) (opensLine_of_findAll_eq_nil keeps)

private theorem pieces_lineComment_layout (reads : Reads (lexeme :: rest))
    (keepsBlocks : Everywhere Lexeme.KeepsBlocks (lexeme :: rest)) (keeps : lexeme.KeepsLines)
    (start : Nat) :
    pieces lineComment none ((lexeme.afterBlocks start ++
      layout Lexeme.afterBlocks (start + lexeme.source.length) rest).map Traced.char) =
        pieces lineComment none ((lexeme.afterBlocks start).map Traced.char) ++
          pieces lineComment none
            ((layout Lexeme.afterBlocks (start + lexeme.source.length) rest).map Traced.char) := by
  rw [List.map_append, map_char_afterBlocks, map_char_layout_afterBlocks reads.2 keepsBlocks.2,
    pieces_lineComment_blankBlocks reads.1 keepsBlocks.1 keeps]

/-- The second pass works on one lexeme after the other. -/
theorem pass_lineComment (reads : Reads lexemes)
    (keepsBlocks : Everywhere Lexeme.KeepsBlocks lexemes)
    (keeps : Everywhere (fun _ => Lexeme.KeepsLines) lexemes) (start : Nat) :
    pass lineComment toBlank (layout Lexeme.afterBlocks start lexemes) =
      layout Lexeme.afterLines start lexemes := by
  induction lexemes generalizing start with
  | nil => simp [pass, regroup, layout]
  | cons lexeme rest ih =>
    have apart := pieces_lineComment_layout reads keepsBlocks keeps.1 start
    rw [layout, pass_append apart, ih reads.2 keepsBlocks.2 keeps.2]
    rfl

theorem lt_of_mem_afterLines (member : .kept c p ∈ lexeme.afterLines start) :
    p < start + lexeme.source.length :=
  lt_of_mem_afterBlocks (kept_mem_of_mem_regroup shrinks_toBlank member)

/-- If the second pass loses nothing either, it works on one lexeme after the other. -/
theorem everywhere_keepsLines (reads : Reads lexemes)
    (keepsBlocks : Everywhere Lexeme.KeepsBlocks lexemes)
    (all : AllKept start lexemes
      (pass lineComment toBlank (layout Lexeme.afterBlocks start lexemes))) :
    Everywhere (fun _ => Lexeme.KeepsLines) lexemes := by
  induction lexemes generalizing start with
  | nil => trivial
  | cons lexeme rest ih =>
    have distinct : ((layout Lexeme.afterBlocks start (lexeme :: rest)).map Traced.place).Nodup := by
      rw [← pass_blockComment reads keepsBlocks]
      exact nodup_pass shrinks_toBlank (nodup_trace _ _)
    have shown := map_char_layout_afterBlocks reads keepsBlocks start
    have split : blankBlocks (sourceOf (lexeme :: rest)) =
        blankBlocks lexeme.source ++ blankBlocks (sourceOf rest) := by
      rw [← shown, layout, List.map_append, map_char_afterBlocks,
        map_char_layout_afterBlocks reads.2 keepsBlocks.2]
    have uncovered : ∀ i c p, (lexeme.afterBlocks start)[i]? = some (.kept c p) →
        .kept c p ∈ lexeme.traced start → ¬ Covers
          (pieces lineComment none (blankBlocks lexeme.source ++ blankBlocks (sourceOf rest))) i := by
      intro i c p there kept covered
      refine kept_not_mem_pass_toBlank (i := i) distinct ?_ ?_
        (all c p (List.mem_append_left _ kept))
      · rwa [shown, split]
      · rw [layout, List.getElem?_append_left (List.getElem?_eq_some_iff.mp there).1, there]
    have keeps : lexeme.KeepsLines := by
      cases lexeme with
      | code c => trivial
      | blockComment inside => trivial
      | lineComment inside => trivial
      | literal inside =>
        obtain ⟨mid, first_pass, -⟩ := exists_afterBlocks_literal reads.1.1 start
        have text := map_char_afterBlocks start (.literal inside)
        have size := congrArg List.length text
        rw [first_pass] at text
        have last : (blankBlocks (Lexeme.literal inside).source).getLast? = some '\'' := by
          rw [← text]
          simp [List.getLast?_cons, Traced.char]
        by_contra opens
        have opens : opensLine (blankBlocks (Lexeme.literal inside).source) = true := by
          simpa [Lexeme.KeepsLines] using opens
        refine uncovered _ '\'' (start + 1 + inside.length) ?_ (by simp [Lexeme.traced])
          (covers_lineComment (by simp [last]) opens)
        rw [← size, List.length_map, ← List.getLast?_eq_getElem?, first_pass]
        simp [List.getLast?_cons]
      | name inside =>
        have passed := afterBlocks_name keepsBlocks.1.2 start
        have same : blankBlocks (Lexeme.name inside).source = (Lexeme.name inside).source := by
          rw [← map_char_afterBlocks start, passed, map_char_trace]
        have last : (Lexeme.name inside).source.getLast? = some '"' := by
          simp [Lexeme.source, List.getLast?_cons]
        rw [same] at uncovered
        have inside_uncovered : ∀ i < (Lexeme.name inside).source.length, ¬ Covers
            (pieces lineComment none
              ((Lexeme.name inside).source ++ blankBlocks (sourceOf rest))) i := by
          intro i bound
          have there := List.getElem?_eq_getElem bound
          refine uncovered i _ (start + i) ?_ (mem_traced_name there)
          rw [passed, getElem?_trace, there]
          rfl
        by_contra something
        obtain ⟨source, _, member, nonempty⟩ := exists_found_of_findAll_ne_nil something
        obtain ⟨i, bound, covered⟩ := covers_of_found member nonempty
        cases opens : opensLine (Lexeme.name inside).source with
        | true =>
          refine inside_uncovered _ ?_ (covers_lineComment (by simp [last]) opens)
          omega
        | false =>
          refine inside_uncovered i bound ?_
          rw [pieces_lineComment_append (by simp [last]) opens]
          exact covered.append _
    have cut := pieces_lineComment_layout reads keepsBlocks keeps start
    rw [layout, pass_append cut] at all
    exact ⟨keeps, ih reads.2 keepsBlocks.2 (all.tail fun c p member => lt_of_mem_afterLines member)⟩

end Lines

end ReportQuery.Sql
