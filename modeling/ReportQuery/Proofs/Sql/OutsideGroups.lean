import ReportQuery.Proofs.Sql.Stripping
import ReportQuery.Proofs.Sql.Symbol
import ReportQuery.Proofs.Sql.WordSearch
import ReportQuery.Sql.RowLimit

set_option autoImplicit false
set_option relaxedAutoImplicit false

/-!
The code outside all matching parentheses. Taking out innermost groups until none is left comes to
the same as one scan from left to right that knows which parentheses are closed, and a keyword that
stands outside the parentheses is found in what is left.
-/

namespace ReportQuery.Sql

open Text

/-- Whether a parenthesis that is open before the text, with `depth` more open inside it, is closed
by the text. -/
def isClosedIn (depth : Nat) : List Char → Bool
  | [] => false
  | c :: cs =>
    if c = '(' then isClosedIn (depth + 1) cs
    else if c = ')' then depth == 0 || isClosedIn (depth - 1) cs
    else isClosedIn depth cs

/-- What a character shows of itself inside `depth` pairs of parentheses. -/
def shownAt (depth : Nat) (c : Char) : List Char :=
  if depth = 0 then [c] else []

/-- The text outside all pairs of parentheses, with a blank for each outermost pair; `depth` pairs are
open. A parenthesis without its other half is a character like any other. -/
def outsideFrom (depth : Nat) : List Char → List Char
  | [] => []
  | c :: cs =>
    if c = '(' ∧ isClosedIn 0 cs then shownAt depth ' ' ++ outsideFrom (depth + 1) cs
    else if c = ')' ∧ depth ≠ 0 then outsideFrom (depth - 1) cs
    else shownAt depth c ++ outsideFrom depth cs

/-- Whether a character is no parenthesis. -/
def isFlat (c : Char) : Bool :=
  c != '(' && c != ')'

/-- Whether the next parenthesis of a text closes a group. -/
def closesNext (cs : List Char) : Bool :=
  (cs.dropWhile isFlat).head? == some ')'

variable {c : Char} {cs inside rest left word code : List Char} {depth n : Nat}

section Collapse

private theorem ne_of_isFlat (flat : isFlat c) : c ≠ '(' ∧ c ≠ ')' := by
  simpa [isFlat] using flat

private theorem isClosedIn_flat (flat : ∀ c ∈ inside, isFlat c) :
    isClosedIn depth (inside ++ rest) = isClosedIn depth rest := by
  induction inside with
  | nil => rfl
  | cons c inside ih =>
    obtain ⟨here, there⟩ := List.forall_mem_cons.mp flat
    obtain ⟨opens, closes⟩ := ne_of_isFlat here
    rw [List.cons_append, isClosedIn, if_neg opens, if_neg closes, ih there]

private theorem outsideFrom_flat_inside (flat : ∀ c ∈ inside, isFlat c) :
    outsideFrom (depth + 1) (inside ++ rest) = outsideFrom (depth + 1) rest := by
  induction inside with
  | nil => rfl
  | cons c inside ih =>
    obtain ⟨here, there⟩ := List.forall_mem_cons.mp flat
    obtain ⟨opens, closes⟩ := ne_of_isFlat here
    rw [List.cons_append, outsideFrom, if_neg (fun opened => opens opened.1),
      if_neg (fun closed => closes closed.1), ih there]
    rfl

private theorem innermostGroup_open (before : Option Char) (cs : List Char) :
    innermostGroup before ('(' :: cs) =
      if closesNext cs then some ((cs.takeWhile isFlat).length + 2, ()) else none := by
  have behind : cs.drop (cs.takeWhile isFlat).length = cs.dropWhile isFlat := drop_length_takeWhile _ _
  rw [closesNext, ← behind]
  rfl

private theorem innermostGroup_other (other : c ≠ '(') (before : Option Char) :
    innermostGroup before (c :: cs) = none := by
  unfold innermostGroup
  split
  · rename_i whole
    exact absurd (List.cons.inj whole).1 other
  · rfl

theorem exists_of_innermostGroup {before : Option Char}
    (hit : innermostGroup before (c :: cs) = some (n, ())) :
    c = '(' ∧ ∃ inside rest, cs = inside ++ ')' :: rest ∧ (∀ c ∈ inside, isFlat c) ∧
      n = inside.length + 2 := by
  by_cases opens : c = '('
  · subst opens
    rw [innermostGroup_open] at hit
    split at hit
    · rename_i closes
      obtain ⟨rest, behind⟩ := List.head?_eq_some_iff.mp (beq_iff_eq.mp closes)
      refine ⟨rfl, cs.takeWhile isFlat, rest, ?_, fun c member => List.mem_takeWhile_imp member, ?_⟩
      · rw [← behind, List.takeWhile_append_dropWhile]
      · exact (Prod.mk.inj (Option.some.inj hit)).1.symm
    · cases hit
  · rw [innermostGroup_other opens] at hit
    cases hit

private theorem isClosedIn_group (flat : ∀ c ∈ inside, isFlat c) :
    isClosedIn depth ('(' :: (inside ++ ')' :: rest)) = isClosedIn depth rest := by
  rw [isClosedIn, if_pos rfl, isClosedIn_flat flat, isClosedIn, if_neg (by decide), if_pos rfl]
  simp

private theorem outsideFrom_group (flat : ∀ c ∈ inside, isFlat c) :
    outsideFrom depth ('(' :: (inside ++ ')' :: rest)) = shownAt depth ' ' ++ outsideFrom depth rest := by
  have closed : isClosedIn 0 (inside ++ ')' :: rest) := by
    rw [isClosedIn_flat flat]
    rfl
  have ends : outsideFrom (depth + 1) (')' :: rest) = outsideFrom depth rest := by
    rw [outsideFrom, if_neg (by simp), if_pos ⟨rfl, by omega⟩, Nat.add_sub_cancel]
  rw [outsideFrom, if_pos ⟨rfl, closed⟩, outsideFrom_flat_inside flat, ends]

private theorem isClosedIn_blank : isClosedIn depth (' ' :: cs) = isClosedIn depth cs :=
  rfl

private theorem outsideFrom_blank :
    outsideFrom depth (' ' :: cs) = shownAt depth ' ' ++ outsideFrom depth cs :=
  rfl

/-- The text with the groups that were found taken out. -/
private def taken (ps : List (Piece Unit)) : List Char :=
  ps.flatMap (·.replaced fun _ _ => [' '])

/-- What is closed and what stands outside is the same after a round. -/
private theorem rounds_keep (before : Option Char) (cs : List Char) :
    (∀ depth, isClosedIn depth (taken (pieces innermostGroup before cs)) = isClosedIn depth cs) ∧
      ∀ depth, outsideFrom depth (taken (pieces innermostGroup before cs)) = outsideFrom depth cs := by
  fun_induction pieces innermostGroup before cs with
  | case1 => exact ⟨fun _ => rfl, fun _ => rfl⟩
  | case2 before c cs n a hit ih =>
    obtain ⟨rfl, inside, rest, rfl, flat, size⟩ := exists_of_innermostGroup hit
    have behind : (inside ++ ')' :: rest).drop n = rest := by
      obtain rfl : n = inside.length + 1 := by omega
      rw [List.drop_append]
      simp
    rw [behind] at ih ⊢
    have blank : taken (.found (List.take (n + 1) ('(' :: (inside ++ ')' :: rest))) a ::
        pieces innermostGroup (List.take (n + 1) ('(' :: (inside ++ ')' :: rest))).getLast? rest) =
        ' ' :: taken (pieces innermostGroup
          (List.take (n + 1) ('(' :: (inside ++ ')' :: rest))).getLast? rest) := rfl
    constructor
    · intro depth
      rw [blank, isClosedIn_blank, ih.1, isClosedIn_group flat]
    · intro depth
      rw [blank, outsideFrom_blank, ih.2, outsideFrom_group flat]
  | case3 before c cs miss ih =>
    have passed : taken (.plain c :: pieces innermostGroup (some c) cs) =
        c :: taken (pieces innermostGroup (some c) cs) := rfl
    rw [passed]
    constructor
    · intro depth
      rw [isClosedIn, isClosedIn, ih.1, ih.1, ih.1]
    · intro depth
      rw [outsideFrom, outsideFrom, ih.1, ih.2, ih.2, ih.2]

private theorem taken_length (ps : List (Piece Unit))
    (wide : ∀ source, .found source () ∈ ps → 2 ≤ source.length) :
    (taken ps).length ≤ (ps.flatMap Piece.source).length ∧
      ((taken ps).length = (ps.flatMap Piece.source).length → ps.filterMap (·.value?) = []) := by
  induction ps with
  | nil => exact ⟨le_rfl, fun _ => rfl⟩
  | cons piece ps ih =>
    obtain ⟨less, none⟩ := ih fun source member => wide source (List.mem_cons_of_mem _ member)
    have size : (taken (piece :: ps)).length =
        (piece.replaced fun _ _ => [' ']).length + (taken ps).length := by
      rw [taken, List.flatMap_cons, List.length_append]
      rfl
    rw [size, List.flatMap_cons, List.length_append]
    cases piece with
    | plain c =>
      refine ⟨Nat.add_le_add_left less 1, fun same => ?_⟩
      have rest := none (Nat.add_left_cancel same)
      simpa [Piece.value?] using rest
    | found source value =>
      have long : 2 ≤ source.length := wide source List.mem_cons_self
      simp only [Piece.replaced, Piece.source, List.length_singleton]
      constructor
      · omega
      · intro same
        omega

/-- Nothing closes a parenthesis where no group is left and none closes next. -/
private theorem isClosedIn_eq_false
    (none : ∀ front tail, cs = front ++ '(' :: tail → closesNext tail = false)
    (next : closesNext cs = false) : isClosedIn depth cs = false := by
  induction cs generalizing depth with
  | nil => rfl
  | cons c cs ih =>
    have later : ∀ front tail, cs = front ++ '(' :: tail → closesNext tail = false := by
      intro front tail same
      exact none (c :: front) tail (by rw [same]; rfl)
    rw [isClosedIn]
    by_cases opens : c = '('
    · rw [if_pos opens]
      exact ih later (none [] cs (by rw [opens]; rfl))
    rw [if_neg opens]
    by_cases closes : c = ')'
    · rw [closes] at next
      cases next
    rw [if_neg closes]
    refine ih later ?_
    rw [closesNext, List.dropWhile_cons_of_pos (by simp [isFlat, opens, closes])] at next
    exact next

private theorem outsideFrom_eq_self
    (none : ∀ front tail, cs = front ++ '(' :: tail → closesNext tail = false) :
    outsideFrom 0 cs = cs := by
  induction cs with
  | nil => rfl
  | cons c cs ih =>
    have later : ∀ front tail, cs = front ++ '(' :: tail → closesNext tail = false := by
      intro front tail same
      exact none (c :: front) tail (by rw [same]; rfl)
    have unclosed : ¬ (c = '(' ∧ isClosedIn 0 cs) := by
      rintro ⟨rfl, closed⟩
      rw [isClosedIn_eq_false later (none [] cs rfl)] at closed
      cases closed
    rw [outsideFrom, if_neg unclosed, if_neg (by simp), ih later]
    rfl

/-- A round that takes nothing off the length finds no group. -/
private theorem findAll_innermostGroup_eq_nil (same : ¬ (collapseInnermost code).length < code.length) :
    findAll innermostGroup code = [] := by
  have wide : ∀ source, .found source () ∈ pieces innermostGroup none code → 2 ≤ source.length := by
    intro source member
    obtain ⟨before, c, rest, n, hit, rfl⟩ := exists_of_found_mem member
    obtain ⟨-, inside, behind, rfl, -, size⟩ := exists_of_innermostGroup hit
    rw [List.length_take, List.length_cons, List.length_append, List.length_cons]
    omega
  obtain ⟨less, unfound⟩ := taken_length _ wide
  rw [flatMap_source_pieces] at less unfound
  have longer : code.length ≤ (collapseInnermost code).length := Nat.le_of_not_lt same
  exact unfound (Nat.le_antisymm less longer)

/-- A round that takes nothing off the length changes nothing. -/
theorem collapseInnermost_eq_self (same : ¬ (collapseInnermost code).length < code.length) :
    collapseInnermost code = code := by
  rw [collapseInnermost, replaceAll, pieces_of_findAll_eq_nil (findAll_innermostGroup_eq_nil same),
    List.flatMap_map]
  exact List.flatMap_singleton' code

/-- Taking out innermost groups until none is left leaves what stands outside all pairs. -/
theorem collapseGroups_eq (code : List Char) : collapseGroups code = outsideFrom 0 code := by
  have kept (cs : List Char) : outsideFrom 0 (collapseInnermost cs) = outsideFrom 0 cs :=
    (rounds_keep none cs).2 0
  fun_induction collapseGroups code with
  | case1 code shorter ih => rw [ih, kept]
  | case2 code same =>
    have nothing := findAll_innermostGroup_eq_nil same
    refine (outsideFrom_eq_self fun front tail split => ?_).symm
    by_contra closes
    have hit := innermostGroup_open front.getLast? tail
    rw [if_pos (by simpa using closes)] at hit
    rw [split] at nothing
    exact absurd (eq_zero_of_findAll_eq_nil nothing hit) (by omega)

end Collapse

section Masked

/-- The lexeme in a text without comments, with empty literals and blanks in quoted names. -/
def Lexeme.masked : Lexeme → List Char
  | .code c => [c]
  | .name inside => '"' :: (List.replicate inside.length ' ' ++ ['"'])
  | .literal _ => ['\'', '\'']
  | .lineComment _ | .blockComment _ => [' ']

/-- The text without comments, with empty literals and blanks in quoted names, as SQL reads it. -/
def maskedOf (lexemes : List Lexeme) : List Char :=
  lexemes.flatMap Lexeme.masked

variable {lexeme : Lexeme} {lexemes others : List Lexeme}

/-- Where all lexemes are harmless, stripping leaves what SQL's own reading leaves. -/
theorem stripLiterals_of_harmless (reads : Reads lexemes)
    (harmless : Everywhere Lexeme.IsHarmless lexemes) :
    stripLiterals (sourceOf lexemes) = strippedOf lexemes := by
  obtain ⟨keepsBlocks, keeps⟩ := everywhere_and.mp harmless
  obtain ⟨keepsLines, keepsQuotes⟩ := everywhere_and.mp keeps
  rw [← map_char_tracedStrip, tracedStrip, pass_blockComment reads keepsBlocks,
    pass_lineComment reads keepsBlocks keepsLines,
    pass_quotedSegment reads keepsBlocks keepsLines keepsQuotes]
  exact map_char_layout_traced 0 lexemes

private theorem head?_strippedOf (quote : (strippedOf lexemes).head? = some '"') :
    (sourceOf lexemes).head? = some '"' := by
  cases lexemes with
  | nil => cases quote
  | cons lexeme others =>
    rw [head?_sourceOf_cons]
    rw [strippedOf, List.flatMap_cons, List.head?_append] at quote
    cases lexeme with
    | code c => exact quote
    | name inside => rfl
    | literal inside => cases quote
    | lineComment inside => cases quote
    | blockComment inside => cases quote

private theorem pieces_plain (unquoted : '"' ∉ lexeme.stripped) (same : lexeme.masked = lexeme.stripped) :
    maskQuoted (lexeme.stripped ++ strippedOf others) =
      lexeme.masked ++ maskQuoted (strippedOf others) := by
  rw [maskQuoted, replaceAll, pieces_quotedSegment_plain unquoted, List.flatMap_append,
    List.flatMap_map, same]
  exact congrArg (· ++ _) (List.flatMap_singleton' _)

/-- Blanking quoted names works on one lexeme after the other. -/
theorem maskQuoted_strippedOf (reads : Reads lexemes) :
    maskQuoted (strippedOf lexemes) = maskedOf lexemes := by
  induction lexemes with
  | nil => simp [strippedOf, maskedOf, maskQuoted, replaceAll]
  | cons lexeme others ih =>
    have later := ih reads.2
    have whole : strippedOf (lexeme :: others) = lexeme.stripped ++ strippedOf others :=
      List.flatMap_cons
    have masked : maskedOf (lexeme :: others) = lexeme.masked ++ maskedOf others := List.flatMap_cons
    rw [whole, masked, ← later]
    cases lexeme with
    | code c => exact pieces_plain (by simpa [Lexeme.stripped] using Ne.symm reads.1.2.1) rfl
    | literal inside => exact pieces_plain (by simp [Lexeme.stripped]) rfl
    | lineComment inside => exact pieces_plain (by simp [Lexeme.stripped]) rfl
    | blockComment inside => exact pieces_plain (by simp [Lexeme.stripped]) rfl
    | name inside =>
      have lone : (strippedOf others).head? ≠ some '"' := mt head?_strippedOf reads.1.2
      have found := pieces_quotedSegment_literal reads.1.1 lone
      have split : (Lexeme.name inside).stripped ++ strippedOf others =
          '"' :: (inside ++ '"' :: strippedOf others) := by simp [Lexeme.stripped]
      rw [split, maskQuoted, replaceAll, found, List.flatMap_cons]
      simp [Piece.replaced, Lexeme.masked, maskQuoted, replaceAll]

end Masked

section Keyword

variable {keyword : String} {lexeme : Lexeme} {lexemes : List Lexeme} {symbol : Symbol}
  {front back : List Symbol} {current right : List Char}

/-- How many parentheses are open after a text. -/
def depthAfterText (depth : Nat) (cs : List Char) : Nat :=
  cs.foldl depthAfterChar depth

theorem depthAfterText_append (depth : Nat) (left right : List Char) :
    depthAfterText depth (left ++ right) = depthAfterText (depthAfterText depth left) right :=
  List.foldl_append

theorem depthAfterText_flat (flat : ∀ c ∈ cs, isFlat c) : depthAfterText depth cs = depth := by
  induction cs with
  | nil => rfl
  | cons c cs ih =>
    obtain ⟨here, there⟩ := List.forall_mem_cons.mp flat
    obtain ⟨opens, closes⟩ := ne_of_isFlat here
    have same : depthAfterChar depth c = depth := by rw [depthAfterChar, if_neg opens, if_neg closes]
    rw [depthAfterText, List.foldl_cons, same]
    exact ih there

private theorem isFlat_of {property : Char → Bool}
    (neither : property '(' = false ∧ property ')' = false) (holds : property c) : isFlat c := by
  have opens : c ≠ '(' := by
    rintro rfl
    rw [neither.1] at holds
    cases holds
  have closes : c ≠ ')' := by
    rintro rfl
    rw [neither.2] at holds
    cases holds
  simp [isFlat, opens, closes]

private theorem isFlat_of_isIdentifierChar (continues : isIdentifierChar c) : isFlat c :=
  isFlat_of (by decide) continues

/-- A lexeme outside words leaves no character of a word in the code. -/
private theorem mark_of_mem_masked (stops : lexeme.wordChar? = none) (member : c ∈ lexeme.masked) :
    isIdentifierChar c = false := by
  have quotes : isIdentifierChar '"' = false ∧ isIdentifierChar '\'' = false := by decide
  have blank : isIdentifierChar ' ' = false := by decide
  cases lexeme with
  | code d =>
    obtain rfl := List.mem_singleton.mp member
    exact wordChar?_code_iff.mp stops
  | name inside =>
    simp only [Lexeme.masked, List.mem_cons, List.mem_append, List.mem_replicate, List.not_mem_nil,
      or_false] at member
    rcases member with rfl | ⟨-, rfl⟩ | rfl
    · exact quotes.1
    · exact blank
    · exact quotes.1
  | literal inside =>
    obtain rfl : c = '\'' := by simpa [Lexeme.masked] using member
    exact quotes.2
  | lineComment inside =>
    obtain rfl := List.mem_singleton.mp member
    exact blank
  | blockComment inside =>
    obtain rfl := List.mem_singleton.mp member
    exact blank

/-- A lexeme outside words leaves as many parentheses open as its symbols do. -/
private theorem depthAfterText_masked (stops : lexeme.wordChar? = none) (depth : Nat) :
    depthAfterText depth lexeme.masked = depthFrom depth lexeme.alone := by
  cases lexeme with
  | code c =>
    rw [Lexeme.alone]
    split
    · rename_i blank
      exact depthAfterText_flat (by simpa [Lexeme.masked] using isFlat_of (by decide) blank)
    · rfl
  | name inside =>
    refine depthAfterText_flat fun c member => ?_
    simp only [Lexeme.masked, List.mem_cons, List.mem_append, List.mem_replicate, List.not_mem_nil,
      or_false] at member
    rcases member with rfl | ⟨-, rfl⟩ | rfl <;> rfl
  | literal inside => rfl
  | lineComment inside => rfl
  | blockComment inside => rfl

private theorem masked_ne_nil (lexeme : Lexeme) : lexeme.masked ≠ [] := by
  cases lexeme <;> simp [Lexeme.masked]

private theorem eq_of_finishedWord {middle : List Symbol}
    (same : finishedWord current = front ++ .word word :: middle) : front = [] ∧ word = current := by
  unfold finishedWord at same
  split at same
  · simp at same
  · cases front with
    | nil => exact ⟨rfl, (Symbol.word.inj (List.cons.inj same).1).symm⟩
    | cons first front => simp at same

private theorem depthFrom_finishedWord (depth : Nat) (current : List Char) :
    depthFrom depth (finishedWord current) = depth := by
  unfold finishedWord
  split <;> rfl

private theorem word_not_mem_alone : .word word ∉ lexeme.alone := by
  cases lexeme with
  | code c =>
    rw [Lexeme.alone]
    split <;> simp
  | _ => simp [Lexeme.alone]

/-- A word among the symbols stands in the code, apart from what is around it. -/
private theorem exists_word_masked (chars : ∀ c ∈ current, isIdentifierChar c)
    (split : symbolsAfter current lexemes = front ++ .word word :: back) :
    ∃ left right, current ++ maskedOf lexemes = left ++ (word ++ right) ∧ IsApart left.getLast? ∧
      startsApart right ∧ (∀ c ∈ word, isIdentifierChar c) ∧
      ∀ depth, depthAfterText depth left = depthFrom depth front := by
  induction lexemes generalizing current front with
  | nil =>
    obtain ⟨rfl, rfl⟩ := eq_of_finishedWord split
    exact ⟨[], [], rfl, by simp [IsApart], rfl, chars, fun _ => rfl⟩
  | cons lexeme lexemes ih =>
    have whole : maskedOf (lexeme :: lexemes) = lexeme.masked ++ maskedOf lexemes := List.flatMap_cons
    cases stops : lexeme.wordChar? with
    | some c =>
      rw [symbolsAfter_of_wordChar stops] at split
      obtain ⟨rfl, continues⟩ := eq_of_wordChar? stops
      have longer : ∀ d ∈ current ++ [c], isIdentifierChar d := by
        intro d member
        rcases List.mem_append.mp member with before | here
        · exact chars d before
        · rw [List.mem_singleton.mp here]
          exact continues
      obtain ⟨left, right, text, found⟩ := ih longer split
      refine ⟨left, right, ?_, found⟩
      rw [← text, whole, List.append_assoc]
      rfl
    | none =>
      rw [symbolsAfter_of_none stops] at split
      rcases exists_cut split with ⟨middle, here⟩ | ⟨middle, rfl, later⟩
      · obtain ⟨rfl, rfl⟩ := eq_of_finishedWord here
        refine ⟨[], maskedOf (lexeme :: lexemes), rfl, by simp [IsApart], ?_, chars, fun _ => rfl⟩
        obtain ⟨c, tail, cut⟩ := List.exists_cons_of_ne_nil (masked_ne_nil lexeme)
        have mark := mark_of_mem_masked stops (by rw [cut]; exact List.mem_cons_self)
        simp [startsApart, whole, cut, mark]
      rcases exists_cut later with ⟨behind, here⟩ | ⟨behind, rfl, last⟩
      · have among : .word word ∈ lexeme.alone := by
          rw [here]
          exact List.mem_append_right _ List.mem_cons_self
        exact absurd among word_not_mem_alone
      obtain ⟨left, right, text, apart, follows, letters, depths⟩ := ih (by simp) last
      refine ⟨current ++ lexeme.masked ++ left, right, ?_, ?_, follows, letters, fun depth => ?_⟩
      · rw [List.nil_append] at text
        rw [whole, text]
        simp
      · cases ends : left.getLast? with
        | some d =>
          rw [List.getLast?_append, ends]
          rwa [ends] at apart
        | none =>
          obtain rfl := List.getLast?_eq_none_iff.mp ends
          intro c among
          rw [List.append_nil, List.getLast?_append_of_ne_nil _ (masked_ne_nil lexeme)] at among
          exact mark_of_mem_masked stops (List.mem_of_getLast? among)
      · have flat : ∀ c ∈ current, isFlat c :=
          fun c member => isFlat_of_isIdentifierChar (chars c member)
        rw [depthAfterText_append, depthAfterText_append, depthAfterText_flat flat,
          depthAfterText_masked stops, depths, depthFrom_append, depthFrom_append,
          depthFrom_finishedWord]

/-- Text before a place at which no parenthesis is open is shown as far as that matters there: no pair
is open, and a word does not reach back over the place. -/
private theorem exists_outsideFrom_append (left right : List Char) :
    ∃ shown depth, outsideFrom 0 (left ++ right) = shown ++ outsideFrom depth right ∧
      depth ≤ depthAfterText 0 left ∧
        (0 < depth ∨ IsApart left.getLast? → IsApart shown.getLast?) := by
  induction left using List.reverseRecOn generalizing right with
  | nil => exact ⟨[], 0, rfl, le_rfl, by simp [IsApart]⟩
  | append_singleton left c ih =>
    obtain ⟨shown, depth, text, bound, apart⟩ := ih (c :: right)
    have deeper : depthAfterText 0 (left ++ [c]) = depthAfterChar (depthAfterText 0 left) c := by
      rw [depthAfterText_append]
      rfl
    have inside (d : Char) (nested : 0 < depth) : IsApart (shown ++ shownAt depth d).getLast? := by
      rw [shownAt, if_neg nested.ne', List.append_nil]
      exact apart (.inl nested)
    have outside (d : Char) (level : depth = 0) (mark : isIdentifierChar d = false) :
        IsApart (shown ++ shownAt depth d).getLast? := by
      rw [shownAt, if_pos level, List.getLast?_concat]
      intro e same
      rwa [← Option.some.inj same]
    rw [List.append_assoc, List.singleton_append, text, outsideFrom, deeper]
    by_cases opens : c = '(' ∧ isClosedIn 0 right
    · refine ⟨shown ++ shownAt depth ' ', depth + 1, ?_, ?_, fun _ => ?_⟩
      · rw [if_pos opens, List.append_assoc]
      · rw [depthAfterChar, if_pos opens.1]
        omega
      · rcases Nat.eq_zero_or_pos depth with level | nested
        · exact outside ' ' level (by decide)
        · exact inside ' ' nested
    rw [if_neg opens]
    by_cases closes : c = ')' ∧ depth ≠ 0
    · refine ⟨shown, depth - 1, ?_, ?_, fun _ => apart (.inl (Nat.pos_of_ne_zero closes.2))⟩
      · rw [if_pos closes]
      · rw [depthAfterChar, closes.1, if_neg (by decide), if_pos rfl]
        omega
    rw [if_neg closes]
    refine ⟨shown ++ shownAt depth c, depth, ?_, ?_, fun reason => ?_⟩
    · rw [List.append_assoc]
    · unfold depthAfterChar
      split
      · omega
      · split
        · rename_i ends
          have level : depth = 0 := by simpa [ends] using closes
          omega
        · exact bound
    · rcases Nat.eq_zero_or_pos depth with level | nested
      · rcases reason with nested | mark
        · omega
        · exact outside c level (mark c List.getLast?_concat)
      · exact inside c nested

private theorem outsideFrom_flat (flat : ∀ c ∈ inside, isFlat c) :
    outsideFrom 0 (inside ++ rest) = inside ++ outsideFrom 0 rest := by
  induction inside with
  | nil => rfl
  | cons c inside ih =>
    obtain ⟨here, there⟩ := List.forall_mem_cons.mp flat
    obtain ⟨opens, closes⟩ := ne_of_isFlat here
    rw [List.cons_append, outsideFrom, if_neg (fun opened => opens opened.1),
      if_neg (fun closed => closes closed.1), ih there]
    rfl

private theorem startsApart_outsideFrom (apart : startsApart cs) : startsApart (outsideFrom 0 cs) := by
  cases cs with
  | nil => rfl
  | cons c cs =>
    rw [outsideFrom]
    by_cases opens : c = '(' ∧ isClosedIn 0 cs
    · rw [if_pos opens]
      rfl
    · rw [if_neg opens, if_neg (by simp)]
      exact apart

/-- A keyword before which no parenthesis is open is found outside all pairs. -/
theorem containsWord_outsideFrom {word : List Char} (words : areKeywords [keyword])
    (spelled : word.map Char.toUpper = keyword.toList) (letters : ∀ c ∈ word, isIdentifierChar c)
    (apart : IsApart left.getLast?) (follows : startsApart right) (level : depthAfterText 0 left = 0) :
    containsWord [keyword] (outsideFrom 0 (left ++ (word ++ right))) := by
  obtain ⟨shown, depth, before, bound, shownApart⟩ := exists_outsideFrom_append left (word ++ right)
  rw [level] at bound
  obtain rfl : depth = 0 := Nat.le_zero.mp bound
  have flat : ∀ c ∈ word, isFlat c := fun c member => isFlat_of_isIdentifierChar (letters c member)
  rw [before, outsideFrom_flat flat, containsWord_iff_isWordAt words]
  exact ⟨shown, _, rfl, isWordAt_spelled spelled (List.mem_singleton.mpr rfl)
    (shownApart (.inr apart)) (startsApart_outsideFrom follows)⟩

/-- A keyword that stands outside all parentheses is found in the code outside the pairs. -/
theorem containsWord_of_standsOutside (words : areKeywords [keyword])
    (stands : StandsOutside keyword (symbols lexemes)) :
    containsWord [keyword] (outsideFrom 0 (maskedOf lexemes)) := by
  obtain ⟨front, symbol, back, split, spells, level⟩ := stands
  cases symbol with
  | word word =>
    obtain ⟨left, right, text, apart, follows, letters, depths⟩ := exists_word_masked (by simp) split
    rw [List.nil_append] at text
    rw [text]
    exact containsWord_outsideFrom words (beq_iff_eq.mp spells) letters apart follows
      (by rw [depths, level])
  | sign c => cases spells
  | quoted => cases spells

end Keyword

end ReportQuery.Sql
