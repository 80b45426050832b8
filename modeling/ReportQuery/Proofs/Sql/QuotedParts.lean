import ReportQuery.Proofs.Sql.CodePlaceholders
import ReportQuery.Proofs.Sql.Restoring

set_option autoImplicit false
set_option relaxedAutoImplicit false

/-!
The literals and quoted identifiers of a statement, and of the statement that is sent for it once it was
prepared and the escapes of its colons were undone. Nothing that opens or closes a part of a statement comes
or goes, so the two are read part by part alike: what can change is what stands inside the parts.
-/

namespace ReportQuery.Sql

open Text

variable {cs rest text : List Char} {lexeme : Lexeme}
  {lexemes : List Lexeme} {region : Region} {c q x : Char} {i : Nat}

section Parts

/-- The lexemes of a text up to the first that is left open. -/
def lexemesIn (cs : List Char) : List Lexeme :=
  match read : lexeme? cs with
  | none => []
  | some (lexeme, rest) =>
    have : rest.length < cs.length := length_lexeme?_lt read
    lexeme :: lexemesIn rest
termination_by cs.length

/-- The string literals and quoted identifiers of a text. -/
def quotedParts (text : List Char) : List Lexeme :=
  (lexemesIn text).filter fun lexeme => lexeme.region = .quoted

theorem lexemesIn_of_none (unread : lexeme? cs = none) : lexemesIn cs = [] := by
  rw [lexemesIn]
  split
  · rfl
  · rename_i read
    rw [unread] at read
    cases read

theorem lexemesIn_of_some (read : lexeme? cs = some (lexeme, rest)) :
    lexemesIn cs = lexeme :: lexemesIn rest := by
  rw [lexemesIn]
  split
  · rename_i unread
    rw [unread] at read
    cases read
  · rename_i found
    obtain ⟨rfl, rfl⟩ := Prod.mk.inj (Option.some.inj (found.symm.trans read))
    rfl

/-- In a text in which all that opens closes, all of it is read. -/
theorem lexemesIn_eq_of_lex? (read : lex? text = some lexemes) : lexemesIn text = lexemes := by
  obtain ⟨rfl, reads⟩ := lex?_eq_some read
  clear read
  induction lexemes with
  | nil => exact lexemesIn_of_none rfl
  | cons lexeme others ih =>
    have front : lexeme? (sourceOf (lexeme :: others)) = some (lexeme, sourceOf others) :=
      lexeme?_of_readsBefore reads.1
    rw [lexemesIn_of_some front, ih reads.2]

theorem exists_unread (text : List Char) : ∃ unread, text = sourceOf (lexemesIn text) ++ unread := by
  induction size : text.length using Nat.strong_induction_on generalizing text with
  | _ n ih =>
    subst size
    cases read : lexeme? text with
    | none =>
      rw [lexemesIn_of_none read]
      exact ⟨text, rfl⟩
    | some found =>
      obtain ⟨lexeme, rest⟩ := found
      obtain ⟨unread, whole⟩ := ih rest.length (length_lexeme?_lt read) rest rfl
      refine ⟨unread, ?_⟩
      rw [lexemesIn_of_some read, sourceOf, List.flatMap_cons, ← sourceOf, List.append_assoc, ← whole]
      exact (lexeme?_eq_some read).1

theorem Lexeme.exists_quote (quoted : lexeme.region = .quoted) :
    ∃ q inside, IsQuote q ∧ lexeme.source = q :: (inside ++ [q]) := by
  cases lexeme with
  | name inside => exact ⟨'"', inside, .inr rfl, rfl⟩
  | literal inside => exact ⟨'\'', inside, .inl rfl, rfl⟩
  | code | lineComment | blockComment => cases quoted

theorem regions_cons (lexeme : Lexeme) (others : List Lexeme) :
    regions (lexeme :: others) = (lexeme.source.map fun _ => lexeme.region) ++ regions others :=
  List.flatMap_cons

/-- The part that a character belongs to is that of the lexeme around it. -/
theorem exists_of_getElem?_regions (here : (regions lexemes)[i]? = some region) :
    ∃ before lexeme behind left c right, lexemes = before ++ lexeme :: behind ∧
      lexeme.region = region ∧ lexeme.source = left ++ c :: right ∧
      i = (sourceOf before).length + left.length := by
  induction lexemes generalizing i with
  | nil => cases here
  | cons lexeme others ih =>
    rw [regions_cons] at here
    by_cases inside : i < lexeme.source.length
    · rw [List.getElem?_append_left (by rwa [List.length_map]), List.getElem?_map,
        List.getElem?_eq_getElem inside] at here
      obtain ⟨left, right, cut, size⟩ := exists_cut_at (List.getElem?_eq_getElem inside)
      exact ⟨[], lexeme, others, left, _, right, rfl, Option.some.inj here, cut, by simp [sourceOf, size]⟩
    · rw [List.getElem?_append_right (by rw [List.length_map]; omega), List.length_map] at here
      obtain ⟨before, found, behind, left, c, right, rfl, same, cut, place⟩ := ih here
      refine ⟨lexeme :: before, found, behind, left, c, right, rfl, same, cut, ?_⟩
      rw [sourceOf, List.flatMap_cons, ← sourceOf, List.length_append]
      omega

theorem getElem?_regions {before behind : List Lexeme} {left right : List Char}
    (cut : lexeme.source = left ++ c :: right) :
    (regions (before ++ lexeme :: behind))[(sourceOf before).length + left.length]? =
      some lexeme.region := by
  have whole : regions (before ++ lexeme :: behind) =
      regions before ++ ((lexeme.source.map fun _ => lexeme.region) ++ regions behind) := by
    rw [regions, List.flatMap_append, ← regions, ← regions, regions_cons]
  rw [whole, List.getElem?_append_right (by rw [length_regions]; omega), length_regions, Nat.add_sub_cancel_left,
    cut, List.map_append, List.append_assoc, List.getElem?_append_right (by rw [List.length_map]),
    List.length_map, Nat.sub_self]
  rfl

end Parts

section Alike

variable {these mark : List Fate}

theorem statementOf_append (front back : List Fate) :
    statementOf (front ++ back) = statementOf front ++ statementOf back :=
  List.map_append

theorem sentOf_append (front back : List Fate) : sentOf (front ++ back) = sentOf front ++ sentOf back :=
  List.flatMap_append

theorem Chained.of_append {front back : List Fate} (chained : Chained (front ++ back)) :
    Chained back := by
  induction front with
  | nil => exact chained
  | cons fate front ih => exact ih chained.2

theorem head?_statementOf_iff (plain : x ∉ ['@', '\\']) :
    (statementOf these).head? = some x ↔ these.head? = some (.kept x) := by
  cases these with
  | nil => simp [statementOf]
  | cons fate these =>
    have apart : '@' ≠ x ∧ '\\' ≠ x := by simpa [eq_comm] using plain
    cases fate with
    | kept c => simp [statementOf, Fate.source]
    | dropped => simpa [statementOf, Fate.source] using apart.2
    | turned => simpa [statementOf, Fate.source] using apart.1

/-- A character that preparing does not deal with comes first in both statements or in neither. -/
theorem head?_sentOf_iff (chained : Chained these) (plain : x ≠ ':') :
    (sentOf these).head? = some x ↔ these.head? = some (.kept x) := by
  cases these with
  | nil => simp [sentOf]
  | cons fate these =>
    cases fate with
    | kept c => simp [sentOf, Fate.sent]
    | turned => simpa [sentOf, Fate.sent, eq_comm] using plain
    | dropped =>
      obtain ⟨next, first, colon⟩ := chained.1 rfl
      obtain ⟨these, rfl⟩ := List.head?_eq_some_iff.mp first
      have opens : sentOf (.dropped :: next :: these) = ':' :: sentOf these := by
        rw [sentOf, List.flatMap_cons, List.flatMap_cons, colon]
        rfl
      simpa [opens, eq_comm] using plain

/-- The same places of the two statements are read, up to a mark in both, or none are of either. -/
def ReadAlike (read : List Char → Option (List Char × List Char)) (mark these : List Fate) : Prop :=
  (read (statementOf these) = none ∧ read (sentOf these) = none) ∨
    ∃ front back, these = front ++ (mark ++ back) ∧
      read (statementOf these) = some (statementOf front, statementOf back) ∧
      read (sentOf these) = some (sentOf front, sentOf back)

/-- What is read of further places is read of the places behind them, if the reader passes them in both
statements. -/
theorem ReadAlike.passed {read : List Char → Option (List Char × List Char)} (passed : List Fate)
    (later : ReadAlike read mark these)
    (statement : read (statementOf (passed ++ these)) = (read (statementOf these)).map
      fun (inside, rest) => (statementOf passed ++ inside, rest))
    (sent : read (sentOf (passed ++ these)) = (read (sentOf these)).map
      fun (inside, rest) => (sentOf passed ++ inside, rest)) :
    ReadAlike read mark (passed ++ these) := by
  rcases later with ⟨unread, unsent⟩ | ⟨front, back, rfl, whole, all⟩
  · exact .inl ⟨by rw [statement, unread]; rfl, by rw [sent, unsent]; rfl⟩
  · refine .inr ⟨passed ++ front, back, by rw [List.append_assoc], ?_, ?_⟩
    · rw [statement, whole, statementOf_append]
      rfl
    · rw [sent, all, sentOf_append]
      rfl

/-- The insides of literals and quoted identifiers end at the same place. -/
theorem readAlike_quotedInside? (quote : IsQuote q) (chained : Chained these) :
    ReadAlike (quotedInside? q) [.kept q] these := by
  have plain : q ∉ ['@', '\\'] ∧ q ≠ ':' := by rcases quote with rfl | rfl <;> decide
  have apart : '@' ≠ q ∧ '\\' ≠ q ∧ ':' ≠ q := by rcases quote with rfl | rfl <;> decide
  induction size : these.length using Nat.strong_induction_on generalizing these with
  | _ n ih =>
    subst size
    cases these with
    | nil => exact .inl ⟨rfl, rfl⟩
    | cons fate these =>
      have later := ih these.length (Nat.lt_succ_self _) chained.2 rfl
      cases fate with
      | dropped =>
        refine later.passed [.dropped] (quotedInside?_of_ne apart.2.1 _) ?_
        simp [sentOf, Fate.sent]
      | turned =>
        exact later.passed [.turned] (quotedInside?_of_ne apart.1 _) (quotedInside?_of_ne apart.2.2 _)
      | kept c =>
        by_cases same : c = q
        · subst same
          by_cases pair : these.head? = some (.kept c)
          · obtain ⟨these, rfl⟩ := List.head?_eq_some_iff.mp pair
            have beyond := ih these.length (by simp only [List.length_cons]; omega) chained.2.2 rfl
            exact beyond.passed [.kept c, .kept c] (quotedInside?_pair c _) (quotedInside?_pair c _)
          · have lone : (statementOf these).head? ≠ some c := mt (head?_statementOf_iff plain.1).mp pair
            have alone : (sentOf these).head? ≠ some c :=
              mt (head?_sentOf_iff chained.2 plain.2).mp pair
            exact .inr ⟨[], these, rfl, quotedInside?_lone lone, quotedInside?_lone alone⟩
        · exact later.passed [.kept c] (quotedInside?_of_ne same _) (quotedInside?_of_ne same _)

/-- Block comments end at the same place. -/
theorem readAlike_commentInside? (chained : Chained these) :
    ReadAlike commentInside? [.kept '*', .kept '/'] these := by
  induction these with
  | nil => exact .inl ⟨rfl, rfl⟩
  | cons fate these ih =>
    have later := ih chained.2
    have slash : (statementOf these).head? = some '/' ↔ these.head? = some (.kept '/') :=
      head?_statementOf_iff (by decide)
    have sentSlash : (sentOf these).head? = some '/' ↔ these.head? = some (.kept '/') :=
      head?_sentOf_iff chained.2 (by decide)
    cases fate with
    | dropped =>
      refine later.passed [.dropped] (commentInside?_of_not fun ends => absurd ends.1 (by decide)) ?_
      simp [sentOf, Fate.sent]
    | turned =>
      exact later.passed [.turned] (commentInside?_of_not fun ends => absurd ends.1 (by decide))
        (commentInside?_of_not fun ends => absurd ends.1 (by decide))
    | kept c =>
      by_cases ends : c = '*' ∧ these.head? = some (.kept '/')
      · obtain ⟨rfl, next⟩ := ends
        obtain ⟨these, rfl⟩ := List.head?_eq_some_iff.mp next
        exact .inr ⟨[], these, rfl, by simp [commentInside?, statementOf, Fate.source],
          by simp [commentInside?, sentOf, Fate.sent]⟩
      · have goes : ¬ (c = '*' ∧ (statementOf these).head? = some '/') := by rwa [slash]
        have alike : ¬ (c = '*' ∧ (sentOf these).head? = some '/') := by rwa [sentSlash]
        exact later.passed [.kept c] (commentInside?_of_not goes) (commentInside?_of_not alike)

/-- What a line comment holds and what follows it. -/
def lineInside (cs : List Char) : List Char × List Char :=
  (cs.takeWhile (· != '\n'), cs.dropWhile (· != '\n'))

theorem lineInside_of_ne (goes : c ≠ '\n') (cs : List Char) :
    lineInside (c :: cs) = (c :: (lineInside cs).1, (lineInside cs).2) := by
  simp [lineInside, goes]

/-- Line comments end at the same place. -/
theorem readAlike_lineInside (these : List Fate) :
    ReadAlike (fun cs => some (lineInside cs)) [] these := by
  induction these with
  | nil => exact .inr ⟨[], [], rfl, rfl, rfl⟩
  | cons fate these ih =>
    cases fate with
    | dropped =>
      refine ih.passed [.dropped] (congrArg some (lineInside_of_ne (by decide) _)) ?_
      simp [sentOf, Fate.sent]
    | turned =>
      exact ih.passed [.turned] (congrArg some (lineInside_of_ne (by decide) _))
        (congrArg some (lineInside_of_ne (by decide) _))
    | kept c =>
      by_cases line : c = '\n'
      · subst line
        exact .inr ⟨[], .kept '\n' :: these, rfl, by simp [lineInside, statementOf, Fate.source],
          by simp [lineInside, sentOf, Fate.sent]⟩
      · exact ih.passed [.kept c] (congrArg some (lineInside_of_ne line _))
          (congrArg some (lineInside_of_ne line _))

/-- The first lexemes of the two statements are of one kind and come from the same places, or neither
statement has one. -/
def LexedAlike (these : List Fate) : Prop :=
  (lexeme? (statementOf these) = none ∧ lexeme? (sentOf these) = none) ∨
    ∃ front back lexeme sent, these = front ++ back ∧
      lexeme? (statementOf these) = some (lexeme, statementOf back) ∧
      lexeme? (sentOf these) = some (sent, sentOf back) ∧ sent.region = lexeme.region

theorem ReadAlike.lexedAlike {read : List Char → Option (List Char × List Char)}
    {kind : List Char → Lexeme} (opener : List Fate) (inside : ReadAlike read mark these)
    (ofKind : ∀ inside others, (kind inside).region = (kind others).region)
    (statement : lexeme? (statementOf (opener ++ these)) = (read (statementOf these)).map
      fun (inside, rest) => (kind inside, rest))
    (sent : lexeme? (sentOf (opener ++ these)) = (read (sentOf these)).map
      fun (inside, rest) => (kind inside, rest)) :
    LexedAlike (opener ++ these) := by
  rcases inside with ⟨unread, unsent⟩ | ⟨front, back, rfl, whole, all⟩
  · exact .inl ⟨by rw [statement, unread]; rfl, by rw [sent, unsent]; rfl⟩
  · refine .inr ⟨opener ++ (front ++ mark), back, kind (statementOf front), kind (sentOf front), ?_, ?_,
      ?_, ?_⟩
    · rw [List.append_assoc, List.append_assoc]
    · rw [statement, whole]
      rfl
    · rw [sent, all]
      rfl
    · exact ofKind _ _

theorem lexeme?_quote (quote : IsQuote q) : ∃ kind : List Char → Lexeme,
    (∀ inside, (kind inside).region = .quoted) ∧
      ∀ cs, lexeme? (q :: cs) = (quotedInside? q cs).map fun (inside, rest) => (kind inside, rest) := by
  rcases quote with rfl | rfl
  · exact ⟨.literal, fun _ => rfl, fun cs => by rw [lexeme?, if_pos rfl]⟩
  · exact ⟨.name, fun _ => rfl, fun cs => by rw [lexeme?, if_neg (by decide), if_pos rfl]⟩

theorem lexeme?_dashes (cs : List Char) :
    lexeme? ('-' :: '-' :: cs) =
      (some (lineInside cs)).map fun (inside, rest) => (.lineComment inside, rest) := rfl

theorem lexeme?_slashStar (cs : List Char) :
    lexeme? ('/' :: '*' :: cs) =
      (commentInside? cs).map fun (inside, rest) => (.blockComment inside, rest) := rfl

theorem lexeme?_code (unquoted : ¬ IsQuote c) (line : ¬ (c = '-' ∧ cs.head? = some '-'))
    (block : ¬ (c = '/' ∧ cs.head? = some '*')) : lexeme? (c :: cs) = some (.code c, cs) := by
  obtain ⟨single, double⟩ := not_or.mp unquoted
  have reads : (Lexeme.code c).ReadsBefore cs := ⟨single, double, line, block⟩
  exact lexeme?_of_readsBefore reads

theorem lexeme?_plain (plain : c ∉ ['\'', '"', '-', '/']) (cs : List Char) :
    lexeme? (c :: cs) = some (.code c, cs) := by
  simp only [List.mem_cons, List.not_mem_nil, or_false, not_or] at plain
  obtain ⟨single, double, dash, slash⟩ := plain
  exact lexeme?_code (not_or.mpr ⟨single, double⟩) (fun line => dash line.1) fun block => slash block.1

/-- But for a backslash that is dropped, the two statements begin with the same part. -/
theorem lexedAlike_of_ne_dropped (chained : Chained these) (first : these.head? ≠ some .dropped) :
    LexedAlike these := by
  cases these with
  | nil => exact .inl ⟨rfl, rfl⟩
  | cons fate these =>
    cases fate with
    | dropped => exact absurd rfl first
    | turned =>
      exact .inr ⟨[.turned], these, .code '@', .code ':', rfl, lexeme?_plain (by decide) _,
        lexeme?_plain (by decide) _, rfl⟩
    | kept c =>
      have second (x : Char) (plain : x ∉ [':', '@', '\\']) :
          ((statementOf these).head? = some x ↔ these.head? = some (.kept x)) ∧
            ((sentOf these).head? = some x ↔ these.head? = some (.kept x)) := by
        obtain ⟨colon, plain⟩ := not_or.mp (mt List.mem_cons.mpr plain)
        exact ⟨head?_statementOf_iff plain, head?_sentOf_iff chained.2 colon⟩
      have dash := second '-' (by decide)
      have star := second '*' (by decide)
      by_cases quote : IsQuote c
      · obtain ⟨kind, quoted, read⟩ := lexeme?_quote quote
        exact (readAlike_quotedInside? quote chained.2).lexedAlike [.kept c]
          (fun inside others => (quoted inside).trans (quoted others).symm) (read _) (read _)
      by_cases line : c = '-' ∧ these.head? = some (.kept '-')
      · obtain ⟨rfl, next⟩ := line
        obtain ⟨these, rfl⟩ := List.head?_eq_some_iff.mp next
        exact (readAlike_lineInside these).lexedAlike [.kept '-', .kept '-'] (fun _ _ => rfl)
          (lexeme?_dashes _) (lexeme?_dashes _)
      by_cases block : c = '/' ∧ these.head? = some (.kept '*')
      · obtain ⟨rfl, next⟩ := block
        obtain ⟨these, rfl⟩ := List.head?_eq_some_iff.mp next
        exact (readAlike_commentInside? chained.2.2).lexedAlike [.kept '/', .kept '*'] (fun _ _ => rfl)
          (lexeme?_slashStar _) (lexeme?_slashStar _)
      have read : lexeme? (c :: statementOf these) = some (.code c, statementOf these) :=
        lexeme?_code quote (by rwa [dash.1]) (by rwa [star.1])
      have sent : lexeme? (c :: sentOf these) = some (.code c, sentOf these) :=
        lexeme?_code quote (by rwa [dash.2]) (by rwa [star.2])
      exact .inr ⟨[.kept c], these, .code c, .code c, rfl, read, sent, rfl⟩

theorem length_sentOf_le (these : List Fate) : (sentOf these).length ≤ (statementOf these).length := by
  induction these with
  | nil => exact le_rfl
  | cons fate these ih =>
    have one : fate.sent.length ≤ 1 := by cases fate <;> simp [Fate.sent]
    rw [sentOf, List.flatMap_cons, ← sentOf, List.length_append, statementOf, List.map_cons,
      List.length_cons, ← statementOf]
    omega

/-- Places are sent as they are written exactly if all their characters are kept. -/
theorem sentOf_eq_statementOf_iff :
    sentOf these = statementOf these ↔ ∀ fate ∈ these, fate.isKept := by
  induction these with
  | nil => simp [sentOf, statementOf]
  | cons fate these ih =>
    rw [List.forall_mem_cons]
    cases fate with
    | kept c =>
      have front : sentOf (.kept c :: these) = statementOf (.kept c :: these) ↔
          sentOf these = statementOf these := List.cons_inj_right c
      rw [front, ih, and_iff_right (show (Fate.kept c).isKept from rfl)]
    | turned =>
      refine iff_of_false (fun same => ?_) fun kept => absurd kept.1 (by decide)
      exact absurd (List.cons.inj same).1 (by decide)
    | dropped =>
      refine iff_of_false (fun same => ?_) fun kept => absurd kept.1 (by decide)
      have longer : (sentOf these).length = (statementOf these).length + 1 := congrArg List.length same
      have bound := length_sentOf_le these
      omega

/-- Of places in one part, those that must be kept are all or none. -/
theorem forall_mem_zip_region_iff (front : List Fate) (region : Region) :
    (∀ pair ∈ front.zip ((statementOf front).map fun _ => region), pair.2 = .quoted → pair.1.isKept) ↔
      (region = .quoted → ∀ fate ∈ front, fate.isKept) := by
  have each : ((statementOf front).map fun _ => region) = front.map fun _ => region := by
    rw [statementOf, List.map_map]
    rfl
  have pairs : front.zip (front.map fun _ => region) = front.map fun fate => (fate, region) := by
    simpa using List.zip_map' (f := id) (g := fun _ : Fate => region) (l := front)
  rw [each, pairs, List.forall_mem_map]
  exact ⟨fun kept quoted fate member => kept fate member quoted,
    fun kept fate member quoted => kept quoted fate member⟩

theorem quotedParts_of_some (read : lexeme? cs = some (lexeme, rest)) :
    quotedParts cs = if lexeme.region = .quoted then lexeme :: quotedParts rest else quotedParts rest := by
  rw [quotedParts, lexemesIn_of_some read, List.filter_cons]
  simp only [decide_eq_true_eq]
  rfl

theorem quotedParts_of_none (unread : lexeme? cs = none) : quotedParts cs = [] := by
  rw [quotedParts, lexemesIn_of_none unread]
  rfl

/-- The literals and quoted identifiers are sent as they are written exactly if all their characters are
kept. -/
theorem quotedParts_sentOf_iff (chained : Chained these) :
    quotedParts (sentOf these) = quotedParts (statementOf these) ↔
      ∀ pair ∈ these.zip (regions (lexemesIn (statementOf these))),
        pair.2 = .quoted → pair.1.isKept := by
  induction size : these.length using Nat.strong_induction_on generalizing these with
  | _ n ih =>
    subst size
    by_cases first : these.head? = some .dropped
    · obtain ⟨these, rfl⟩ := List.head?_eq_some_iff.mp first
      have read : lexeme? (statementOf (.dropped :: these)) = some (.code '\\', statementOf these) :=
        lexeme?_plain (by decide) _
      have later := ih these.length (Nat.lt_succ_self _) chained.2 rfl
      have sent : sentOf (.dropped :: these) = sentOf these := rfl
      rw [quotedParts_of_some read, if_neg (by decide), lexemesIn_of_some read, sent, later,
        regions_cons]
      simp [Lexeme.source, Lexeme.region]
    rcases lexedAlike_of_ne_dropped chained first with ⟨unread, unsent⟩ | ⟨front, back, lexeme, sent,
      rfl, read, readSent, same⟩
    · rw [quotedParts_of_none unread, quotedParts_of_none unsent, lexemesIn_of_none unread]
      simp [regions]
    · have cut := (lexeme?_eq_some read).1
      have cutSent := (lexeme?_eq_some readSent).1
      rw [statementOf_append, List.append_cancel_right_eq] at cut
      rw [sentOf_append, List.append_cancel_right_eq] at cutSent
      have shorter : back.length < (front ++ back).length := by
        have nonempty := List.length_pos_iff.mpr lexeme.source_ne_nil
        rw [← cut, statementOf, List.length_map] at nonempty
        rw [List.length_append]
        omega
      have later := ih back.length shorter chained.of_append rfl
      have sameSize : front.length = ((statementOf front).map fun _ => lexeme.region).length := by
        rw [List.length_map, statementOf, List.length_map]
      have own : sent = lexeme ↔ ∀ fate ∈ front, fate.isKept := by
        rw [← sentOf_eq_statementOf_iff, cut, cutSent]
        exact ⟨fun same => by rw [same], Lexeme.source_injective⟩
      rw [quotedParts_of_some read, quotedParts_of_some readSent, same, lexemesIn_of_some read,
        regions_cons, ← cut, List.zip_append sameSize, List.forall_mem_append, ← later,
        forall_mem_zip_region_iff]
      by_cases quoted : lexeme.region = .quoted
      · rw [if_pos quoted, if_pos quoted, List.cons.injEq, own, forall_prop_of_true quoted]
      · rw [if_neg quoted, if_neg quoted, and_iff_right fun other => absurd other quoted]

end Alike

end ReportQuery.Sql
