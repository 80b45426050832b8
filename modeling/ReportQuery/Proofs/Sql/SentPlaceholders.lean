import ReportQuery.Command.Assignment
import ReportQuery.Proofs.Sql.CodePlaceholders
import ReportQuery.Proofs.Sql.RowCeiling

set_option autoImplicit false
set_option relaxedAutoImplicit false

/-!
The placeholders of the statement that is sent. For the row ceiling, blanks and semicolons go from the
ends of a text and others characters come there. None of them opens a quoted segment, marks a
placeholder or belongs to the name of one, so the text that is sent has the placeholders of the text
that was given.
-/

namespace ReportQuery.Sql

open Text

variable {c : Char} {before : Option Char} {front back text : List Char} {left : Option (Char × Bool)}
  {here : Char × Bool} {right : List (Char × Bool)}

/-- A character that neither opens a quoted segment nor marks a placeholder. -/
def IsUnmarked (c : Char) : Prop :=
  ¬ IsQuote c ∧ c ≠ '@'

instance : DecidablePred IsUnmarked := fun _ => inferInstanceAs (Decidable (_ ∧ _))

/-- A front with no part in a quoted segment or a placeholder of the text behind it. -/
structure LeavesBehind (front : List Char) : Prop where
  unmarked : ∀ c ∈ front, IsUnmarked c
  apart : joinsPlaceholder front.getLast? = false

/-- An end with no part in a quoted segment or a placeholder of the text before it. -/
structure LeavesBefore (back : List Char) : Prop where
  unmarked : ∀ c ∈ back, IsUnmarked c
  apart : ∀ c ∈ back.head?, isNameChar c = false

section Segments

theorem shaded_append_front (unquoted : ∀ c ∈ front, ¬ IsQuote c) (text : List Char) :
    shaded (front ++ text) = front.map (·, false) ++ shaded text := by
  induction front with
  | nil => rfl
  | cons c front ih =>
    obtain ⟨here, there⟩ := List.forall_mem_cons.mp unquoted
    rw [List.cons_append, shaded_cons here, ih there, List.map_cons, List.cons_append]

theorem quotedPart_append (unquoted : ∀ c ∈ back, ¬ IsQuote c) (nonempty : text ≠ []) :
    quotedPart before (text ++ back) = quotedPart before text := by
  obtain ⟨c, cs, rfl⟩ := List.exists_cons_of_ne_nil nonempty
  have each (quote : Char) (isQuote : IsQuote quote) :
      quotedSegment quote before (c :: cs ++ back) = quotedSegment quote before (c :: cs) := by
    have absent : quote ∉ back := fun among => unquoted quote among isQuote
    rw [quotedSegment, quotedSegment, List.cons_append, Quoted.segment?, Quoted.segment?,
      closing?_append absent]
  rw [quotedPart, quotedPart, each '\'' (.inl rfl), each '"' (.inr rfl)]

theorem length_of_quotedPart {n : Nat} (read : quotedPart before text = some (n, ())) :
    n ≤ text.length := by
  have each (quote : Char) (read : quotedSegment quote before text = some (n, ())) :
      n ≤ text.length := by
    obtain ⟨m, found, same⟩ := Option.map_eq_some_iff.mp read
    obtain ⟨inside, rest, rfl, rfl⟩ := Quoted.segment?_eq_some found
    obtain rfl : inside.length + 2 = n := (Prod.mk.inj same).1
    simp only [List.length_cons, List.length_append]
    omega
  rw [quotedPart, Option.orElse_eq_or, Option.or_eq_some_iff] at read
  rcases read with single | ⟨-, double⟩
  · exact each '\'' single
  · exact each '"' double

theorem shaded_append_back (unquoted : ∀ c ∈ back, ¬ IsQuote c) (text : List Char) :
    shaded (text ++ back) = shaded text ++ back.map (·, false) := by
  have alone := shaded_append_front unquoted []
  rw [List.append_nil] at alone
  have cut : pieces quotedPart none (text ++ back) =
      pieces quotedPart none text ++ pieces quotedPart (text.getLast?.or none) back :=
    pieces_append none (fun _ _ nonempty _ => quotedPart_append unquoted nonempty)
      fun _ _ _ _ => length_of_quotedPart
  rw [shaded, cut, pieces_before quotedPart_blind (text.getLast?.or none), List.flatMap_append, ← shaded,
    ← shaded, alone]
  simp [shaded]

end Segments

section Names

theorem nameAt_of_ne (other : here.1 ≠ '@') : nameAt left here right = none := by
  rw [nameAt, placeholderAt, placeholder_of_ne_at other]
  split <;> rfl

/-- Nothing is named in characters that mark no placeholder. -/
theorem filterMap_nameAt_of_unmarked (unmarked : ∀ c ∈ front, c ≠ '@') (left : Option (Char × Bool))
    (rest : List (Char × Bool)) :
    (atPlaces (fun left here right => nameAt left here (right ++ rest)) left
      (front.map (·, false))).filterMap id = [] := by
  have unnamed : atPlaces (fun left here right => nameAt left here (right ++ rest)) left
      (front.map (·, false)) = atPlaces (fun _ _ _ => none) left (front.map (·, false)) := by
    refine atPlaces_congr fun before here right whole => nameAt_of_ne ?_
    have among : here ∈ front.map (·, false) := by simp [whole]
    obtain ⟨c, member, rfl⟩ := List.mem_map.mp among
    exact unmarked c member
  rw [unnamed, atPlaces_own fun _ => none]
  simp

/-- What stands before the text matters for its first place only, and there no more than the end of a
text would. -/
theorem atPlaces_nameAt_apart (apart : joinsPlaceholder (left.map Prod.fst) = false)
    (shades : List (Char × Bool)) : atPlaces nameAt left shades = atPlaces nameAt none shades := by
  cases shades with
  | nil => rfl
  | cons here shades =>
    have same : nameAt left here shades = nameAt none here shades := by
      by_cases sign : here.1 = '@'
      · rw [nameAt, nameAt, placeholderAt, placeholderAt, sign, placeholder_at, placeholder_at, apart]
        rfl
      · rw [nameAt_of_ne sign, nameAt_of_ne sign]
    rw [atPlaces, atPlaces, same]

/-- A name ends before an end with no part in it. -/
theorem nameAt_append (apart : ∀ c ∈ back.head?, isNameChar c = false) :
    nameAt left here (right ++ back.map (·, false)) = nameAt left here right := by
  by_cases sign : here.1 = '@'
  · have taken (cs : List Char) : (cs ++ back).takeWhile isNameChar = cs.takeWhile isNameChar := by
      cases back with
      | nil => rw [List.append_nil]
      | cons c back => exact (takeWhile_append_cons (apart c rfl) cs back).1
    have named : (right ++ back.map (·, false)).map Prod.fst = right.map Prod.fst ++ back := by
      simp [Function.comp_def]
    rw [nameAt, nameAt, placeholderAt, placeholderAt, sign, named, placeholder_congr (taken _)]
  · rw [nameAt_of_ne sign, nameAt_of_ne sign]

/-- A text keeps its placeholders between a front and an end with no part in them. -/
theorem names_prepare_between (leads : LeavesBehind front) (trails : LeavesBefore back)
    (text : List Char) :
    (prepare (front ++ (text ++ back))).names = (prepare text).names := by
  have shades : shaded (front ++ (text ++ back)) =
      front.map (·, false) ++ (shaded text ++ back.map (·, false)) := by
    rw [shaded_append_front fun c member => (leads.unmarked c member).1,
      shaded_append_back fun c member => (trails.unmarked c member).1]
  have last : joinsPlaceholder (((front.map (·, false)).getLast?.or none).map Prod.fst) = false := by
    rw [Option.or_none, List.getLast?_map, Option.map_map]
    simpa [Function.comp_def] using leads.apart
  have inside : atPlaces (fun left here right => nameAt left here (right ++ back.map (·, false))) none
      (shaded text) = atPlaces nameAt none (shaded text) :=
    atPlaces_congr fun _ _ _ _ => nameAt_append trails.apart
  have behind := filterMap_nameAt_of_unmarked (fun c member => (trails.unmarked c member).2)
    ((shaded text).getLast?.or none) []
  simp only [List.append_nil] at behind
  rw [names_prepare_eq, names_prepare_eq, shades, atPlaces_append, List.filterMap_append,
    filterMap_nameAt_of_unmarked (fun c member => (leads.unmarked c member).2), List.nil_append,
    atPlaces_nameAt_apart last, atPlaces_append, List.filterMap_append, inside, behind, List.append_nil]

end Names

section Ceiling

/-- A statement stands in its text between blanks and, at the end, semicolons. -/
theorem exists_around_bareStatement (sql : List Char) :
    ∃ front back, sql = front ++ (bareStatement sql ++ back) ∧ (∀ c ∈ front, isBlank c) ∧
      ∀ c ∈ back, isBlank c ∨ c = ';' := by
  have start : sql.takeWhile isBlank ++ trimFrontChars sql = sql := List.takeWhile_append_dropWhile
  obtain ⟨blanks, first, blank⟩ := exists_dropped_back isBlank (trimFrontChars sql)
  obtain ⟨semicolons, second, semicolon⟩ := exists_dropped_back (· == ';') (trimChars sql)
  obtain ⟨others, third, other⟩ :=
    exists_dropped_back isBlank ((trimChars sql).reverse.dropWhile (· == ';')).reverse
  rw [← trimBackChars, ← trimChars] at first
  rw [← trimBackChars, ← bareStatement] at third
  refine ⟨sql.takeWhile isBlank, others ++ (semicolons ++ blanks), ?_,
    fun c member => List.mem_takeWhile_imp member, fun c member => ?_⟩
  · calc sql = sql.takeWhile isBlank ++ trimFrontChars sql := start.symm
      _ = sql.takeWhile isBlank ++ (((bareStatement sql ++ others) ++ semicolons) ++ blanks) := by
        rw [third, second, first]
      _ = sql.takeWhile isBlank ++ (bareStatement sql ++ (others ++ (semicolons ++ blanks))) := by
        rw [List.append_assoc, List.append_assoc]
  · rcases List.mem_append.mp member with here | later
    · exact .inl (other c here)
    · rcases List.mem_append.mp later with here | there
      · exact .inr (beq_iff_eq.mp (semicolon c here))
      · exact .inl (blank c there)

theorem isUnmarked_of_isBlank (blank : isBlank c) : IsUnmarked c := by
  have all : ∀ n ∈ blankCodes, IsUnmarked (Char.ofNat n) := by decide
  rw [← Char.ofNat_toNat c]
  exact all _ (toNat_mem_blankCodes blank)

theorem isUnmarked_of_isNameChar (named : isNameChar c) : IsUnmarked c := by
  refine ⟨?_, ?_⟩
  · rintro (rfl | rfl) <;> exact absurd named (by decide)
  · rintro rfl
    exact absurd named (by decide)

theorem leavesBehind_of_blank (blank : ∀ c ∈ front, isBlank c) : LeavesBehind front where
  unmarked := fun c member => isUnmarked_of_isBlank (blank c member)
  apart := by
    rw [joinsPlaceholder_eq_false_iff]
    intro c last
    have here := blank c (List.mem_of_getLast? last)
    have marks : [('@' : Char), ':', '$'].all fun mark => !isBlank mark := by decide
    refine ⟨isWordChar_eq_false_of_isBlank here, fun mark => ?_⟩
    have unmarked := List.all_eq_true.mp marks c mark
    rw [here] at unmarked
    cases unmarked

theorem leavesBehind_openingOf (wrapped : Bool) : LeavesBehind (openingOf wrapped).toList where
  unmarked := by
    have all : (openingOf wrapped).toList.all fun c => decide (IsUnmarked c) := by
      cases wrapped <;> rfl
    intro c member
    exact of_decide_eq_true (List.all_eq_true.mp all c member)
  apart := by cases wrapped <;> rfl

theorem leavesBefore_loose (loose : ∀ c ∈ back, isBlank c ∨ c = ';') : LeavesBefore back where
  unmarked := by
    intro c member
    rcases loose c member with blank | rfl
    · exact isUnmarked_of_isBlank blank
    · decide
  apart := by
    intro c first
    rcases loose c (List.mem_of_head? first) with blank | rfl
    · refine Bool.eq_false_iff.mpr fun named => ?_
      rw [isBlank_of_isNameChar named] at blank
      cases blank
    · decide

theorem leavesBefore_clauseBehind (wrapped : Bool) (ceiling : RowCount) :
    LeavesBefore (clauseBehind wrapped ceiling) where
  unmarked := by
    intro c member
    rcases mem_clauseBehind member with named | rfl | rfl
    · exact isUnmarked_of_isNameChar named
    · decide
    · decide
  apart := by
    intro c first
    rw [head?_clauseBehind] at first
    obtain rfl := Option.some.inj first
    cases wrapped <;> decide

theorem names_bareStatement (sql : List Char) :
    (prepare (bareStatement sql)).names = (prepare sql).names := by
  obtain ⟨front, back, whole, blank, loose⟩ := exists_around_bareStatement sql
  have between := names_prepare_between (leavesBehind_of_blank blank) (leavesBefore_loose loose)
    (bareStatement sql)
  rw [← whole] at between
  exact between.symm

/-- The clause and the query that are put around a statement change none of its placeholders. -/
theorem names_ceilinged (options : Options) (extent : Extent) (sql : List Char) :
    (prepare (applyRowLimit options extent sql)).names = (prepare (bareStatement sql)).names := by
  by_cases kept : extent = .full ∧ hasLimit (bareStatement sql)
  · obtain ⟨rfl, own⟩ := kept
    rw [applyRowLimit_full own]
  · rw [applyRowLimit_eq kept]
    exact names_prepare_between (leavesBehind_openingOf _) (leavesBefore_clauseBehind _ _) _

end Ceiling

/-- Whatever its ceiling does to a text, the statement that is sent has the placeholders of the text,
in the same order. The definitions made for the text are therefore one for each of them, and the others
belong to names that have a value or a type. -/
theorem names_applyRowLimit (options : Options) (extent : Extent) (sql : List Char) :
    let sent := (prepare (applyRowLimit options extent sql)).names
    sent = (prepare sql).names ∧
      ∀ values types : List (String × String), ∃ others,
        (Command.definitionsFor values types (prepare sql).names).map Parameter.Definition.name =
            sent ++ others ∧
          ∀ name ∈ others, name ∉ sent ∧ name ∈ values.map Prod.fst ++ types.map Prod.fst := by
  intro sent
  have same : sent = (prepare sql).names :=
    (names_ceilinged options extent sql).trans (names_bareStatement sql)
  refine ⟨same, fun values types => ?_⟩
  have apart : distinct sent = sent := distinct_eq_self (nodup_names_prepare _)
  obtain ⟨others, whole⟩ := prefix_distinct sent (values.map Prod.fst ++ types.map Prod.fst)
  rw [apart] at whole
  have fresh : ∀ name ∈ others, name ∉ sent := by
    have once : (sent ++ others).Nodup := by
      rw [whole]
      exact nodup_distinct _
    exact fun name among early => (List.nodup_append.mp once).2.2 name early name among rfl
  refine ⟨others, ?_, fun name among => ⟨fresh name among, ?_⟩⟩
  · rw [whole, ← same, Command.definitionsFor, List.map_map]
    simp [Function.comp_def]
  · have listed : name ∈ sent ++ (values.map Prod.fst ++ types.map Prod.fst) := by
      rw [← mem_distinct, ← whole]
      exact List.mem_append_right sent among
    exact (List.mem_append.mp listed).resolve_left (fresh name among)

end ReportQuery.Sql
