import Mathlib.Data.List.Forall2
import ReportQuery.Proofs.Sql.Edits
import ReportQuery.Proofs.Sql.Lexer

set_option autoImplicit false
set_option relaxedAutoImplicit false

/-!
Placeholders and SQL's own reading of a statement. The scan that looks for quoted segments knows no
comments: it takes a quote in a comment for the start of a segment, which then ends at the next such quote
wherever that stands. Where every comment closes the quotes in it, the segments are the literals and quoted
identifiers of the statement and parts of its comments.
-/

namespace ReportQuery.Sql

open Text

variable {text rest inside : List Char} {lexemes : List Lexeme} {lexeme : Lexeme} {c q : Char}
  {p : Placeholder}

/-- The part of a statement that a character belongs to. -/
inductive Region where
  | code
  | quoted
  | comment
deriving DecidableEq

def Lexeme.region : Lexeme → Region
  | code _ => .code
  | name _ | literal _ => .quoted
  | lineComment _ | blockComment _ => .comment

/-- The parts that the characters of a statement belong to, one by one. -/
def regions (lexemes : List Lexeme) : List Region :=
  lexemes.flatMap fun lexeme => lexeme.source.map fun _ => lexeme.region

section Agreement

/-- The quote that is open after a text, quotes of the other kind passed over. -/
def openQuote? : Option Char → List Char → Option Char
  | quote?, [] => quote?
  | none, c :: cs => openQuote? (if IsQuote c then some c else none) cs
  | some quote, c :: cs => openQuote? (if c = quote then none else some quote) cs

/-- A comment that leaves no quote open. -/
def Lexeme.ClosesQuotes : Lexeme → Prop
  | lineComment inside | blockComment inside => openQuote? none inside = none
  | code _ | name _ | literal _ => True

instance : DecidablePred Lexeme.ClosesQuotes := fun lexeme => by
  cases lexeme <;> unfold Lexeme.ClosesQuotes <;> infer_instance

theorem quotedPart_blind (before : Option Char) (cs : List Char) :
    quotedPart before cs = quotedPart none cs := rfl

theorem quotedPart_of_not_isQuote (other : ¬ IsQuote c) (cs : List Char) :
    quotedPart none (c :: cs) = none := by
  obtain ⟨single, double⟩ := not_or.mp other
  simp [quotedPart, quotedSegment, Quoted.segment?, single, double]

theorem quotedPart_of_paired (quote : IsQuote q) (paired : Quoted.Paired q inside)
    (lone : rest.head? ≠ some q) :
    quotedPart none (q :: (inside ++ q :: rest)) = some (inside.length + 2, ()) := by
  have read := Quoted.segment?_of_paired paired lone
  rcases quote with rfl | rfl
  · simp [quotedPart, quotedSegment, read]
  · have other : Quoted.segment? '\'' ('"' :: (inside ++ '"' :: rest)) = none := by
      simp [Quoted.segment?]
    simp [quotedPart, quotedSegment, read, other]

theorem shaded_cons (other : ¬ IsQuote c) (cs : List Char) :
    shaded (c :: cs) = (c, false) :: shaded cs := by
  rw [shaded, pieces_of_none (quotedPart_of_not_isQuote other cs), pieces_before quotedPart_blind]
  rfl

theorem shaded_quoted (quote : IsQuote q) (paired : Quoted.Paired q inside)
    (lone : rest.head? ≠ some q) :
    shaded (q :: (inside ++ q :: rest)) = (q :: (inside ++ [q])).map (·, true) ++ shaded rest := by
  have whole : q :: (inside ++ q :: rest) = q :: (inside ++ [q]) ++ rest := by simp
  have hit : quotedPart none (q :: (inside ++ [q]) ++ rest) =
      some ((q :: (inside ++ [q])).length, ()) := by
    rw [← whole, quotedPart_of_paired quote paired lone]
    simp
  rw [shaded, whole, pieces_append_of_match (by simp) hit, pieces_before quotedPart_blind]
  rfl

/-- A quote that is closed at the end of a text is closed by a lone quote. -/
theorem exists_closing (quote : IsQuote q) (closes : openQuote? (some q) text = none) :
    ∃ inside rest, text = inside ++ q :: rest ∧ Quoted.Paired q inside ∧ rest.head? ≠ some q ∧
      openQuote? none rest = none := by
  induction size : text.length using Nat.strong_induction_on generalizing text with
  | _ n ih =>
    subst size
    cases text with
    | nil => cases closes
    | cons c cs =>
      rw [openQuote?] at closes
      by_cases same : c = q
      · subst same
        rw [if_pos rfl] at closes
        by_cases pair : cs.head? = some c
        · obtain ⟨ds, rfl⟩ := List.head?_eq_some_iff.mp pair
          rw [openQuote?, if_pos quote] at closes
          obtain ⟨inside, rest, rfl, paired, lone, closed⟩ :=
            ih ds.length (by simp only [List.length_cons]; omega) closes rfl
          exact ⟨c :: c :: inside, rest, rfl, .pair paired, lone, closed⟩
        · exact ⟨[], cs, rfl, .nil, pair, closes⟩
      · rw [if_neg same] at closes
        obtain ⟨inside, rest, rfl, paired, lone, closed⟩ :=
          ih cs.length (by rw [List.length_cons]; omega) closes rfl
        exact ⟨c :: inside, rest, rfl, .other same paired, lone, closed⟩

/-- A text that leaves no quote open has segments of its own. -/
theorem exists_shaded_append (closes : openQuote? none text = none)
    (apart : ∀ c ∈ rest.head?, ¬ IsQuote c) :
    ∃ front, shaded (text ++ rest) = front ++ shaded rest ∧ front.length = text.length := by
  induction size : text.length using Nat.strong_induction_on generalizing text with
  | _ n ih =>
    subst size
    cases text with
    | nil => exact ⟨[], rfl, rfl⟩
    | cons c cs =>
      rw [openQuote?] at closes
      by_cases quote : IsQuote c
      · rw [if_pos quote] at closes
        obtain ⟨inside, left, rfl, paired, lone, closed⟩ := exists_closing quote closes
        have shorter : left.length < (c :: (inside ++ c :: left)).length := by
          simp only [List.length_cons, List.length_append]
          omega
        obtain ⟨front, later, size⟩ := ih left.length shorter closed rfl
        have alone : (left ++ rest).head? ≠ some c := by
          cases left with
          | nil => exact fun head => apart c head quote
          | cons d left => exact lone
        refine ⟨(c :: (inside ++ [c])).map (·, true) ++ front, ?_, ?_⟩
        · rw [List.cons_append, List.append_assoc, List.cons_append, shaded_quoted quote paired alone,
            later, List.append_assoc]
        · simp only [List.length_append, List.length_map, List.length_cons, List.length_nil, size]
          omega
      · rw [if_neg quote] at closes
        obtain ⟨front, later, size⟩ := ih cs.length (by rw [List.length_cons]; omega) closes rfl
        refine ⟨(c, false) :: front, ?_, by rw [List.length_cons, List.length_cons, size]⟩
        rw [List.cons_append, shaded_cons quote, later, List.cons_append]

/-- A character of code lies in no segment, and one of a literal or a quoted identifier in one. -/
def Agrees (shade : Char × Bool) (region : Region) : Prop :=
  (region = .code → shade.2 = false) ∧ (region = .quoted → shade.2 = true)

theorem forall₂_agrees_of_comment {front : List (Char × Bool)} (size : front.length = text.length) :
    List.Forall₂ Agrees front (text.map fun _ => Region.comment) := by
  refine List.forall₂_iff_zip.mpr ⟨by rw [size, List.length_map], fun member => ?_⟩
  obtain ⟨c, -, same⟩ := List.mem_map.mp (List.of_mem_zip member).2
  subst same
  exact ⟨nofun, nofun⟩

theorem forall₂_agrees_of_quoted (text : List Char) :
    List.Forall₂ Agrees (text.map (·, true)) (text.map fun _ => Region.quoted) := by
  rw [List.forall₂_map_left_iff, List.forall₂_map_right_iff, List.forall₂_same]
  exact fun c _ => ⟨nofun, fun _ => rfl⟩

/-- The segments of a lexeme are its own, and they agree with what it is. -/
theorem exists_shaded_lexeme (reads : lexeme.ReadsBefore rest) (closes : lexeme.ClosesQuotes) :
    ∃ front, shaded (lexeme.source ++ rest) = front ++ shaded rest ∧
      List.Forall₂ Agrees front (lexeme.source.map fun _ => lexeme.region) := by
  have star : ¬ IsQuote '*' := by decide
  have slash : ¬ IsQuote '/' := by decide
  have dash : ¬ IsQuote '-' := by decide
  cases lexeme with
  | code c =>
    obtain ⟨single, double, -⟩ := reads
    exact ⟨[(c, false)], shaded_cons (not_or.mpr ⟨single, double⟩) rest,
      .cons ⟨fun _ => rfl, nofun⟩ .nil⟩
  | name inside =>
    refine ⟨_, ?_, forall₂_agrees_of_quoted _⟩
    rw [Lexeme.source, ← shaded_quoted (.inr rfl) reads.1 reads.2]
    simp
  | literal inside =>
    refine ⟨_, ?_, forall₂_agrees_of_quoted _⟩
    rw [Lexeme.source, ← shaded_quoted (.inl rfl) reads.1 reads.2]
    simp
  | lineComment inside =>
    have apart : ∀ c ∈ rest.head?, ¬ IsQuote c := by
      intro c head
      rcases reads.2 with empty | line
      · rw [empty] at head
        cases head
      · obtain rfl : '\n' = c := Option.some.inj (line.symm.trans head)
        decide
    obtain ⟨front, whole, size⟩ := exists_shaded_append closes apart
    refine ⟨('-', false) :: ('-', false) :: front, ?_, forall₂_agrees_of_comment ?_⟩
    · rw [Lexeme.source, List.cons_append, List.cons_append, shaded_cons dash, shaded_cons dash, whole]
      rfl
    · simp [Lexeme.source, size]
  | blockComment inside =>
    have apart : ∀ c ∈ ('*' :: '/' :: rest).head?, ¬ IsQuote c := by
      intro c head
      obtain rfl : '*' = c := Option.some.inj head
      exact star
    obtain ⟨front, whole, size⟩ := exists_shaded_append closes apart
    refine ⟨('/', false) :: ('*', false) :: (front ++ [('*', false), ('/', false)]), ?_,
      forall₂_agrees_of_comment ?_⟩
    · have opened : (Lexeme.blockComment inside).source ++ rest =
          '/' :: '*' :: (inside ++ '*' :: '/' :: rest) := by simp [Lexeme.source]
      rw [opened, shaded_cons slash, shaded_cons star, whole, shaded_cons star, shaded_cons slash]
      simp
    · simp [Lexeme.source, size]

/-- Where every comment closes its quotes, the segments agree with the statement. -/
theorem forall₂_agrees (reads : Reads lexemes) (closes : ∀ lexeme ∈ lexemes, lexeme.ClosesQuotes) :
    List.Forall₂ Agrees (shaded (sourceOf lexemes)) (regions lexemes) := by
  induction lexemes with
  | nil =>
    have empty : shaded (sourceOf []) = [] := by simp [shaded, sourceOf]
    rw [empty]
    exact .nil
  | cons lexeme others ih =>
    obtain ⟨here, later⟩ := List.forall_mem_cons.mp closes
    obtain ⟨front, whole, agrees⟩ := exists_shaded_lexeme reads.1 here
    have cut : sourceOf (lexeme :: others) = lexeme.source ++ sourceOf others := List.flatMap_cons
    rw [cut, whole, regions, List.flatMap_cons]
    exact List.rel_append agrees (ih reads.2 later)

end Agreement

section Claim

theorem length_regions (lexemes : List Lexeme) :
    (regions lexemes).length = (sourceOf lexemes).length := by
  simp [regions, sourceOf, List.length_flatMap]

/-- A placeholder of a text is told by its place. -/
theorem Placeholder.StandsIn.eq_of_place {p q : Placeholder} (stands : p.StandsIn text)
    (other : q.StandsIn text) (same : p.place = q.place) : p = q := by
  obtain ⟨before, tail⟩ := List.append_inj (stands.whole.symm.trans other.whole) same
  have names (r : Placeholder) (stands : r.StandsIn text) :
      (r.name ++ r.behind).takeWhile isNameChar = r.name ∧
        (r.name ++ r.behind).dropWhile isNameChar = r.behind :=
    takeWhile_append_stop (all_isNameChar_of_isPlainName stands.plain) stands.ends
  have rest := (List.cons.inj tail).2
  obtain ⟨name, behind⟩ := names p stands
  obtain ⟨name', behind'⟩ := names q other
  rw [rest] at name behind
  cases p
  cases q
  simp_all

/-- What becomes of the characters is told by the texts before and after. -/
theorem Edit.eq_of_written {edits others : List Edit} (source : edits.map source = others.map source)
    (written : edits.flatMap written = others.flatMap written) : edits = others := by
  induction edits generalizing others with
  | nil => exact (List.map_eq_nil_iff.mp source.symm).symm
  | cons edit edits ih =>
    cases others with
    | nil => cases source
    | cons other others =>
      obtain ⟨here, rest⟩ := List.cons.inj source
      rw [List.flatMap_cons, List.flatMap_cons] at written
      have same : edit = other := by
        cases edit with
        | kept c =>
          cases other with
          | kept d => exact congrArg Edit.kept here
          | escaped =>
            obtain rfl : c = ':' := here
            simp [Edit.written] at written
          | marked =>
            obtain rfl : c = '@' := here
            simp [Edit.written] at written
        | escaped =>
          cases other with
          | kept d =>
            obtain rfl : ':' = d := here
            simp [Edit.written] at written
          | escaped => rfl
          | marked => exact absurd here (by decide)
        | marked =>
          cases other with
          | kept d =>
            obtain rfl : '@' = d := here
            simp [Edit.written] at written
          | escaped => exact absurd here (by decide)
          | marked => rfl
      rw [same] at written ⊢
      rw [ih rest (List.append_cancel_left written)]

/-- The placeholder stands in the code of the statement. -/
def Placeholder.StandsInCode (p : Placeholder) (text : List Char) (lexemes : List Lexeme) : Prop :=
  p.StandsIn text ∧ (regions lexemes)[p.place]? = some .code

/-- In code the first placeholder stands before every one that has the name of the second. -/
def Placeholder.Precedes (p q : Placeholder) (text : List Char) (lexemes : List Lexeme) : Prop :=
  p.StandsInCode text lexemes ∧ q.StandsInCode text lexemes ∧
    ∀ r : Placeholder, r.StandsInCode text lexemes → r.name = q.name → p.place < r.place

/-- The prepared text is what becomes of the characters of the text. -/
def Rewrites (edits : List Edit) (text : List Char) (prepared : Prepared) : Prop :=
  edits.map Edit.source = text ∧ edits.flatMap Edit.written = prepared.text

/-- Every placeholder in code becomes a bind, literals and quoted identifiers change by backslashes before
colons only, and the names are listed once each, those in code in order of first appearance. -/
structure FollowsCode (text : List Char) (lexemes : List Lexeme) (prepared : Prepared) : Prop where
  edited : ∃ edits, Rewrites edits text prepared ∧
    (∀ p : Placeholder, p.StandsInCode text lexemes → edits[p.place]? = some .marked) ∧
    ∀ i : Nat, (regions lexemes)[i]? = some .quoted → edits[i]? ≠ some .marked
  listed : ∀ p : Placeholder, p.StandsInCode text lexemes → String.ofList p.name ∈ prepared.names
  once : prepared.names.Nodup
  ordered : ∀ p q : Placeholder, p.Precedes q text lexemes →
    prepared.names.idxOf (String.ofList p.name) < prepared.names.idxOf (String.ofList q.name)

/-- No placeholder in a comment becomes a bind. -/
def LeavesComments (text : List Char) (lexemes : List Lexeme) (prepared : Prepared) : Prop :=
  ∃ edits, Rewrites edits text prepared ∧
    ∀ i : Nat, (regions lexemes)[i]? = some .comment → edits[i]? ≠ some .marked

theorem rewrites_iff {edits : List Edit} :
    Rewrites edits text (prepare text) ↔ edits = atPlaces editAt none (shaded text) := by
  constructor
  · rintro ⟨source, written⟩
    exact Edit.eq_of_written (source.trans (source_edits _).symm) (written.trans (text_prepare _))
  · rintro rfl
    exact ⟨source_edits _, (text_prepare _).symm⟩

/-- A name comes before another if every placeholder with the other has one with it before. -/
theorem idxOf_names_lt_iff (found : p.IsFound text) (name : List Char) :
    (prepare text).names.idxOf (String.ofList p.name) < (prepare text).names.idxOf (String.ofList name) ↔
      ∀ q : Placeholder, q.IsFound text → q.name = name →
        ∃ r : Placeholder, r.IsFound text ∧ r.name = p.name ∧ r.place < q.place := by
  have member := mem_names_prepare_iff.mpr ⟨p, found, rfl⟩
  rw [names_prepare_eq, mem_distinct] at member
  rw [names_prepare_eq, idxOf_distinct_lt_iff member]
  have each (i : Nat) (name : List Char) := @getElem?_nameAt_iff name text i
  generalize atPlaces nameAt none (shaded text) = read at each
  have among (name : List Char) (some_ : List (Option (List Char))) :
      String.ofList name ∈ (some_.filterMap id).map String.ofList ↔ some name ∈ some_ := by
    simp [String.ofList_inj]
  constructor
  · rintro before q isFound rfl
    obtain ⟨front, back, cut, size⟩ :=
      exists_cut_at ((each q.place q.name).mpr ⟨q, isFound, rfl, rfl⟩)
    have early := before ((front.filterMap id).map String.ofList) ((back.filterMap id).map String.ofList)
      (by rw [cut, List.filterMap_append, List.map_append]; rfl)
    obtain ⟨i, here⟩ := List.mem_iff_getElem?.mp ((among p.name front).mp early)
    have inside := (List.getElem?_eq_some_iff.mp here).1
    obtain ⟨r, other, place, named⟩ :=
      (each i p.name).mp (by rw [cut, List.getElem?_append_left inside, here])
    exact ⟨r, other, named, by rw [place, ← size]; exact inside⟩
  · intro before front back cut
    obtain ⟨names, others, listed, rfl, rest⟩ := List.map_eq_append_iff.mp cut
    obtain ⟨_, behind, rfl, same, -⟩ := List.map_eq_cons_iff.mp rest
    obtain ⟨left, right, rfl, rfl, here⟩ := List.filterMap_eq_append_iff.mp listed
    obtain ⟨unnamed, word, tail, rfl, without, own, -⟩ := List.filterMap_eq_cons_iff.mp here
    rw [String.ofList_injective same] at own
    obtain rfl : word = some name := own
    have place : (left ++ (unnamed ++ some name :: tail))[left.length + unnamed.length]? =
        some (some name) := by
      rw [← List.append_assoc, ← List.length_append, List.getElem?_append_right le_rfl, Nat.sub_self]
      rfl
    obtain ⟨q, isFound, at_, named⟩ := (each _ name).mp place
    obtain ⟨r, other, alike, earlier⟩ := before q isFound named
    have there := (each r.place p.name).mpr ⟨r, other, rfl, alike⟩
    rw [at_, ← List.length_append] at earlier
    rw [← List.append_assoc, List.getElem?_append_left earlier] at there
    rcases List.mem_append.mp (List.mem_of_getElem? there) with early | late
    · exact (among p.name left).mpr early
    · cases without _ late

/-- The character at the place of a placeholder belongs to some part of the statement. -/
theorem Placeholder.StandsIn.exists_region (stands : p.StandsIn (sourceOf lexemes)) :
    ∃ region, (regions lexemes)[p.place]? = some region := by
  have inside : p.place < (regions lexemes).length := by
    rw [length_regions, stands.whole, Placeholder.place]
    simp
  exact ⟨_, List.getElem?_eq_getElem inside⟩

theorem Placeholder.StandsIn.getElem?_place (stands : p.StandsIn text) : text[p.place]? = some '@' := by
  rw [stands.whole, Placeholder.place, List.getElem?_append_right le_rfl, Nat.sub_self]
  rfl

/-- What follows the code finds its placeholders, none in literals and quoted identifiers, and none in a
comment ahead of its turn. -/
theorem followsCode_iff :
    FollowsCode (sourceOf lexemes) lexemes (prepare (sourceOf lexemes)) ↔
      (∀ p : Placeholder, p.StandsInCode (sourceOf lexemes) lexemes → p.IsFound (sourceOf lexemes)) ∧
      (∀ p : Placeholder, p.IsFound (sourceOf lexemes) →
        (regions lexemes)[p.place]? ≠ some .quoted) ∧
      ∀ p q : Placeholder, p.Precedes q (sourceOf lexemes) lexemes →
        ∀ c : Placeholder, c.IsFound (sourceOf lexemes) → (regions lexemes)[c.place]? = some .comment →
          c.name = q.name →
            ∃ r : Placeholder, r.IsFound (sourceOf lexemes) ∧ r.name = p.name ∧ r.place < c.place := by
  constructor
  · intro follows
    obtain ⟨edits, rewrites, code, quoted⟩ := follows.edited
    obtain rfl := rewrites_iff.mp rewrites
    have found : ∀ p : Placeholder, p.StandsInCode (sourceOf lexemes) lexemes →
        p.IsFound (sourceOf lexemes) := by
      intro p stands
      obtain ⟨other, found, place⟩ := getElem?_editAt_iff.mp (code p stands)
      rw [← found.1.eq_of_place stands.1 place]
      exact found
    refine ⟨found, fun p isFound inside => ?_, fun p q precedes c isFound _ named => ?_⟩
    · exact quoted p.place inside (getElem?_editAt_iff.mpr ⟨p, isFound, rfl⟩)
    · have earlier := (idxOf_names_lt_iff (found p precedes.1) q.name).mp (follows.ordered p q precedes)
      exact earlier c isFound named
  · rintro ⟨code, quoted, turns⟩
    refine ⟨⟨_, rewrites_iff.mpr rfl, fun p stands => ?_, fun i inside marked => ?_⟩,
      fun p stands => ?_, ?_, fun p q precedes => ?_⟩
    · exact getElem?_editAt_iff.mpr ⟨p, code p stands, rfl⟩
    · obtain ⟨p, isFound, rfl⟩ := getElem?_editAt_iff.mp marked
      exact quoted p isFound inside
    · exact mem_names_prepare_iff.mpr ⟨p, code p stands, rfl⟩
    · rw [names_prepare_eq]
      exact nodup_distinct _
    · refine (idxOf_names_lt_iff (code p precedes.1) q.name).mpr fun c isFound named => ?_
      obtain ⟨region, inside⟩ := isFound.1.exists_region
      cases region with
      | code => exact ⟨p, code p precedes.1, rfl, precedes.2.2 c ⟨isFound.1, inside⟩ named⟩
      | quoted => exact absurd inside (quoted c isFound)
      | comment => exact turns p q precedes c isFound inside named

theorem leavesComments_iff :
    LeavesComments text lexemes (prepare text) ↔
      ∀ p : Placeholder, p.IsFound text → (regions lexemes)[p.place]? ≠ some .comment := by
  constructor
  · rintro ⟨edits, rewrites, comments⟩ p isFound inside
    obtain rfl := rewrites_iff.mp rewrites
    exact comments p.place inside (getElem?_editAt_iff.mpr ⟨p, isFound, rfl⟩)
  · refine fun outside => ⟨_, rewrites_iff.mpr rfl, fun i inside marked => ?_⟩
    obtain ⟨p, isFound, rfl⟩ := getElem?_editAt_iff.mp marked
    exact outside p isFound inside

/-- Where every comment closes its quotes, placeholders in code lie in no segment, and those in literals and
quoted identifiers in one. -/
theorem found_of_closesQuotes (reads : Reads lexemes)
    (closes : ∀ lexeme ∈ lexemes, lexeme.ClosesQuotes) :
    (∀ p : Placeholder, p.StandsInCode (sourceOf lexemes) lexemes → p.IsFound (sourceOf lexemes)) ∧
      ∀ p : Placeholder, p.IsFound (sourceOf lexemes) →
        (regions lexemes)[p.place]? ≠ some .quoted := by
  have agrees {i : Nat} {shade : Char × Bool} {region : Region}
      (here : (shaded (sourceOf lexemes))[i]? = some shade)
      (part : (regions lexemes)[i]? = some region) : Agrees shade region :=
    (List.forall₂_iff_zip.mp (forall₂_agrees reads closes)).2
      (List.mem_of_getElem? (List.getElem?_zip_eq_some.mpr ⟨here, part⟩))
  constructor
  · rintro p ⟨stands, inside⟩
    have sign := stands.getElem?_place
    rw [← map_fst_shaded (sourceOf lexemes), List.getElem?_map] at sign
    obtain ⟨⟨c, quoted⟩, here, rfl⟩ := Option.map_eq_some_iff.mp sign
    obtain rfl : quoted = false := (agrees here inside).1 rfl
    exact ⟨stands, here⟩
  · intro p isFound inside
    have taken := (agrees isFound.2 inside).2 rfl
    cases taken

/-- Where all that opens closes, the prepared statement follows the code exactly if no placeholder in code
lies in a segment that is taken for quoted, none in a literal or quoted identifier lies outside them, and no
placeholder in a comment brings a name forward. The first two hold where every comment closes its quotes.
It follows the code and leaves the comments as they are exactly if the placeholders outside the segments are
those in code. -/
theorem prepare_followsCode_iff (read : lex? text = some lexemes) :
    (FollowsCode text lexemes (prepare text) ↔
      (∀ p : Placeholder, p.StandsInCode text lexemes → p.IsFound text) ∧
      (∀ p : Placeholder, p.IsFound text → (regions lexemes)[p.place]? ≠ some .quoted) ∧
      ∀ p q : Placeholder, p.Precedes q text lexemes →
        ∀ c : Placeholder, c.IsFound text → (regions lexemes)[c.place]? = some .comment →
          c.name = q.name → ∃ r : Placeholder, r.IsFound text ∧ r.name = p.name ∧ r.place < c.place) ∧
    ((∀ lexeme ∈ lexemes, lexeme.ClosesQuotes) →
      (∀ p : Placeholder, p.StandsInCode text lexemes → p.IsFound text) ∧
      ∀ p : Placeholder, p.IsFound text → (regions lexemes)[p.place]? ≠ some .quoted) ∧
    (FollowsCode text lexemes (prepare text) ∧ LeavesComments text lexemes (prepare text) ↔
      ∀ p : Placeholder, p.StandsIn text → (p.IsFound text ↔ p.StandsInCode text lexemes)) := by
  obtain ⟨rfl, reads⟩ := lex?_eq_some read
  refine ⟨followsCode_iff, found_of_closesQuotes reads, ?_⟩
  rw [followsCode_iff, leavesComments_iff]
  constructor
  · rintro ⟨⟨code, quoted, -⟩, comments⟩ p stands
    refine ⟨fun isFound => ⟨stands, ?_⟩, code p⟩
    obtain ⟨region, inside⟩ := stands.exists_region
    cases region with
    | code => exact inside
    | quoted => exact absurd inside (quoted p isFound)
    | comment => exact absurd inside (comments p isFound)
  · intro alike
    have code (p : Placeholder) (isFound : p.IsFound (sourceOf lexemes)) :
        (regions lexemes)[p.place]? = some .code :=
      ((alike p isFound.1).mp isFound).2
    refine ⟨⟨fun p stands => (alike p stands.1).mpr stands, fun p isFound => ?_,
      fun p q _ c isFound inside => ?_⟩, fun p isFound => ?_⟩
    · rw [code p isFound]
      decide
    · rw [code c isFound] at inside
      cases inside
    · rw [code p isFound]
      decide

/-- A comment with a pair of apostrophes. -/
def pairedText : List Char :=
  "SELECT @a, '@b' /* it''s */".toList

def pairedLexemes : List Lexeme :=
  "SELECT @a, ".toList.map .code ++ [.literal ['@', 'b'], .code ' ', .blockComment " it''s ".toList]

/-- The comment closes its quotes, so the placeholder in code becomes a bind and the literal stays. -/
theorem paired_comment_followed :
    lex? pairedText = some pairedLexemes ∧ (∀ lexeme ∈ pairedLexemes, lexeme.ClosesQuotes) ∧
      FollowsCode pairedText pairedLexemes (prepare pairedText) := by
  have read : lex? pairedText = some pairedLexemes := by cbv
  have closes : ∀ lexeme ∈ pairedLexemes, lexeme.ClosesQuotes := by decide
  obtain ⟨follows, agree, -⟩ := prepare_followsCode_iff read
  obtain ⟨code, quoted⟩ := agree closes
  refine ⟨read, closes, follows.mpr ⟨code, quoted, fun p q _ c isFound inside => ?_⟩⟩
  -- No at sign stands in the comment.
  have bare : ∀ i < (regions pairedLexemes).length, (regions pairedLexemes)[i]? = some .comment →
      pairedText[i]? ≠ some '@' := by
    decide
  exact absurd isFound.1.getElem?_place (bare c.place (List.getElem?_eq_some_iff.mp inside).1 inside)

/-- A comment with an apostrophe, a placeholder and a literal. -/
def apostropheText : List Char :=
  "SELECT 1 -- it's\n, @a, 'x'".toList

def apostropheLexemes : List Lexeme :=
  "SELECT 1 ".toList.map .code ++
    .lineComment " it's".toList :: ("\n, @a, ".toList.map .code ++ [.literal ['x']])

/-- The apostrophe of the comment opens a segment that hides the placeholder. -/
theorem apostrophe_hides_placeholder :
    lex? apostropheText = some apostropheLexemes ∧ (prepare apostropheText).names = [] ∧
      Placeholder.StandsInCode ⟨"SELECT 1 -- it's\n, ".toList, ['a'], ", 'x'".toList⟩ apostropheText
        apostropheLexemes ∧
      ¬ FollowsCode apostropheText apostropheLexemes (prepare apostropheText) := by
  have nameless : (prepare apostropheText).names = [] := by cbv
  have stands : Placeholder.StandsInCode ⟨"SELECT 1 -- it's\n, ".toList, ['a'], ", 'x'".toList⟩
      apostropheText apostropheLexemes :=
    ⟨⟨by decide, by decide, fun c next => by obtain rfl : ',' = c := Option.some.inj next; decide,
      fun c last => by obtain rfl : ' ' = c := Option.some.inj last; decide⟩, by decide⟩
  refine ⟨by cbv, nameless, stands, fun follows => ?_⟩
  have listed := follows.listed _ stands
  rw [nameless] at listed
  cases listed

end Claim

end ReportQuery.Sql
