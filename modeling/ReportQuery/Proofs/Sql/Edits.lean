import ReportQuery.Proofs.Sql.Mark
import ReportQuery.Proofs.Text.Order
import ReportQuery.Proofs.Text.Quoted

set_option autoImplicit false
set_option relaxedAutoImplicit false

/-!
Preparing a statement place by place. Every character is kept, but for colons that get a backslash and
at signs that become the colon of a bind. Which of these happens at a place is told by the characters
around it in the whole text, and by whether it lies in a quoted segment: the borders of segments do not
matter.
-/

namespace ReportQuery.Sql

open Text

variable {before : Option Char} {c q : Char} {cs ds name rest : List Char}

/-- What becomes of a character of a statement. -/
inductive Edit where
  | kept (c : Char)
  /-- A colon that stands behind a backslash of its own. -/
  | escaped
  /-- An at sign that became the colon of a bind. -/
  | marked
deriving DecidableEq

namespace Edit

/-- The character in the statement. -/
def source : Edit → Char
  | kept c => c
  | escaped => ':'
  | marked => '@'

/-- The character in the prepared statement. -/
def written : Edit → List Char
  | kept c => [c]
  | escaped => ['\\', ':']
  | marked => [':']

end Edit

/-- The name of the placeholder at a place of a text. -/
def placeholderAt (before : Option Char) (c : Char) (cs : List Char) : Option (List Char) :=
  (placeholder before (c :: cs)).map Prod.snd

/-- The name of the placeholder at a place, where the characters are those of a quoted segment or not. -/
def nameAt (before : Option (Char × Bool)) (here : Char × Bool) (behind : List (Char × Bool)) :
    Option (List Char) :=
  if here.2 then none else placeholderAt (before.map Prod.fst) here.1 (behind.map Prod.fst)

/-- What becomes of the character at a place. -/
def editAt (before : Option (Char × Bool)) (here : Char × Bool) (behind : List (Char × Bool)) : Edit :=
  if (colonBind (before.map Prod.fst) (here.1 :: behind.map Prod.fst)).isSome then .escaped
  else if (nameAt before here behind).isSome then .marked
  else .kept here.1

section Segments

/-- A place of a text whose binds are escaped. -/
def escapeAt (before : Option Char) (c : Char) (cs : List Char) : List Char :=
  if (colonBind before (c :: cs)).isSome then ['\\', ':'] else [c]

theorem escapeBinds_eq (cs : List Char) : escapeBinds cs = (atPlaces escapeAt none cs).flatten :=
  replaceAll_eq_atPlaces opensWith_colonBind ['\\', ':'] (fun _ _ _ _ _ => rfl) cs

theorem escapeAt_of_ne (other : c ≠ ':') : escapeAt before c cs = [c] := by
  rw [escapeAt, colonBind_of_ne other]
  rfl

theorem takeWhile_escaped {p : Char → Bool} (colon : p ':' = false) (backslash : p '\\' = false)
    (before : Option Char) (cs : List Char) :
    (atPlaces escapeAt before cs).flatten.takeWhile p = cs.takeWhile p := by
  induction cs generalizing before with
  | nil => rfl
  | cons c cs ih =>
    rw [atPlaces, List.flatten_cons]
    by_cases here : c = ':'
    · subst here
      rw [escapeAt]
      split <;> simp [colon, backslash]
    · rw [escapeAt_of_ne here, List.singleton_append]
      cases taken : p c <;> simp [taken, ih]

/-- Escaping the binds of a text neither makes nor breaks a placeholder. -/
theorem atPlaces_escaped {β : Type} (h : Option (List Char) → Char → List β) (before : Option Char)
    (cs : List Char) :
    (atPlaces (fun left c right => h (placeholderAt left c right) c) before
        (atPlaces escapeAt before cs).flatten).flatten =
      (atPlaces (fun left c right =>
        if (colonBind left (c :: right)).isSome then h none '\\' ++ h none ':'
        else h (placeholderAt left c right) c) before cs).flatten := by
  have unread {left : Option Char} {c : Char} {right : List Char} (other : c ≠ '@') :
      placeholderAt left c right = none := by
    rw [placeholderAt, placeholder_of_ne_at other]
    rfl
  induction cs generalizing before with
  | nil => rfl
  | cons c cs ih =>
    rw [atPlaces, atPlaces, List.flatten_cons, List.flatten_cons, ← ih]
    by_cases colon : c = ':'
    · subst colon
      rw [escapeAt]
      split
      · rw [List.cons_append, List.singleton_append, atPlaces, atPlaces, List.flatten_cons,
          List.flatten_cons, unread (by decide), unread (by decide), List.append_assoc]
      · rw [List.singleton_append, atPlaces, List.flatten_cons, unread (by decide), unread (by decide)]
    · have same : placeholderAt before c (atPlaces escapeAt (some c) cs).flatten =
          placeholderAt before c cs := by
        by_cases sign : c = '@'
        · subst sign
          rw [placeholderAt, placeholderAt,
            placeholder_congr (takeWhile_escaped (by decide) (by decide) (some '@') cs)]
        · rw [unread sign, unread sign]
      rw [escapeAt_of_ne colon, List.singleton_append, atPlaces, List.flatten_cons, same,
        colonBind_of_ne colon]
      rfl

/-- The characters of a segment, each with whether the segment is quoted. -/
def Segment.shade : Segment → List (Char × Bool)
  | code cs => cs.map (·, false)
  | quoted cs => cs.map (·, true)

theorem atPlaces_nameAt_shade (cs : List Char) (quoted : Bool) :
    atPlaces nameAt none (cs.map (·, quoted)) =
      atPlaces (fun left c right => if quoted then none else placeholderAt left c right) none cs := by
  have mapped := atPlaces_map nameAt (·, quoted) none cs
  rw [Option.map_none] at mapped
  rw [mapped]
  refine atPlaces_congr fun left c right _ => ?_
  simp [nameAt, Function.comp_def]

theorem atPlaces_editAt_shade (cs : List Char) (quoted : Bool) :
    atPlaces editAt none (cs.map (·, quoted)) =
      atPlaces (fun left c right =>
        if (colonBind left (c :: right)).isSome then .escaped
        else if (if quoted then none else placeholderAt left c right).isSome then .marked
        else .kept c) none cs := by
  have mapped := atPlaces_map editAt (·, quoted) none cs
  rw [Option.map_none] at mapped
  rw [mapped]
  refine atPlaces_congr fun left c right _ => ?_
  simp [editAt, nameAt, Function.comp_def]

theorem eq_colon_of_isSome (read : (colonBind before (c :: cs)).isSome) : c = ':' := by
  by_contra other
  rw [colonBind_of_ne other] at read
  cases read

/-- A segment is prepared place by place. -/
theorem Segment.prepared_eq (segment : Segment) :
    segment.prepared = (atPlaces editAt none segment.shade).flatMap Edit.written := by
  cases segment with
  | code cs =>
    have marks : replaceAll placeholder (fun _ name => ':' :: name) (escapeBinds cs) = (atPlaces
        (fun left c right => if (placeholderAt left c right).isSome then [':'] else [c]) none
          (escapeBinds cs)).flatten := by
      rw [replaceAll_eq_atPlaces opensWith_placeholder [':']]
      · simp only [placeholderAt, Option.isSome_map]
      · intro before inside rest name read
        obtain ⟨rest', whole, size, -⟩ := placeholder_eq_some_iff.mp read
        rw [(List.append_inj (List.cons.inj whole).2 (Nat.succ.inj size)).1, List.singleton_append]
    rw [prepared, marks, escapeBinds_eq,
      atPlaces_escaped (fun name? c => if name?.isSome then [':'] else [c]), shade,
      atPlaces_editAt_shade, List.flatMap_def, map_atPlaces]
    congr 1
    refine atPlaces_congr fun left c right _ => ?_
    split
    · rfl
    · rw [if_neg Bool.false_ne_true]
      split <;> rfl
  | quoted cs =>
    rw [prepared, escapeBinds_eq, shade, atPlaces_editAt_shade, List.flatMap_def, map_atPlaces]
    congr 1
    refine atPlaces_congr fun left c right _ => ?_
    rw [escapeAt]
    split <;> rfl

theorem Segment.placeholders_eq (segment : Segment) :
    segment.placeholders = (atPlaces nameAt none segment.shade).filterMap id := by
  rw [List.filterMap_eq_flatMap_toList, List.flatMap_def, shade.eq_def]
  cases segment with
  | code cs =>
    have named := atPlaces_escaped (fun name? _ => name?.toList) none cs
    dsimp only
    rw [atPlaces_nameAt_shade, placeholders, findAll_eq_atPlaces opensWith_placeholder, escapeBinds_eq,
      List.filterMap_eq_flatMap_toList, List.flatMap_def, map_atPlaces, map_atPlaces]
    refine named.trans ?_
    congr 1
    refine atPlaces_congr fun left c right _ => ?_
    split
    · rename_i bind
      rw [placeholderAt, eq_colon_of_isSome bind, placeholder_of_ne_at (by decide)]
      rfl
    · rfl
  | quoted cs =>
    dsimp only
    rw [atPlaces_nameAt_shade, placeholders, map_atPlaces]
    generalize (none : Option Char) = before
    induction cs generalizing before with
    | nil => rfl
    | cons c cs ih =>
      rw [atPlaces, List.flatten_cons, ← ih]
      rfl

end Segments

section Borders

def IsQuote (c : Char) : Prop :=
  c = '\'' ∨ c = '"'

instance : DecidablePred IsQuote := fun _ => inferInstanceAs (Decidable (_ ∨ _))

/-- What is read at a place does not depend on what lies beyond a quote. -/
structure StopsAtQuotes {β : Type}
    (f : Option (Char × Bool) → Char × Bool → List (Char × Bool) → β) : Prop where
  here : ∀ {q}, IsQuote q.1 → ∀ left right, f left q right = f none q []
  before : ∀ {q}, IsQuote q.1 → ∀ here right, f (some q) here right = f none here right
  behind : ∀ {q}, IsQuote q.1 → ∀ left here right back,
    f left here (right ++ q :: back) = f left here right

theorem IsQuote.spec (quote : IsQuote q) : isBindChar q = false ∧ isNameChar q = false ∧
    joinsPlaceholder (some q) = false ∧ joinsBind (some q) = false ∧ q ≠ ':' ∧ q ≠ '@' ∧
      q ≠ '\\' := by
  rcases quote with rfl | rfl <;> decide

theorem stopsAtQuotes_nameAt : StopsAtQuotes nameAt where
  here := by
    intro q quote left right
    unfold nameAt placeholderAt
    rw [placeholder_of_ne_at quote.spec.2.2.2.2.2.1, placeholder_of_ne_at quote.spec.2.2.2.2.2.1]
  before := by
    intro q quote here right
    unfold nameAt placeholderAt
    by_cases sign : here.1 = '@'
    · rw [sign, placeholder_at, placeholder_at, Option.map_some, quote.spec.2.2.1]
      rfl
    · rw [placeholder_of_ne_at sign, placeholder_of_ne_at sign]
  behind := by
    intro q quote left here right back
    unfold nameAt placeholderAt
    by_cases sign : here.1 = '@'
    · rw [sign, List.map_append, List.map_cons,
        placeholder_congr (takeWhile_append_cons quote.spec.2.1 _ _).1]
    · rw [placeholder_of_ne_at sign, placeholder_of_ne_at sign]

theorem stopsAtQuotes_editAt : StopsAtQuotes editAt where
  here := by
    intro q quote left right
    unfold editAt
    rw [stopsAtQuotes_nameAt.here quote left right, colonBind_of_ne quote.spec.2.2.2.2.1,
      colonBind_of_ne quote.spec.2.2.2.2.1]
  before := by
    intro q quote here right
    unfold editAt
    rw [stopsAtQuotes_nameAt.before quote]
    by_cases colon : here.1 = ':'
    · have other : (some q.1 == some '\\') = false := by simpa using quote.spec.2.2.2.2.2.2
      rw [colon, colonBind_colon, colonBind_colon, Option.map_some, quote.spec.2.2.2.1, other]
      rfl
    · rw [colonBind_of_ne colon, colonBind_of_ne colon]
  behind := by
    intro q quote left here right back
    unfold editAt
    rw [stopsAtQuotes_nameAt.behind quote]
    by_cases colon : here.1 = ':'
    · obtain ⟨taken, left⟩ :=
        takeWhile_append_cons quote.spec.1 (right.map Prod.fst) (back.map Prod.fst)
      rw [colon, List.map_append, List.map_cons, colonBind_congr taken]
      intro _
      rw [left, List.head?_append]
      cases (right.map Prod.fst).dropWhile isBindChar with
      | nil => exact quote.spec.2.2.2.1
      | cons d ds => rfl
    · rw [colonBind_of_ne colon, colonBind_of_ne colon]

variable {β : Type} {f : Option (Char × Bool) → Char × Bool → List (Char × Bool) → β}

/-- A quote parts the places before it from those behind it. -/
theorem atPlaces_quote {quote : Char × Bool} (stops : StopsAtQuotes f) (isQuote : IsQuote quote.1)
    (before : Option (Char × Bool)) (front back : List (Char × Bool)) :
    atPlaces f before (front ++ quote :: back) =
      atPlaces f before front ++ f none quote [] :: atPlaces f none back := by
  have later : atPlaces f (some quote) back = atPlaces f none back := by
    cases back with
    | nil => rfl
    | cons c back => rw [atPlaces, atPlaces, stops.before isQuote]
  rw [atPlaces_append, atPlaces, stops.here isQuote, later]
  congr 1
  exact atPlaces_congr fun left c right _ => stops.behind isQuote _ c right back

/-- The characters of a piece, each with whether the piece is a quoted segment. -/
def shadeOf (piece : Piece Unit) : List (Char × Bool) :=
  piece.source.map (·, piece.value?.isSome)

/-- The characters of a text, each with whether it belongs to a quoted segment. -/
def shaded (text : List Char) : List (Char × Bool) :=
  (pieces quotedPart none text).flatMap shadeOf

/-- The segments of a text may be read one by one. -/
theorem flatMap_segmentsOf (stops : StopsAtQuotes f) (code : List Char) {ps : List (Piece Unit)}
    (enclosed : ∀ source, .found source () ∈ ps →
      ∃ quote inside, IsQuote quote ∧ source = quote :: (inside ++ [quote])) :
    (segmentsOf code ps).flatMap (fun segment => atPlaces f none segment.shade) =
      atPlaces f none (code.reverse.map (·, false) ++ ps.flatMap shadeOf) := by
  induction ps generalizing code with
  | nil => simp [segmentsOf, Segment.shade]
  | cons piece ps ih =>
    have later (code : List Char) := @ih code fun source member =>
      enclosed source (List.mem_cons_of_mem piece member)
    cases piece with
    | plain c =>
      rw [segmentsOf, later (c :: code)]
      simp [shadeOf, Piece.source, Piece.value?]
    | found source value =>
      obtain ⟨quote, inside, isQuote, rfl⟩ := enclosed source List.mem_cons_self
      have cut (before : Option (Char × Bool)) (front back : List (Char × Bool)) :=
        @atPlaces_quote _ f (quote, true) stops isQuote before front back
      have shade_ : (Segment.quoted (quote :: (inside ++ [quote]))).shade =
          [] ++ (quote, true) :: (inside.map (·, true) ++ (quote, true) :: []) := by
        simp [Segment.shade]
      have whole : code.reverse.map (·, false) ++
          (Piece.found (quote :: (inside ++ [quote])) value :: ps).flatMap shadeOf =
            code.reverse.map (·, false) ++ (quote, true) :: (inside.map (·, true) ++
              (quote, true) :: ([].reverse.map (·, false) ++ ps.flatMap shadeOf)) := by
        simp [shadeOf, Piece.source, Piece.value?]
      rw [segmentsOf, List.flatMap_cons, List.flatMap_cons, later [], shade_, whole, cut, cut, cut, cut,
        Segment.shade]
      simp [atPlaces]

theorem enclosed_of_mem_pieces {text source : List Char}
    (member : .found source () ∈ pieces quotedPart none text) :
    ∃ quote inside, IsQuote quote ∧ source = quote :: (inside ++ [quote]) := by
  obtain ⟨left, c, cs, n, read, rfl⟩ := exists_of_found_mem member
  have one (quote : Char) (isQuote : IsQuote quote)
      (read : quotedSegment quote left (c :: cs) = some (n + 1, ())) :
      ∃ quote inside, IsQuote quote ∧ (c :: cs).take (n + 1) = quote :: (inside ++ [quote]) := by
    obtain ⟨m, found, same⟩ := Option.map_eq_some_iff.mp read
    obtain ⟨inside, rest, whole, size⟩ := Quoted.segment?_eq_some found
    obtain rfl : n = inside.length + 1 := by
      obtain ⟨rfl, -⟩ := Prod.mk.inj same
      omega
    refine ⟨quote, inside, isQuote, ?_⟩
    have closed : inside ++ quote :: rest = (inside ++ [quote]) ++ rest := by simp
    rw [whole, closed, List.take_succ_cons, List.take_left' (by simp)]
  unfold quotedPart at read
  cases single : quotedSegment '\'' left (c :: cs) with
  | some found =>
    rw [single] at read
    exact one '\'' (.inl rfl) (single.trans read)
  | none =>
    rw [single] at read
    exact one '"' (.inr rfl) read

/-- Preparing a text is editing it place by place. -/
theorem text_prepare (text : List Char) :
    (prepare text).text = (atPlaces editAt none (shaded text)).flatMap Edit.written := by
  have whole := flatMap_segmentsOf stopsAtQuotes_editAt [] fun source =>
    @enclosed_of_mem_pieces text source
  rw [List.reverse_nil, List.map_nil, List.nil_append] at whole
  rw [shaded, ← whole, prepare, List.flatMap_assoc, segments]
  exact List.flatMap_congr fun segment _ => segment.prepared_eq

theorem names_prepare_eq (text : List Char) :
    (prepare text).names =
      distinct (((atPlaces nameAt none (shaded text)).filterMap id).map String.ofList) := by
  have whole := flatMap_segmentsOf stopsAtQuotes_nameAt [] fun source =>
    @enclosed_of_mem_pieces text source
  rw [List.reverse_nil, List.map_nil, List.nil_append] at whole
  have each : (segments text).flatMap Segment.placeholders = (segments text).flatMap
      fun segment => (atPlaces nameAt none segment.shade).filterMap id :=
    List.flatMap_congr fun segment _ => segment.placeholders_eq
  rw [shaded, ← whole, prepare, each, segments, List.filterMap_flatMap]

/-- No name is listed twice. -/
theorem nodup_names_prepare (text : List Char) : (prepare text).names.Nodup :=
  nodup_distinct _

end Borders

/-- A placeholder in a text: what stands before its at sign, its name, and what follows. -/
structure Placeholder where
  before : List Char
  name : List Char
  behind : List Char

namespace Placeholder

/-- The number of characters before the at sign. -/
def place (p : Placeholder) : Nat :=
  p.before.length

/-- A plain name, as long as it goes, behind an at sign that nothing joins to what stands before. -/
structure StandsIn (p : Placeholder) (text : List Char) : Prop where
  whole : text = p.before ++ '@' :: (p.name ++ p.behind)
  plain : isPlainName p.name
  ends : ∀ c ∈ p.behind.head?, isNameChar c = false
  apart : ∀ c ∈ p.before.getLast?, isWordChar c = false ∧ c ∉ ['@', ':', '$']

/-- The placeholder lies in none of the segments that are taken for quoted. -/
def IsFound (p : Placeholder) (text : List Char) : Prop :=
  p.StandsIn text ∧ (shaded text)[p.place]? = some ('@', false)

end Placeholder

section Found

variable {text : List Char} {p : Placeholder} {i : Nat}

theorem map_fst_shaded (text : List Char) : (shaded text).map Prod.fst = text := by
  have each (piece : Piece Unit) : (shadeOf piece).map Prod.fst = piece.source := by
    simp [shadeOf, Function.comp_def]
  rw [shaded, List.map_flatMap]
  simp only [each, flatMap_source_pieces]

theorem joinsPlaceholder_eq_false_iff : joinsPlaceholder before = false ↔
    ∀ c ∈ before, isWordChar c = false ∧ c ∉ ['@', ':', '$'] := by
  cases before with
  | none => simp [joinsPlaceholder]
  | some c => simp [joinsPlaceholder, isBindChar]; tauto

/-- Where a name is read, a placeholder is found. -/
theorem isFound_of_nameAt {front back : List (Char × Bool)} {here : Char × Bool}
    (cut : shaded text = front ++ here :: back) (read : nameAt front.getLast? here back = some name) :
    ∃ behind, back.map Prod.fst = name ++ behind ∧
      Placeholder.IsFound ⟨front.map Prod.fst, name, behind⟩ text := by
  have whole := map_fst_shaded text
  rw [cut, List.map_append, List.map_cons] at whole
  unfold nameAt placeholderAt at read
  split at read
  · cases read
  · rename_i bare
    obtain ⟨⟨n, _⟩, found, rfl⟩ := Option.map_eq_some_iff.mp read
    obtain ⟨behind, tail, -, apart, plain, ends⟩ := placeholder_eq_some_iff.mp found
    rw [tail] at whole
    refine ⟨behind, (List.cons.inj tail).2, ⟨whole.symm, plain, ends, ?_⟩, ?_⟩
    · rw [List.getLast?_map]
      exact joinsPlaceholder_eq_false_iff.mp apart
    · have sign : here = ('@', false) := Prod.ext (List.cons.inj tail).1 (by simpa using bare)
      rw [Placeholder.place, List.length_map, cut, sign, List.getElem?_append_right le_rfl, Nat.sub_self]
      rfl

/-- Where a placeholder is found, its name is read. -/
theorem Placeholder.IsFound.exists_cut (found : p.IsFound text) :
    ∃ front back, shaded text = front ++ ('@', false) :: back ∧ front.length = p.place ∧
      front.map Prod.fst = p.before ∧ back.map Prod.fst = p.name ++ p.behind ∧
      nameAt front.getLast? ('@', false) back = some p.name := by
  obtain ⟨stands, bare⟩ := found
  obtain ⟨front, back, cut, size⟩ := exists_cut_at bare
  have whole := map_fst_shaded text
  rw [cut, List.map_append, List.map_cons] at whole
  obtain ⟨left, right⟩ := List.append_inj (whole.trans stands.whole)
    (by rw [List.length_map, size, Placeholder.place])
  refine ⟨front, back, cut, size, left, (List.cons.inj right).2, ?_⟩
  have read : placeholder p.before.getLast? ('@' :: (p.name ++ p.behind)) =
      some (p.name.length + 1, p.name) :=
    placeholder_eq_some_iff.mpr ⟨p.behind, rfl, rfl, joinsPlaceholder_eq_false_iff.mpr stands.apart,
      stands.plain, stands.ends⟩
  rw [nameAt, if_neg (by simp), placeholderAt, ← List.getLast?_map, left, right, read]
  rfl

theorem getElem?_nameAt_iff :
    (atPlaces nameAt none (shaded text))[i]? = some (some name) ↔
      ∃ p : Placeholder, p.IsFound text ∧ p.place = i ∧ p.name = name := by
  constructor
  · intro read
    obtain ⟨front, here, back, cut, size, named⟩ := exists_of_getElem?_atPlaces read
    rw [Option.or_none] at named
    obtain ⟨behind, -, found⟩ := isFound_of_nameAt cut named
    exact ⟨_, found, by rw [Placeholder.place, List.length_map, size], rfl⟩
  · rintro ⟨p, found, rfl, rfl⟩
    obtain ⟨front, back, cut, size, -, -, read⟩ := found.exists_cut
    rw [cut, ← size, getElem?_atPlaces, Option.or_none, read]

theorem editAt_cases (before : Option (Char × Bool)) (here : Char × Bool) (right : List (Char × Bool)) :
    (editAt before here right = .kept here.1 ∧ nameAt before here right = none ∧
        colonBind (before.map Prod.fst) (here.1 :: right.map Prod.fst) = none) ∨
      (editAt before here right = .escaped ∧ nameAt before here right = none ∧ here.1 = ':') ∨
      editAt before here right = .marked ∧ (nameAt before here right).isSome ∧ here.1 = '@' := by
  unfold editAt
  split
  · rename_i bind
    have colon := eq_colon_of_isSome bind
    refine .inr (.inl ⟨rfl, ?_, colon⟩)
    rw [nameAt, placeholderAt, colon, placeholder_of_ne_at (by decide)]
    simp
  · rename_i unbound
    split
    · rename_i named
      refine .inr (.inr ⟨rfl, named, ?_⟩)
      by_contra other
      rw [nameAt, placeholderAt, placeholder_of_ne_at other] at named
      simp at named
    · rename_i unnamed
      exact .inl ⟨rfl, by simpa using unnamed, by simpa using unbound⟩

theorem editAt_eq_marked_iff {left : Option (Char × Bool)} {here : Char × Bool}
    {right : List (Char × Bool)} :
    editAt left here right = .marked ↔ ∃ name, nameAt left here right = some name := by
  unfold editAt
  constructor
  · intro same
    split at same
    · cases same
    · split at same
      · exact Option.isSome_iff_exists.mp ‹_›
      · cases same
  · rintro ⟨name, read⟩
    have sign : here.1 = '@' := by
      by_contra other
      rw [nameAt, placeholderAt, placeholder_of_ne_at other] at read
      split at read <;> cases read
    rw [sign, colonBind_of_ne (by decide), if_neg (by simp), read]
    rfl

theorem source_edits (text : List Char) :
    (atPlaces editAt none (shaded text)).map Edit.source = text := by
  have own (left : Option (Char × Bool)) (here : Char × Bool) (right : List (Char × Bool)) :
      (editAt left here right).source = here.1 := by
    rcases editAt_cases left here right with ⟨edit, -⟩ | ⟨edit, -, sign⟩ | ⟨edit, -, sign⟩
    · rw [edit, Edit.source]
    · rw [edit, Edit.source, sign]
    · rw [edit, Edit.source, sign]
  simp only [map_atPlaces, own, atPlaces_own, map_fst_shaded]

/-- The at signs that become colons are those of the placeholders that are found. -/
theorem getElem?_editAt_iff :
    (atPlaces editAt none (shaded text))[i]? = some .marked ↔
      ∃ p : Placeholder, p.IsFound text ∧ p.place = i := by
  constructor
  · intro marked
    obtain ⟨front, here, back, cut, size, same⟩ := exists_of_getElem?_atPlaces marked
    obtain ⟨name, read⟩ := editAt_eq_marked_iff.mp same
    have named : (atPlaces nameAt none (shaded text))[i]? = some (some name) := by
      rw [cut, ← size, getElem?_atPlaces, read]
    obtain ⟨p, found, place, -⟩ := getElem?_nameAt_iff.mp named
    exact ⟨p, found, place⟩
  · rintro ⟨p, found, rfl⟩
    have named := getElem?_nameAt_iff.mpr ⟨p, found, rfl, rfl⟩
    obtain ⟨front, here, back, cut, size, read⟩ := exists_of_getElem?_atPlaces named
    rw [cut, ← size, getElem?_atPlaces, editAt_eq_marked_iff.mpr ⟨p.name, read⟩]

/-- The names of a prepared text are those of the placeholders that are found. -/
theorem mem_names_prepare_iff :
    String.ofList name ∈ (prepare text).names ↔
      ∃ p : Placeholder, p.IsFound text ∧ p.name = name := by
  rw [names_prepare_eq, mem_distinct, List.mem_map]
  constructor
  · rintro ⟨_, among, same⟩
    rw [String.ofList_injective same] at among
    obtain ⟨_, member, rfl⟩ := List.mem_filterMap.mp among
    obtain ⟨i, here⟩ := List.mem_iff_getElem?.mp member
    obtain ⟨p, found, -, named⟩ := getElem?_nameAt_iff.mp here
    exact ⟨p, found, named⟩
  · rintro ⟨p, found, rfl⟩
    have named := getElem?_nameAt_iff.mpr ⟨p, found, rfl, rfl⟩
    exact ⟨p.name, List.mem_filterMap.mpr ⟨_, List.mem_of_getElem? named, rfl⟩, rfl⟩

end Found

end ReportQuery.Sql
