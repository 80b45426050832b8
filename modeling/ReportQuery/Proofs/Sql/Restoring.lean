import ReportQuery.Proofs.Sql.FoundBinds
import ReportQuery.Sql.Bind

set_option autoImplicit false
set_option relaxedAutoImplicit false

/-!
What is left of a statement once it was prepared and the escapes of its colons were undone. Every
character is told what becomes of it by the text around it: it is kept, but for at signs of placeholders,
which are colons now, and for backslashes that stood before a colon already and are taken for escapes.

Drivers differ in which characters they count to a name. What is said here holds for every such class
within the characters of binds.
-/

namespace ReportQuery.Sql

open Text

variable {named : Char → Bool} {left : Option Char} {before : Option (Char × Bool)} {here : Char × Bool}
  {c : Char} {cs text : List Char} {places : List (Char × Bool)}

section Undoing

/-- Whether what follows a colon, a name and the text behind it, lets a backslash before the colon be an
escape: neither a colon nor a further character of a name comes next. -/
def endsEscape (named : Char → Bool) (cs : List Char) : Bool :=
  !(cs.dropWhile named).head?.any fun c => named c || c == ':'

/-- Reads an escaped colon with the characters of a name after it. -/
def escapedName (named : Char → Bool) : Matcher Unit
  | _, '\\' :: ':' :: cs =>
    if endsEscape named cs then some ((cs.takeWhile named).length + 2, ()) else none
  | _, _ => none

/-- The text without the backslashes of escaped colons. -/
def undoEscapes (named : Char → Bool) (text : List Char) : List Char :=
  replaceAll (escapedName named) (fun source _ => source.drop 1) text

theorem escapedName_colon (named : Char → Bool) (left : Option Char) (cs : List Char) :
    escapedName named left ('\\' :: ':' :: cs) =
      if endsEscape named cs then some ((cs.takeWhile named).length + 2, ()) else none := rfl

theorem escapedName_other (other : ∀ behind, cs ≠ '\\' :: ':' :: behind) :
    escapedName named left cs = none := by
  unfold escapedName
  split
  · exact absurd rfl (other _)
  · rfl

/-- The statement that the database receives, for a driver that counts the characters of words to names. -/
theorem unescapeColons_eq (text : List Char) : unescapeColons text = undoEscapes isWordChar text := by
  have same : escapedColon = escapedName isWordChar := by
    funext before cs
    unfold escapedColon
    split
    · rename_i cs
      have next : isColonOrWord (cs.dropWhile isWordChar).head? = !endsEscape isWordChar cs := by
        unfold endsEscape isColonOrWord
        cases (cs.dropWhile isWordChar).head? with
        | none => rfl
        | some c => simp
      dsimp only
      rw [escapedName_colon, drop_length_takeWhile, next]
      cases endsEscape isWordChar cs <;> rfl
    · rename_i other
      exact (escapedName_other fun behind same => other behind same).symm
  rw [unescapeColons, undoEscapes, same]

theorem endsEscape_iff :
    endsEscape named cs ↔ (cs.dropWhile named).head? ≠ some ':' := by
  have stops : ∀ c ∈ (cs.dropWhile named).head?, named c = false := head?_dropWhile_stop
  rw [endsEscape]
  cases next : (cs.dropWhile named).head? with
  | none => simp
  | some c => simp [stops c next]

theorem escapedName_eq_some_iff {n : Nat} :
    escapedName named left cs = some (n, ()) ↔
      ∃ behind, cs = '\\' :: ':' :: behind ∧ endsEscape named behind ∧
        n = (behind.takeWhile named).length + 2 := by
  constructor
  · intro read
    by_cases some : ∃ behind, cs = '\\' :: ':' :: behind
    · obtain ⟨behind, rfl⟩ := some
      rw [escapedName_colon] at read
      split at read
      · exact ⟨behind, rfl, ‹_›, (Prod.mk.inj (Option.some.inj read)).1.symm⟩
      · cases read
    · rw [escapedName_other (not_exists.mp some)] at read
      cases read
  · rintro ⟨behind, rfl, ends, rfl⟩
    rw [escapedName_colon, if_pos ends]

/-- Whether the text at a place begins with an escaped colon. -/
def startsEscape (named : Char → Bool) (cs : List Char) : Bool :=
  (escapedName named none cs).isSome

theorem isSome_escapedName (left : Option Char) (cs : List Char) :
    (escapedName named left cs).isSome = startsEscape named cs := by
  unfold startsEscape escapedName
  split <;> rfl

theorem startsEscape_iff :
    startsEscape named cs ↔ ∃ behind, cs = '\\' :: ':' :: behind ∧ endsEscape named behind := by
  rw [startsEscape, Option.isSome_iff_exists]
  constructor
  · rintro ⟨⟨n, _⟩, read⟩
    obtain ⟨behind, whole, ends, -⟩ := escapedName_eq_some_iff.mp read
    exact ⟨behind, whole, ends⟩
  · rintro ⟨behind, rfl, ends⟩
    exact ⟨_, escapedName_eq_some_iff.mpr ⟨behind, rfl, ends, rfl⟩⟩

theorem opensWith_escapedName (backslash : named '\\' = false) : OpensWith '\\' (escapedName named) := by
  rintro before cs n ⟨⟩ read
  obtain ⟨behind, rfl, -, rfl⟩ := escapedName_eq_some_iff.mp read
  refine ⟨':' :: behind.takeWhile named, behind.dropWhile named, ?_, by simp, ?_⟩
  · rw [List.cons_append, List.takeWhile_append_dropWhile]
  · intro member
    rcases List.mem_cons.mp member with same | among
    · exact absurd same (by decide)
    · have char : named '\\' := List.mem_takeWhile_imp among
      rw [backslash] at char
      cases char

/-- Escapes are undone place by place. -/
theorem undoEscapes_eq (backslash : named '\\' = false) (text : List Char) :
    undoEscapes named text =
      (atPlaces (fun _ c cs => if startsEscape named (c :: cs) then [] else [c]) none text).flatten := by
  rw [undoEscapes, replaceAll_eq_atPlaces (opensWith_escapedName backslash) []]
  · simp only [isSome_escapedName]
  · exact fun _ _ _ _ _ => rfl

end Undoing

/-- What becomes of a character of a statement that is prepared and whose escapes are undone. -/
inductive Fate where
  | kept (c : Char)
  /-- A backslash that was taken for an escape. -/
  | dropped
  /-- An at sign that became the colon of a bind. -/
  | turned
deriving DecidableEq

namespace Fate

/-- The character in the statement. -/
def source : Fate → Char
  | kept c => c
  | dropped => '\\'
  | turned => '@'

/-- The character in the statement that is sent, if there is one. -/
def sent : Fate → List Char
  | kept c => [c]
  | dropped => []
  | turned => [':']

/-- Whether the character is kept. -/
def isKept : Fate → Bool
  | kept _ => true
  | dropped | turned => false

end Fate

/-- What becomes of the character at a place. -/
def fateAt (named : Char → Bool) (before : Option (Char × Bool)) (here : Char × Bool)
    (behind : List (Char × Bool)) : Fate :=
  match editAt before here behind with
  | .marked => .turned
  | .escaped => .kept ':'
  | .kept c => if startsEscape named (c :: writtenFrom (some here) behind) then .dropped else .kept c

/-- What becomes of the characters of a text. -/
def fates (named : Char → Bool) (text : List Char) : List Fate :=
  atPlaces (fateAt named) none (shaded text)

/-- The statement that such characters are from. -/
def statementOf (these : List Fate) : List Char :=
  these.map Fate.source

/-- The statement that is sent. -/
def sentOf (these : List Fate) : List Char :=
  these.flatMap Fate.sent

/-- Every backslash that is dropped stands before a colon. -/
def Chained : List Fate → Prop
  | [] => True
  | fate :: rest => (fate = .dropped → ∃ next ∈ rest.head?, next.sent = [':']) ∧ Chained rest

section Places

variable (within : ∀ c, named c → isBindChar c)

include within in
theorem backslash_unnamed : named '\\' = false := by
  by_contra char
  exact absurd (within '\\' (by simpa using char)) (by decide)

include within in
theorem unnamed_of_not_isBindChar (other : isBindChar c = false) : named c = false := by
  by_contra char
  rw [within c (by simpa using char)] at other
  cases other

include within in
/-- No colon follows a name where none follows the characters of binds that begin with it. -/
theorem ne_colon_of_joinsBind (apart : joinsBind (cs.dropWhile isBindChar).head? = false) :
    (cs.dropWhile named).head? ≠ some ':' := by
  induction cs with
  | nil => simp
  | cons c cs ih =>
    cases taken : named c with
    | true =>
      rw [List.dropWhile_cons_of_pos (within c taken)] at apart
      rw [List.dropWhile_cons_of_pos taken]
      exact ih apart
    | false =>
      rw [List.dropWhile_cons_of_neg (by simp [taken])]
      intro colon
      obtain rfl : c = ':' := Option.some.inj colon
      rw [List.dropWhile_cons_of_neg (by decide)] at apart
      cases apart

include within in
/-- A backslash that preparing put before a colon is taken for an escape. -/
theorem startsEscape_of_escaped (edit : editAt before here places = .escaped) :
    startsEscape named ('\\' :: ':' :: writtenFrom (some here) places) := by
  obtain ⟨colon, bind⟩ : here.1 = ':' ∧
      (colonBind (before.map Prod.fst) (here.1 :: places.map Prod.fst)).isSome := by
    unfold editAt at edit
    split at edit
    · exact ⟨eq_colon_of_isSome ‹_›, ‹_›⟩
    · split at edit <;> cases edit
  rw [colon, colonBind_colon] at bind
  split at bind
  · cases bind
  · rename_i free
    have apart : joinsBind ((places.map Prod.fst).dropWhile isBindChar).head? = false := by
      simp only [Bool.or_eq_true, not_or, Bool.not_eq_true] at free
      exact free.2
    refine startsEscape_iff.mpr ⟨_, rfl, endsEscape_iff.mpr ?_⟩
    rw [head?_dropWhile_writtenFrom within (by rw [colon]; rfl)]
    exact ne_colon_of_joinsBind within apart

theorem startsEscape_of_ne (other : c ≠ '\\') : startsEscape named (c :: cs) = false := by
  rw [Bool.eq_false_iff]
  intro starts
  obtain ⟨behind, whole, -⟩ := startsEscape_iff.mp starts
  exact other (List.cons.inj whole).1

include within in
/-- Undoing the escapes of a prepared text leaves what becomes of its characters. -/
theorem flatten_undone (left : Option Char) (before : Option (Char × Bool))
    (places : List (Char × Bool)) :
    (atPlaces (fun _ c cs => if startsEscape named (c :: cs) then [] else [c]) left
        (writtenFrom before places)).flatten =
      sentOf (atPlaces (fateAt named) before places) := by
  have colon (cs : List Char) : startsEscape named (':' :: cs) = false := startsEscape_of_ne (by decide)
  induction places generalizing left before with
  | nil => rfl
  | cons here places ih =>
    rw [writtenFrom_cons, atPlaces, sentOf, List.flatMap_cons, ← sentOf, fateAt]
    cases edit : editAt before here places with
    | kept c =>
      rw [Edit.written, List.singleton_append, atPlaces, List.flatten_cons, ih]
      dsimp only
      cases startsEscape named (c :: writtenFrom (some here) places) <;> rfl
    | escaped =>
      rw [Edit.written, List.cons_append, List.singleton_append, atPlaces, atPlaces, List.flatten_cons,
        List.flatten_cons, ih, startsEscape_of_escaped within edit, colon]
      rfl
    | marked =>
      rw [Edit.written, List.singleton_append, atPlaces, List.flatten_cons, ih, colon]
      rfl

include within in
theorem undoEscapes_prepare (text : List Char) :
    undoEscapes named (prepare text).text = sentOf (fates named text) := by
  rw [undoEscapes_eq (backslash_unnamed within), text_prepare, fates, ← flatten_undone within none]
  rfl

end Places

section Fates

variable {fate : Fate}

theorem fateAt_cases (before : Option (Char × Bool)) (here : Char × Bool) (right : List (Char × Bool)) :
    (fateAt named before here right = .kept here.1) ∨
      (fateAt named before here right = .turned ∧ editAt before here right = .marked ∧ here.1 = '@') ∨
      (fateAt named before here right = .dropped ∧ here.1 = '\\' ∧
        startsEscape named ('\\' :: writtenFrom (some here) right)) := by
  unfold fateAt
  rcases editAt_cases before here right with ⟨edit, -⟩ | ⟨edit, -, sign⟩ | ⟨edit, -, sign⟩
  · rw [edit]
    dsimp only
    split
    · rename_i starts
      obtain ⟨behind, whole, -⟩ := startsEscape_iff.mp starts
      have backslash := (List.cons.inj whole).1
      rw [backslash] at starts
      exact .inr (.inr ⟨rfl, backslash, starts⟩)
    · exact .inl rfl
  · rw [edit, sign]
    exact .inl rfl
  · rw [edit]
    exact .inr (.inl ⟨rfl, rfl, sign⟩)

theorem statementOf_fates (text : List Char) : statementOf (fates named text) = text := by
  have own (left : Option (Char × Bool)) (here : Char × Bool) (right : List (Char × Bool)) :
      (fateAt named left here right).source = here.1 := by
    rcases @fateAt_cases named left here right with fate | ⟨fate, -, sign⟩ | ⟨fate, sign, -⟩
    · rw [fate, Fate.source]
    · rw [fate, Fate.source, sign]
    · rw [fate, Fate.source, sign]
  simp only [statementOf, fates, map_atPlaces, own, atPlaces_own, map_fst_shaded]

/-- What is taken for an escape stands before a colon, or before the at sign of a placeholder. -/
theorem chained_atPlaces (before : Option (Char × Bool)) (places : List (Char × Bool)) :
    Chained (atPlaces (fateAt named) before places) := by
  induction places generalizing before with
  | nil => trivial
  | cons here places ih =>
    refine ⟨fun dropped => ?_, ih (some here)⟩
    rcases @fateAt_cases named before here places with fate | ⟨fate, -, -⟩ | ⟨-, -, starts⟩
    · rw [fate] at dropped
      cases dropped
    · rw [fate] at dropped
      cases dropped
    · obtain ⟨behind, whole, -⟩ := startsEscape_iff.mp starts
      cases places with
      | nil => cases whole
      | cons next places =>
        refine ⟨fateAt named (some here) next places, rfl, ?_⟩
        rw [writtenFrom_cons] at whole
        rw [fateAt]
        cases edit : editAt (some here) next places with
        | kept c =>
          rw [edit] at whole
          obtain rfl : c = ':' := (List.cons.inj (List.cons.inj whole).2).1
          dsimp only
          rw [startsEscape_of_ne (by decide)]
          rfl
        | escaped => rfl
        | marked => rfl

end Fates

end ReportQuery.Sql
