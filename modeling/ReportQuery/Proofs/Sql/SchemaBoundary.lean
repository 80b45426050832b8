import Mathlib.Data.List.Infix
import ReportQuery.Proofs.Sql.ListedTable
import ReportQuery.Proofs.Text.Order

set_option autoImplicit false
set_option relaxedAutoImplicit false

/-!
The schema boundary: which tables of an accepted statement have their schema among the allowed
ones. The scan of dotted names sees every table of the statement, but it takes a name for a column
where the first part is also the name of a table or an alias. The scan of the table lists makes up
for that, but sees the tables at the level of a FROM only.
-/

namespace ReportQuery.Sql

open Text

variable {sql : String} {allowed : List String} {text cs : List Char}

/-- Every schema of the table is allowed, without regard to case. -/
def NamedTable.IsAllowed (table : NamedTable text) (allowed : List String) : Prop :=
  ∀ schema ∈ table.schemas, lower schema ∈ allowed.map lower

section Plain

theorem PlainText.of_infix (plain : PlainText text) (part : cs <:+: text) : PlainText cs where
  noLiteral := fun member => plain.noLiteral (part.subset member)
  noQuoted := fun member => plain.noQuoted (part.subset member)
  noLineComment := fun comment => plain.noLineComment (comment.trans part)
  noBlockComment := fun comment => plain.noBlockComment (comment.trans part)

private theorem blockComment_of_plain (noBlock : ¬ ['/', '*'] <:+: cs) (left : Option Char) :
    blockComment left cs = none := by
  unfold blockComment
  split
  · rename_i tail
    exact absurd ⟨[], tail, rfl⟩ noBlock
  · rfl

private theorem lineComment_of_plain (noLine : ¬ ['-', '-'] <:+: cs) (left : Option Char) :
    lineComment left cs = none := by
  unfold lineComment
  split
  · rename_i tail
    exact absurd ⟨[], tail, rfl⟩ noLine
  · rfl

/-- Nothing is blanked in text without comments and literals. -/
theorem stripLiterals_eq_self (noLiteral : '\'' ∉ text) (noLine : ¬ ['-', '-'] <:+: text)
    (noBlock : ¬ ['/', '*'] <:+: text) : stripLiterals text = text := by
  have blocks := replaceAll_eq_self (fun _ _ => [' ']) fun left tail (suffix : tail <:+ text) =>
    blockComment_of_plain (fun block => noBlock (block.trans suffix.isInfix)) left
  have lines := replaceAll_eq_self (fun _ _ => [' ']) fun left tail (suffix : tail <:+ text) =>
    lineComment_of_plain (fun line => noLine (line.trans suffix.isInfix)) left
  have literals := replaceAll_eq_self (fun _ _ => ['\'', '\'']) fun left tail (suffix : tail <:+ text) =>
    quotedSegment_of_not_mem (fun quote => noLiteral (suffix.subset quote)) left
  rw [stripLiterals, blocks, lines, literals]

end Plain

section Schemas

/-- The name that a piece found is among the dotted names of the text. -/
private theorem exists_mem_castNames {source : List Char} {name : DottedName} :
    ∀ {ps : List (Piece DottedName)} (passed : List Char), .found source name ∈ ps →
      ∃ isCast, (name, isCast) ∈ castNames passed ps := by
  intro ps
  induction ps with
  | nil => exact fun passed member => absurd member List.not_mem_nil
  | cons piece ps ih =>
    intro passed member
    cases piece with
    | plain c =>
      rw [castNames]
      exact ih (c :: passed) (by simpa using member)
    | found cs other =>
      rw [castNames]
      rcases List.mem_cons.mp member with here | later
      · cases here
        exact ⟨_, List.mem_cons_self⟩
      · obtain ⟨isCast, among⟩ := ih (cs.reverse ++ passed) later
        exact ⟨isCast, List.mem_cons_of_mem _ among⟩

/-- The qualifiers of a dotted name are schemas unless its first part is declared and the name is
not called. -/
private theorem mem_qualifierSchemas {source : List Char} {declared : List String} {name : DottedName}
    {schema : String} (found : .found source name ∈ pieces dottedName none text)
    (counts : ∀ first ∈ name.qualifiers.head?, lower first ∈ declared → name.isCall = true)
    (member : schema ∈ name.qualifiers) : schema ∈ qualifierSchemas declared text := by
  obtain ⟨isCast, among⟩ := exists_mem_castNames [] found
  rw [qualifierSchemas, List.mem_flatMap]
  refine ⟨(name, isCast), among, ?_⟩
  dsimp only
  cases qualifiers : name.qualifiers with
  | nil =>
    rw [qualifiers] at member
    cases member
  | cons first others =>
    have counted : ¬ (declared.contains (lower first) && !name.isCall && !isCast) = true := by
      by_cases declares : lower first ∈ declared
      · simp [counts first (by simp [qualifiers]) declares]
      · simp [declares]
    rw [qualifiers] at member
    simpa only [if_neg counted] using member

/-- The scan of dotted names counts the schemas of a table if it reads the name and does not take it
for a column. -/
private theorem NamedTable.schemas_subset_qualifierSchemas (table : NamedTable text)
    (unquoted : '"' ∉ text) (ascii : table.isAscii) {declared : List String}
    (counts : lower (String.ofList table.first) ∈ declared → table.isCalled) :
    table.schemas ⊆ qualifierSchemas declared text := by
  obtain ⟨source, found⟩ := table.found unquoted ascii
  have head : table.schemas.head? = some (String.ofList table.first) := by
    obtain ⟨joint, others, more⟩ := List.exists_cons_of_ne_nil table.isDotted
    simp [schemas, parts, more]
  intro schema member
  refine mem_qualifierSchemas found (fun first isFirst declares => ?_) member
  obtain rfl := Option.some.inj (head.symm.trans isFirst)
  exact counts declares

/-- The schemas of a table are among those that the statement refers to, unless its name is passed
over. -/
theorem NamedTable.schemas_subset (table : NamedTable text) (plain : PlainText text)
    (seen : ¬ table.IsPassedOver) : table.schemas ⊆ referencedSchemas text := by
  intro schema member
  rw [referencedSchemas, stripLiterals_eq_self plain.noLiteral plain.noLineComment plain.noBlockComment,
    mem_distinct, List.mem_append]
  by_cases listed : table.IsListed
  · cases called : table.isCalled with
    | true =>
      exact .inl (table.schemas_subset_qualifierSchemas plain.noQuoted listed.1 (fun _ => called) member)
    | false =>
      exact .inr (table.schemas_subset_tableSchemas plain.noQuoted listed called member)
  · obtain ⟨ascii, counted⟩ := not_or.mp fun missed => seen ⟨listed, missed⟩
    refine .inl (table.schemas_subset_qualifierSchemas plain.noQuoted (by simpa using ascii) ?_ member)
    intro declared
    by_contra uncalled
    exact counted ⟨declared, by simpa using uncalled⟩

end Schemas

/-- What the safety rules ask of a text whatever schemas are allowed. -/
def isQuery (text : List Char) : Bool :=
  !text.isEmpty && startsWithSelect text && (findFirst? (keyword forbiddenWords) text).isNone

theorem violation?_eq_none_iff : violation? sql allowed = none ↔
    isQuery (trimChars sql.toList) ∧
      ∀ schema ∈ referencedSchemas (trimChars sql.toList), lower schema ∈ allowed.map lower := by
  have schemas : ((referencedSchemas (trimChars sql.toList)).find? fun schema =>
        !(allowed.map lower).contains (lower schema)).map Violation.schema = none ↔
      ∀ schema ∈ referencedSchemas (trimChars sql.toList), lower schema ∈ allowed.map lower := by
    simp
  rw [← schemas]
  unfold violation? isQuery
  dsimp only
  by_cases empty : (trimChars sql.toList).isEmpty
  · simp [empty]
  rw [if_neg empty]
  by_cases select : startsWithSelect (trimChars sql.toList)
  · rw [select, Bool.not_true, if_neg Bool.false_ne_true]
    cases findFirst? (keyword forbiddenWords) (trimChars sql.toList) with
    | none => simp [empty]
    | some word => simp
  · simp [select]

/-- An accepted statement names tables of allowed schemas only, those aside that are passed over. It
holds of all tables of the statement, whatever schemas are allowed, exactly if the schemas of every
table passed over are also found elsewhere in the statement. -/
theorem accepted_tables_allowed_iff (plain : PlainText sql.toList) :
    (∀ allowed, violation? sql allowed = none →
      ∀ table : NamedTable (trimChars sql.toList), ¬ table.IsPassedOver → table.IsAllowed allowed) ∧
    ((∀ allowed, violation? sql allowed = none →
        ∀ table : NamedTable (trimChars sql.toList), table.IsAllowed allowed) ↔
      (∀ allowed, violation? sql allowed ≠ none) ∨
        ∀ table : NamedTable (trimChars sql.toList), table.IsPassedOver →
          table.IsAllowed (referencedSchemas (trimChars sql.toList))) := by
  have plainText := plain.of_infix (trimChars_within sql.toList)
  have seen : ∀ allowed, violation? sql allowed = none →
      ∀ table : NamedTable (trimChars sql.toList), ¬ table.IsPassedOver →
        table.IsAllowed allowed := by
    intro allowed accepted table seen schema member
    exact (violation?_eq_none_iff.mp accepted).2 schema (table.schemas_subset plainText seen member)
  refine ⟨seen, ?_, ?_⟩
  · intro bounded
    by_cases query : isQuery (trimChars sql.toList)
    · -- The referenced schemas are the shortest list that lets the statement pass.
      have accepted : violation? sql (referencedSchemas (trimChars sql.toList)) = none :=
        violation?_eq_none_iff.mpr ⟨query, fun schema => List.mem_map_of_mem⟩
      exact .inr fun table _ => bounded _ accepted table
    · exact .inl fun allowed accepted => query (violation?_eq_none_iff.mp accepted).1
  · rintro (refused | named) allowed accepted table schema member
    · exact absurd accepted (refused allowed)
    · by_cases passed : table.IsPassedOver
      · obtain ⟨referenced, among, same⟩ := List.mem_map.mp (named table passed schema member)
        rw [← same]
        exact (violation?_eq_none_iff.mp accepted).2 referenced among
      · exact seen allowed accepted table passed schema member

private theorem opensList_select : OpensList "SELECT * FROM".toList :=
  ⟨by decide, by decide, "SELECT".toList, " * ".toList, by decide,
    by decide, by decide, balanced_of_all (by decide)⟩

def joinedStatement : String :=
  "SELECT * FROM public.orders secret JOIN secret.users u ON true"

/-- A table after JOIN whose schema shares its name with an alias. -/
def joinedUsers : NamedTable (trimChars joinedStatement.toList) where
  before := "SELECT * FROM public.orders secret JOIN ".toList
  first := "secret".toList
  others := [(['.'], "users".toList)]
  rest := " u ON true".toList
  isText := by decide
  place := by
    have split : "SELECT * FROM public.orders secret JOIN ".toList =
        "SELECT * FROM public.orders secret JOIN".toList ++ [' '] := by decide
    rw [split]
    exact .afterBlank (.afterJoin (by decide) (by decide)) (by decide)
  isName := by decide
  isDot := by decide
  isDotted := by decide
  ends := by decide

private theorem joinedUsers_isListed : joinedUsers.IsListed := by
  have parted : Parted " public.orders secret ".toList :=
    ⟨⟨' ', by decide, by decide⟩, by decide⟩
  have shown : levelText 0 " public.orders secret JOIN ".toList =
      " public.orders secret ".toList ++ ("JOIN".toList ++ [' ']) := by decide
  refine ⟨by decide, by decide, "SELECT * FROM".toList,
    " public.orders secret JOIN ".toList, by decide, opensList_select, by decide,
    by decide, balanced_of_all (by decide), ?_, by decide +kernel⟩
  rw [shown]
  exact .join (by decide) parted (by decide) (.inl (by simp))

/-- An alias of the same name does not hide the schema of the table. -/
theorem joinedUsers_allowed : PlainText joinedStatement.toList ∧
    violation? joinedStatement ["PUBLIC", "secret"] = none ∧ ¬ joinedUsers.IsPassedOver ∧
    joinedUsers.IsAllowed ["PUBLIC", "secret"] := by
  have plain : PlainText joinedStatement.toList := by
    constructor <;> decide
  have accepted : violation? joinedStatement ["PUBLIC", "secret"] = none := by decide +kernel
  have seen : ¬ joinedUsers.IsPassedOver := fun passed => passed.1 joinedUsers_isListed
  exact ⟨plain, accepted, seen,
    (accepted_tables_allowed_iff plain).1 ["PUBLIC", "secret"] accepted joinedUsers seen⟩

def groupedStatement : String :=
  "SELECT * FROM (secret.users JOIN public.x ON true) secret"

/-- A table of a join in parentheses whose alias is the name of the table's schema. -/
def groupedUsers : NamedTable (trimChars groupedStatement.toList) where
  before := "SELECT * FROM (".toList
  first := "secret".toList
  others := [(['.'], "users".toList)]
  rest := " JOIN public.x ON true) secret".toList
  isText := by decide
  place := by
    have split : "SELECT * FROM (".toList = "SELECT * FROM".toList ++ [' '] ++ ['('] := by
      decide
    rw [split]
    exact .inGroup (.afterBlank (.afterFrom opensList_select (by decide)) (by decide))
  isName := by decide
  isDot := by decide
  isDotted := by decide
  ends := by decide

/-- The schema of a table in a join in parentheses is not checked where the join's alias has its
name. -/
theorem groupedUsers_not_allowed : PlainText groupedStatement.toList ∧
    violation? groupedStatement ["public"] = none ∧ ¬ groupedUsers.IsAllowed ["public"] := by
  refine ⟨?_, by decide +kernel, ?_⟩
  · constructor <;> decide
  · unfold NamedTable.IsAllowed
    decide

end ReportQuery.Sql
