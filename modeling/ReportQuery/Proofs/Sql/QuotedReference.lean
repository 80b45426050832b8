import ReportQuery.Proofs.Sql.QuotedName
import ReportQuery.Proofs.Sql.ReferenceScan

set_option autoImplicit false
set_option relaxedAutoImplicit false

/-!
How a table reference is read where quoted names stand: a whole reference with its alias, a segment
between two quotes that belong to different names, and a quote that no other follows.
-/

namespace ReportQuery.Sql

open Text

variable {rule : LetterRule} {inside rest cs schema table body other : List Char} {c : Char}

section Start

theorem startsWithWord_plain {keywords : List String} (words : areKeywords keywords)
    (plain : ∀ c ∈ body, isNameChar c) (apart : startsApart rest) :
    startsWithWord keywords (body ++ rest) = keywords.contains (upper (String.ofList body)) := by
  have word : isWordAt keywords none (body ++ rest) = keywords.contains (upper (String.ofList body)) :=
    isWordAt_plain words plain (by simp [IsApart]) apart
  rwa [isWordAt, isWordChar?, Bool.not_false, Bool.true_and] at word

/-- A keyword does not begin with a quote. -/
private theorem afterKeywordBlanks?_unmet {name : String} {letter : Char} {letters : List Char}
    (spelled : name.toList = letter :: letters) (unmet : meetsLetter letter c = false) :
    afterKeywordBlanks? name (c :: cs) = none := by
  rw [afterKeywordBlanks?, spelled, afterKeyword?, unmet]
  rfl

/-- Where neither ONLY nor LATERAL can begin, the name of a table is read at once. -/
private theorem readTableReference_start {after : List Char} {tokens : List (List Char)}
    (nonblank : isBlank c = false) (only : meetsLetter 'O' c = false)
    (lateral : meetsLetter 'L' c = false) (name : tableName (c :: cs) = (tokens, after)) :
    (aliasAfter? after = none → readTableReference (c :: cs) = (⟨nameParts tokens, none⟩, after)) ∧
      ∀ token behind, aliasAfter? after = some (token, behind) →
        readTableReference (c :: cs) = (⟨nameParts tokens, some (identifierName token)⟩, behind) := by
  have noOnly : afterKeywordBlanks? "ONLY" (c :: cs) = none :=
    afterKeywordBlanks?_unmet (show "ONLY".toList = 'O' :: "NLY".toList from rfl) only
  have noLateral : afterKeywordBlanks? "LATERAL" (c :: cs) = none :=
    afterKeywordBlanks?_unmet (show "LATERAL".toList = 'L' :: "ATERAL".toList from rfl) lateral
  have start : ((afterKeywordBlanks? "ONLY" (c :: cs)).orElse fun _ =>
      afterKeywordBlanks? "LATERAL" (c :: cs)).getD (c :: cs) = c :: cs := by
    rw [noOnly, noLateral]
    rfl
  unfold readTableReference
  dsimp only
  rw [trimFrontChars_of_head nonblank, start, name]
  dsimp only
  constructor
  · intro unread
    rw [unread]
  · intro token behind read
    rw [read]

theorem readTableReference_blank (blank : isBlank c) :
    readTableReference (c :: cs) = readTableReference cs := by
  unfold readTableReference
  dsimp only
  rw [trimFrontChars_blank blank]

end Start

section Reading

private theorem aliasAfter?_of_head (nonblank : isBlank c = false) : aliasAfter? (c :: cs) = none := by
  rw [aliasAfter?, afterBlanks?, nonblank]
  rfl

private theorem startsWithWord_quote : startsWithWord ("AS" :: clauseKeywords) ('"' :: cs) = false :=
  startsWithWord_mark (by decide) (by decide)

private theorem tableName_inQuotes (unquoted : '"' ∉ inside) (nonempty : inside ≠ [])
    (lone : rest.head? ≠ some '"') :
    tableName (inQuotes inside ++ rest) =
      (inQuotes inside :: (dottedTail .folded rest).1, (dottedTail .folded rest).2) := by
  have unread : ¬ startsWithWord ("AS" :: clauseKeywords) (inQuotes inside ++ rest) := by
    rw [inQuotes_append, startsWithWord_quote]
    exact Bool.false_ne_true
  rw [tableName, if_neg unread, identifier?_inQuotes unquoted nonempty lone]
  simp

/-- What stands between the quotes of two names is read as a table. -/
theorem readTableReference_between (unquoted : '"' ∉ inside) (nonempty : inside ≠ [])
    (letter : isNameChar c) :
    readTableReference (inQuotes inside ++ c :: rest) =
      (⟨[String.ofList inside], none⟩, c :: rest) := by
  have nonblank := isBlank_of_isNameChar letter
  have lone : (c :: rest).head? ≠ some '"' := by
    intro quote
    obtain rfl : c = '"' := by simpa using quote
    exact absurd letter (by decide)
  have undotted : (trimFrontChars (c :: rest)).head? ≠ some '.' :=
    head?_trim_ne_of_isNameChar letter (by decide)
  have name := tableName_inQuotes unquoted nonempty lone
  rw [dottedTail_undotted undotted] at name
  have parts : nameParts [inQuotes inside] = [String.ofList inside] := by
    rw [nameParts, identifierName_inQuotes unquoted]
    rfl
  rw [inQuotes_append] at name ⊢
  rw [(readTableReference_start (by decide) (by decide) (by decide) name).1
    (aliasAfter?_of_head nonblank), parts]

/-- Nothing is read at a quote that no other follows. -/
theorem readTableReference_unclosed (unquoted : '"' ∉ cs) :
    readTableReference ('"' :: cs) = (⟨[], none⟩, '"' :: cs) := by
  have unread : ¬ startsWithWord ("AS" :: clauseKeywords) ('"' :: cs) := by
    rw [startsWithWord_quote]
    exact Bool.false_ne_true
  have name : tableName ('"' :: cs) = ([], '"' :: cs) := by
    rw [tableName, if_neg unread, identifier?_unclosed unquoted]
  exact (readTableReference_start (by decide) (by decide) (by decide) name).1
    (aliasAfter?_of_head (by decide))

/-- A word that can stand as an alias: it begins with a t and is none of the keywords. -/
structure IsAlias (body : List Char) : Prop where
  name : IsAsciiName body
  plain : ∀ c ∈ body, isNameChar c
  first : body.head? = some 't'
  free : clauseKeywords.contains (upper (String.ofList body)) = false

private theorem trimFrontChars_alias (isAlias : IsAlias body) (rest : List Char) :
    trimFrontChars (body ++ rest) = body ++ rest :=
  trimFrontChars_of_name (startsApart_name isAlias.name.1 rest)

private theorem afterKeywordBlanks?_as (isAlias : IsAlias body) (rest : List Char) :
    afterKeywordBlanks? "AS" (body ++ rest) = none := by
  obtain ⟨letters, rfl⟩ := List.head?_eq_some_iff.mp isAlias.first
  exact afterKeywordBlanks?_unmet (show "AS".toList = 'A' :: "S".toList from rfl) (by decide)

private theorem aliasName?_alias (isAlias : IsAlias body) (apart : startsApart rest) :
    aliasName? (body ++ rest) = if (afterDot? rest).isNone then some body.length else none := by
  have unread : ¬ startsWithWord clauseKeywords (body ++ rest) := by
    rw [startsWithWord_plain (by decide) isAlias.plain apart, isAlias.free]
    exact Bool.false_ne_true
  obtain ⟨letters, rfl⟩ := List.head?_eq_some_iff.mp isAlias.first
  rw [aliasName?, if_neg unread, identifier?_name isAlias.name apart]
  simp

/-- A table with two quoted parts and an alias is read as a whole. -/
theorem readTableReference_aliased (noSchema : '"' ∉ schema) (noTable : '"' ∉ table)
    (someSchema : schema ≠ []) (someTable : table ≠ []) (isAlias : IsAlias body)
    (apart : startsApart rest) (undotted : (trimFrontChars rest).head? ≠ some '.') :
    readTableReference (inQuotes schema ++ '.' :: (inQuotes table ++ ' ' :: (body ++ rest))) =
      (⟨[String.ofList schema, String.ofList table], some (String.ofList body)⟩, rest) := by
  have begins : (trimFrontChars (' ' :: (body ++ rest))).head? ≠ some '.' := by
    rw [trimFrontChars_blank (by decide), trimFrontChars_alias isAlias]
    obtain ⟨letters, rfl⟩ := List.head?_eq_some_iff.mp isAlias.first
    simp
  have name : tableName (inQuotes schema ++ '.' :: (inQuotes table ++ ' ' :: (body ++ rest))) =
      ([inQuotes schema, inQuotes table], ' ' :: (body ++ rest)) := by
    rw [tableName_inQuotes noSchema someSchema (by simp),
      dottedTail_inQuotes noTable someTable (by simp) begins]
  have parts : nameParts [inQuotes schema, inQuotes table] =
      [String.ofList schema, String.ofList table] := by
    have second : findAll (fun _ cs => (identifier? .exact cs).map fun n => (n, cs.take n))
        (inQuotes table) = [inQuotes table] :=
      findAll_identifier (by simp [inQuotes]) (identifier?_inQuotes noTable someTable (by simp))
    rw [nameParts, List.flatMap_singleton, second, identifierName_inQuotes noSchema, List.map_singleton,
      identifierName_inQuotes noTable]
  have after : aliasAfter? (' ' :: (body ++ rest)) = some (body, rest) := by
    have blanks : afterBlanks? (' ' :: (body ++ rest)) = some (body ++ rest) := by
      rw [afterBlanks?, if_pos (by decide), trimFrontChars_alias isAlias]
    have read := aliasName?_alias isAlias apart
    rw [afterDot?_eq_none undotted] at read
    rw [aliasAfter?, blanks]
    dsimp only
    rw [afterKeywordBlanks?_as isAlias, Option.bind_none, read]
    simp
  rw [inQuotes_append] at name ⊢
  rw [(readTableReference_start (by decide) (by decide) (by decide) name).2 body rest after, parts,
    identifierName_of_name isAlias.name]

/-- A word before a column is read as a table, and the column's alias is not taken for the table's. -/
theorem readTableReference_and (isAlias : IsAlias body) :
    readTableReference ("AND".toList ++ ' ' :: (body ++ '.' :: rest)) =
      (⟨["AND"], none⟩, ' ' :: (body ++ '.' :: rest)) := by
  have undotted : (trimFrontChars (' ' :: (body ++ '.' :: rest))).head? ≠ some '.' := by
    rw [trimFrontChars_blank (by decide), trimFrontChars_alias isAlias]
    obtain ⟨letters, rfl⟩ := List.head?_eq_some_iff.mp isAlias.first
    simp
  have ascii : "AND".toList.all (fun c => decide (c.toNat < 0x80)) = true := by decide
  have isName : IsAsciiName "AND".toList :=
    ⟨by decide, fun c member => of_decide_eq_true (List.all_eq_true.mp ascii c member)⟩
  have unread : ¬ startsWithWord ("AS" :: clauseKeywords)
      ("AND".toList ++ ' ' :: (body ++ '.' :: rest)) := by
    rw [startsWithWord_plain (by decide) (List.all_eq_true.mp (by decide))
      (by simp [startsApart]; decide)]
    decide
  have name : tableName ("AND".toList ++ ' ' :: (body ++ '.' :: rest)) =
      (["AND".toList], ' ' :: (body ++ '.' :: rest)) := by
    rw [tableName, if_neg unread, identifier?_name isName (by simp [startsApart]; decide)]
    dsimp only
    rw [List.drop_left, dottedTail_undotted undotted, List.take_left]
  have noAlias : aliasAfter? (' ' :: (body ++ '.' :: rest)) = none := by
    have blanks : afterBlanks? (' ' :: (body ++ '.' :: rest)) = some (body ++ '.' :: rest) := by
      rw [afterBlanks?, if_pos (by decide), trimFrontChars_alias isAlias]
    have apart : startsApart ('.' :: rest) := by simp [startsApart]; decide
    have read := aliasName?_alias isAlias apart
    have dotted : (afterDot? ('.' :: rest)).isNone = false := rfl
    rw [dotted, if_neg Bool.false_ne_true] at read
    rw [aliasAfter?, blanks]
    dsimp only
    rw [afterKeywordBlanks?_as isAlias, Option.bind_none, read]
    rfl
  have split : "AND".toList ++ ' ' :: (body ++ '.' :: rest) =
      'A' :: ("ND".toList ++ ' ' :: (body ++ '.' :: rest)) := rfl
  rw [split] at name ⊢
  exact (readTableReference_start (by decide) (by decide) (by decide) name).1 noAlias

end Reading

end ReportQuery.Sql
