import ReportQuery.Sql.TableList
import ReportQuery.Sql.TableReference
import ReportQuery.Text.Case
import ReportQuery.Text.Order

set_option autoImplicit false
set_option relaxedAutoImplicit false

/-!
The safety rules for SQL text: it starts with SELECT, it holds none of the words that change data or
schema, and every schema that it names is allowed.
-/

namespace ReportQuery.Sql

open Text

/-- The words that change data or schema. -/
def forbiddenWords : List String :=
  ["INSERT", "UPDATE", "DELETE", "ALTER", "DROP", "CREATE", "TRUNCATE"]

/-- Why a text is refused. -/
inductive Violation where
  | empty
  | notSelect (firstWord : String)
  | forbidden (word : String)
  | schema (name : String)
deriving Repr, DecidableEq

/-- The sentence that reports a violation. -/
def Violation.message : Violation → String
  | empty => "SQL query cannot be empty."
  | notSelect _ => "Only SELECT statements are permitted."
  | forbidden word => "Query contains forbidden SQL commands: " ++ upper word ++ "."
  | schema name => "Schema '" ++ name ++ "' is not in the list of allowed schemas."

/-- The part of the text that offends. -/
def Violation.fragment? : Violation → Option String
  | empty => none
  | notSelect word | forbidden word | schema word => some word

/-- The table references of all table lists. -/
def tableReferences (code : List Char) : List TableReference :=
  (tableLists code).flatMap (findAll tableReference)

/-- The schemas that table references name: every part before the last. -/
def tableSchemas (references : List TableReference) : List String :=
  references.flatMap fun reference => reference.parts.dropLast

/-- The names, in lower case, that a reference declares for columns: a table without schema and an
alias. -/
def TableReference.localNames (reference : TableReference) : List String :=
  (match reference.parts with
    | [table] => [lower table]
    | _ => []) ++ (reference.alias?.map lower).toList

/-- The names that qualify columns: those declared and not also used as a schema. -/
def columnQualifiers (references : List TableReference) : List String :=
  let schemas := (tableSchemas references).map lower
  (references.flatMap TableReference.localNames).filter fun name => !schemas.contains name

/-- Whether the text passed, nearest character first, ends in the cast operator and blanks. -/
def endsWithCast (passed : List Char) : Bool :=
  match passed.dropWhile isBlank with
  | ':' :: ':' :: _ => true
  | _ => false

/-- The dotted names of a text that was cut into pieces, each with whether it is the target of a
cast; `passed` holds the text before, nearest character first. -/
def castNames (passed : List Char) : List (Piece DottedName) → List (DottedName × Bool)
  | [] => []
  | .plain c :: rest => castNames (c :: passed) rest
  | .found source name :: rest =>
    (name, endsWithCast passed) :: castNames (source.reverse ++ passed) rest

/-- The schemas that dotted names in the code refer to. A name qualified by a declared name is a
column, unless it is called or cast to. -/
def qualifierSchemas (declared : List String) (code : List Char) : List String :=
  (castNames [] (pieces dottedName none code)).flatMap fun (name, isCast) =>
    let isColumn :=
      match name.qualifiers with
      | first :: _ => declared.contains (lower first) && !name.isCall && !isCast
      | [] => false
    if isColumn then [] else name.qualifiers

/-- The schemas that a statement refers to, without repeats: those of dotted names in order of
appearance, then those of table references. -/
def referencedSchemas (sql : List Char) : List String :=
  let code := stripLiterals sql
  let references := tableReferences code
  distinct (qualifierSchemas (columnQualifiers references) code ++ tableSchemas references)

/-- Whether the text, in upper case, begins with SELECT. -/
def startsWithSelect (sql : List Char) : Bool :=
  "SELECT".toList.isPrefixOf (upperChars sql)

/-- The first violation of the safety rules, if any. Allowed schemas are compared without case. -/
def violation? (sql : String) (allowedSchemas : List String) : Option Violation :=
  let text := trimChars sql.toList
  if text.isEmpty then some .empty
  else if !startsWithSelect text then
    some (.notSelect (String.ofList ((words text).head?.getD [])))
  else
    match findFirst? (keyword forbiddenWords) text with
    | some word => some (.forbidden (String.ofList word))
    | none =>
      let allowed := allowedSchemas.map lower
      ((referencedSchemas text).find? fun schema => !allowed.contains (lower schema)).map .schema

end ReportQuery.Sql
