import ReportQuery.Sql.Name

set_option autoImplicit false
set_option relaxedAutoImplicit false

/-!
Table references in a table list: a dotted name at the start of the list, after a comma or after
JOIN, with the alias that may follow it.
-/

namespace ReportQuery.Sql

open Text

/-- Words that can follow a table reference and are never its alias. -/
def clauseKeywords : List String :=
  ["WHERE", "ON", "USING", "JOIN", "INNER", "LEFT", "RIGHT", "FULL", "CROSS", "OUTER", "NATURAL",
    "GROUP", "ORDER", "HAVING", "LIMIT", "OFFSET", "UNION", "EXCEPT", "INTERSECT", "WINDOW",
    "FETCH", "FOR", "LATERAL"]

/-- A place in a table list where a table may stand. -/
structure TableReference where
  /-- The parts of the table's dotted name; none for a subquery. -/
  parts : List String
  /-- The alias, where one is given. -/
  alias? : Option String
deriving Repr, DecidableEq

/-- What follows at least one blank at the front of the text. -/
def afterBlanks? : List Char → Option (List Char)
  | [] => none
  | c :: cs => if isBlank c then some (trimFrontChars cs) else none

/-- What follows the keyword and at least one blank. -/
def afterKeywordBlanks? (keyword : String) (cs : List Char) : Option (List Char) :=
  (afterKeyword? keyword.toList cs).bind afterBlanks?

/-- The place of the last doubled quote inside a quoted segment whose opening quote is dropped,
counted from the opening quote. -/
def lastDoubled? (place : Nat) : List Char → Option Nat
  | '"' :: '"' :: cs => (lastDoubled? (place + 2) cs).orElse fun _ => some place
  | '"' :: _ => none
  | _ :: cs => lastDoubled? (place + 1) cs
  | [] => none

/-- The length of the alias at the front of the text. A name before a dot is no alias, but a quoted
one that holds doubled quotes is read up to the last of them. -/
def aliasName? (cs : List Char) : Option Nat :=
  if startsWithWord clauseKeywords cs then none
  else
    match identifier? .folded cs with
    | none => none
    | some n =>
      if (afterDot? (cs.drop n)).isNone then some n
      else if cs.head? == some '"' then
        match lastDoubled? 1 ((cs.take n).drop 1) with
        | some place => if place ≤ 1 then none else some (place + 1)
        | none => none
      else none

/-- Reads the alias after a table's name, with or without AS: the alias and the text after it. -/
def aliasAfter? (cs : List Char) : Option (List Char × List Char) :=
  match afterBlanks? cs with
  | none => none
  | some rest =>
    let read (at_ : List Char) : Option (List Char × List Char) :=
      (aliasName? at_).map fun n => (at_.take n, at_.drop n)
    match (afterKeywordBlanks? "AS" rest).bind read with
    | some found => some found
    | none => read rest

/-- Reads the dotted name of a table: its parts and the text after it. -/
def tableName (cs : List Char) : List (List Char) × List Char :=
  if startsWithWord ("AS" :: clauseKeywords) cs then ([], cs)
  else
    match identifier? .folded cs with
    | none => ([], cs)
    | some n =>
      let (tokens, rest) := dottedTail .folded (cs.drop n)
      (cs.take n :: tokens, rest)

/-- The parts of a table's dotted name. After the first dot a letter beyond ASCII belongs to no part
and separates the identifiers around it. -/
def nameParts : List (List Char) → List String
  | [] => []
  | first :: others =>
    let exact : Matcher (List Char) := fun _ cs =>
      (identifier? .exact cs).map fun n => (n, cs.take n)
    identifierName first :: (others.flatMap (findAll exact)).map identifierName

/-- Reads a table reference from just after what introduces it: the reference and the text after
it. ONLY and LATERAL may precede the name. -/
def readTableReference (cs : List Char) : TableReference × List Char :=
  let start := trimFrontChars cs
  let start :=
    ((afterKeywordBlanks? "ONLY" start).orElse fun _ => afterKeywordBlanks? "LATERAL" start).getD
      start
  let (tokens, rest) := tableName start
  let parts := nameParts tokens
  match aliasAfter? rest with
  | some (token, after) => (⟨parts, some (identifierName token)⟩, after)
  | none => (⟨parts, none⟩, rest)

/-- Reads a table reference from what is left of `cs`; its length counts from the front of `cs`. -/
def referenceFrom (cs left : List Char) : Nat × TableReference :=
  let (reference, after) := readTableReference left
  (cs.length - after.length, reference)

/-- Reads a table reference behind a comma or JOIN. -/
def joinedReference : Matcher TableReference := fun before cs =>
  match cs with
  | ',' :: left => some (referenceFrom cs left)
  | _ => if isWordAt ["JOIN"] before cs then some (referenceFrom cs (cs.drop 4)) else none

/-- Reads a table reference with the comma or JOIN before it; the first one needs neither. -/
def tableReference : Matcher TableReference := fun before cs =>
  match before with
  | some _ => joinedReference before cs
  | none =>
    if (referenceFrom cs cs).1 = 0 then joinedReference before cs else some (referenceFrom cs cs)

end ReportQuery.Sql
