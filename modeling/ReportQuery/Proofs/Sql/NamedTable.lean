import ReportQuery.Proofs.Text.Blank
import ReportQuery.Sql.Safety

set_option autoImplicit false
set_option relaxedAutoImplicit false

/-!
Where SQL puts tables in a statement, and the dotted names that stand there. The places follow the
grammar of table lists and joins and not the scans of the safety rules.
-/

namespace ReportQuery.Sql

open Text

/-- Text in which no string literal, quoted identifier or comment begins. -/
structure PlainText (cs : List Char) : Prop where
  noLiteral : '\'' ∉ cs
  noQuoted : '"' ∉ cs
  noLineComment : ¬ ['-', '-'] <:+: cs
  noBlockComment : ¬ ['/', '*'] <:+: cs

/-- The first character of an identifier; every character beyond ASCII but a blank can be one. -/
def isIdentifierStart (c : Char) : Bool :=
  isNameStart c || (0x80 ≤ c.toNat && !isBlank c)

/-- A later character of an identifier. -/
def isIdentifierChar (c : Char) : Bool :=
  isIdentifierStart c || isAsciiDigit c || c == '$'

/-- Whether the text is an unquoted identifier. -/
def isIdentifier : List Char → Bool
  | [] => false
  | c :: cs => isIdentifierStart c && cs.all isIdentifierChar

/-- Whether an identifier that stands before the text ends there. -/
def startsApart (cs : List Char) : Bool :=
  !cs.head?.any isIdentifierChar

/-- The identifier characters at the end of a text. -/
def lastWord (cs : List Char) : List Char :=
  (cs.reverse.takeWhile isIdentifierChar).reverse

/-- The text before its last word. -/
def beforeLastWord (cs : List Char) : List Char :=
  (cs.reverse.dropWhile isIdentifierChar).reverse

/-- Whether the text, blanks at its end aside, ends in a dot. -/
def endsInDot (cs : List Char) : Bool :=
  (trimBackChars cs).getLast? == some '.'

/-- Whether the text ends in the keyword. After a dot the word is a name. -/
def endsInKeyword (keyword : String) (cs : List Char) : Bool :=
  (lastWord cs).map Char.toUpper == keyword.toList && !endsInDot (beforeLastWord cs)

/-- Parentheses and brackets are closed, in the right order. -/
inductive Balanced : List Char → Prop
  | nil : Balanced []
  | other {c : Char} {cs : List Char} :
      c ∉ ['(', ')', '[', ']'] → Balanced cs → Balanced (c :: cs)
  | parens {inside cs : List Char} :
      Balanced inside → Balanced cs → Balanced ('(' :: (inside ++ ')' :: cs))
  | brackets {inside cs : List Char} :
      Balanced inside → Balanced cs → Balanced ('[' :: (inside ++ ']' :: cs))

/-- The text ends in the FROM of a SELECT. The word also ends IS DISTINCT FROM and stands in calls
such as EXTRACT. -/
def OpensList (before : List Char) : Prop :=
  endsInKeyword "FROM" before ∧
    ¬ endsInKeyword "DISTINCT" (trimBackChars (beforeLastWord before)) ∧
    ∃ left columns, beforeLastWord before = left ++ columns ∧ endsInKeyword "SELECT" left ∧
      startsApart columns ∧ Balanced columns

/-- No clause after the table list begins in the list, and no query, outside its parentheses. -/
def StaysInList (before list : List Char) : Prop :=
  ∀ front tail, list = front ++ tail → Balanced front → startsApart tail →
    ∀ keyword ∈ listEndKeywords ++ ["SELECT", "VALUES"], ¬ endsInKeyword keyword (before ++ front)

/-- A table stands between the two texts: after FROM, JOIN or a comma of the list, also where
parentheses are opened there, and after ONLY or LATERAL. -/
inductive TablePlace : List Char → List Char → Prop
  | afterFrom {before after : List Char} :
      OpensList before → startsApart after → TablePlace before after
  | afterJoin {before after : List Char} :
      endsInKeyword "JOIN" before → startsApart after → TablePlace before after
  | afterComma {before list after : List Char} :
      TablePlace before (list ++ ',' :: after) → Balanced list → StaysInList before list →
      TablePlace (before ++ list ++ [',']) after
  | inGroup {before after : List Char} :
      TablePlace before ('(' :: after) → TablePlace (before ++ ['(']) after
  | afterModifier {before word after : List Char} :
      TablePlace before (word ++ after) →
      endsInKeyword "ONLY" (before ++ word) ∨ endsInKeyword "LATERAL" (before ++ word) →
      startsApart after → TablePlace (before ++ word) after
  | afterBlank {before after : List Char} {c : Char} :
      TablePlace before (c :: after) → isBlank c → TablePlace (before ++ [c]) after

/-- A name that begins behind the text is not joined to it: the text ends in a character that
belongs to no identifier, and in no dot. -/
structure Parted (cs : List Char) : Prop where
  last : ∃ c, cs.getLast? = some c ∧ isIdentifierChar c = false
  undotted : endsInDot cs = false

/-- What can stand between the place of a table and its name: blanks, with ONLY or LATERAL. -/
def IsGap (gap : List Char) : Prop :=
  (∀ c ∈ gap, isBlank c) ∨
    ∃ left word right, gap = left ++ (word ++ right) ∧ (∀ c ∈ left, isBlank c) ∧
      (word.map Char.toUpper = "ONLY".toList ∨ word.map Char.toUpper = "LATERAL".toList) ∧
      right ≠ [] ∧ ∀ c ∈ right, isBlank c

/-- A table list goes on with a table behind the text: at its start, behind a comma or behind JOIN. -/
inductive ListPlace : List Char → Prop
  | start {gap : List Char} : IsGap gap → ListPlace gap
  | comma {front gap : List Char} : IsGap gap → ListPlace (front ++ ',' :: gap)
  | join {front word gap : List Char} {c : Char} :
      word.map Char.toUpper = "JOIN".toList → Parted front → isBlank c → IsGap gap →
      ListPlace (front ++ (word ++ c :: gap))

/-- The text up to the parenthesis that closes its level, with blanks in place of the parentheses
in it and of what they enclose. -/
def levelText (depth : Nat) : List Char → List Char
  | [] => []
  | c :: cs =>
    if c = ')' then
      match depth with
      | 0 => []
      | d + 1 => ' ' :: levelText d cs
    else if c = '(' then ' ' :: levelText (depth + 1) cs
    else (if depth = 0 then c else ' ') :: levelText depth cs

/-- The words that do not begin the name of a table. -/
def reservedFirst : List String :=
  "AS" :: "ONLY" :: clauseKeywords

/-- The text of a dotted name: its first part, and for every other part the dot before it, with the
blanks around the dot, and the part. -/
def dottedText (first : List Char) (others : List (List Char × List Char)) : List Char :=
  first ++ others.flatMap fun (dot, part) => dot ++ part

/-- A dotted name of a table in a text. -/
structure NamedTable (text : List Char) where
  before : List Char
  first : List Char
  others : List (List Char × List Char)
  rest : List Char
  isText : text = before ++ (dottedText first others ++ rest)
  place : TablePlace before (dottedText first others ++ rest)
  isName : ∀ part ∈ first :: others.map Prod.snd, isIdentifier part
  isDot : ∀ dot ∈ others.map Prod.fst, trimChars dot = ['.']
  isDotted : others ≠ []
  ends : startsApart rest ∧ (trimFrontChars rest).head? ≠ some '.'

namespace NamedTable

variable {text : List Char}

/-- The parts of the name. -/
def parts (table : NamedTable text) : List (List Char) :=
  table.first :: table.others.map Prod.snd

/-- The schema part of the name: every part before the last. -/
def schemas (table : NamedTable text) : List String :=
  table.parts.dropLast.map String.ofList

/-- Whether a parenthesis follows the name, as after a function that returns a table. -/
def isCalled (table : NamedTable text) : Bool :=
  (trimFrontChars table.rest).head? == some '('

/-- Whether all parts of the name are written in ASCII. -/
def isAscii (table : NamedTable text) : Bool :=
  table.parts.all fun part => part.all fun c => c.toNat < 0x80

/-- The list that begins at a place of the text shows the table. -/
structure Listing (table : NamedTable text) (left list : List Char) : Prop where
  isBefore : table.before = left ++ list
  opens : OpensList left
  notDistinct : endsWithWord "DISTINCT" (beforeLastWord left).reverse = false
  apart : startsApart (list ++ dottedText table.first table.others)
  balanced : Balanced list
  place : ListPlace (levelText 0 list)
  unended : ¬ containsWord listEndKeywords
    (levelText 0 list ++ dottedText table.first table.others)

/-- The table stands in a table list at the level of its FROM, before any word that ends a list. -/
def IsListed (table : NamedTable text) : Prop :=
  table.isAscii ∧ ¬ startsWithWord reservedFirst table.first ∧
    ∃ left list, table.Listing left list

/-- The scans pass the name over: no table list shows the table, and the scan of dotted names does not
read a letter beyond ASCII, or it takes the name for a column, since the first part names a table or
an alias of the statement. -/
def IsPassedOver (table : NamedTable text) : Prop :=
  ¬ table.IsListed ∧ (table.isAscii = false ∨
    lower (String.ofList table.first) ∈ columnQualifiers (tableReferences text) ∧
      table.isCalled = false)

end NamedTable

variable {before after cs : List Char} {c : Char}

theorem isIdentifierChar_eq_false_of_isBlank (blank : isBlank c) : isIdentifierChar c = false := by
  have all : ∀ n ∈ blankCodes, isIdentifierChar (Char.ofNat n) = false := by decide
  rw [← Char.ofNat_toNat c]
  exact all _ (toNat_mem_blankCodes blank)

theorem isWordChar_eq_false_of_isBlank (blank : isBlank c) : isWordChar c = false := by
  have all : ∀ n ∈ blankCodes, isWordChar (Char.ofNat n) = false := by decide +kernel
  rw [← Char.ofNat_toNat c]
  exact all _ (toNat_mem_blankCodes blank)

theorem isIdentifierChar_of_isWordChar (word : isWordChar c) : isIdentifierChar c := by
  by_cases small : c.toNat < 0x80
  · simp only [isWordChar, if_pos small, Bool.or_eq_true] at word
    simp only [isIdentifierChar, isIdentifierStart, isNameStart, Bool.or_eq_true]
    rcases word with (letter | digit) | underscore
    · exact .inl (.inl (.inl (.inl letter)))
    · exact .inl (.inr digit)
    · exact .inl (.inl (.inl (.inr underscore)))
  · have nonblank : isBlank c = false := by
      by_contra blank
      rw [isWordChar_eq_false_of_isBlank (by simpa using blank)] at word
      cases word
    simp [isIdentifierChar, isIdentifierStart, nonblank, Nat.le_of_not_lt small]

private theorem isIdentifierChar_of_isFoldedLetter (folded : isFoldedLetter c) :
    isIdentifierChar c := by
  simp only [isFoldedLetter, Bool.or_eq_true, beq_iff_eq] at folded
  rcases folded with ((rfl | rfl) | rfl) | rfl <;> decide

theorem isIdentifierChar_of_continuesName {rule : LetterRule} (continues : rule.continuesName c) :
    isIdentifierChar c := by
  simp only [LetterRule.continuesName, LetterRule.startsName, Bool.or_eq_true, Bool.and_eq_true]
    at continues
  rcases continues with ((letter | ⟨-, folded⟩) | digit) | dollar
  · simp [isIdentifierChar, isIdentifierStart, letter]
  · exact isIdentifierChar_of_isFoldedLetter folded
  · simp [isIdentifierChar, digit]
  · simp [isIdentifierChar, dollar]

theorem continuesName_of_isIdentifierChar {rule : LetterRule} (ascii : c.toNat < 0x80)
    (continues : isIdentifierChar c) : rule.continuesName c := by
  simp only [isIdentifierChar, isIdentifierStart, Nat.not_le_of_lt ascii, decide_false,
    Bool.false_and, Bool.or_false, Bool.or_eq_true] at continues
  simp only [LetterRule.continuesName, LetterRule.startsName, Bool.or_eq_true]
  exact continues.imp_left (.imp_left .inl)

theorem startsName_of_isIdentifierStart {rule : LetterRule} (ascii : c.toNat < 0x80)
    (starts : isIdentifierStart c) : rule.startsName c := by
  simp only [isIdentifierStart, Nat.not_le_of_lt ascii, decide_false, Bool.false_and,
    Bool.or_false] at starts
  simp [LetterRule.startsName, starts]

theorem beforeLastWord_append_lastWord (cs : List Char) : beforeLastWord cs ++ lastWord cs = cs := by
  rw [beforeLastWord, lastWord, ← List.reverse_append, List.takeWhile_append_dropWhile,
    List.reverse_reverse]

theorem isIdentifierChar_of_isIdentifierStart (starts : isIdentifierStart c) :
    isIdentifierChar c := by
  simp [isIdentifierChar, starts]

theorem endsInDot_iff :
    endsInDot cs ↔ ∃ left blanks, cs = left ++ '.' :: blanks ∧ ∀ c ∈ blanks, isBlank c := by
  have trimmed : endsInDot cs ↔ (cs.reverse.dropWhile isBlank).head? = some '.' := by
    rw [endsInDot, trimBackChars, List.getLast?_reverse, beq_iff_eq]
  rw [trimmed]
  constructor
  · intro dot
    obtain ⟨left, stands⟩ := List.head?_eq_some_iff.mp dot
    refine ⟨left.reverse, (cs.reverse.takeWhile isBlank).reverse, ?_, ?_⟩
    · have whole := List.takeWhile_append_dropWhile (p := isBlank) (l := cs.reverse)
      rw [stands] at whole
      have reversed := congrArg List.reverse whole
      simpa using reversed.symm
    · intro c member
      exact List.mem_takeWhile_imp (List.mem_reverse.mp member)
  · rintro ⟨left, blanks, rfl, allBlank⟩
    rw [List.reverse_append, List.reverse_cons, List.append_assoc,
      List.dropWhile_append_of_pos (by simpa using allBlank)]
    rfl

theorem endsInDot_append_blank (cs : List Char) (blank : isBlank c) :
    endsInDot (cs ++ [c]) = endsInDot cs := by
  simp [endsInDot, trimBackChars, blank]

theorem endsInDot_append_of_not_isBlank (cs : List Char) (nonblank : isBlank c = false) :
    endsInDot (cs ++ [c]) = (c == '.') := by
  simp [endsInDot, trimBackChars, nonblank]

private theorem endsInDot_of_getLast? (last : cs.getLast? = some c) (identifier : isIdentifierChar c) :
    endsInDot cs = false := by
  obtain ⟨front, rfl⟩ := List.getLast?_eq_some_iff.mp last
  have nonblank : isBlank c = false := by
    by_contra blank
    rw [isIdentifierChar_eq_false_of_isBlank (by simpa using blank)] at identifier
    cases identifier
  rw [endsInDot_append_of_not_isBlank front nonblank]
  rw [beq_eq_false_iff_ne]
  rintro rfl
  exact absurd identifier (by decide)

theorem isIdentifierChar_of_mem_lastWord (member : c ∈ lastWord cs) : isIdentifierChar c := by
  rw [lastWord, List.mem_reverse] at member
  exact List.mem_takeWhile_imp member

theorem getLast?_of_endsInKeyword {keyword : String} (nonempty : keyword ≠ "")
    (ends : endsInKeyword keyword cs) : ∃ c, cs.getLast? = some c ∧ isIdentifierChar c := by
  simp only [endsInKeyword, Bool.and_eq_true, beq_iff_eq] at ends
  have some_word : lastWord cs ≠ [] := by
    intro none
    rw [none, List.map_nil] at ends
    exact nonempty (String.toList_eq_nil_iff.mp ends.1.symm)
  obtain ⟨front, c, word⟩ : ∃ front c, lastWord cs = front ++ [c] :=
    ⟨_, _, (List.dropLast_concat_getLast some_word).symm⟩
  refine ⟨c, ?_, ?_⟩
  · rw [← beforeLastWord_append_lastWord cs, word]
    simp
  · have member : c ∈ lastWord cs := by simp [word]
    exact isIdentifierChar_of_mem_lastWord member

theorem TablePlace.undotted (place : TablePlace before after) : endsInDot before = false := by
  have of_keyword {cs : List Char} {keyword : String} (nonempty : keyword ≠ "")
      (ends : endsInKeyword keyword cs) : endsInDot cs = false := by
    obtain ⟨c, last, identifier⟩ := getLast?_of_endsInKeyword nonempty ends
    exact endsInDot_of_getLast? last identifier
  induction place with
  | afterFrom opens apart => exact of_keyword (by decide) opens.1
  | afterJoin ends apart => exact of_keyword (by decide) ends
  | afterComma => exact endsInDot_append_of_not_isBlank _ (by decide)
  | inGroup => exact endsInDot_append_of_not_isBlank _ (by decide)
  | afterModifier place ends apart ih =>
    rcases ends with only | lateral
    · exact of_keyword (by decide) only
    · exact of_keyword (by decide) lateral
  | afterBlank place blank ih => rw [endsInDot_append_blank _ blank, ih]

/-- A name that stands at the place of a table is not joined to the text before it. -/
theorem TablePlace.parted (place : TablePlace before after) (name : startsApart after = false) :
    Parted before where
  undotted := place.undotted
  last := by
    cases place with
    | afterFrom opens apart => simp [name] at apart
    | afterJoin ends apart => simp [name] at apart
    | afterComma => exact ⟨',', by simp, by decide⟩
    | inGroup => exact ⟨'(', by simp, by decide⟩
    | afterModifier place ends apart => simp [name] at apart
    | afterBlank place blank => exact ⟨_, by simp, isIdentifierChar_eq_false_of_isBlank blank⟩

end ReportQuery.Sql
