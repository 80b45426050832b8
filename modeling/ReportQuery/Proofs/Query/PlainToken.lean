import ReportQuery.Proofs.Query.CodeText
import ReportQuery.Proofs.Sql.ListedTable
import ReportQuery.Proofs.Sql.WordPlace

set_option autoImplicit false
set_option relaxedAutoImplicit false

/-!
Keywords in the text of tokens. Where words stand apart from each other, a keyword can be read only at
the beginning of a token's own text, and it is read exactly if the token spells it.
-/

namespace ReportQuery.Query

open Sql (IsApart Wordless areKeywords isIdentifierChar startsApart isWordAt isWordAt_plain
  isWordAt_eq_false wordless_marks wordless_plain containsWord keyword)
open Text (isNameChar isPlainName upper pieces findAll findFirst?)

/-- A text of plain characters, or one of blanks and signs of comparison. -/
def IsBareText (text : String) : Prop :=
  (∀ c ∈ text.toList, isNameChar c) ∨ ∀ c ∈ text.toList, c ∈ [' ', '<', '>', '=']

namespace Token

/-- The token cannot be mixed up with what stands beside it. -/
def IsBare : Token → Prop
  | mark c => isIdentifierChar c = false
  | word text | name text => IsBareText text
  | parameter text => ∀ c ∈ text.toList, isNameChar c

/-- Whether the token is one of the keywords, case aside. -/
def spells (keywords : List String) : Token → Bool
  | mark _ => false
  | word text | parameter text | name text => keywords.contains (upper text)

end Token

/-- Tokens that can be told apart, with what stands before them. -/
structure Spaced (before : Option Char) (tokens : List Token) : Prop where
  bare : ∀ token ∈ tokens, token.IsBare
  separated : Separated tokens
  opens : ∀ token ∈ tokens.head?, token.isMark = false → IsApart before

variable {before : Option Char} {token : Token} {front rest tokens : List Token}
  {keywords : List String} {text : String}

section Spaced

theorem Spaced.tail (spaced : Spaced before (token :: rest)) :
    Spaced (token.text.getLast?.or before) rest where
  bare := fun next member => spaced.bare next (List.mem_cons_of_mem token member)
  separated := spaced.separated.tail
  opens := by
    intro next head unmarked
    obtain ⟨tail, rfl⟩ := List.head?_eq_some_iff.mp head
    have marked : token.isMark := by
      simpa [unmarked] using (List.isChain_cons_cons.mp spaced.separated).1
    cases token with
    | mark c =>
      intro d last
      obtain rfl : c = d := by simpa [Token.text] using last
      exact spaced.bare _ List.mem_cons_self
    | _ => cases marked

theorem Spaced.startsApart (spaced : Spaced before (token :: rest)) (unmarked : token.isMark = false) :
    startsApart (textOf rest) := by
  cases rest with
  | nil => rfl
  | cons next rest =>
    have marked : next.isMark := by
      simpa [unmarked] using (List.isChain_cons_cons.mp spaced.separated).1
    cases next with
    | mark c =>
      have apart : isIdentifierChar c = false := spaced.bare (.mark c) (by simp)
      simp [textOf_cons, Token.text, Sql.startsApart, apart]
    | _ => cases marked

theorem Spaced.right (spaced : Spaced before (front ++ rest)) :
    Spaced ((textOf front).getLast?.or before) rest := by
  induction front generalizing before with
  | nil => exact spaced
  | cons token front ih =>
    rw [textOf_cons, Sql.getLast?_append_or]
    exact ih spaced.tail

end Spaced

section Keywords

/-- Blanks and signs spell no keyword. -/
theorem not_spelled_of_signs (words : areKeywords keywords)
    (signs : ∀ c ∈ text.toList, c ∈ [' ', '<', '>', '=']) : keywords.contains (upper text) = false := by
  have ascii : ∀ c ∈ text.toList, c.toNat < 0x80 := by
    intro c member
    have small : [' ', '<', '>', '='].all (fun c => decide (c.toNat < 0x80)) = true := by decide
    exact of_decide_eq_true (List.all_eq_true.mp small c (signs c member))
  by_contra spelled
  have spelled : upper text ∈ keywords := by simpa using spelled
  obtain ⟨capitals, nonempty⟩ := (Bool.and_eq_true _ _).mp (List.all_eq_true.mp words _ spelled)
  rw [Sql.isCapitals, upper, String.toList_ofList, Text.upperChars_of_ascii ascii] at capitals
  cases letters : text.toList with
  | nil => simp [upper, letters, Text.upperChars] at nonempty
  | cons c cs =>
    have sign := signs c (by simp [letters])
    have small : [' ', '<', '>', '='].all (fun c => !('A' ≤ c.toUpper && c.toUpper ≤ 'Z')) = true := by
      decide
    have outside := List.all_eq_true.mp small c sign
    rw [letters, List.map_cons, List.all_cons, Bool.and_eq_true] at capitals
    rw [capitals.1] at outside
    cases outside

private theorem isIdentifierChar_of_sign {c : Char} (sign : c ∈ [' ', '<', '>', '=']) :
    isIdentifierChar c = false := by
  have all : [' ', '<', '>', '='].all (fun c => !isIdentifierChar c) = true := by decide
  simpa using List.all_eq_true.mp all c sign

/-- Before a quote a text that is none of the keywords holds none. -/
private theorem wordless_bareText {left : Option Char} {right : List Char}
    (words : areKeywords keywords) (bare : IsBareText text)
    (unspelled : keywords.contains (upper text) = false) (apartBefore : IsApart left)
    (apart : Sql.startsApart right) : Wordless keywords left text.toList right := by
  rcases bare with plain | signs
  · refine wordless_plain plain ?_
    rw [isWordAt_plain words plain apartBefore apart, String.ofList_toList, unspelled]
  · exact wordless_marks words fun c member => isIdentifierChar_of_sign (signs c member)

theorem quoteIdentifier_of_unquoted (unquoted : '"' ∉ text.toList) :
    (Text.quoteIdentifier text).toList = '"' :: (text.toList ++ ['"']) := by
  rw [Text.quoteIdentifier, String.toList_ofList, Text.Quoted.enclose,
    Text.Quoted.double_of_not_mem unquoted]
  rfl

theorem IsBareText.unquoted (bare : IsBareText text) : '"' ∉ text.toList := by
  intro quote
  rcases bare with plain | signs
  · exact absurd (plain _ quote) (by decide)
  · exact absurd (signs _ quote) (by decide)

theorem Token.text_name (bare : IsBareText text) :
    (Token.name text).text = '"' :: (text.toList ++ ['"']) :=
  quoteIdentifier_of_unquoted bare.unquoted

/-- A token that spells none of the keywords holds none. -/
theorem Spaced.wordless (spaced : Spaced before (token :: rest)) (words : areKeywords keywords)
    (unspelled : token.spells keywords = false) :
    Wordless keywords before token.text (textOf rest) := by
  have bare := spaced.bare token List.mem_cons_self
  have mark (c : Char) (apart : isIdentifierChar c = false) (left : Option Char) (right : List Char) :
      Wordless keywords left [c] right := by
    refine wordless_marks words fun d member => ?_
    rw [List.mem_singleton.mp member]
    exact apart
  cases token with
  | mark c => exact mark c bare before _
  | word text =>
    exact wordless_bareText words bare unspelled (spaced.opens _ rfl rfl) (spaced.startsApart rfl)
  | parameter text =>
    refine (mark '@' (by decide) before _).append ?_
    exact wordless_bareText words (.inl bare) unspelled (by simp [IsApart]; decide)
      (spaced.startsApart rfl)
  | name text =>
    rw [Token.text_name bare]
    have inside : Wordless keywords (some '"') text.toList (['"'] ++ textOf rest) :=
      wordless_bareText words bare unspelled (by simp [IsApart]; decide) (by simp [Sql.startsApart]; decide)
    exact (mark '"' (by decide) before _).append (inside.append (mark '"' (by decide) _ _))

theorem Spaced.isWordAt_word (spaced : Spaced before (.word text :: rest))
    (words : areKeywords keywords) (spelled : keywords.contains (upper text)) :
    isWordAt keywords before (text.toList ++ textOf rest) := by
  rcases spaced.bare _ List.mem_cons_self with plain | signs
  · rw [isWordAt_plain words plain (spaced.opens _ rfl rfl) (spaced.startsApart rfl),
      String.ofList_toList, spelled]
  · rw [not_spelled_of_signs words signs] at spelled
    cases spelled

theorem Spaced.isWordAt_parameter (spaced : Spaced before (.parameter text :: rest))
    (words : areKeywords keywords) (spelled : keywords.contains (upper text)) :
    isWordAt keywords (some '@') (text.toList ++ textOf rest) := by
  have plain : ∀ c ∈ text.toList, isNameChar c := spaced.bare _ List.mem_cons_self
  rw [isWordAt_plain words plain (by simp [IsApart]; decide) (spaced.startsApart rfl),
    String.ofList_toList, spelled]

theorem Spaced.isWordAt_name (spaced : Spaced before (.name text :: rest))
    (words : areKeywords keywords) (spelled : keywords.contains (upper text)) :
    isWordAt keywords (some '"') (text.toList ++ '"' :: textOf rest) := by
  rcases spaced.bare _ List.mem_cons_self with plain | signs
  · rw [isWordAt_plain words plain (by simp [IsApart]; decide) (by simp [Sql.startsApart]; decide),
      String.ofList_toList, spelled]
  · rw [not_spelled_of_signs words signs] at spelled
    cases spelled

end Keywords

end ReportQuery.Query
