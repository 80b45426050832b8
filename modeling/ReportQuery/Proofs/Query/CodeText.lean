import ReportQuery.Proofs.Query.CompiledNames
import ReportQuery.Proofs.Text.Quoted
import ReportQuery.Sql.Prepared

set_option autoImplicit false
set_option relaxedAutoImplicit false

/-!
Cutting the text of a statement at its names. Code, which is all but the names, has characters of
its own, and a matcher that passes them and reads an enclosed name as a whole finds the names.
-/

namespace ReportQuery.Query

open Schema (Snapshot)
open Sql (Segment segmentsOf quotedSegment quotedPart)
open Text (Matcher Piece pieces pieces_nil pieces_append_of_missed pieces_append_of_match
  isPlainName isNameStart isNameChar Quoted.enclose)

variable {snapshot : Snapshot} {tokens : List Token}

section Characters

/-- A character of code: of a plain name, of an operator, the at sign or a mark. -/
def isCodeChar (c : Char) : Bool :=
  isNameChar c || ('@' :: '<' :: '>' :: '=' :: marks).contains c

theorem isNameChar_of_isPlainName {name : List Char} (plain : isPlainName name) :
    ∀ c ∈ name, isNameChar c := by
  cases name with
  | nil => simp
  | cons c cs =>
    obtain ⟨first, rest⟩ := (Bool.and_eq_true _ _).mp plain
    intro d member
    rcases List.mem_cons.mp member with rfl | later
    · simp [isNameChar, first]
    · exact List.all_eq_true.mp rest d later

theorem isNameChar_of_mem_aliasText {n : Nat} : ∀ c ∈ (aliasText n).toList, isNameChar c := by
  intro c member
  rw [aliasText, String.toList_append, List.mem_append] at member
  rcases member with first | digit
  · obtain rfl : c = 't' := by simpa using first
    decide
  · exact Text.isNameChar_of_mem_digits c digit

theorem isCodeChar_of_mem_text {token : Token} (safe : token.IsSafe snapshot)
    (code : token.isName = false) : ∀ c ∈ token.text, isCodeChar c := by
  have ofName {c : Char} (char : isNameChar c) : isCodeChar c := by simp [isCodeChar, char]
  cases token with
  | mark c =>
    intro d member
    obtain rfl := List.mem_singleton.mp member
    have isMark : d ∈ marks := safe
    simp [isCodeChar, isMark]
  | name text => cases code
  | word text =>
    rcases safe with known | ⟨n, rfl⟩
    · have plain : vocabulary.all (fun word => word.toList.all isCodeChar) = true := by
        decide
      exact List.all_eq_true.mp (List.all_eq_true.mp plain text known)
    · exact fun c member => ofName (isNameChar_of_mem_aliasText c member)
  | parameter text =>
    intro c member
    rcases List.mem_cons.mp member with rfl | later
    · decide
    · exact ofName (isNameChar_of_isPlainName safe c later)

/-- What follows a name in a statement is not a quote. -/
theorem head?_textOf_ne_quote {text : String} (safe : AllSafe snapshot tokens)
    (separated : Separated (.name text :: tokens)) : (textOf tokens).head? ≠ some '"' := by
  cases tokens with
  | nil => simp
  | cons next rest =>
    have marked : next.isMark := by
      simpa [Token.isMark] using (List.isChain_cons_cons.mp separated).1
    cases next with
    | mark c =>
      have isMark : c ∈ marks := (allSafe_cons.mp safe).1
      intro quote
      obtain rfl : c = '"' := by simpa [Token.text] using quote
      exact absurd isMark (by decide)
    | _ => cases marked

end Characters

section Names

/-- The matcher passes code and reads every enclosed name as a whole. -/
structure ReadsNames (matcher : Matcher Unit) : Prop where
  code : ∀ before {c} cs, isCodeChar c → matcher before (c :: cs) = none
  name : ∀ before cs {rest}, rest.head? ≠ some '"' →
    matcher before (Quoted.enclose '"' cs ++ rest) = some ((Quoted.enclose '"' cs).length, ())

theorem readsNames_quotedSegment : ReadsNames (quotedSegment '"') where
  code := by
    intro before c cs code
    have different : c ≠ '"' := by
      rintro rfl
      exact absurd code (by decide)
    simp [quotedSegment, Text.Quoted.segment?, different]
  name := by
    intro before cs rest lone
    rw [quotedSegment, Text.Quoted.segment?_enclose cs lone]
    rfl

theorem readsNames_quotedPart : ReadsNames quotedPart where
  code := by
    intro before c cs code
    have different : c ≠ '\'' := by
      rintro rfl
      exact absurd code (by decide)
    rw [quotedPart, readsNames_quotedSegment.code before cs code]
    simp [quotedSegment, Text.Quoted.segment?, different]
  name := by
    intro before cs rest lone
    rw [quotedPart, readsNames_quotedSegment.name before cs lone]
    rfl

/-- The pieces of a token: a name is found, the characters of code are passed. -/
def tokenPieces (token : Token) : List (Piece Unit) :=
  if token.isName then [.found token.text ()] else token.text.map .plain

variable {matcher : Matcher Unit}

/-- Cutting the text of a statement finds its names. -/
theorem ReadsNames.pieces_textOf (reads : ReadsNames matcher) (safe : AllSafe snapshot tokens)
    (separated : Separated tokens) (before : Option Char) :
    pieces matcher before (textOf tokens) = tokens.flatMap tokenPieces := by
  induction tokens generalizing before with
  | nil => simp
  | cons token rest ih =>
    obtain ⟨here, there⟩ := allSafe_cons.mp safe
    have later := ih there separated.tail
    cases named : token.isName with
    | true =>
      cases token with
      | name text =>
        have enclosed : (Token.name text).text = Quoted.enclose '"' text.toList := by
          simp [Token.text, Text.quoteIdentifier]
        have hit := reads.name before text.toList (head?_textOf_ne_quote there separated)
        rw [textOf_cons, enclosed, pieces_append_of_match (by simp [Quoted.enclose]) hit, later,
          List.flatMap_cons, tokenPieces, if_pos named, enclosed]
        rfl
      | _ => cases named
    | false =>
      have missed : ∀ c ∈ token.text, ∀ left tail, matcher left (c :: tail) = none :=
        fun c member left tail => reads.code left tail (isCodeChar_of_mem_text here named c member)
      rw [textOf_cons, pieces_append_of_missed missed, later, List.flatMap_cons, tokenPieces, named,
        if_neg Bool.false_ne_true]

/-- The segments of a text made up of tokens; `run` holds the tokens since the last name. -/
def tokenSegments (run : List Token) : List Token → List Segment
  | [] => [.code (textOf run)]
  | token :: rest =>
    if token.isName then .code (textOf run) :: .quoted token.text :: tokenSegments [] rest
    else tokenSegments (run ++ [token]) rest

private theorem segmentsOf_plain (code cs : List Char) (ps : List (Piece Unit)) :
    segmentsOf code (cs.map .plain ++ ps) = segmentsOf (cs.reverse ++ code) ps := by
  induction cs generalizing code with
  | nil => rfl
  | cons c cs ih =>
    rw [List.map_cons, List.cons_append, segmentsOf, ih]
    simp

theorem segmentsOf_tokenPieces (run : List Token) :
    segmentsOf (textOf run).reverse (tokens.flatMap tokenPieces) = tokenSegments run tokens := by
  induction tokens generalizing run with
  | nil => simp [segmentsOf, tokenSegments]
  | cons token rest ih =>
    rw [List.flatMap_cons, tokenPieces, tokenSegments]
    split
    · have next := ih []
      rw [textOf_nil, List.reverse_nil] at next
      rw [List.singleton_append, segmentsOf, List.reverse_reverse, next]
    · rw [segmentsOf_plain, ← ih (run ++ [token])]
      simp

end Names

end ReportQuery.Query
