import ReportQuery.Proofs.Query.PlainToken
import ReportQuery.Proofs.Sql.SchemaBoundary
import ReportQuery.Proofs.Sql.WordSearch

set_option autoImplicit false
set_option relaxedAutoImplicit false

/-!
The text of plain tokens as the safety rules take it: nothing is trimmed or stripped, masking blanks the
names, and a forbidden word is found exactly if a token spells it.
-/

namespace ReportQuery.Query

open Schema (Snapshot)
open Sql (IsApart Wordless areKeywords isIdentifierChar isIdentifierChar_of_isNameChar wordless_nil
  maskQuoted stripLiterals quotedSegment keyword containsWord containsWord_iff_isWordAt startsWithSelect)
open Text (Piece isNameChar isPlainName upper pieces findAll findFirst? isBlank trimChars)

variable {snapshot : Snapshot} {before : Option Char} {token : Token} {front rest tokens : List Token}
  {keywords : List String} {text : String}

namespace Token

/-- A token of a statement in which all names are plain. -/
def IsPlain : Token → Prop
  | mark c => c ∈ marks
  | word text => text ∈ vocabulary ∨ ∃ n, text = aliasText n
  | parameter text | name text => isPlainName text.toList

/-- The token in a text whose quoted names are blanked. -/
def masked : Token → Token
  | name text => name (String.ofList (List.replicate text.toList.length ' '))
  | token => token

theorem IsPlain.isSafe (plain : token.IsPlain) : token.IsSafe snapshot := by
  cases token with
  | name text => exact .inr plain
  | _ => exact plain

theorem IsSafe.isPlain (named : ∀ name, IsNameOf snapshot name → isPlainName name.toList)
    (safe : token.IsSafe snapshot) : token.IsPlain := by
  cases token with
  | name text => exact safe.elim (named text) id
  | _ => exact safe

@[simp] theorem isMark_masked : token.masked.isMark = token.isMark := by
  cases token <;> rfl

private theorem isBareText_word (known : text ∈ vocabulary ∨ ∃ n, text = aliasText n) :
    IsBareText text := by
  rcases known with fixed | ⟨n, rfl⟩
  · have bare : vocabulary.all (fun word => word.toList.all isNameChar ||
        word.toList.all [' ', '<', '>', '='].contains) = true := by rfl
    have either := List.all_eq_true.mp bare text fixed
    rw [Bool.or_eq_true, List.all_eq_true, List.all_eq_true] at either
    exact either.imp id fun signs c member => List.contains_iff_mem.mp (signs c member)
  · exact .inl isNameChar_of_mem_aliasText

theorem IsPlain.isBare (plain : token.IsPlain) : token.IsBare := by
  cases token with
  | mark c =>
    have apart : marks.all (fun c => !isIdentifierChar c) = true := by decide
    have outside := List.all_eq_true.mp apart c plain
    rwa [Bool.not_eq_true'] at outside
  | word text => exact isBareText_word plain
  | parameter text => exact isNameChar_of_isPlainName plain
  | name text => exact .inl (isNameChar_of_isPlainName plain)

theorem IsSafe.isBare_masked (safe : token.IsSafe snapshot) : token.masked.IsBare := by
  have code (plain : token.IsPlain) : token.IsBare := plain.isBare
  cases token with
  | name text =>
    refine .inr fun c member => ?_
    rw [String.toList_ofList] at member
    rw [(List.mem_replicate.mp member).2]
    decide
  | _ => exact code safe

theorem IsPlain.isBare_masked (plain : token.IsPlain) : token.masked.IsBare := by
  have safe : token.IsSafe {} := plain.isSafe
  exact safe.isBare_masked

end Token

section Spaced

theorem spaced_of_plain (plain : ∀ token ∈ tokens, token.IsPlain) (separated : Separated tokens)
    (opens : IsApart before) : Spaced before tokens where
  bare := fun token member => (plain token member).isBare
  separated := separated
  opens := fun _ _ _ => opens

theorem spaced_masked_of_plain (plain : ∀ token ∈ tokens, token.IsPlain) (separated : Separated tokens)
    (opens : IsApart before) : Spaced before (tokens.map Token.masked) where
  bare := by
    intro masked member
    obtain ⟨token, among, rfl⟩ := List.mem_map.mp member
    exact (plain token among).isBare_masked
  separated := by
    refine List.isChain_map Token.masked |>.mpr ?_
    exact separated.imp fun left right marked => by rwa [Token.isMark_masked, Token.isMark_masked]
  opens := fun _ _ _ => opens

theorem Spaced.wordless_front (words : areKeywords keywords)
    (spaced : Spaced before (front ++ rest))
    (unspelled : ∀ token ∈ front, token.spells keywords = false) :
    Wordless keywords before (textOf front) (textOf rest) := by
  induction front generalizing before with
  | nil => exact wordless_nil
  | cons token front ih =>
    obtain ⟨here, there⟩ := List.forall_mem_cons.mp unspelled
    have first : Wordless keywords before token.text (textOf (front ++ rest)) :=
      spaced.wordless words here
    rw [textOf_append] at first
    rw [textOf_cons]
    exact first.append (ih spaced.tail there)

/-- A keyword is found exactly if a token spells it. -/
theorem Spaced.containsWord_iff (words : areKeywords keywords) (spaced : Spaced none tokens) :
    containsWord keywords (textOf tokens) ↔ ∃ token ∈ tokens, token.spells keywords := by
  constructor
  · intro contains
    by_contra none
    have unspelled : ∀ token ∈ tokens, token.spells keywords = false := by simpa using none
    rw [← List.append_nil tokens] at spaced
    exact (spaced.wordless_front words unspelled).not_containsWord contains
  · rintro ⟨token, member, spells⟩
    obtain ⟨front, rest, rfl⟩ := List.append_of_mem member
    have right := spaced.right
    rw [Option.or_none] at right
    rw [containsWord_iff_isWordAt words]
    cases token with
    | mark c => cases spells
    | word text =>
      refine ⟨_, _, textOf_append _ _, ?_⟩
      rw [textOf_cons]
      exact right.isWordAt_word words spells
    | parameter text =>
      refine ⟨textOf front ++ ['@'], text.toList ++ textOf rest, by simp [Token.text], ?_⟩
      rw [List.getLast?_concat]
      exact right.isWordAt_parameter words spells
    | name text =>
      have bare : IsBareText text := right.bare _ List.mem_cons_self
      refine ⟨textOf front ++ ['"'], text.toList ++ '"' :: textOf rest, ?_, ?_⟩
      · rw [textOf_append, textOf_cons, Token.text_name bare]
        simp
      · rw [List.getLast?_concat]
        exact right.isWordAt_name words spells

end Spaced

section Characters

/-- Plain text is made of the characters of code and of quotes. -/
theorem isCodeChar_or_quote {c : Char} (plain : ∀ token ∈ tokens, token.IsPlain)
    (member : c ∈ textOf tokens) : isCodeChar c ∨ c = '"' := by
  obtain ⟨token, among, inText⟩ := List.mem_flatMap.mp member
  have isPlain := plain token among
  cases token with
  | name text =>
    have letters : ∀ c ∈ text.toList, isNameChar c := isNameChar_of_isPlainName isPlain
    rw [Token.text_name (.inl letters)] at inText
    rcases List.mem_cons.mp inText with quote | inText
    · exact .inr quote
    · rcases List.mem_append.mp inText with letter | quote
      · exact .inl (by simp [isCodeChar, letters c letter])
      · exact .inr (List.mem_singleton.mp quote)
  | _ =>
    have safe : Token.IsSafe {} _ := isPlain.isSafe
    exact .inl (isCodeChar_of_mem_text safe rfl c inText)

theorem not_mem_textOf {c : Char} (plain : ∀ token ∈ tokens, token.IsPlain)
    (outside : isCodeChar c = false) (different : c ≠ '"') : c ∉ textOf tokens := by
  intro member
  rcases isCodeChar_or_quote plain member with code | quote
  · rw [outside] at code
    cases code
  · exact different quote

theorem stripLiterals_textOf (plain : ∀ token ∈ tokens, token.IsPlain) :
    stripLiterals (textOf tokens) = textOf tokens := by
  have literal : '\'' ∉ textOf tokens := not_mem_textOf plain (by decide) (by decide)
  have dash : '-' ∉ textOf tokens := not_mem_textOf plain (by decide) (by decide)
  have slash : '/' ∉ textOf tokens := not_mem_textOf plain (by decide) (by decide)
  refine Sql.stripLiterals_eq_self literal (fun line => dash ?_) fun block => slash ?_
  · exact line.subset List.mem_cons_self
  · exact block.subset List.mem_cons_self

/-- Masking blanks the names. -/
theorem maskQuoted_textOf (plain : ∀ token ∈ tokens, token.IsPlain) (separated : Separated tokens) :
    maskQuoted (textOf tokens) = textOf (tokens.map Token.masked) := by
  have safe : AllSafe {} tokens := fun token member => (plain token member).isSafe
  rw [maskQuoted, Text.replaceAll, readsNames_quotedSegment.pieces_textOf safe separated,
    List.flatMap_assoc, textOf, List.flatMap_map]
  refine List.flatMap_congr fun token member => ?_
  have bare := (plain token member).isBare
  have bareMasked := (plain token member).isBare_masked
  cases token with
  | name text =>
    have found : tokenPieces (.name text) = [.found (Token.name text).text ()] := rfl
    rw [Token.masked, Token.text_name bareMasked, found, List.flatMap_singleton, Piece.replaced,
      Token.text_name bare]
    simp
  | _ => simp [tokenPieces, Token.isName, Token.masked, List.flatMap_map, Piece.replaced]

theorem length_text_masked (plain : token.IsPlain) : token.masked.text.length = token.text.length := by
  have bare := plain.isBare
  have bareMasked := plain.isBare_masked
  cases token with
  | name text =>
    rw [Token.masked, Token.text_name bareMasked, Token.text_name bare]
    simp
  | _ => rfl

theorem length_textOf_masked (plain : ∀ token ∈ tokens, token.IsPlain) :
    (textOf (tokens.map Token.masked)).length = (textOf tokens).length := by
  induction tokens with
  | nil => rfl
  | cons token rest ih =>
    obtain ⟨here, there⟩ := List.forall_mem_cons.mp plain
    rw [List.map_cons, textOf_cons, textOf_cons, List.length_append, List.length_append,
      length_text_masked here, ih there]

/-- Between the marks of plain text there are no marks and no blanks. -/
theorem Token.IsPlain.unmarked_text (plain : token.IsPlain) (unmarked : token.isMark = false) :
    token.text ≠ [] ∧ ∀ c ∈ token.text, isBlank c = false ∧ c ∉ marks := by
  have letter {c : Char} (char : isNameChar c) : isBlank c = false ∧ c ∉ marks := by
    refine ⟨Sql.not_isBlank_of_isIdentifierChar (isIdentifierChar_of_isNameChar char), fun mark => ?_⟩
    have none : marks.all (fun c => !isNameChar c) = true := by decide
    have apart := List.all_eq_true.mp none c mark
    rw [char] at apart
    cases apart
  cases token with
  | mark c => cases unmarked
  | word text =>
    rcases plain with fixed | ⟨n, rfl⟩
    · have all : vocabulary.all (fun word => !word.toList.isEmpty &&
          word.toList.all fun c => !isBlank c && !marks.contains c) = true := by rfl
      have here := List.all_eq_true.mp all text fixed
      rw [Bool.and_eq_true, List.all_eq_true] at here
      exact ⟨by simpa [Token.text] using here.1, fun c member => by simpa using here.2 c member⟩
    · exact ⟨by simp [Token.text, aliasText], fun c member =>
        letter (isNameChar_of_mem_aliasText c member)⟩
  | parameter text =>
    refine ⟨by simp [Token.text], fun c member => ?_⟩
    rcases List.mem_cons.mp member with rfl | later
    · exact ⟨by decide, by decide⟩
    · exact letter (isNameChar_of_isPlainName plain c later)
  | name text =>
    have letters : ∀ c ∈ text.toList, isNameChar c := isNameChar_of_isPlainName plain
    rw [Token.text_name (.inl letters)]
    refine ⟨by simp, fun c member => ?_⟩
    rcases List.mem_cons.mp member with rfl | member
    · exact ⟨by decide, by decide⟩
    · rcases List.mem_append.mp member with inName | quote
      · exact letter (letters c inName)
      · rw [List.mem_singleton.mp quote]
        exact ⟨by decide, by decide⟩

theorem isPlainName_aliasText (n : Nat) : isPlainName (aliasText n).toList := by
  have letters := isNameChar_of_mem_aliasText (n := n)
  have split : (aliasText n).toList = 't' :: (toString n).toList := by
    rw [aliasText, String.toList_append]
    rfl
  rw [split] at letters ⊢
  have first : Text.isNameStart 't' := by decide
  refine (Bool.and_eq_true _ _).mpr ⟨first, List.all_eq_true.mpr fun c member => ?_⟩
  exact letters c (List.mem_cons_of_mem _ member)

/-- A word is a plain name or made of signs of comparison. -/
theorem Token.IsPlain.word_cases (plain : (Token.word text).IsPlain) :
    isPlainName text.toList ∨ ∀ c ∈ text.toList, c ∈ ['<', '>', '='] := by
  rcases plain with fixed | ⟨n, rfl⟩
  · have either : vocabulary.all (fun word => isPlainName word.toList ||
        word.toList.all ['<', '>', '='].contains) = true := by rfl
    have here := List.all_eq_true.mp either text fixed
    rw [Bool.or_eq_true, List.all_eq_true] at here
    exact here.imp id fun signs c member => List.contains_iff_mem.mp (signs c member)
  · exact .inl (isPlainName_aliasText n)

theorem quote_not_mem_textOf (plain : ∀ token ∈ tokens, token.IsPlain)
    (nameless : ∀ token ∈ tokens, token.isName = false) : '"' ∉ textOf tokens := by
  intro member
  obtain ⟨token, among, inText⟩ := List.mem_flatMap.mp member
  have safe : Token.IsSafe {} token := (plain token among).isSafe
  exact absurd (isCodeChar_of_mem_text safe (nameless token among) '"' inText) (by decide)

theorem nameless_or_exists_name (tokens : List Token) :
    (∀ token ∈ tokens, token.isName = false) ∨
      ∃ front text back, tokens = front ++ .name text :: back ∧
        ∀ token ∈ front, token.isName = false := by
  induction tokens with
  | nil => exact .inl (by simp)
  | cons token rest ih =>
    cases token with
    | name text => exact .inr ⟨[], text, rest, rfl, by simp⟩
    | _ =>
      rcases ih with none | ⟨front, text, back, rfl, none⟩
      · exact .inl (List.forall_mem_cons.mpr ⟨rfl, none⟩)
      · exact .inr ⟨_ :: front, text, back, rfl, List.forall_mem_cons.mpr ⟨rfl, none⟩⟩

/-- Text that neither begins nor ends with a blank is not trimmed. -/
theorem trimChars_textOf (plain : ∀ token ∈ tokens, token.IsPlain)
    (first : ∀ token ∈ tokens.head?, token.isMark = false)
    (last : ∀ token ∈ tokens.getLast?, token.isMark = false) :
    trimChars (textOf tokens) = textOf tokens := by
  refine Text.IsTrimmed.trimChars_eq ⟨?_, ?_⟩
  · cases tokens with
    | nil => simp
    | cons token rest =>
      obtain ⟨nonempty, blankless⟩ :=
        (plain token List.mem_cons_self).unmarked_text (first token rfl)
      intro c begins
      rw [textOf_cons, List.head?_append, List.head?_eq_some_head nonempty, Option.some_or,
        Option.mem_some] at begins
      exact (blankless c (begins ▸ List.head_mem nonempty)).1
  · rcases List.eq_nil_or_concat' tokens with rfl | ⟨before, token, rfl⟩
    · simp
    · obtain ⟨nonempty, blankless⟩ :=
        (plain token (by simp)).unmarked_text (last token (by simp))
      intro c ends
      rw [textOf_append, textOf_cons, textOf_nil, List.append_nil, List.getLast?_append,
        List.getLast?_eq_some_getLast nonempty, Option.some_or, Option.mem_some] at ends
      exact (blankless c (ends ▸ List.getLast_mem nonempty)).1

end Characters

end ReportQuery.Query
