import ReportQuery.Proofs.Query.PlainText
import ReportQuery.Proofs.Sql.QuotedName

set_option autoImplicit false
set_option relaxedAutoImplicit false

/-!
What the scan of dotted names finds in plain text: the aliases of the columns and the schemas of the
tables, in order, and nothing else.
-/

namespace ReportQuery.Query

open Sql (Opens EndsName EndsLabel IsAsciiName DottedName dottedName inQuotes isIdentifierChar
  startsApart)
open Text (Piece isNameChar isPlainName pieces pieces_nil pieces_append_of_match
  pieces_append_of_missed filterMap_found filterMap_plain trimFrontChars isBlank)

/-- The qualifiers of the dotted names that tokens make up. -/
inductive Dotting : List Token → List String → Prop
  | nil : Dotting [] []
  | mark {c : Char} {tokens : List Token} {names : List String} :
      c ≠ '.' → c ≠ '(' → Dotting tokens names → Dotting (.mark c :: tokens) names
  | lone {token : Token} {tokens : List Token} {names : List String} :
      token.isMark = false → Dotting tokens names → Dotting (token :: tokens) names
  | call {function : String} {tokens : List Token} {names : List String} :
      Dotting tokens names → Dotting (.word function :: .mark '(' :: tokens) names
  | column {table column : String} {tokens : List Token} {names : List String} :
      isPlainName table.toList → Dotting tokens names →
        Dotting (.word table :: .mark '.' :: .name column :: tokens) (table :: names)
  | everything {table : String} {tokens : List Token} {names : List String} :
      isPlainName table.toList → Dotting tokens names →
        Dotting (.word table :: .mark '.' :: .mark '*' :: tokens) (table :: names)
  | table {schema table : String} {tokens : List Token} {names : List String} :
      Dotting tokens names →
        Dotting (.name schema :: .mark '.' :: .name table :: tokens) (schema :: names)

variable {tokens front back : List Token} {names more : List String} {before : Option Char}
  {token : Token}

theorem Dotting.append (first : Dotting front names) (second : Dotting back more) :
    Dotting (front ++ back) (names ++ more) := by
  induction first with
  | nil => exact second
  | mark dot call _ ih => exact .mark dot call ih
  | lone unmarked _ ih => exact .lone unmarked ih
  | call _ ih => exact .call ih
  | column plain _ ih => exact .column plain ih
  | everything plain _ ih => exact .everything plain ih
  | table _ ih => exact .table ih

/-- Qualifiers are plain names where the names of the tokens are. -/
theorem Dotting.isPlainName (dotting : Dotting tokens names) (plain : ∀ token ∈ tokens, token.IsPlain) :
    ∀ name ∈ names, Text.isPlainName name.toList := by
  induction dotting with
  | nil => exact List.forall_mem_nil _
  | mark _ _ _ ih | lone _ _ ih => exact ih (List.forall_mem_cons.mp plain).2
  | call _ ih => exact ih fun token member => plain token (by simp [member])
  | column isPlain _ ih | everything isPlain _ ih =>
    exact List.forall_mem_cons.mpr ⟨isPlain, ih fun token member => plain token (by simp [member])⟩
  | table _ ih =>
    refine List.forall_mem_cons.mpr ⟨plain _ List.mem_cons_self, ih fun token member => ?_⟩
    exact plain token (by simp [member])

theorem isAsciiName_of_isPlainName {cs : List Char} (plain : isPlainName cs) : IsAsciiName cs := by
  have letters := isNameChar_of_isPlainName plain
  refine ⟨?_, fun c member => Sql.toNat_lt_of_isNameChar (letters c member)⟩
  cases cs with
  | nil => cases plain
  | cons c cs =>
    obtain ⟨first, -⟩ := (Bool.and_eq_true _ _).mp plain
    refine (Bool.and_eq_true _ _).mpr ⟨by simp [Sql.isIdentifierStart, first], ?_⟩
    exact List.all_eq_true.mpr fun d member =>
      Sql.isIdentifierChar_of_isNameChar (letters d (List.mem_cons_of_mem c member))

section Ends

/-- A token that is no mark begins with no dot, no parenthesis and no blank. -/
private theorem endsName_unmarked (plain : token.IsPlain) (unmarked : token.isMark = false)
    (rest : List Char) : EndsName (token.text ++ rest) := by
  obtain ⟨nonempty, clear⟩ := plain.unmarked_text unmarked
  obtain ⟨c, cs, spelled⟩ := List.exists_cons_of_ne_nil nonempty
  obtain ⟨nonblank, outside⟩ := clear c (spelled ▸ List.mem_cons_self)
  have trimmed : trimFrontChars (token.text ++ rest) = c :: (cs ++ rest) := by
    rw [spelled, List.cons_append, Text.trimFrontChars_of_head nonblank]
  have different {mark : Char} (isMark : mark ∈ marks) :
      (trimFrontChars (token.text ++ rest)).head? ≠ some mark := by
    rw [trimmed]
    intro same
    obtain rfl : c = mark := by simpa using same
    exact outside isMark
  exact ⟨different (by decide), different (by decide)⟩

/-- No dot and no parenthesis comes first, blanks aside. -/
theorem Dotting.endsName (dotting : Dotting tokens names) (plain : ∀ token ∈ tokens, token.IsPlain) :
    EndsName (textOf tokens) := by
  induction dotting with
  | nil => exact ⟨by simp [trimFrontChars], by simp [trimFrontChars]⟩
  | @mark c tokens names dot call _ ih =>
    obtain ⟨-, there⟩ := List.forall_mem_cons.mp plain
    rw [textOf_cons, Token.text, List.singleton_append]
    cases blank : isBlank c with
    | true =>
      constructor
      · rw [Text.trimFrontChars_blank blank]
        exact (ih there).undotted
      · rw [Text.trimFrontChars_blank blank]
        exact (ih there).uncalled
    | false =>
      constructor
      · simpa [Text.trimFrontChars_of_head blank] using dot
      · simpa [Text.trimFrontChars_of_head blank] using call
  | lone unmarked _ _ =>
    rw [textOf_cons]
    exact endsName_unmarked (plain _ List.mem_cons_self) unmarked _
  | _ =>
    rw [textOf_cons]
    exact endsName_unmarked (plain _ List.mem_cons_self) rfl _

private theorem lone_of_separated {text : String} (plain : ∀ token ∈ tokens, token.IsPlain)
    (separated : Separated (.name text :: tokens)) : (textOf tokens).head? ≠ some '"' := by
  have safe : AllSafe {} tokens := fun token member => (plain token member).isSafe
  exact head?_textOf_ne_quote safe separated

/-- Behind a quoted name that stands alone. -/
private theorem endsLabel_of_separated {label : String} (plain : ∀ token ∈ tokens, token.IsPlain)
    (separated : Separated (.name label :: tokens))
    (undotted : (trimFrontChars (textOf tokens)).head? ≠ some '.') : EndsLabel (textOf tokens) where
  lone := lone_of_separated plain separated
  undotted := undotted
  next := by
    rcases nameless_or_exists_name tokens with nameless | ⟨front, text, back, rfl, nameless⟩
    · exact .inl (quote_not_mem_textOf plain nameless)
    · obtain ⟨frontPlain, backPlain⟩ := List.forall_mem_append.mp plain
      have name : isPlainName text.toList := backPlain _ List.mem_cons_self
      have letters := isNameChar_of_isPlainName name
      obtain ⟨c, cs, spelled⟩ : ∃ c cs, text.toList = c :: cs := by
        refine List.exists_cons_of_ne_nil fun none => ?_
        rw [none] at name
        cases name
      refine .inr ⟨textOf front, c, cs ++ '"' :: textOf back, ?_,
        quote_not_mem_textOf frontPlain nameless, ?_, letters c (spelled ▸ List.mem_cons_self)⟩
      · rw [textOf_append, textOf_cons, Token.text_name (.inl letters), spelled]
        simp
      · -- two names do not stand side by side
        cases front with
        | nil =>
          have marked := (List.isChain_cons_cons.mp separated).1
          cases marked
        | cons token front =>
          intro none
          rw [textOf_cons] at none
          have empty := (List.append_eq_nil_iff.mp none).1
          cases token with
          | mark c => cases empty
          | _ => exact absurd empty ((frontPlain _ List.mem_cons_self).unmarked_text rfl).1

end Ends

section Scan

private theorem opens_mark {c : Char} (isMark : c ∈ marks) (dot : c ≠ '.') : Opens (some c) := by
  intro d same
  obtain rfl := Option.some.inj same
  have apart : marks.all (fun c => !isIdentifierChar c && c != '"') = true := by decide
  have outside := List.all_eq_true.mp apart c isMark
  rw [Bool.and_eq_true, Bool.not_eq_true', bne_iff_ne] at outside
  exact ⟨outside.1, dot, outside.2⟩

/-- The text of a plain name stands in quotes. -/
theorem quoted_of_plain {text : String} (plain : (Token.name text).IsPlain) :
    '"' ∉ text.toList ∧ text.toList ≠ [] ∧ (Token.name text).text = inQuotes text.toList := by
  have letters := isNameChar_of_isPlainName plain
  refine ⟨fun quote => absurd (letters _ quote) (by decide), fun none => ?_,
    Token.text_name (.inl letters)⟩
  have name : isPlainName text.toList := plain
  rw [none] at name
  cases name

/-- A token that stands alone is passed. -/
private theorem pieces_dottedName_lone (plain : ∀ next ∈ token :: tokens, next.IsPlain)
    (separated : Separated (token :: tokens)) (unmarked : token.isMark = false) (opens : Opens before)
    (undotted : (trimFrontChars (textOf tokens)).head? ≠ some '.') :
    pieces dottedName before (token.text ++ textOf tokens) =
      token.text.map .plain ++ pieces dottedName (token.text.getLast?.or before) (textOf tokens) := by
  obtain ⟨here, there⟩ := List.forall_mem_cons.mp plain
  have spaced : Spaced none (token :: tokens) := spaced_of_plain plain separated (by simp [Sql.IsApart])
  have apart := spaced.startsApart unmarked
  have word {cs : List Char} {left : Option Char} (name : isPlainName cs) (opens : Opens left) :
      pieces dottedName left (cs ++ textOf tokens) =
        cs.map .plain ++ pieces dottedName (cs.getLast?.or left) (textOf tokens) :=
    Sql.pieces_dottedName_word (isAsciiName_of_isPlainName name) (isNameChar_of_isPlainName name) opens
      apart undotted
  cases token with
  | mark c => cases unmarked
  | word text =>
    rcases here.word_cases with name | signs
    · exact word name opens
    · refine pieces_append_of_missed (fun c member left tail => ?_) before _
      have marks : ['<', '>', '='].all (fun c => !isIdentifierChar c && c != '"') = true := by decide
      have outside := List.all_eq_true.mp marks c (signs c member)
      rw [Bool.and_eq_true, Bool.not_eq_true', bne_iff_ne] at outside
      exact Sql.dottedName_mark outside.1 outside.2
  | parameter text =>
    have at_ : Opens (some '@') := by
      intro c same
      obtain rfl := Option.some.inj same
      exact ⟨by decide, by decide, by decide⟩
    have sign : dottedName before ('@' :: (text.toList ++ textOf tokens)) = none :=
      Sql.dottedName_mark (by decide) (by decide)
    rw [Token.text, List.cons_append, Text.pieces_of_none sign, word here at_, List.getLast?_cons]
    cases text.toList.getLast? <;> rfl
  | name text =>
    obtain ⟨-, nonempty, quoted⟩ := quoted_of_plain here
    rw [quoted, Sql.pieces_dottedName_label (isNameChar_of_isPlainName here) nonempty opens
      (endsLabel_of_separated there separated undotted), inQuotes, ← List.cons_append,
      List.getLast?_concat]
    rfl

/-- Behind a token that is no mark stands a mark, and a name does not have to open there. -/
private theorem opens_of_separated (separated : Separated (token :: tokens))
    (unmarked : token.isMark = false) :
    ∀ next ∈ tokens.head?, next.isMark = false → Opens before := by
  intro next head mark
  obtain ⟨tail, rfl⟩ := List.head?_eq_some_iff.mp head
  have either := (List.isChain_cons_cons.mp separated).1
  rw [unmarked, mark] at either
  cases either

/-- The scan finds the qualifiers, none of them called. -/
theorem Dotting.found (dotting : Dotting tokens names) (plain : ∀ token ∈ tokens, token.IsPlain)
    (separated : Separated tokens)
    (opens : ∀ token ∈ tokens.head?, token.isMark = false → Opens before) :
    (pieces dottedName before (textOf tokens)).filterMap Piece.value? =
      names.map fun name => ⟨[name], false⟩ := by
  induction dotting generalizing before with
  | nil => simp
  | @mark c tokens names dot call dotting ih =>
    obtain ⟨here, there⟩ := List.forall_mem_cons.mp plain
    have isMark : c ∈ marks := here
    have opened := opens_mark isMark dot
    have missed : dottedName before (c :: textOf tokens) = none :=
      Sql.dottedName_mark (opened c rfl).1 (opened c rfl).2.2
    have passed : (pieces dottedName (some c) (textOf tokens)).filterMap Piece.value? = _ :=
      ih there separated.tail fun _ _ _ => opened
    rw [textOf_cons, Token.text, List.singleton_append, Text.pieces_of_none missed, ← passed]
    rfl
  | @lone token tokens names unmarked dotting ih =>
    obtain ⟨here, there⟩ := List.forall_mem_cons.mp plain
    rw [textOf_cons, pieces_dottedName_lone plain separated unmarked (opens _ rfl unmarked)
      (dotting.endsName there).undotted,
      filterMap_plain]
    exact ih there separated.tail (opens_of_separated separated unmarked)
  | @call function tokens names dotting ih =>
    obtain ⟨-, later⟩ := List.forall_mem_cons.mp plain
    obtain ⟨-, there⟩ := List.forall_mem_cons.mp later
    have undotted : (trimFrontChars (textOf (.mark '(' :: tokens))).head? ≠ some '.' := by
      rw [textOf_cons, Token.text, List.singleton_append, Text.trimFrontChars_of_head (by decide)]
      simp
    have missed : dottedName ((Token.word function).text.getLast?.or before) ('(' :: textOf tokens) =
        none := Sql.dottedName_mark (by decide) (by decide)
    have passed : (pieces dottedName (some '(') (textOf tokens)).filterMap Piece.value? = _ :=
      ih there separated.tail.tail fun _ _ _ => opens_mark (by decide) (by decide)
    rw [textOf_cons, pieces_dottedName_lone plain separated rfl (opens _ rfl rfl) undotted,
      filterMap_plain, textOf_cons, Token.text, List.singleton_append, Text.pieces_of_none missed, ← passed]
    rfl
  | @column table column tokens names name dotting ih =>
    simp only [List.forall_mem_cons] at plain
    obtain ⟨-, -, isColumn, there⟩ := plain
    obtain ⟨unquoted, nonempty, quoted⟩ := quoted_of_plain isColumn
    have hit := Sql.dottedName_column (isAsciiName_of_isPlainName name) (opens _ rfl rfl) unquoted
      nonempty (lone_of_separated there separated.tail.tail) (dotting.endsName there)
    have split : textOf (.word table :: .mark '.' :: .name column :: tokens) =
        (table.toList ++ '.' :: inQuotes column.toList) ++ textOf tokens := by
      simp [Token.text, ← quoted]
    rw [split, pieces_append_of_match (by simp) hit, filterMap_found,
      ih there separated.tail.tail.tail (opens_of_separated separated.tail.tail rfl),
      String.ofList_toList, List.map_cons]
  | @everything table tokens names name dotting ih =>
    simp only [List.forall_mem_cons] at plain
    obtain ⟨-, -, -, there⟩ := plain
    have hit := Sql.dottedName_everything (isAsciiName_of_isPlainName name) (opens _ rfl rfl)
      (dotting.endsName there)
    have split : textOf (.word table :: .mark '.' :: .mark '*' :: tokens) =
        (table.toList ++ ['.', '*']) ++ textOf tokens := by
      simp [Token.text]
    have last : (table.toList ++ ['.', '*']).getLast? = some '*' := by simp
    rw [split, pieces_append_of_match (by simp) hit, filterMap_found, last,
      ih there separated.tail.tail.tail (fun _ _ _ => opens_mark (by decide) (by decide)),
      String.ofList_toList, List.map_cons]
  | @table schema table tokens names dotting ih =>
    simp only [List.forall_mem_cons] at plain
    obtain ⟨isSchema, -, isTable, there⟩ := plain
    obtain ⟨noSchema, someSchema, quotedSchema⟩ := quoted_of_plain isSchema
    obtain ⟨unquoted, nonempty, quoted⟩ := quoted_of_plain isTable
    have hit := Sql.dottedName_table noSchema someSchema (opens _ rfl rfl) unquoted nonempty
      (lone_of_separated there separated.tail.tail) (dotting.endsName there)
    have split : textOf (.name schema :: .mark '.' :: .name table :: tokens) =
        (inQuotes schema.toList ++ '.' :: inQuotes table.toList) ++ textOf tokens := by
      rw [textOf_cons, textOf_cons, textOf_cons, quoted, quotedSchema]
      simp [Token.text]
    rw [split, pieces_append_of_match (by simp [inQuotes]) hit, filterMap_found,
      ih there separated.tail.tail.tail (opens_of_separated separated.tail.tail rfl),
      String.ofList_toList, List.map_cons]

end Scan

end ReportQuery.Query
