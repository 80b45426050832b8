import ReportQuery.Proofs.Sql.Lexer
import ReportQuery.Proofs.Sql.NamedTable

set_option autoImplicit false
set_option relaxedAutoImplicit false

/-!
The symbols of a text as SQL reads it: words, signs, and quoted names and literals. Blanks and
comments part words and are no symbols.
-/

namespace ReportQuery.Sql

open Text

/-- A unit that counts in a statement. A number is a word. -/
inductive Symbol where
  | word (chars : List Char)
  | sign (c : Char)
  | quoted
deriving Repr, DecidableEq

/-- The character with which a lexeme continues a word. -/
def Lexeme.wordChar? : Lexeme → Option Char
  | code c => if isIdentifierChar c then some c else none
  | name _ | literal _ | lineComment _ | blockComment _ => none

/-- What a lexeme that continues no word is by itself. -/
def Lexeme.alone : Lexeme → List Symbol
  | code c => if isBlank c then [] else [.sign c]
  | name _ | literal _ => [.quoted]
  | lineComment _ | blockComment _ => []

/-- The word read so far, if there is one. -/
def finishedWord (current : List Char) : List Symbol :=
  if current.isEmpty then [] else [.word current]

/-- The symbols of lexemes that stand after the word read so far. -/
def symbolsAfter (current : List Char) : List Lexeme → List Symbol
  | [] => finishedWord current
  | lexeme :: rest =>
    match lexeme.wordChar? with
    | some c => symbolsAfter (current ++ [c]) rest
    | none => finishedWord current ++ (lexeme.alone ++ symbolsAfter [] rest)

/-- The symbols of a text. -/
def symbols (lexemes : List Lexeme) : List Symbol :=
  symbolsAfter [] lexemes

/-- Whether the symbol is the keyword, in the two ASCII cases. -/
def Symbol.isKeyword (keyword : String) : Symbol → Bool
  | word chars => chars.map Char.toUpper == keyword.toList
  | sign _ | quoted => false

/-- How many parentheses are open after a character. One that closes nothing is passed over. -/
def depthAfterChar (depth : Nat) (c : Char) : Nat :=
  if c = '(' then depth + 1 else if c = ')' then depth - 1 else depth

/-- How many parentheses are open after a symbol. -/
def Symbol.depthAfter (depth : Nat) : Symbol → Nat
  | sign c => depthAfterChar depth c
  | word _ | quoted => depth

/-- How many parentheses are open after the symbols. -/
def depthFrom (depth : Nat) (these : List Symbol) : Nat :=
  these.foldl Symbol.depthAfter depth

/-- The keyword stands outside all parentheses. -/
def StandsOutside (keyword : String) (these : List Symbol) : Prop :=
  ∃ front symbol back, these = front ++ symbol :: back ∧ symbol.isKeyword keyword ∧
    depthFrom 0 front = 0

/-- From the first semicolon on there is nothing but semicolons. -/
def IsOneStatement (these : List Symbol) : Prop :=
  ∀ symbol ∈ these.dropWhile (· != .sign ';'), symbol = .sign ';'

instance (these : List Symbol) : Decidable (IsOneStatement these) :=
  List.decidableBAll _ _

variable {c : Char} {current word : List Char} {lexeme : Lexeme} {front back lexemes rest : List Lexeme}
  {symbol : Symbol} {these others : List Symbol} {depth : Nat}

/-- A text that begins with no character of a word. -/
def BeginsApart (lexemes : List Lexeme) : Prop :=
  ∀ lexeme ∈ lexemes.head?, lexeme.wordChar? = none

theorem wordChar?_code_iff : (Lexeme.code c).wordChar? = none ↔ isIdentifierChar c = false := by
  simp [Lexeme.wordChar?]

theorem eq_of_wordChar? (continues : lexeme.wordChar? = some c) :
    lexeme = .code c ∧ isIdentifierChar c := by
  cases lexeme with
  | code d =>
    obtain ⟨identifier, rfl⟩ : isIdentifierChar d ∧ d = c := by
      simpa [Lexeme.wordChar?] using continues
    exact ⟨rfl, identifier⟩
  | _ => cases continues

theorem symbolsAfter_of_wordChar (continues : lexeme.wordChar? = some c) :
    symbolsAfter current (lexeme :: rest) = symbolsAfter (current ++ [c]) rest := by
  rw [symbolsAfter, continues]

theorem symbolsAfter_of_none (stops : lexeme.wordChar? = none) :
    symbolsAfter current (lexeme :: rest) =
      finishedWord current ++ (lexeme.alone ++ symbolsAfter [] rest) := by
  rw [symbolsAfter, stops]

theorem symbols_cons_of_none (stops : lexeme.wordChar? = none) :
    symbols (lexeme :: rest) = lexeme.alone ++ symbols rest :=
  symbolsAfter_of_none stops

/-- Where a text is cut before no character of a word, no word is cut. -/
theorem symbolsAfter_append (apart : BeginsApart back) :
    symbolsAfter current (front ++ back) = symbolsAfter current front ++ symbols back := by
  induction front generalizing current with
  | nil =>
    cases back with
    | nil => simp [symbolsAfter, symbols, finishedWord]
    | cons lexeme back =>
      have stops := apart lexeme rfl
      rw [List.nil_append, symbolsAfter_of_none stops, symbols_cons_of_none stops]
      rfl
  | cons lexeme front ih =>
    rw [List.cons_append]
    cases stops : lexeme.wordChar? with
    | some c => rw [symbolsAfter_of_wordChar stops, symbolsAfter_of_wordChar stops, ih]
    | none =>
      rw [symbolsAfter_of_none stops, symbolsAfter_of_none stops, ih, List.append_assoc,
        List.append_assoc]

theorem symbols_append (apart : BeginsApart back) :
    symbols (front ++ back) = symbols front ++ symbols back :=
  symbolsAfter_append apart

/-- A lexeme that continues no word parts the text before it from the text behind it. -/
theorem symbols_append_cons (stops : lexeme.wordChar? = none) :
    symbols (front ++ lexeme :: rest) = symbols front ++ (lexeme.alone ++ symbols rest) := by
  have apart : BeginsApart (lexeme :: rest) := by
    intro first among
    obtain rfl := Option.some.inj among
    exact stops
  rw [symbols_append apart, symbols_cons_of_none stops]

/-- Where a text is cut behind no character of a word, no word is cut. -/
theorem symbols_append_of_last (ends : ∀ last ∈ front.getLast?, last.wordChar? = none) :
    symbols (front ++ back) = symbols front ++ symbols back := by
  rcases List.eq_nil_or_concat front with rfl | ⟨front, last, rfl⟩
  · rfl
  · rw [List.concat_eq_append] at ends ⊢
    have stops := ends last List.getLast?_concat
    rw [List.append_assoc, List.singleton_append, symbols_append_cons stops, symbols_append_cons stops]
    simp [symbols, symbolsAfter, finishedWord]

/-- A word of code that is not continued is one symbol. -/
theorem symbolsAfter_word (chars : ∀ c ∈ word, isIdentifierChar c) (apart : BeginsApart rest) :
    symbolsAfter current (word.map .code ++ rest) = finishedWord (current ++ word) ++ symbols rest := by
  rw [symbolsAfter_append apart]
  congr 1
  induction word generalizing current with
  | nil => rw [List.append_nil, List.map_nil, symbolsAfter]
  | cons c word ih =>
    obtain ⟨here, there⟩ := List.forall_mem_cons.mp chars
    have continues : (Lexeme.code c).wordChar? = some c := by simp [Lexeme.wordChar?, here]
    rw [List.map_cons, symbolsAfter_of_wordChar continues, ih there, List.append_assoc]
    rfl

section Statements

/-- An element of two lists put together stands in the first or in the second. -/
theorem exists_cut {α : Type} {first second front back : List α} {a : α}
    (same : first ++ second = front ++ a :: back) :
    (∃ middle, first = front ++ a :: middle) ∨
      ∃ middle, front = first ++ middle ∧ second = middle ++ a :: back := by
  rcases List.append_eq_append_iff.mp same with ⟨middle, whole, cut⟩ | ⟨middle, whole, cut⟩
  · exact .inr ⟨middle, whole, cut⟩
  · cases middle with
    | nil => exact .inr ⟨[], by simpa using whole.symm, cut.symm⟩
    | cons b middle =>
      obtain ⟨rfl, -⟩ := List.cons.inj cut
      exact .inl ⟨middle, whole⟩

theorem depthFrom_append (depth : Nat) (these others : List Symbol) :
    depthFrom depth (these ++ others) = depthFrom (depthFrom depth these) others :=
  List.foldl_append

/-- Where the last symbol is no semicolon, a single statement has none. -/
theorem isOneStatement_append_iff (last : symbol ≠ .sign ';') :
    IsOneStatement (these ++ [symbol]) ↔ .sign ';' ∉ these := by
  induction these with
  | nil => simp [IsOneStatement, last]
  | cons first these ih =>
    by_cases semicolon : first = .sign ';'
    · rw [semicolon]
      simp [IsOneStatement, last]
    · have passed : IsOneStatement (first :: these ++ [symbol]) ↔ IsOneStatement (these ++ [symbol]) := by
        rw [IsOneStatement, List.cons_append, List.dropWhile_cons_of_pos (by simpa using semicolon)]
        rfl
      rw [passed, ih, List.mem_cons, not_or]
      exact (and_iff_right (Ne.symm semicolon)).symm

end Statements

end ReportQuery.Sql
