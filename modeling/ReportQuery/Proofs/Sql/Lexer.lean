import Mathlib.Data.List.Infix
import Mathlib.Data.List.TakeWhile
import Mathlib.Tactic.Common
import ReportQuery.Proofs.Text.Quoted
import ReportQuery.Sql.Code

set_option autoImplicit false
set_option relaxedAutoImplicit false

/-!
SQL's own reading of a text: one scan from left to right in which the first opener wins. A text in
which a literal, a quoted identifier or a block comment is left open has no reading.
-/

namespace ReportQuery.Sql

open Text (Quoted.Paired Quoted.Paired.nil Quoted.Paired.pair Quoted.Paired.other)

/-- A unit of SQL text, with what stands between its delimiters. -/
inductive Lexeme where
  | code (c : Char)
  | name (inside : List Char)
  | literal (inside : List Char)
  | lineComment (inside : List Char)
  | blockComment (inside : List Char)
deriving Repr, DecidableEq

namespace Lexeme

/-- The lexeme as it is written. -/
def source : Lexeme → List Char
  | code c => [c]
  | name inside => '"' :: (inside ++ ['"'])
  | literal inside => '\'' :: (inside ++ ['\''])
  | lineComment inside => '-' :: '-' :: inside
  | blockComment inside => '/' :: '*' :: (inside ++ ['*', '/'])

/-- The lexeme in a text without comments and with empty literals. -/
def stripped : Lexeme → List Char
  | code c => [c]
  | name inside => '"' :: (inside ++ ['"'])
  | literal _ => ['\'', '\'']
  | lineComment _ | blockComment _ => [' ']

end Lexeme

/-- What stands before the quote that closes a segment, pairs passed over, and what follows it. -/
def quotedInside? (quote : Char) : List Char → Option (List Char × List Char)
  | [] => none
  | c :: cs =>
    if c = quote then
      match cs with
      | [] => some ([], [])
      | d :: ds =>
        if d = quote then
          (quotedInside? quote ds).map fun (inside, rest) => (quote :: quote :: inside, rest)
        else some ([], d :: ds)
    else (quotedInside? quote cs).map fun (inside, rest) => (c :: inside, rest)

/-- What stands before the first end mark of a block comment, and what follows the mark. -/
def commentInside? : List Char → Option (List Char × List Char)
  | [] => none
  | c :: cs =>
    if c = '*' ∧ cs.head? = some '/' then some ([], cs.drop 1)
    else (commentInside? cs).map fun (inside, rest) => (c :: inside, rest)

/-- The lexeme at the front of a text and what follows it. -/
def lexeme? : List Char → Option (Lexeme × List Char)
  | [] => none
  | c :: cs =>
    if c = '\'' then (quotedInside? '\'' cs).map fun (inside, rest) => (.literal inside, rest)
    else if c = '"' then (quotedInside? '"' cs).map fun (inside, rest) => (.name inside, rest)
    else if c = '-' ∧ cs.head? = some '-' then
      some (.lineComment ((cs.drop 1).takeWhile (· != '\n')), (cs.drop 1).dropWhile (· != '\n'))
    else if c = '/' ∧ cs.head? = some '*' then
      (commentInside? (cs.drop 1)).map fun (inside, rest) => (.blockComment inside, rest)
    else some (.code c, cs)

/-- The lexeme is what stands at the front of its source before `rest`. -/
def Lexeme.ReadsBefore (rest : List Char) : Lexeme → Prop
  | code c => c ≠ '\'' ∧ c ≠ '"' ∧ ¬ (c = '-' ∧ rest.head? = some '-') ∧
      ¬ (c = '/' ∧ rest.head? = some '*')
  | name inside => Quoted.Paired '"' inside ∧ rest.head? ≠ some '"'
  | literal inside => Quoted.Paired '\'' inside ∧ rest.head? ≠ some '\''
  | lineComment inside => '\n' ∉ inside ∧ (rest = [] ∨ rest.head? = some '\n')
  | blockComment inside => ¬ ['*', '/'] <:+: inside

variable {cs inside rest text : List Char} {lexeme : Lexeme}

theorem quotedInside?_of_ne {c q : Char} (different : c ≠ q) (cs : List Char) :
    quotedInside? q (c :: cs) =
      (quotedInside? q cs).map fun (inside, rest) => (c :: inside, rest) := by
  rw [quotedInside?.eq_def]
  simp [different]

theorem quotedInside?_pair (q : Char) (cs : List Char) :
    quotedInside? q (q :: q :: cs) =
      (quotedInside? q cs).map fun (inside, rest) => (q :: q :: inside, rest) := by
  simp [quotedInside?]

theorem quotedInside?_lone {q : Char} (lone : cs.head? ≠ some q) :
    quotedInside? q (q :: cs) = some ([], cs) := by
  cases cs with
  | nil => simp [quotedInside?]
  | cons d ds =>
    have different : d ≠ q := by simpa using lone
    simp [quotedInside?, different]

theorem commentInside?_of_not {c : Char} (goes : ¬ (c = '*' ∧ cs.head? = some '/')) :
    commentInside? (c :: cs) = (commentInside? cs).map fun (inside, rest) => (c :: inside, rest) := by
  rw [commentInside?, if_neg goes]

theorem quotedInside?_eq_some {quote : Char} (read : quotedInside? quote cs = some (inside, rest)) :
    cs = inside ++ quote :: rest ∧ Quoted.Paired quote inside ∧ rest.head? ≠ some quote := by
  induction cs using quotedInside?.induct quote generalizing inside with
  | case1 => cases read
  | case2 =>
    obtain ⟨rfl, rfl⟩ : [] = inside ∧ [] = rest := by simpa [quotedInside?] using read
    exact ⟨rfl, .nil, by simp⟩
  | case3 ds ih =>
    obtain ⟨before, found, rfl⟩ :
        ∃ a, quotedInside? quote ds = some (a, rest) ∧ quote :: quote :: a = inside := by
      simpa [quotedInside?] using read
    obtain ⟨rfl, paired, lone⟩ := ih found
    exact ⟨rfl, .pair paired, lone⟩
  | case4 d ds different =>
    obtain ⟨rfl, rfl⟩ : [] = inside ∧ d :: ds = rest := by
      simpa [quotedInside?, different] using read
    exact ⟨rfl, .nil, by simpa using different⟩
  | case5 c cs different ih =>
    obtain ⟨before, found, rfl⟩ : ∃ a, quotedInside? quote cs = some (a, rest) ∧ c :: a = inside := by
      rw [quotedInside?.eq_def] at read
      simpa [different] using read
    obtain ⟨rfl, paired, lone⟩ := ih found
    exact ⟨rfl, .other different paired, lone⟩

/-- An end mark at the front of a list, read off the first character and the next. -/
theorem endMark_prefix_iff {c : Char} :
    ['*', '/'] <+: c :: cs ↔ c = '*' ∧ cs.head? = some '/' := by
  cases cs <;> simp [eq_comm]

theorem commentInside?_eq_some (read : commentInside? cs = some (inside, rest)) :
    cs = inside ++ '*' :: '/' :: rest ∧ ¬ ['*', '/'] <:+: inside := by
  induction cs generalizing inside with
  | nil => cases read
  | cons c cs ih =>
    by_cases ends : c = '*' ∧ cs.head? = some '/'
    · obtain ⟨rfl, rfl⟩ : [] = inside ∧ cs.drop 1 = rest := by
        simpa [commentInside?, ends] using read
      obtain ⟨rfl, next⟩ := ends
      exact ⟨by rw [← List.cons_head?_tail next]; simp, by simp⟩
    · obtain ⟨before, found, rfl⟩ : ∃ a, commentInside? cs = some (a, rest) ∧ c :: a = inside := by
        rw [commentInside?, if_neg ends] at read
        simpa using read
      obtain ⟨rfl, unclosed⟩ := ih found
      refine ⟨rfl, fun here => ?_⟩
      rcases List.infix_cons_iff.mp here with front | later
      · exact ends (endMark_prefix_iff.mp (front.trans (List.prefix_append _ _)))
      · exact unclosed later

/-- A lexeme that is read is followed by the text it was read before. -/
theorem lexeme?_eq_some (read : lexeme? cs = some (lexeme, rest)) :
    cs = lexeme.source ++ rest ∧ lexeme.ReadsBefore rest := by
  cases cs with
  | nil => cases read
  | cons c cs =>
    rw [lexeme?] at read
    by_cases literal : c = '\''
    · obtain ⟨inside, found, rfl⟩ :
          ∃ a, quotedInside? '\'' cs = some (a, rest) ∧ .literal a = lexeme := by
        simpa [literal] using read
      obtain ⟨rfl, paired⟩ := quotedInside?_eq_some found
      exact ⟨by simp [literal, Lexeme.source], paired⟩
    rw [if_neg literal] at read
    by_cases name : c = '"'
    · obtain ⟨inside, found, rfl⟩ :
          ∃ a, quotedInside? '"' cs = some (a, rest) ∧ .name a = lexeme := by
        simpa [name] using read
      obtain ⟨rfl, paired⟩ := quotedInside?_eq_some found
      exact ⟨by simp [name, Lexeme.source], paired⟩
    rw [if_neg name] at read
    by_cases line : c = '-' ∧ cs.head? = some '-'
    · rw [if_pos line] at read
      obtain ⟨rfl, rfl⟩ := Prod.mk.inj (Option.some.inj read)
      refine ⟨?_, ?_, ?_⟩
      · rw [line.1, ← List.cons_head?_tail line.2]
        simp [Lexeme.source]
      · intro ends
        simpa using List.mem_takeWhile_imp ends
      · have stops := List.head?_dropWhile_not (· != '\n') (cs.drop 1)
        cases rest : (cs.drop 1).dropWhile (· != '\n') with
        | nil => exact .inl rfl
        | cons d ds =>
          rw [rest] at stops
          exact .inr (by simpa using stops)
    rw [if_neg line] at read
    by_cases block : c = '/' ∧ cs.head? = some '*'
    · obtain ⟨inside, found, rfl⟩ :
          ∃ a, commentInside? (cs.drop 1) = some (a, rest) ∧ .blockComment a = lexeme := by
        simpa [block] using read
      obtain ⟨whole, unclosed⟩ := commentInside?_eq_some found
      refine ⟨?_, unclosed⟩
      rw [block.1, ← List.cons_head?_tail block.2, ← List.drop_one, whole]
      simp [Lexeme.source]
    rw [if_neg block] at read
    obtain ⟨rfl, rfl⟩ := Prod.mk.inj (Option.some.inj read)
    exact ⟨rfl, literal, name, line, block⟩

theorem Lexeme.source_ne_nil (lexeme : Lexeme) : lexeme.source ≠ [] := by
  cases lexeme <;> simp [source]

/-- A lexeme is told by how it is written. -/
theorem Lexeme.source_injective {other : Lexeme} (same : lexeme.source = other.source) : lexeme = other := by
  cases lexeme <;> cases other <;> simp [source] at same ⊢ <;> exact same

theorem length_lexeme?_lt (read : lexeme? cs = some (lexeme, rest)) : rest.length < cs.length := by
  obtain ⟨rfl, -⟩ := lexeme?_eq_some read
  have positive := List.length_pos_iff.mpr lexeme.source_ne_nil
  rw [List.length_append]
  omega

/-- The lexemes of a text, if all that opens in it closes. -/
def lex? (cs : List Char) : Option (List Lexeme) :=
  match read : lexeme? cs with
  | none => if cs.isEmpty then some [] else none
  | some (lexeme, rest) =>
    have : rest.length < cs.length := length_lexeme?_lt read
    (lex? rest).map (lexeme :: ·)
termination_by cs.length

/-- The text that lexemes are read from. -/
def sourceOf (lexemes : List Lexeme) : List Char :=
  lexemes.flatMap Lexeme.source

/-- The text without comments and with empty literals, as SQL reads it. -/
def strippedOf (lexemes : List Lexeme) : List Char :=
  lexemes.flatMap Lexeme.stripped

/-- The property holds of every lexeme and the lexemes that follow it. -/
def Everywhere (property : List Lexeme → Lexeme → Prop) : List Lexeme → Prop
  | [] => True
  | lexeme :: rest => property rest lexeme ∧ Everywhere property rest

/-- Every lexeme is what stands at the front of the text from there on. -/
def Reads (lexemes : List Lexeme) : Prop :=
  Everywhere (fun rest lexeme => lexeme.ReadsBefore (sourceOf rest)) lexemes

/-- The lexemes of a text make up the text, and each is the one that is read at its place. -/
theorem lex?_eq_some {lexemes : List Lexeme} (read : lex? text = some lexemes) :
    text = sourceOf lexemes ∧ Reads lexemes := by
  induction text using lex?.induct generalizing lexemes with
  | case1 cs none empty =>
    obtain rfl := List.isEmpty_iff.mp empty
    rw [lex?] at read
    obtain rfl : [] = lexemes := by simpa [lexeme?] using read
    exact ⟨rfl, trivial⟩
  | case2 cs none nonempty =>
    rw [lex?] at read
    split at read
    · simp [nonempty] at read
    · rename_i found
      rw [none] at found
      cases found
  | case3 cs lexeme rest found _ ih =>
    rw [lex?] at read
    split at read
    · rename_i none
      rw [none] at found
      cases found
    · rename_i lexeme' rest' found'
      obtain ⟨rfl, rfl⟩ := Prod.mk.inj (Option.some.inj (found.symm.trans found'))
      obtain ⟨others, following, rfl⟩ := Option.map_eq_some_iff.mp read
      obtain ⟨rfl, reads⟩ := ih following
      obtain ⟨rfl, here⟩ := lexeme?_eq_some found
      exact ⟨rfl, here, reads⟩

section Complete

private theorem quotedInside?_of_paired {quote : Char} (paired : Quoted.Paired quote inside)
    (lone : rest.head? ≠ some quote) :
    quotedInside? quote (inside ++ quote :: rest) = some (inside, rest) := by
  induction paired with
  | nil => exact quotedInside?_lone lone
  | pair _ ih =>
    rw [List.cons_append, List.cons_append, quotedInside?_pair, ih]
    rfl
  | other different _ ih =>
    rw [List.cons_append, quotedInside?_of_ne different, ih]
    rfl

private theorem commentInside?_of_unclosed (unclosed : ¬ ['*', '/'] <:+: inside) :
    commentInside? (inside ++ '*' :: '/' :: rest) = some (inside, rest) := by
  induction inside with
  | nil => simp [commentInside?]
  | cons c inside ih =>
    obtain ⟨front, later⟩ := not_or.mp (mt List.infix_cons_iff.mpr unclosed)
    have stays : ¬ (c = '*' ∧ (inside ++ '*' :: '/' :: rest).head? = some '/') := by
      rintro ⟨star, slash⟩
      cases inside with
      | nil => cases slash
      | cons d inside => exact front (endMark_prefix_iff.mpr ⟨star, by simpa using slash⟩)
    rw [List.cons_append, commentInside?_of_not stays, ih later]
    rfl

/-- A lexeme is read at the front of its source before any text that does not change it. -/
theorem lexeme?_of_readsBefore (reads : lexeme.ReadsBefore rest) :
    lexeme? (lexeme.source ++ rest) = some (lexeme, rest) := by
  cases lexeme with
  | code c =>
    obtain ⟨literal, name, line, block⟩ := reads
    rw [Lexeme.source, List.singleton_append, lexeme?, if_neg literal, if_neg name, if_neg line,
      if_neg block]
  | name inside =>
    have whole : (Lexeme.name inside).source ++ rest = '"' :: (inside ++ '"' :: rest) := by
      simp [Lexeme.source]
    rw [whole, lexeme?, if_neg (by decide), if_pos rfl, quotedInside?_of_paired reads.1 reads.2]
    rfl
  | literal inside =>
    have whole : (Lexeme.literal inside).source ++ rest = '\'' :: (inside ++ '\'' :: rest) := by
      simp [Lexeme.source]
    rw [whole, lexeme?, if_pos rfl, quotedInside?_of_paired reads.1 reads.2]
    rfl
  | lineComment inside =>
    have unended : ∀ c ∈ inside, (c != '\n') = true := by
      intro c member
      rw [bne_iff_ne]
      rintro rfl
      exact reads.1 member
    have next : rest.takeWhile (· != '\n') = [] ∧ rest.dropWhile (· != '\n') = rest := by
      cases rest with
      | nil => exact ⟨rfl, rfl⟩
      | cons d ds =>
        obtain rfl : d = '\n' := by simpa using reads.2
        exact ⟨by simp, by simp⟩
    rw [Lexeme.source, List.cons_append, List.cons_append, lexeme?, if_neg (by decide),
      if_neg (by decide), if_pos ⟨rfl, rfl⟩, List.drop_one, List.tail_cons,
      List.takeWhile_append_of_pos unended, List.dropWhile_append_of_pos unended, next.1, next.2,
      List.append_nil]
  | blockComment inside =>
    have whole : (Lexeme.blockComment inside).source ++ rest =
        '/' :: '*' :: (inside ++ '*' :: '/' :: rest) := by simp [Lexeme.source]
    have dash : ¬ (('/' : Char) = '-' ∧ ('*' :: (inside ++ '*' :: '/' :: rest)).head? = some '-') :=
      fun line => absurd line.1 (by decide)
    rw [whole, lexeme?, if_neg (by decide), if_neg (by decide), if_neg dash,
      if_pos ⟨rfl, rfl⟩, List.drop_one, List.tail_cons, commentInside?_of_unclosed reads]
    rfl

/-- Lexemes that can be read are the ones that are read. -/
theorem lex?_sourceOf {lexemes : List Lexeme} (reads : Reads lexemes) :
    lex? (sourceOf lexemes) = some lexemes := by
  induction lexemes with
  | nil =>
    rw [sourceOf, List.flatMap_nil, lex?]
    rfl
  | cons lexeme others ih =>
    have front : lexeme? (sourceOf (lexeme :: others)) = some (lexeme, sourceOf others) :=
      lexeme?_of_readsBefore reads.1
    rw [lex?]
    split
    · rename_i none
      rw [none] at front
      cases front
    · rename_i found
      obtain ⟨rfl, rfl⟩ := Prod.mk.inj (Option.some.inj (found.symm.trans front))
      rw [ih reads.2]
      rfl

end Complete

section Append

variable {front back : List Lexeme} {before after : List Char}

/-- What a lexeme is read before matters by its first character only. -/
theorem Lexeme.ReadsBefore.congr (reads : lexeme.ReadsBefore before)
    (same : after.head? = before.head?) : lexeme.ReadsBefore after := by
  cases lexeme with
  | code c => rwa [ReadsBefore, same]
  | name inside => rwa [ReadsBefore, same]
  | literal inside => rwa [ReadsBefore, same]
  | lineComment inside => rwa [ReadsBefore, ← List.head?_eq_none_iff, same, List.head?_eq_none_iff]
  | blockComment inside => exact reads

theorem Lexeme.ReadsBefore.atEnd (reads : lexeme.ReadsBefore before) : lexeme.ReadsBefore [] := by
  cases lexeme with
  | code c => exact ⟨reads.1, reads.2.1, by simp, by simp⟩
  | name inside => exact ⟨reads.1, by simp⟩
  | literal inside => exact ⟨reads.1, by simp⟩
  | lineComment inside => exact ⟨reads.1, .inl rfl⟩
  | blockComment inside => exact reads

theorem head?_sourceOf_cons (lexeme : Lexeme) (others : List Lexeme) :
    (sourceOf (lexeme :: others)).head? = lexeme.source.head? := by
  obtain ⟨c, tail, same⟩ := List.exists_cons_of_ne_nil lexeme.source_ne_nil
  rw [sourceOf, List.flatMap_cons, same]
  rfl

theorem sourceOf_append (front back : List Lexeme) :
    sourceOf (front ++ back) = sourceOf front ++ sourceOf back :=
  List.flatMap_append

theorem sourceOf_map_code (text : List Char) : sourceOf (text.map .code) = text := by
  rw [sourceOf, List.flatMap_map]
  exact List.flatMap_singleton' text

/-- Lexemes are read one after the other just when the two parts are and the last lexeme of the first
part is read before the second. -/
theorem reads_append_iff :
    Reads (front ++ back) ↔ Reads front ∧ Reads back ∧
      ∀ last ∈ front.getLast?, last.ReadsBefore (sourceOf back) := by
  induction front with
  | nil => simp [Reads, Everywhere]
  | cons lexeme others ih =>
    have cons (these : List Lexeme) :
        Reads (lexeme :: these) ↔ lexeme.ReadsBefore (sourceOf these) ∧ Reads these := Iff.rfl
    rw [List.cons_append, cons, cons, ih]
    cases others with
    | nil =>
      constructor
      · rintro ⟨here, -, reads, -⟩
        exact ⟨⟨here.atEnd, trivial⟩, reads, by simpa using here⟩
      · rintro ⟨⟨-, reads⟩, following, last⟩
        exact ⟨last lexeme rfl, reads, following, by simp⟩
    | cons next others =>
      have same : (sourceOf (next :: others ++ back)).head? = (sourceOf (next :: others)).head? := by
        rw [List.cons_append, head?_sourceOf_cons, head?_sourceOf_cons]
      rw [List.getLast?_cons_cons]
      constructor
      · rintro ⟨here, reads, following, last⟩
        exact ⟨⟨here.congr same.symm, reads⟩, following, last⟩
      · rintro ⟨⟨here, reads⟩, following, last⟩
        exact ⟨here.congr same, reads, following, last⟩

end Append

end ReportQuery.Sql
