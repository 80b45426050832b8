import ReportQuery.Proofs.Sql.QuotePass
import ReportQuery.Proofs.Sql.ReferenceScan

set_option autoImplicit false
set_option relaxedAutoImplicit false

/-!
The table lists that the scan extracts: a FROM that opens a list at its level is found, and its list
shows the tables of that level up to the first word that ends it.
-/

namespace ReportQuery.Sql

open Text

variable {text passed ahead cs front rest : List Char}

section Opening

/-- Text without parentheses and brackets is balanced. -/
theorem balanced_of_not_mem (plain : ∀ c ∈ cs, c ∉ ['(', ')', '[', ']']) : Balanced cs := by
  induction cs with
  | nil => exact .nil
  | cons c cs ih =>
    obtain ⟨here, there⟩ := List.forall_mem_cons.mp plain
    exact .other here (ih there)

theorem balanced_of_all (plain : cs.all fun c => !(['(', ')', '[', ']'].contains c)) :
    Balanced cs :=
  balanced_of_not_mem fun c member => by simpa using List.all_eq_true.mp plain c member

theorem followsSelect_balanced (balanced : Balanced cs) :
    ∀ {depth : Nat} {passed ahead : List Char}, followsSelect depth passed (cs ++ ahead) →
      followsSelect depth (cs.reverse ++ passed) ahead := by
  -- Stepping over a character that opens or closes no parenthesis finds SELECT or goes on.
  have step {depth : Nat} {c : Char} {passed ahead : List Char} (opens : c ≠ '(') (closes : c ≠ ')')
      (follows : followsSelect depth passed (c :: ahead)) :
      followsSelect depth (c :: passed) ahead := by
    rw [followsSelect.eq_def]
    dsimp only
    rw [if_neg closes, if_neg opens]
    split
    · rfl
    · exact follows
  induction balanced with
  | nil => exact fun follows => follows
  | @other c cs plain balanced ih =>
    intro depth passed ahead follows
    rw [List.reverse_cons, List.append_assoc]
    exact ih (step (fun same => plain (by simp [same])) (fun same => plain (by simp [same])) follows)
  | @parens inside cs balancedInside balanced ihInside ih =>
    intro depth passed ahead follows
    have opened : followsSelect (depth + 1) ('(' :: passed) (inside ++ ')' :: (cs ++ ahead)) := by
      rw [followsSelect.eq_def]
      simpa using follows
    have closed : followsSelect depth (')' :: (inside.reverse ++ '(' :: passed)) (cs ++ ahead) := by
      rw [followsSelect.eq_def]
      exact ihInside opened
    have whole := ih closed
    simpa using whole
  | @brackets inside cs balancedInside balanced ihInside ih =>
    intro depth passed ahead follows
    have opened : followsSelect depth ('[' :: passed) (inside ++ ']' :: (cs ++ ahead)) :=
      step (by decide) (by decide) (by simpa using follows)
    have closed : followsSelect depth (']' :: (inside.reverse ++ '[' :: passed)) (cs ++ ahead) :=
      step (by decide) (by decide) (ihInside opened)
    have whole := ih closed
    simpa using whole

private theorem apart_beforeLastWord (cs : List Char) :
    ∀ c ∈ (beforeLastWord cs).reverse.head?, isIdentifierChar c = false := by
  intro c head
  have stops := List.head?_dropWhile_not isIdentifierChar cs.reverse
  rw [beforeLastWord, List.reverse_reverse] at head
  rw [Option.mem_def.mp head] at stops
  simpa using stops

private theorem spelled_of_endsInKeyword {keyword : String} (ends : endsInKeyword keyword cs) :
    (lastWord cs).map Char.toUpper = keyword.toList := by
  simp only [endsInKeyword, Bool.and_eq_true, beq_iff_eq] at ends
  exact ends.1

private theorem balanced_lastWord {letters : List Char} (among : letters ⊆ lastWord cs) :
    Balanced letters := by
  induction letters with
  | nil => exact .nil
  | cons c letters ih =>
    obtain ⟨first, others⟩ := List.cons_subset.mp among
    refine .other ?_ (ih others)
    intro mark
    have marks : ['(', ')', '[', ']'].all (fun d => !isIdentifierChar d) = true := by decide
    have outside := List.all_eq_true.mp marks c mark
    rw [isIdentifierChar_of_mem_lastWord first] at outside
    cases outside

/-- A SELECT at the level of the place is found from the place. -/
private theorem followsSelect_of_endsInKeyword {left columns : List Char}
    (select : endsInKeyword "SELECT" left) (apart : startsApart (columns ++ ahead))
    (balanced : Balanced columns) : followsSelect 0 (left ++ columns).reverse ahead := by
  rw [List.reverse_append]
  refine followsSelect_balanced balanced ?_
  have spelled := spelled_of_endsInKeyword select
  have capitals : "SELECT".toList = 'S' :: "ELECT".toList := rfl
  obtain ⟨c, letters, word, -, -⟩ := List.map_eq_cons_iff.mp (spelled.trans capitals)
  rw [← beforeLastWord_append_lastWord left, word, List.reverse_append, List.reverse_cons,
    List.append_assoc]
  have among : letters ⊆ lastWord left := by
    rw [word]
    exact List.subset_cons_self c letters
  refine followsSelect_balanced (balanced_lastWord among) ?_
  have isSelect : isWordAt ["SELECT"] (beforeLastWord left).reverse.head?
      (c :: (letters ++ (columns ++ ahead))) := by
    rw [word] at spelled
    exact isWordAt_spelled spelled (by decide) (apart_beforeLastWord left) apart
  have letter : isIdentifierChar c := by
    have member : c ∈ lastWord left := word ▸ List.mem_cons_self
    exact isIdentifierChar_of_mem_lastWord member
  change followsSelect 0 (c :: (beforeLastWord left).reverse) (letters ++ (columns ++ ahead))
  rw [followsSelect.eq_def]
  dsimp only
  rw [if_neg, if_neg, if_pos ⟨rfl, isSelect⟩]
  · rintro rfl
    exact absurd letter (by decide)
  · rintro rfl
    exact absurd letter (by decide)

theorem startsTableList_of_opensList {left after : List Char} (opens : OpensList left)
    (free : endsWithWord "DISTINCT" (beforeLastWord left).reverse = false)
    (apart : startsApart after) :
    isWordAt ["FROM"] (beforeLastWord left).reverse.head? (lastWord left ++ after) ∧
      startsTableList (beforeLastWord left).reverse (lastWord left ++ after) := by
  obtain ⟨ends, -, before, columns, whole, select, startsColumns, balanced⟩ := opens
  refine ⟨isWordAt_spelled (spelled_of_endsInKeyword ends) (by decide) (apart_beforeLastWord left)
    apart, ?_⟩
  have someColumns : columns ≠ [] := by
    rintro rfl
    obtain ⟨c, last, identifier⟩ := getLast?_of_endsInKeyword (by decide) select
    rw [List.append_nil] at whole
    have outside := apart_beforeLastWord left c (by rw [whole, List.head?_reverse]; exact last)
    rw [identifier] at outside
    cases outside
  have follows : followsSelect 0 (before ++ columns).reverse (lastWord left ++ after) := by
    refine followsSelect_of_endsInKeyword select ?_ balanced
    obtain ⟨d, columns, rfl⟩ := List.exists_cons_of_ne_nil someColumns
    simpa [startsApart] using startsColumns
  rw [startsTableList, free, whole, follows]
  rfl

end Opening

section Lists

private theorem mem_tableListsFrom {c : Char} {front tail : List Char} :
    ∀ {passed : List Char}, isWordAt ["FROM"] (front.reverse ++ passed).head? (c :: tail) →
      startsTableList (front.reverse ++ passed) (c :: tail) →
      tableListAfter (tail.drop 3) (tail.drop 3) ∈
        tableListsFrom passed (front ++ c :: tail) (front ++ c :: tail) := by
  induction front with
  | nil =>
    intro passed word starts
    rw [List.nil_append, tableListsFrom]
    rw [if_pos (by rw [Bool.and_eq_true]; exact ⟨word, starts⟩)]
    exact List.mem_cons_self
  | cons d front ih =>
    intro passed word starts
    rw [List.reverse_cons, List.append_assoc] at word starts
    have later := ih word starts
    rw [List.cons_append, tableListsFrom]
    split
    · exact List.mem_cons_of_mem _ later
    · exact later

private theorem sameLevel_self (depth : Nat) (cs : List Char) :
    sameLevel depth cs cs = (levelText depth cs).map fun c => (c, c) := by
  induction cs generalizing depth with
  | nil => simp [sameLevel, levelText]
  | cons c cs ih =>
    rw [sameLevel.eq_def, levelText.eq_def]
    dsimp only
    split
    · cases depth with
      | zero => rfl
      | succ depth => simp [ih]
    · split
      · simp [ih]
      · split
        · simp [ih]
        · simp [ih]

theorem levelText_append (balanced : Balanced front) :
    ∀ (depth : Nat) (rest : List Char),
      levelText depth (front ++ rest) = levelText depth front ++ levelText depth rest := by
  have step {c : Char} {cs : List Char} (depth : Nat) (opens : c ≠ '(') (closes : c ≠ ')') :
      levelText depth (c :: cs) = (if depth = 0 then c else ' ') :: levelText depth cs := by
    rw [levelText.eq_def]
    dsimp only
    rw [if_neg closes, if_neg opens]
  have opened (depth : Nat) (cs : List Char) :
      levelText depth ('(' :: cs) = ' ' :: levelText (depth + 1) cs := by
    rw [levelText.eq_def]
    rfl
  have closed (depth : Nat) (cs : List Char) :
      levelText (depth + 1) (')' :: cs) = ' ' :: levelText depth cs := by
    rw [levelText.eq_def]
    rfl
  induction balanced with
  | nil => exact fun depth rest => rfl
  | @other c cs plain balanced ih =>
    intro depth rest
    have opens : c ≠ '(' := fun same => plain (by simp [same])
    have closes : c ≠ ')' := fun same => plain (by simp [same])
    rw [List.cons_append, step depth opens closes, step depth opens closes, ih, List.cons_append]
  | @parens inside cs balancedInside balanced ihInside ih =>
    intro depth rest
    rw [List.cons_append, opened, opened, List.append_assoc, List.cons_append, ihInside, ihInside,
      closed, closed, ih]
    simp
  | @brackets inside cs balancedInside balanced ihInside ih =>
    intro depth rest
    rw [List.cons_append, step depth (by decide) (by decide), step depth (by decide) (by decide),
      List.append_assoc, List.cons_append, ihInside, ihInside, step depth (by decide) (by decide),
      step depth (by decide) (by decide), ih]
    simp

theorem tableListAfter_self (cs : List Char) :
    tableListAfter cs cs = beforeListEnd none (levelText 0 cs) (levelText 0 cs) := by
  rw [tableListAfter, sameLevel_self]
  simp [List.unzip_eq_map, Function.comp_def]

private theorem beforeListEnd_within (before : Option Char) (cs : List Char) :
    beforeListEnd before cs cs <+: cs := by
  induction cs generalizing before with
  | nil => exact List.nil_prefix
  | cons c cs ih =>
    rw [beforeListEnd]
    split
    · exact List.nil_prefix
    · exact (List.prefix_cons_inj c).mpr (ih (some c))

/-- A list goes on over a front in which no keyword ends it. -/
private theorem beforeListEnd_append :
    ∀ {before : Option Char}, (∀ left c tail, front = left ++ c :: tail →
        isWordAt listEndKeywords (left.getLast?.or before) (c :: (tail ++ rest)) = false) →
      ∃ tail, tail <+: rest ∧ beforeListEnd before (front ++ rest) (front ++ rest) = front ++ tail := by
  induction front with
  | nil => exact fun _ => ⟨_, beforeListEnd_within _ rest, rfl⟩
  | cons c front ih =>
    intro before unread
    have first := unread [] c front rfl
    obtain ⟨tail, within, later⟩ := ih fun left d more same => by
      have next := unread (c :: left) d more (by rw [same]; rfl)
      have last : (c :: left).getLast?.or before = left.getLast?.or (some c) := by
        rw [List.getLast?_cons]
        cases left.getLast? <;> simp
      rwa [last] at next
    refine ⟨tail, within, ?_⟩
    rw [List.getLast?_nil, Option.none_or] at first
    rw [List.cons_append, beforeListEnd, first, if_neg Bool.false_ne_true, later]
    rfl

/-- The words that are looked for in a text do not stand at any place of it. -/
theorem isWordAt_eq_false {keywords : List String} (capitals : keywords.all isCapitals)
    (nonempty : keywords.all fun name => !name.isEmpty) {left tail : List Char} {c : Char}
    (without : ¬ containsWord keywords (left ++ c :: tail)) (apart : startsApart rest) :
    isWordAt keywords left.getLast? (c :: (tail ++ rest)) = false := by
  by_contra word
  obtain ⟨begins, starts⟩ : isWordChar? left.getLast? = false ∧
      startsWithWord keywords ((c :: tail) ++ rest) := by
    simpa [isWordAt] using word
  have inside := startsWithWord_append capitals apart starts
  have nothing : findAll (keyword keywords) (left ++ c :: tail) = [] := by
    simpa [containsWord, findFirst?] using without
  obtain ⟨name, found⟩ : ∃ name, (keywords.find? fun word =>
      (afterWord? word (c :: tail)).isSome) = some name :=
    Option.isSome_iff_exists.mp (List.find?_isSome.mpr (List.any_eq_true.mp inside))
  have hit : keyword keywords left.getLast? (c :: tail) =
      some (name.length, (c :: tail).take name.length) := by
    rw [keyword, begins, if_neg Bool.false_ne_true, found]
    rfl
  have empty := eq_zero_of_findAll_eq_nil nothing hit
  have letters := List.all_eq_true.mp nonempty name (List.mem_of_find?_eq_some found)
  simp [String.length_eq_zero_iff.mp empty] at letters

end Lists

section Listing

private theorem levelText_plain (plain : ∀ c ∈ cs, c ≠ '(' ∧ c ≠ ')') (rest : List Char) :
    levelText 0 (cs ++ rest) = cs ++ levelText 0 rest := by
  induction cs with
  | nil => rfl
  | cons c cs ih =>
    obtain ⟨⟨opens, closes⟩, others⟩ := List.forall_mem_cons.mp plain
    rw [List.cons_append, levelText.eq_def]
    dsimp only
    rw [if_neg closes, if_neg opens, if_pos rfl, ih others, List.cons_append]

private theorem mem_levelText {c : Char} {depth : Nat} (member : c ∈ levelText depth cs) :
    c = ' ' ∨ c ∈ cs := by
  induction cs generalizing depth with
  | nil => cases member
  | cons d cs ih =>
    have later {depth : Nat} (member : c ∈ ' ' :: levelText depth cs) : c = ' ' ∨ c ∈ d :: cs := by
      rcases List.mem_cons.mp member with blank | more
      · exact .inl blank
      · exact (ih more).imp_right (List.mem_cons_of_mem d)
    rw [levelText.eq_def] at member
    dsimp only at member
    split at member
    · cases depth with
      | zero => cases member
      | succ depth => exact later member
    · split at member
      · exact later member
      · split at member
        · rcases List.mem_cons.mp member with rfl | more
          · exact .inr List.mem_cons_self
          · exact (ih more).imp_right (List.mem_cons_of_mem d)
        · exact later member

private theorem plain_dottedText {first : List Char} {others : List (List Char × List Char)}
    (isDot : ∀ dot ∈ others.map Prod.fst, trimChars dot = ['.'])
    (names : ∀ part ∈ first :: others.map Prod.snd, isIdentifier part) :
    ∀ c ∈ dottedText first others, c ≠ '(' ∧ c ≠ ')' := by
  have outside {c : Char} (plain : isIdentifierChar c ∨ isBlank c ∨ c = '.') : c ≠ '(' ∧ c ≠ ')' := by
    constructor
    · rintro rfl
      exact absurd plain (by decide)
    · rintro rfl
      exact absurd plain (by decide)
  obtain ⟨isFirst, areOthers⟩ := List.forall_mem_cons.mp names
  intro c member
  refine outside ?_
  rw [dottedText, List.mem_append, List.mem_flatMap] at member
  rcases member with inFirst | ⟨⟨dot, part⟩, among, inside⟩
  · exact .inl (isIdentifierChar_of_mem isFirst inFirst)
  · rcases List.mem_append.mp inside with inDot | inPart
    · obtain ⟨left, right, rfl, leftBlank, rightBlank⟩ :=
        exists_of_trimChars_eq_dot (isDot dot (List.mem_map_of_mem among))
      rcases List.mem_append.mp inDot with inLeft | inRight
      · exact .inr (.inl (leftBlank c inLeft))
      · rcases List.mem_cons.mp inRight with rfl | inRight
        · exact .inr (.inr rfl)
        · exact .inr (.inl (rightBlank c inRight))
    · exact .inl (isIdentifierChar_of_mem (areOthers part (List.mem_map_of_mem among)) inPart)

private theorem levelText_cons {c : Char} (opens : c ≠ '(') (closes : c ≠ ')') (cs : List Char) :
    levelText 0 (c :: cs) = c :: levelText 0 cs := by
  have plain : ∀ d ∈ [c], d ≠ '(' ∧ d ≠ ')' := by simp [opens, closes]
  exact levelText_plain plain cs

/-- The first mark of the level is the first of the text, unless a parenthesis stands before it. -/
private theorem head?_trim_levelText (dot : (trimFrontChars (levelText 0 cs)).head? = some '.') :
    (trimFrontChars cs).head? = some '.' ∨ (trimFrontChars cs).head? = some '(' := by
  induction cs with
  | nil => cases dot
  | cons c cs ih =>
    by_cases closes : c = ')'
    · rw [closes, levelText.eq_def] at dot
      cases dot
    by_cases opens : c = '('
    · rw [opens]
      exact .inr rfl
    rw [levelText_cons opens closes] at dot
    by_cases blank : isBlank c
    · rw [trimFrontChars, List.dropWhile_cons_of_pos blank] at dot ⊢
      exact ih dot
    · rw [trimFrontChars, List.dropWhile_cons_of_neg blank] at dot ⊢
      exact .inl dot

/-- The list behind a FROM that opens one is among the table lists of the text. -/
private theorem tableListAfter_mem_tableLists {left after : List Char} (opens : OpensList left)
    (free : endsWithWord "DISTINCT" (beforeLastWord left).reverse = false)
    (apart : startsApart after) (unquoted : '"' ∉ left ++ after) :
    tableListAfter after after ∈ tableLists (left ++ after) := by
  obtain ⟨word, starts⟩ := startsTableList_of_opensList opens free apart
  have capitals : "FROM".toList = 'F' :: "ROM".toList := rfl
  obtain ⟨c, letters, isFrom, -, spelled⟩ :=
    List.map_eq_cons_iff.mp ((spelled_of_endsInKeyword opens.1).trans capitals)
  have three : letters.length = 3 := by
    have lengths := congrArg List.length spelled
    rw [List.length_map] at lengths
    exact lengths
  have behind : (letters ++ after).drop 3 = after := by
    rw [← three, List.drop_left]
  have whole : left ++ after = beforeLastWord left ++ c :: (letters ++ after) := by
    rw [← List.cons_append, ← isFrom, ← List.append_assoc, beforeLastWord_append_lastWord]
  rw [isFrom, List.cons_append, ← List.append_nil (beforeLastWord left).reverse] at word starts
  have member := mem_tableListsFrom word starts
  rw [behind, ← whole] at member
  rw [tableLists, maskQuoted_eq_self unquoted]
  exact member

/-- A name that no parenthesis and no dot follows ends also where a list shows it. -/
private theorem ends_of_levelText {tail : List Char} (within : tail <+: levelText 0 rest)
    (apart : startsApart rest) (undotted : (trimFrontChars rest).head? ≠ some '.')
    (uncalled : (trimFrontChars rest).head? ≠ some '(') :
    startsApart tail ∧ (trimFrontChars tail).head? ≠ some '.' := by
  obtain ⟨more, whole⟩ := within
  constructor
  · cases tail with
    | nil => rfl
    | cons c tail =>
      cases rest with
      | nil => cases whole
      | cons d rest =>
        by_cases closes : d = ')'
        · rw [closes, levelText.eq_def] at whole
          cases whole
        by_cases opens : d = '('
        · rw [opens, levelText.eq_def] at whole
          obtain rfl : c = ' ' := (List.cons.inj whole).1
          rfl
        rw [levelText_cons opens closes] at whole
        obtain rfl : c = d := (List.cons.inj whole).1
        exact apart
  · intro dot
    have shown : (trimFrontChars (levelText 0 rest)).head? = some '.' := by
      obtain ⟨behind, begins⟩ := List.head?_eq_some_iff.mp dot
      rw [← whole, trimFrontChars, List.dropWhile_append, ← trimFrontChars, begins]
      rfl
    rcases head?_trim_levelText shown with here | called
    · exact undotted here
    · exact uncalled called

/-- The list that shows a table, up to its name. -/
private theorem NamedTable.Listing.mem_tableLists {table : NamedTable text} {left list : List Char}
    (listing : table.Listing left list) (unquoted : '"' ∉ text) (uncalled : table.isCalled = false) :
    ∃ tail, levelText 0 list ++ (dottedText table.first table.others ++ tail) ∈ tableLists text ∧
      startsApart tail ∧ (trimFrontChars tail).head? ≠ some '.' := by
  have plain := plain_dottedText table.isDot table.isName
  have uncalled : (trimFrontChars table.rest).head? ≠ some '(' := by simpa [isCalled] using uncalled
  have apart : startsApart (levelText 0 table.rest) :=
    (ends_of_levelText (List.prefix_rfl) table.ends.1 table.ends.2 uncalled).1
  have unread : ∀ before c more,
      levelText 0 list ++ dottedText table.first table.others = before ++ c :: more →
        isWordAt listEndKeywords (before.getLast?.or none)
          (c :: (more ++ levelText 0 table.rest)) = false := by
    intro before c more same
    rw [Option.or_none]
    exact isWordAt_eq_false (by decide) (by decide) (same ▸ listing.unended) apart
  obtain ⟨tail, within, shown⟩ := beforeListEnd_append unread
  refine ⟨tail, ?_, ends_of_levelText within table.ends.1 table.ends.2 uncalled⟩
  have after : startsApart (list ++ (dottedText table.first table.others ++ table.rest)) := by
    have listApart := listing.apart
    cases list with
    | nil =>
      rw [List.nil_append, dottedText, startsApart_name (table.isName _ List.mem_cons_self)] at listApart
      cases listApart
    | cons c list => exact listApart
  have isText : text = left ++ (list ++ (dottedText table.first table.others ++ table.rest)) := by
    rw [← List.append_assoc, ← listing.isBefore]
    exact table.isText
  have quotes : '"' ∉ left ++ (list ++ (dottedText table.first table.others ++ table.rest)) := by
    rwa [← isText]
  have member := tableListAfter_mem_tableLists listing.opens listing.notDistinct after quotes
  rw [← isText, tableListAfter_self, levelText_append listing.balanced, levelText_plain plain,
    ← List.append_assoc, shown, List.append_assoc] at member
  exact member

/-- The schemas of a listed table are found by the scan of the table lists. -/
theorem NamedTable.schemas_subset_tableSchemas (table : NamedTable text) (unquoted : '"' ∉ text)
    (listed : table.IsListed) (uncalled : table.isCalled = false) :
    table.schemas ⊆ tableSchemas (tableReferences text) := by
  obtain ⟨ascii, free, left, list, listing⟩ := listed
  obtain ⟨tail, member, ends⟩ := listing.mem_tableLists unquoted uncalled
  have quotes : '"' ∉ levelText 0 list := by
    intro quote
    rcases mem_levelText quote with blank | inList
    · cases blank
    · exact unquoted (by rw [table.isText, listing.isBefore]; simp [inList])
  obtain ⟨source, reference, found, parts⟩ := exists_found_of_listPlace listing.place quotes
    table.isDot (fun part among => table.isAsciiName ascii among) ends free
  intro schema among
  rw [tableSchemas, List.mem_flatMap]
  refine ⟨reference, ?_, ?_⟩
  · rw [tableReferences, List.mem_flatMap]
    exact ⟨_, member, List.mem_filterMap.mpr ⟨_, found, rfl⟩⟩
  · rw [parts, ← List.map_dropLast]
    exact among

end Listing

end ReportQuery.Sql
