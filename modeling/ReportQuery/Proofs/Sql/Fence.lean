import ReportQuery.Proofs.Sql.Keyword

set_option autoImplicit false
set_option relaxedAutoImplicit false

/-!
Every comma and every JOIN of a table list is a fence: what the scan of the list reads before it
ends there, so that the table behind it is read from its beginning.
-/

namespace ReportQuery.Sql

open Text

variable {front rest cs : List Char} {rule : LetterRule}

/-- A fence stands at the front of the rest: names and aliases that begin before it end there. -/
structure Fence (front rest : List Char) : Prop where
  /-- The fence begins with no blank, no dot and no letter that continues ONLY, LATERAL, AS or the
  rest of JOIN. -/
  begins : ∃ c tail, rest = c :: tail ∧ isBlank c = false ∧ c ≠ '.' ∧
    "ONLYLATERALASOIN".toList.all (fun letter => !meetsLetter letter c)
  unquoted : '"' ∉ front
  /-- No name begins at the fence. -/
  noName : startsWithWord clauseKeywords rest ∨ ∀ rule, identifier? rule rest = none
  identifier : ∀ (rule : LetterRule) (left : List Char) (n : Nat), left <:+ front → left ≠ [] →
    identifier? rule (left ++ rest) = some n → n ≤ left.length
  dot : ∀ (rule : LetterRule) (left token after : List Char), left <:+ front →
    dotIdentifier? rule (left ++ rest) = some (token, after) →
      ∃ tail, tail <:+ front ∧ after = tail ++ rest

/-- What a scan has left of the front, before the rest. -/
def RestOf (front rest cs : List Char) : Prop :=
  ∃ left, left <:+ front ∧ cs = left ++ rest

private theorem RestOf.trim_of_eq (stays : trimFrontChars rest = rest)
    (left : RestOf front rest cs) : RestOf front rest (trimFrontChars cs) := by
  obtain ⟨left, suffix, rfl⟩ := left
  refine ⟨left.dropWhile isBlank, (List.dropWhile_suffix _).trans suffix, ?_⟩
  rw [trimFrontChars, List.dropWhile_append]
  split
  · rename_i blank
    rw [List.isEmpty_iff.mp blank, List.nil_append, ← trimFrontChars, stays]
  · rfl

section Fence

variable (fence : Fence front rest)

include fence

theorem RestOf.trim (left : RestOf front rest cs) : RestOf front rest (trimFrontChars cs) := by
  refine left.trim_of_eq ?_
  obtain ⟨c, tail, begins, nonblank, -⟩ := fence.begins
  rw [begins, trimFrontChars, List.dropWhile_cons_of_neg (by simp [nonblank])]

theorem RestOf.blanks {after : List Char} (left : RestOf front rest cs)
    (read : afterBlanks? cs = some after) : RestOf front rest after := by
  obtain ⟨left, suffix, rfl⟩ := left
  obtain ⟨c, tail, begins, nonblank, -⟩ := fence.begins
  cases left with
  | nil =>
    rw [begins, List.nil_append, afterBlanks?, nonblank] at read
    cases read
  | cons d left =>
    rw [List.cons_append, afterBlanks?] at read
    split at read
    · cases read
      exact RestOf.trim fence ⟨left, (List.suffix_cons d left).trans suffix, rfl⟩
    · cases read

/-- A keyword whose letters do not meet the fence is read before it. -/
theorem RestOf.keyword {letters after : List Char}
    (among : letters.all fun letter => "ONLYLATERALASOIN".toList.contains letter)
    (left : RestOf front rest cs) (read : afterKeyword? letters cs = some after) :
    RestOf front rest after := by
  induction letters generalizing cs with
  | nil =>
    cases read
    exact left
  | cons letter letters ih =>
    obtain ⟨first, others⟩ := (Bool.and_eq_true _ _).mp among
    obtain ⟨left, suffix, rfl⟩ := left
    cases left with
    | nil =>
      obtain ⟨c, tail, begins, -, -, unmet⟩ := fence.begins
      have miss := List.all_eq_true.mp unmet letter (List.contains_iff_mem.mp first)
      rw [List.nil_append, begins, afterKeyword?, if_neg (by simpa using miss)] at read
      cases read
    | cons d left =>
      rw [List.cons_append, afterKeyword?] at read
      split at read
      · exact ih others ⟨left, (List.suffix_cons d left).trans suffix, rfl⟩ read
      · cases read

theorem RestOf.keywordBlanks {name : String} {after : List Char}
    (among : name.toList.all fun letter => "ONLYLATERALASOIN".toList.contains letter)
    (left : RestOf front rest cs) (read : afterKeywordBlanks? name cs = some after) :
    RestOf front rest after := by
  obtain ⟨middle, word, blanks⟩ := Option.bind_eq_some_iff.mp read
  exact (left.keyword fence among word).blanks fence blanks

theorem RestOf.identifier {n : Nat} (left : RestOf front rest cs)
    (free : ¬ startsWithWord clauseKeywords cs) (read : identifier? rule cs = some n) :
    RestOf front rest (cs.drop n) := by
  obtain ⟨left, suffix, rfl⟩ := left
  cases left with
  | nil =>
    rcases fence.noName with word | none
    · exact absurd word free
    · rw [List.nil_append, none rule] at read
      cases read
  | cons d left =>
    have short := fence.identifier rule (d :: left) n suffix (by simp) read
    exact ⟨(d :: left).drop n, (List.drop_suffix _ _).trans suffix, List.drop_append_of_le_length short⟩

theorem RestOf.dottedTail (left : RestOf front rest cs) :
    RestOf front rest (dottedTail rule cs).2 := by
  induction cs using dottedTail.induct rule with
  | case1 cs none =>
    rw [dottedTail_of_none none]
    exact left
  | case2 cs token after read _ tokens last _ ih =>
    rw [dottedTail_of_some read]
    obtain ⟨left, suffix, rfl⟩ := left
    exact ih (fence.dot rule left token after suffix read)

theorem RestOf.tableName (left : RestOf front rest cs) : RestOf front rest (tableName cs).2 := by
  unfold Sql.tableName
  split
  · exact left
  · rename_i free
    split
    · exact left
    · rename_i n read
      have unread : ¬ startsWithWord clauseKeywords cs := by
        intro word
        refine free ?_
        rw [startsWithWord, List.any_cons, Bool.or_eq_true]
        exact .inr word
      exact (left.identifier fence unread read).dottedTail fence

theorem RestOf.aliasName {n : Nat} (left : RestOf front rest cs) (read : aliasName? cs = some n) :
    RestOf front rest (cs.drop n) := by
  unfold aliasName? at read
  split at read
  · cases read
  · rename_i free
    split at read
    · cases read
    · rename_i k name
      split at read
      · cases read
        exact left.identifier fence free name
      · split at read
        · rename_i quoted
          obtain ⟨left, suffix, rfl⟩ := left
          cases left with
          | nil =>
            rcases fence.noName with word | none
            · exact absurd word free
            · rw [List.nil_append, none] at name
              cases name
          | cons d left =>
            obtain rfl : d = '"' := by simpa using quoted
            exact absurd (suffix.subset List.mem_cons_self) fence.unquoted
        · cases read

theorem RestOf.aliasAfter {token after : List Char} (left : RestOf front rest cs)
    (read : aliasAfter? cs = some (token, after)) : RestOf front rest after := by
  have named {start token after : List Char} (left : RestOf front rest start)
      (read : (aliasName? start).map (fun n => (start.take n, start.drop n)) = some (token, after)) :
      RestOf front rest after := by
    obtain ⟨n, name, parts⟩ := Option.map_eq_some_iff.mp read
    obtain ⟨-, rfl⟩ := Prod.mk.inj parts
    exact left.aliasName fence name
  unfold aliasAfter? at read
  split at read
  · cases read
  · rename_i start blanks
    have begun := left.blanks fence blanks
    dsimp only at read
    split at read
    · rename_i found word
      obtain rfl := Option.some.inj read
      obtain ⟨behind, keyword, name⟩ := Option.bind_eq_some_iff.mp word
      exact named (begun.keywordBlanks fence (by decide) keyword) name
    · exact named begun read

theorem RestOf.readTableReference (left : RestOf front rest cs) :
    RestOf front rest (readTableReference cs).2 := by
  have start : RestOf front rest (((afterKeywordBlanks? "ONLY" (trimFrontChars cs)).orElse fun _ =>
      afterKeywordBlanks? "LATERAL" (trimFrontChars cs)).getD (trimFrontChars cs)) := by
    have trimmed := left.trim fence
    cases only : afterKeywordBlanks? "ONLY" (trimFrontChars cs) with
    | some after => exact trimmed.keywordBlanks fence (by decide) only
    | none =>
      cases lateral : afterKeywordBlanks? "LATERAL" (trimFrontChars cs) with
      | some after => exact trimmed.keywordBlanks fence (by decide) lateral
      | none => exact trimmed
  have name := start.tableName fence
  unfold Sql.readTableReference
  dsimp only
  split
  · rename_i token after found
    exact name.aliasAfter fence found
  · exact name

end Fence

/-- A table reference is read from its place, from behind a comma or from behind JOIN. -/
private theorem start_of_tableReference {before : Option Char} {n : Nat}
    {reference : TableReference} (hit : tableReference before cs = some (n, reference)) :
    ∃ start, (start = cs ∨ cs = ',' :: start ∨ isWordAt ["JOIN"] before cs ∧ start = cs.drop 4) ∧
      n = cs.length - (readTableReference start).2.length := by
  have joined (read : joinedReference before cs = some (n, reference)) :
      ∃ start, (start = cs ∨ cs = ',' :: start ∨ isWordAt ["JOIN"] before cs ∧ start = cs.drop 4) ∧
        n = cs.length - (readTableReference start).2.length := by
    unfold joinedReference at read
    split at read
    · rename_i start
      exact ⟨start, .inr (.inl rfl), (Prod.mk.inj (Option.some.inj read)).1.symm⟩
    · split at read
      · rename_i word
        exact ⟨cs.drop 4, .inr (.inr ⟨word, rfl⟩), (Prod.mk.inj (Option.some.inj read)).1.symm⟩
      · cases read
  unfold tableReference at hit
  split at hit
  · exact joined hit
  · split at hit
    · exact joined hit
    · exact ⟨cs, .inl rfl, (Prod.mk.inj (Option.some.inj hit)).1.symm⟩

theorem afterKeyword?_eq_drop {letters after : List Char}
    (read : afterKeyword? letters cs = some after) : after = cs.drop letters.length := by
  induction letters generalizing cs with
  | nil =>
    cases read
    rfl
  | cons letter letters ih =>
    cases cs with
    | nil => cases read
    | cons c cs =>
      rw [afterKeyword?] at read
      split at read
      · exact ih read
      · cases read

/-- JOIN and what follows it. -/
theorem afterKeyword?_of_isWordAt {name : String} {before : Option Char}
    (word : isWordAt [name] before cs) :
    afterKeyword? name.toList cs = some (cs.drop name.toList.length) := by
  have starts : startsWithWord [name] cs := ((Bool.and_eq_true _ _).mp word).2
  rw [startsWithWord, List.any_cons, List.any_nil, Bool.or_false, afterWord?] at starts
  split at starts
  · rename_i after read
    rw [read, afterKeyword?_eq_drop read]
  · cases starts

/-- A table reference that begins before the fence ends before it. -/
theorem tableReference_le {before : Option Char} {left : List Char} {n : Nat}
    {reference : TableReference} (fence : Fence front rest) (suffix : left <:+ front)
    (nonempty : left ≠ []) (hit : tableReference before (left ++ rest) = some (n, reference)) :
    n ≤ left.length := by
  obtain ⟨start, place, rfl⟩ := start_of_tableReference hit
  obtain ⟨c, tail, rfl⟩ := List.exists_cons_of_ne_nil nonempty
  have behind : RestOf front rest (tail ++ rest) := ⟨tail, (List.suffix_cons c tail).trans suffix, rfl⟩
  have begins : RestOf front rest start := by
    rcases place with rfl | comma | ⟨word, rfl⟩
    · exact ⟨c :: tail, suffix, rfl⟩
    · obtain ⟨-, rfl⟩ := List.cons.inj comma
      exact behind
    · -- The first letter of JOIN stands before the fence, and no other begins one.
      have read := afterKeyword?_of_isWordAt word
      change afterKeyword? ('J' :: ['O', 'I', 'N']) (c :: (tail ++ rest)) = _ at read
      rw [afterKeyword?] at read
      split at read
      · exact behind.keyword fence (by decide) read
      · cases read
  obtain ⟨left, -, same⟩ := begins.readTableReference fence
  rw [same]
  simp only [List.length_append]
  omega

section Comma

variable {tail : List Char}

private theorem identifier?_comma : identifier? rule (',' :: tail) = none := by
  cases rule <;> rfl

private theorem identifier?_le_of_comma {left : List Char} {n : Nat} (unquoted : '"' ∉ left)
    (nonempty : left ≠ []) (read : identifier? rule (left ++ ',' :: tail) = some n) :
    n ≤ left.length := by
  obtain ⟨c, left, rfl⟩ := List.exists_cons_of_ne_nil nonempty
  have plain : c ≠ '"' := by
    rintro rfl
    exact unquoted List.mem_cons_self
  rw [List.cons_append, identifier?, if_neg plain] at read
  split at read
  · obtain rfl := Option.some.inj read
    have stops : (',' :: tail).takeWhile rule.continuesName = [] := by
      cases rule <;> rfl
    rw [List.takeWhile_append, stops, List.append_nil]
    split
    · rfl
    · exact Nat.succ_le_succ (List.takeWhile_sublist _).length_le
  · cases read

theorem fence_comma (unquoted : '"' ∉ front) : Fence front (',' :: tail) where
  begins := ⟨',', tail, rfl, by decide, by decide, by decide⟩
  unquoted := unquoted
  noName := .inr fun rule => identifier?_comma
  identifier := fun rule left n suffix nonempty read =>
    identifier?_le_of_comma (fun quote => unquoted (suffix.subset quote)) nonempty read
  dot := by
    intro rule left token after suffix read
    unfold dotIdentifier? at read
    split at read
    · cases read
    · rename_i start dot
      obtain ⟨n, identifier, parts⟩ := Option.map_eq_some_iff.mp read
      obtain ⟨-, rfl⟩ := Prod.mk.inj parts
      obtain ⟨inner, dotted, rfl⟩ := afterDot?_eq_some.mp dot
      have stays : trimFrontChars (',' :: tail) = ',' :: tail := rfl
      obtain ⟨trimmed, trimmedSuffix, whole⟩ := RestOf.trim_of_eq stays ⟨left, suffix, rfl⟩
      rw [dotted] at whole
      cases trimmed with
      | nil => cases whole
      | cons d behind =>
        rw [List.cons_append] at whole
        obtain ⟨rfl, rfl⟩ := List.cons.inj whole
        have inside := (List.suffix_cons '.' behind).trans trimmedSuffix
        obtain ⟨named, namedSuffix, same⟩ := RestOf.trim_of_eq stays ⟨behind, inside, rfl⟩
        rw [same] at identifier ⊢
        cases named with
        | nil =>
          rw [List.nil_append, identifier?_comma] at identifier
          cases identifier
        | cons e named =>
          have short := identifier?_le_of_comma (fun quote => unquoted (namedSuffix.subset quote))
            (by simp) identifier
          exact ⟨(e :: named).drop n, (List.drop_suffix _ _).trans namedSuffix,
            List.drop_append_of_le_length short⟩

end Comma

/-- JOIN is a fence where it is not joined to the text before it. -/
theorem fence_join {word tail : List Char} (unquoted : '"' ∉ front) (parted : Parted front)
    (spelled : word.map Char.toUpper = "JOIN".toList) (apart : startsApart tail) :
    Fence front (word ++ tail) := by
  have capitals : "JOIN".toList = ['J', 'O', 'I', 'N'] := rfl
  obtain ⟨c, letters, same, first, -⟩ := List.map_eq_cons_iff.mp (spelled.trans capitals)
  have meets : meetsLetter 'J' c := by
    have upper := meetsLetter_toUpper c
    rwa [first] at upper
  have either : c = 'J' ∨ c = 'j' := by
    have letter := eq_toUpper_or c
    rwa [first] at letter
  have name : startsApart (word ++ tail) = false := by
    have identifier : isIdentifierChar c := isIdentifierChar_of_meetsLetter (by decide) meets
    rw [same]
    simp [startsApart, identifier]
  have unread : ∀ rule left n, left <:+ front → left ≠ [] →
      identifier? rule (left ++ (word ++ tail)) = some n → n ≤ left.length := by
    intro rule left n suffix nonempty read
    have stays : LeftOf front (word ++ tail) (left ++ (word ++ tail)) :=
      ⟨left, nonempty, suffix, rfl⟩
    obtain ⟨more, some_more, -, dropped⟩ := stays.identifier parted unquoted read
    have lengths := congrArg List.length dropped
    have positive := List.length_pos_iff.mpr some_more
    simp only [List.length_drop, List.length_append] at lengths
    omega
  refine ⟨⟨c, letters ++ tail, by rw [same]; rfl, ?_⟩, unquoted, .inl ?_, unread, ?_⟩
  · rcases either with rfl | rfl <;> decide
  · exact startsWithWord_spelled spelled (by decide) apart
  · intro rule left token after suffix read
    cases left with
    | nil =>
      have undotted : (trimFrontChars (word ++ tail)).head? ≠ some '.' := by
        rw [trimFrontChars_of_name name, same]
        rcases either with rfl | rfl <;> simp
      rw [List.nil_append, dotIdentifier?, afterDot?_eq_none undotted] at read
      cases read
    | cons d left =>
      have stays : LeftOf front (word ++ tail) (d :: left ++ (word ++ tail)) :=
        ⟨d :: left, by simp, suffix, rfl⟩
      obtain ⟨more, -, inside, rest⟩ := stays.dotIdentifier parted unquoted name read
      exact ⟨more, inside, rest⟩

end ReportQuery.Sql
