import ReportQuery.Proofs.Sql.Fence

set_option autoImplicit false
set_option relaxedAutoImplicit false

/-!
The scan of a table list reads the name of every table that stands at a place of the list.
-/

namespace ReportQuery.Sql

open Text

variable {front rest cs gap first part : List Char} {others : List (List Char × List Char)}

private theorem startsWithWord_mono {some more : List String} (subset : some ⊆ more)
    (starts : startsWithWord some cs) : startsWithWord more cs := by
  obtain ⟨name, member, word⟩ := List.any_eq_true.mp starts
  exact List.any_eq_true.mpr ⟨name, subset member, word⟩

private theorem afterKeywordBlanks?_name {name : String} (capitals : isCapitals name)
    (reserved : name ∈ reservedFirst) (isFirst : IsAsciiName first) (apart : startsApart rest)
    (free : ¬ startsWithWord reservedFirst first) :
    afterKeywordBlanks? name (first ++ rest) = none := by
  rw [Option.eq_none_iff_forall_ne_some]
  intro after read
  obtain ⟨behind, keyword, blanks⟩ := Option.bind_eq_some_iff.mp read
  obtain ⟨left, inside, rfl⟩ := afterKeyword?_append capitals apart keyword
  cases left with
  | nil =>
    refine free (List.any_eq_true.mpr ⟨name, reserved, ?_⟩)
    simp [afterWord?, inside, isWordChar?]
  | cons d left =>
    have member : d ∈ first := by
      have dropped := afterKeyword?_eq_drop inside
      exact (List.drop_suffix _ first).subset (dropped ▸ List.mem_cons_self)
    rw [List.cons_append, afterBlanks?, if_neg] at blanks
    · cases blanks
    · simp [not_isBlank_of_isIdentifierChar (isIdentifierChar_of_mem isFirst.1 member)]

theorem tableName_name (isDot : ∀ dot ∈ others.map Prod.fst, trimChars dot = ['.'])
    (names : ∀ part ∈ first :: others.map Prod.snd, IsAsciiName part)
    (ends : startsApart rest ∧ (trimFrontChars rest).head? ≠ some '.')
    (free : ¬ startsWithWord reservedFirst first) :
    tableName (dottedText first others ++ rest) = (first :: others.map Prod.snd, rest) := by
  obtain ⟨isFirst, areOthers⟩ := List.forall_mem_cons.mp names
  have apart := startsApart_others isDot ends.1
  have unread : ¬ startsWithWord ("AS" :: clauseKeywords) (dottedText first others ++ rest) := by
    intro starts
    rw [dottedText, List.append_assoc] at starts
    refine free (startsWithWord_mono ?_ (startsWithWord_append (by decide) apart starts))
    intro name member
    rcases List.mem_cons.mp member with rfl | clause
    · exact List.mem_cons_self
    · exact List.mem_cons_of_mem _ (List.mem_cons_of_mem _ clause)
  rw [tableName, if_neg unread, dottedText, List.append_assoc, identifier?_name isFirst apart]
  dsimp only
  rw [List.drop_left, dottedTail_name isDot areOthers ends, List.take_left]

/-- A part that is one identifier is found as a whole. -/
theorem findAll_identifier (nonempty : part ≠ [])
    (read : identifier? .exact (part ++ []) = some part.length) :
    findAll (fun _ cs => (identifier? .exact cs).map fun n => (n, cs.take n)) part = [part] := by
  have hit : (identifier? .exact (part ++ [])).map (fun n => (n, (part ++ []).take n)) =
      some (part.length, part) := by
    rw [read, Option.map_some, List.append_nil, List.take_length]
  have cut : pieces (fun _ cs => (identifier? .exact cs).map fun n => (n, cs.take n)) none
      (part ++ []) = _ := pieces_append_of_match nonempty hit
  rw [List.append_nil, pieces_nil] at cut
  rw [findAll, cut]
  rfl

private theorem findAll_name (name : IsAsciiName part) :
    findAll (fun _ cs => (identifier? .exact cs).map fun n => (n, cs.take n)) part = [part] := by
  refine findAll_identifier ?_ (identifier?_name name rfl)
  rintro rfl
  cases name.1

theorem nameParts_name (names : ∀ part ∈ first :: others.map Prod.snd, IsAsciiName part) :
    nameParts (first :: others.map Prod.snd) =
      (first :: others.map Prod.snd).map String.ofList := by
  obtain ⟨isFirst, areOthers⟩ := List.forall_mem_cons.mp names
  have whole : ∀ part ∈ others.map Prod.snd, findAll (fun _ cs =>
      (identifier? .exact cs).map fun n => (n, cs.take n)) part = [part] := by
    intro part member
    exact findAll_name (areOthers part member)
  have flat : (others.map Prod.snd).flatMap (findAll fun _ cs =>
      (identifier? .exact cs).map fun n => (n, cs.take n)) = others.map Prod.snd := by
    rw [List.flatMap_congr whole]
    exact List.flatMap_singleton' _
  rw [nameParts, flat, List.map_cons, identifierName_of_name isFirst]
  refine congrArg _ (List.map_congr_left fun part member => ?_)
  exact identifierName_of_name (areOthers part member)

theorem length_aliasAfter?_le {token after : List Char} (read : aliasAfter? cs = some (token, after)) :
    after.length ≤ cs.length := by
  have named {start token after : List Char}
      (read : (aliasName? start).map (fun n => (start.take n, start.drop n)) = some (token, after)) :
      after <:+ start := by
    obtain ⟨n, -, parts⟩ := Option.map_eq_some_iff.mp read
    obtain ⟨-, rfl⟩ := Prod.mk.inj parts
    exact List.drop_suffix n start
  have blanked {start after : List Char} (read : afterBlanks? start = some after) :
      after <:+ start := by
    cases start with
    | nil => cases read
    | cons c start =>
      rw [afterBlanks?] at read
      split at read
      · cases read
        exact (List.dropWhile_suffix _).trans (List.suffix_cons c start)
      · cases read
  unfold aliasAfter? at read
  split at read
  · cases read
  · rename_i start blanks
    dsimp only at read
    split at read
    · rename_i found word
      obtain rfl := Option.some.inj read
      obtain ⟨behind, keyword, name⟩ := Option.bind_eq_some_iff.mp word
      obtain ⟨middle, letters, gap⟩ := Option.bind_eq_some_iff.mp keyword
      have inside : middle <:+ start := afterKeyword?_eq_drop letters ▸ List.drop_suffix _ start
      exact ((((named name).trans (blanked gap)).trans inside).trans (blanked blanks)).length_le
    · exact ((named read).trans (blanked blanks)).length_le

private theorem trimFrontChars_blanks {blanks : List Char} (allBlank : ∀ c ∈ blanks, isBlank c)
    (name : startsApart rest = false) : trimFrontChars (blanks ++ rest) = rest := by
  rw [trimFrontChars, List.dropWhile_append_of_pos allBlank, ← trimFrontChars,
    trimFrontChars_of_name name]

private theorem afterKeywordBlanks?_spelled {name : String} {word blanks : List Char}
    (spelled : word.map Char.toUpper = name.toList) (some_blank : blanks ≠ [])
    (allBlank : ∀ c ∈ blanks, isBlank c) (begins : startsApart rest = false) :
    afterKeywordBlanks? name (word ++ (blanks ++ rest)) = some rest := by
  obtain ⟨c, blanks, rfl⟩ := List.exists_cons_of_ne_nil some_blank
  obtain ⟨first, others⟩ := List.forall_mem_cons.mp allBlank
  rw [afterKeywordBlanks?, afterKeyword?_spelled spelled, Option.bind_some, List.cons_append,
    afterBlanks?, if_pos first, trimFrontChars_blanks others begins]

/-- ONLY and LATERAL are passed, and no name is taken for one of them. -/
private theorem start_of_gap (isGap : IsGap gap) (isFirst : IsAsciiName first)
    (apart : startsApart rest) (free : ¬ startsWithWord reservedFirst first) :
    ((afterKeywordBlanks? "ONLY" (trimFrontChars (gap ++ (first ++ rest)))).orElse fun _ =>
        afterKeywordBlanks? "LATERAL" (trimFrontChars (gap ++ (first ++ rest)))).getD
      (trimFrontChars (gap ++ (first ++ rest))) = first ++ rest := by
  have begins := startsApart_name isFirst.1 rest
  rcases isGap with blank | ⟨left, word, right, rfl, leftBlank, modifier, some_blank, rightBlank⟩
  · rw [trimFrontChars_blanks blank begins,
      afterKeywordBlanks?_name (by decide) (by decide) isFirst apart free,
      afterKeywordBlanks?_name (by decide) (by decide) isFirst apart free]
    rfl
  · have trimmed (begun : startsApart (word ++ (right ++ (first ++ rest))) = false) :
        trimFrontChars (left ++ (word ++ right) ++ (first ++ rest)) =
          word ++ (right ++ (first ++ rest)) := by
      rw [List.append_assoc, List.append_assoc, trimFrontChars_blanks leftBlank begun]
    rcases modifier with only | lateral
    · rw [trimmed (startsApart_spelled (by decide) (by decide) only _),
        afterKeywordBlanks?_spelled only some_blank rightBlank begins]
      rfl
    · have unread : afterKeywordBlanks? "ONLY" (word ++ (right ++ (first ++ rest))) = none := by
        have capitals : "LATERAL".toList = 'L' :: "ATERAL".toList := rfl
        obtain ⟨c, letters, rfl, upper, -⟩ := List.map_eq_cons_iff.mp (lateral.trans capitals)
        have letter := eq_toUpper_or c
        rw [upper] at letter
        rcases letter with rfl | rfl <;> rfl
      rw [trimmed (startsApart_spelled (by decide) (by decide) lateral _), unread,
        afterKeywordBlanks?_spelled lateral some_blank rightBlank begins]
      rfl

/-- Behind its place a table is read by its whole name. -/
theorem readTableReference_name (isGap : IsGap gap)
    (isDot : ∀ dot ∈ others.map Prod.fst, trimChars dot = ['.'])
    (names : ∀ part ∈ first :: others.map Prod.snd, IsAsciiName part)
    (ends : startsApart rest ∧ (trimFrontChars rest).head? ≠ some '.')
    (free : ¬ startsWithWord reservedFirst first) :
    (readTableReference (gap ++ (dottedText first others ++ rest))).1.parts =
        (first :: others.map Prod.snd).map String.ofList ∧
      (readTableReference (gap ++ (dottedText first others ++ rest))).2.length ≤ rest.length := by
  have begins : startsApart (dottedText first others ++ rest) = false := by
    rw [dottedText, List.append_assoc]
    exact startsApart_name (names first List.mem_cons_self).1 _
  have start : ((afterKeywordBlanks? "ONLY"
      (trimFrontChars (gap ++ (dottedText first others ++ rest)))).orElse fun _ =>
        afterKeywordBlanks? "LATERAL"
          (trimFrontChars (gap ++ (dottedText first others ++ rest)))).getD
      (trimFrontChars (gap ++ (dottedText first others ++ rest))) =
        dottedText first others ++ rest := by
    rw [dottedText, List.append_assoc]
    exact start_of_gap isGap (names first List.mem_cons_self) (startsApart_others isDot ends.1) free
  unfold readTableReference
  dsimp only
  rw [start, tableName_name isDot names ends free, nameParts_name names]
  dsimp only
  split
  · rename_i token after found
    exact ⟨rfl, length_aliasAfter?_le found⟩
  · exact ⟨rfl, le_rfl⟩

private theorem IsGap.cons {c : Char} (blank : isBlank c) (isGap : IsGap gap) : IsGap (c :: gap) := by
  rcases isGap with all | ⟨left, word, right, rfl, leftBlank, modifier, some_blank, rightBlank⟩
  · exact .inl (List.forall_mem_cons.mpr ⟨blank, all⟩)
  · exact .inr ⟨c :: left, word, right, rfl, List.forall_mem_cons.mpr ⟨blank, leftBlank⟩, modifier,
      some_blank, rightBlank⟩

private theorem tableName_fence (fence : Fence front rest) : tableName rest = ([], rest) := by
  unfold tableName
  split
  · rfl
  · rename_i free
    rcases fence.noName with word | none
    · refine absurd (startsWithWord_mono ?_ word) free
      exact List.subset_cons_self _ _
    · rw [none]

/-- Nothing is read at a fence but what it introduces. -/
private theorem readTableReference_fence (fence : Fence front rest) :
    (readTableReference rest).2 = rest := by
  have name := tableName_fence fence
  obtain ⟨c, tail, rfl, nonblank, -, unmet⟩ := fence.begins
  have trimmed : trimFrontChars (c :: tail) = c :: tail := by
    rw [trimFrontChars, List.dropWhile_cons_of_neg (by simp [nonblank])]
  have unread : ∀ name letter letters, name.toList = letter :: letters →
      letter ∈ "ONLYLATERALASOIN".toList → afterKeywordBlanks? name (c :: tail) = none := by
    intro name letter letters spelled member
    have miss := List.all_eq_true.mp unmet letter member
    rw [afterKeywordBlanks?, spelled, afterKeyword?, if_neg (by simpa using miss)]
    rfl
  have noAlias : aliasAfter? (c :: tail) = none := by
    rw [aliasAfter?, afterBlanks?, nonblank]
    rfl
  have start : ((afterKeywordBlanks? "ONLY" (c :: tail)).orElse fun _ =>
      afterKeywordBlanks? "LATERAL" (c :: tail)).getD (c :: tail) = c :: tail := by
    rw [unread "ONLY" 'O' "NLY".toList (by decide) (by decide),
      unread "LATERAL" 'L' "ATERAL".toList (by decide) (by decide)]
    rfl
  unfold readTableReference
  dsimp only
  rw [trimmed, start, name]
  dsimp only
  rw [noAlias]

private theorem tableReference_comma (before : Option Char) (tail : List Char) :
    tableReference before (',' :: tail) =
      some ((',' :: tail).length - (readTableReference tail).2.length,
        (readTableReference tail).1) := by
  have fence : Fence [] (',' :: tail) := fence_comma List.not_mem_nil
  unfold tableReference
  cases before with
  | some c => rfl
  | none =>
    have nothing : (',' :: tail).length - (readTableReference (',' :: tail)).2.length = 0 := by
      rw [readTableReference_fence fence, Nat.sub_self]
    exact if_pos nothing

private theorem tableReference_join {before : Option Char} {word tail : List Char}
    (fence : Fence front (word ++ tail)) (spelled : word.map Char.toUpper = "JOIN".toList)
    (isJoin : isWordAt ["JOIN"] before (word ++ tail)) :
    tableReference before (word ++ tail) =
      some ((word ++ tail).length - (readTableReference tail).2.length,
        (readTableReference tail).1) := by
  have length : word.length = 4 := by
    have lengths := congrArg List.length spelled
    rw [List.length_map] at lengths
    exact lengths
  have behind : (word ++ tail).drop 4 = tail := by
    rw [← length, List.drop_left]
  have nothing : (word ++ tail).length - (readTableReference (word ++ tail)).2.length = 0 := by
    rw [readTableReference_fence fence, Nat.sub_self]
  have joined : joinedReference before (word ++ tail) =
      some (referenceFrom (word ++ tail) tail) := by
    unfold joinedReference
    split
    · rename_i rest comma
      have unread : startsWithWord ["JOIN"] (',' :: rest) = false := rfl
      rw [comma, isWordAt, unread, Bool.and_false] at isJoin
      cases isJoin
    · rw [if_pos isJoin, behind]
  unfold tableReference
  cases before with
  | some c => exact joined
  | none => exact (if_pos nothing).trans joined

/-- The scan of a table list finds every table that stands at a place of the list. -/
theorem exists_found_of_listPlace (place : ListPlace front) (unquoted : '"' ∉ front)
    (isDot : ∀ dot ∈ others.map Prod.fst, trimChars dot = ['.'])
    (names : ∀ part ∈ first :: others.map Prod.snd, IsAsciiName part)
    (ends : startsApart rest ∧ (trimFrontChars rest).head? ≠ some '.')
    (free : ¬ startsWithWord reservedFirst first) :
    ∃ source reference, .found source reference ∈
        pieces tableReference none (front ++ (dottedText first others ++ rest)) ∧
      reference.parts = (first :: others.map Prod.snd).map String.ofList := by
  have long : 0 < (dottedText first others).length := by
    have begins : startsApart (dottedText first others) = false :=
      startsApart_name (names first List.mem_cons_self).1 _
    refine List.length_pos_iff.mpr fun none => ?_
    rw [none] at begins
    cases begins
  -- Behind the fence the whole name is read, so that the match is not empty.
  have found {before : Option Char} {start gap : List Char} (isGap : IsGap gap)
      (reaches : (gap ++ (dottedText first others ++ rest)).length ≤ start.length)
      (hit : tableReference before start = some (start.length -
          (readTableReference (gap ++ (dottedText first others ++ rest))).2.length,
        (readTableReference (gap ++ (dottedText first others ++ rest))).1)) :
      ∃ source reference, .found source reference ∈ pieces tableReference before start ∧
        reference.parts = (first :: others.map Prod.snd).map String.ofList := by
    obtain ⟨parts, short⟩ := readTableReference_name isGap isDot names ends free
    rw [List.length_append, List.length_append] at reaches
    obtain ⟨n, positive⟩ : ∃ n, start.length -
        (readTableReference (gap ++ (dottedText first others ++ rest))).2.length = n + 1 :=
      Nat.exists_eq_succ_of_ne_zero (by omega)
    rw [positive] at hit
    have nonempty : start ≠ [] := by
      rintro rfl
      rw [List.length_nil] at reaches
      omega
    obtain ⟨source, member⟩ := exists_found_of_match nonempty hit
    exact ⟨source, _, member, parts⟩
  cases place with
  | start isGap =>
    refine found isGap le_rfl ?_
    obtain ⟨-, short⟩ := readTableReference_name isGap isDot names ends free
    have consumes : ¬ (front ++ (dottedText first others ++ rest)).length -
        (readTableReference (front ++ (dottedText first others ++ rest))).2.length = 0 := by
      rw [List.length_append, List.length_append]
      omega
    unfold tableReference
    exact if_neg consumes
  | @comma front gap isGap =>
    have quotes : '"' ∉ front := fun quote => unquoted (by simp [quote])
    have fence : Fence front (',' :: (gap ++ (dottedText first others ++ rest))) :=
      fence_comma quotes
    obtain ⟨ps, split⟩ := exists_pieces_append none fun _ _ _ _ nonempty suffix hit =>
      tableReference_le fence suffix nonempty hit
    obtain ⟨source, reference, member, parts⟩ := found isGap
      (by rw [List.length_cons]; exact Nat.le_succ _)
      (tableReference_comma (front.getLast?.or none) _)
    refine ⟨source, reference, ?_, parts⟩
    rw [List.append_assoc, List.cons_append, split]
    exact List.mem_append_right ps member
  | @join front word gap c spelled parted blank isGap =>
    have quotes : '"' ∉ front := fun quote => unquoted (by simp [quote])
    have apart : startsApart (c :: gap ++ (dottedText first others ++ rest)) := by
      simp [startsApart, isIdentifierChar_eq_false_of_isBlank blank]
    have fence : Fence front (word ++ (c :: gap ++ (dottedText first others ++ rest))) :=
      fence_join quotes parted spelled apart
    obtain ⟨ps, split⟩ := exists_pieces_append none fun _ _ _ _ nonempty suffix hit =>
      tableReference_le fence suffix nonempty hit
    have isJoin : isWordAt ["JOIN"] (front.getLast?.or none)
        (word ++ (c :: gap ++ (dottedText first others ++ rest))) := by
      obtain ⟨d, last, outside⟩ := parted.last
      refine isWordAt_spelled spelled (by decide) (fun e member => ?_) apart
      rw [last, Option.or_none] at member
      obtain rfl := Option.some.inj member
      exact outside
    obtain ⟨source, reference, member, parts⟩ := found (isGap.cons blank)
      (by simp only [List.length_append, List.length_cons]; omega)
      (tableReference_join fence spelled isJoin)
    refine ⟨source, reference, ?_, parts⟩
    rw [List.append_assoc, List.append_assoc, split]
    exact List.mem_append_right ps member

end ReportQuery.Sql
