import ReportQuery.Proofs.Sql.NamedTable
import ReportQuery.Proofs.Text.Scan

set_option autoImplicit false
set_option relaxedAutoImplicit false

/-!
How the scans meet a dotted name that is not joined to the text before it: no match that begins
before the name reaches into it, and the name is read to its end.
-/

namespace ReportQuery.Sql

open Text

variable {front rest cs word : List Char} {c : Char} {rule : LetterRule}

theorem afterDot?_eq_some {after : List Char} :
    afterDot? cs = some after ↔
      ∃ inner, trimFrontChars cs = '.' :: inner ∧ after = trimFrontChars inner := by
  unfold afterDot?
  split
  · rename_i inner dotted
    simp [dotted, eq_comm]
  · rename_i undotted
    constructor
    · exact fun none => absurd none (by simp)
    · rintro ⟨inner, dotted, -⟩
      exact absurd dotted (undotted inner)

theorem afterDot?_eq_none (undotted : (trimFrontChars cs).head? ≠ some '.') : afterDot? cs = none := by
  rw [Option.eq_none_iff_forall_ne_some]
  intro after dot
  obtain ⟨inner, dotted, -⟩ := afterDot?_eq_some.mp dot
  exact undotted (by rw [dotted]; rfl)

theorem dottedTail_of_none (none : dotIdentifier? rule cs = none) :
    dottedTail rule cs = ([], cs) := by
  rw [dottedTail]
  split
  · rfl
  · rename_i read
    rw [none] at read
    cases read

theorem dottedTail_of_some {token after : List Char}
    (read : dotIdentifier? rule cs = some (token, after)) :
    dottedTail rule cs = (token :: (dottedTail rule after).1, (dottedTail rule after).2) := by
  rw [dottedTail]
  split
  · rename_i none
    rw [none] at read
    cases read
  · rename_i token' after' read'
    obtain ⟨rfl, rfl⟩ := Prod.mk.inj (Option.some.inj (read.symm.trans read'))
    rfl

theorem not_isBlank_of_isIdentifierChar (identifier : isIdentifierChar c) :
    isBlank c = false := by
  by_contra blank
  rw [isIdentifierChar_eq_false_of_isBlank (by simpa using blank)] at identifier
  cases identifier

/-- Text that begins with an identifier's character. -/
private theorem exists_cons_of_not_startsApart (name : startsApart cs = false) :
    ∃ c tail, cs = c :: tail ∧ isIdentifierChar c := by
  cases cs with
  | nil => simp [startsApart] at name
  | cons c tail => exact ⟨c, tail, rfl, by simpa [startsApart] using name⟩

theorem trimFrontChars_of_name (name : startsApart cs = false) : trimFrontChars cs = cs := by
  obtain ⟨c, tail, rfl, identifier⟩ := exists_cons_of_not_startsApart name
  rw [trimFrontChars, List.dropWhile_cons_of_neg (by simp [not_isBlank_of_isIdentifierChar identifier])]

/-- A mark that comes first after blanks stands before a name, not in it. -/
private theorem trimFrontChars_append_name {inner : List Char} (name : startsApart rest = false)
    (first : trimFrontChars (front ++ rest) = c :: inner) (mark : isIdentifierChar c = false) :
    ∃ tail, trimFrontChars front = c :: tail ∧ inner = tail ++ rest := by
  rw [trimFrontChars, List.dropWhile_append] at first
  cases trimmed : front.dropWhile isBlank with
  | nil =>
    rw [trimmed, List.isEmpty_nil, if_pos rfl, ← trimFrontChars, trimFrontChars_of_name name] at first
    obtain ⟨d, tail, rfl, identifier⟩ := exists_cons_of_not_startsApart name
    obtain rfl := (List.cons.inj first).1
    rw [mark] at identifier
    cases identifier
  | cons d tail =>
    rw [trimmed, if_neg (by simp), List.cons_append] at first
    obtain ⟨rfl, rfl⟩ := List.cons.inj first
    exact ⟨tail, trimmed, rfl⟩

section Front

theorem Parted.of_suffix (parted : Parted cs) (suffix : front <:+ cs) (nonempty : front ≠ []) :
    Parted front := by
  obtain ⟨left, rfl⟩ := suffix
  obtain ⟨c, last, apart⟩ := parted.last
  refine ⟨⟨c, ?_, apart⟩, ?_⟩
  · rwa [List.getLast?_append_of_ne_nil _ nonempty] at last
  · by_contra dot
    obtain ⟨before, blanks, rfl, allBlank⟩ := endsInDot_iff.mp (by simpa using dot)
    have whole : endsInDot (left ++ (before ++ '.' :: blanks)) :=
      endsInDot_iff.mpr ⟨left ++ before, blanks, by simp, allBlank⟩
    rw [parted.undotted] at whole
    cases whole

/-- The text is what a scan has left of the front, at least one character, before the rest. -/
def LeftOf (front rest cs : List Char) : Prop :=
  ∃ left, left ≠ [] ∧ left <:+ front ∧ cs = left ++ rest

variable (parted : Parted front) (unquoted : '"' ∉ front) (name : startsApart rest = false)

include parted in
/-- A run of characters that all belong to identifiers stops inside the front. -/
theorem LeftOf.dropWhile {property : Char → Bool} (left : LeftOf front rest cs)
    (identifiers : ∀ c, property c → isIdentifierChar c) :
    LeftOf front rest (cs.dropWhile property) := by
  obtain ⟨left, nonempty, suffix, rfl⟩ := left
  obtain ⟨c, last, apart⟩ := (parted.of_suffix suffix nonempty).last
  have stops : left.dropWhile property ≠ [] := by
    intro none
    have all := List.dropWhile_eq_nil_iff.mp none c (List.mem_of_getLast? last)
    rw [identifiers c all] at apart
    cases apart
  refine ⟨left.dropWhile property, stops, (List.dropWhile_suffix _).trans suffix, ?_⟩
  rw [List.dropWhile_append, if_neg (by simpa using stops)]

include parted unquoted in
theorem LeftOf.identifier {n : Nat} (left : LeftOf front rest cs)
    (read : identifier? rule cs = some n) : LeftOf front rest (cs.drop n) := by
  obtain ⟨left, nonempty, suffix, rfl⟩ := left
  cases left with
  | nil => exact absurd rfl nonempty
  | cons c cs =>
    have plain : c ≠ '"' := by
      rintro rfl
      exact unquoted (suffix.subset List.mem_cons_self)
    rw [List.cons_append, identifier?, if_neg plain] at read
    by_cases starts : rule.startsName c
    · rw [if_pos starts] at read
      obtain rfl := Option.some.inj read
      have continues : rule.continuesName c := by simp [LetterRule.continuesName, starts]
      have whole : LeftOf front rest (c :: (cs ++ rest)) := ⟨c :: cs, by simp, suffix, rfl⟩
      have identifiers : ∀ d, rule.continuesName d → isIdentifierChar d := fun _ =>
        isIdentifierChar_of_continuesName
      have stopped := whole.dropWhile parted identifiers
      rw [List.dropWhile_cons_of_pos continues] at stopped
      rw [List.cons_append, List.drop_succ_cons, drop_length_takeWhile]
      exact stopped
    · rw [if_neg starts] at read
      cases read

include parted name in
theorem LeftOf.afterDot {after : List Char} (left : LeftOf front rest cs)
    (dot : afterDot? cs = some after) : LeftOf front rest after := by
  obtain ⟨left, nonempty, suffix, rfl⟩ := left
  obtain ⟨inner, dotted, rfl⟩ := afterDot?_eq_some.mp dot
  obtain ⟨tail, trimmed, rfl⟩ := trimFrontChars_append_name name dotted (by decide)
  have whole : left = left.takeWhile isBlank ++ '.' :: tail := by
    rw [← trimmed, trimFrontChars, List.takeWhile_append_dropWhile]
  have more : tail.dropWhile isBlank ≠ [] := by
    intro none
    have dotEnds := endsInDot_iff.mpr ⟨_, _, whole, List.dropWhile_eq_nil_iff.mp none⟩
    rw [(parted.of_suffix suffix nonempty).undotted] at dotEnds
    cases dotEnds
  have inLeft : tail <:+ left := ⟨left.takeWhile isBlank ++ ['.'], by simpa using whole.symm⟩
  refine ⟨tail.dropWhile isBlank, more, ((List.dropWhile_suffix _).trans inLeft).trans suffix, ?_⟩
  rw [trimFrontChars, List.dropWhile_append, if_neg (by simpa using more)]

include parted unquoted name in
theorem LeftOf.dotIdentifier {token after : List Char} (left : LeftOf front rest cs)
    (read : dotIdentifier? rule cs = some (token, after)) : LeftOf front rest after := by
  unfold dotIdentifier? at read
  split at read
  · cases read
  · rename_i start dot
    obtain ⟨n, identifier, parts⟩ := Option.map_eq_some_iff.mp read
    obtain ⟨-, rfl⟩ := Prod.mk.inj parts
    exact (left.afterDot parted name dot).identifier parted unquoted identifier

include parted unquoted name in
theorem LeftOf.dottedTail (left : LeftOf front rest cs) :
    LeftOf front rest (dottedTail rule cs).2 := by
  induction cs using dottedTail.induct rule with
  | case1 cs none =>
    rw [dottedTail_of_none none]
    exact left
  | case2 cs token after read _ tokens last _ ih =>
    rw [dottedTail_of_some read]
    exact ih (left.dotIdentifier parted unquoted name read)

end Front

private theorem identifier?_of_leadingIdentifier? {before : Option Char} {n : Nat}
    (leading : leadingIdentifier? before cs = some n) : identifier? .exact cs = some n := by
  unfold leadingIdentifier? at leading
  split at leading
  · split at leading
    · cases leading
    · exact leading
  · split at leading
    · cases leading
    · exact leading
  · exact leading

/-- A name that has been read up to `after` ends there or behind the parenthesis that follows. -/
private theorem endName_length (cs : List Char) (qualifiers : List (List Char))
    (after : List Char) :
    (endName cs qualifiers after).1 = cs.length - after.length ∨
      ∃ inside, trimFrontChars after = '(' :: inside ∧
        (endName cs qualifiers after).1 = cs.length - inside.length := by
  unfold endName
  dsimp only
  split
  · rename_i inside opens
    exact .inr ⟨inside, opens, rfl⟩
  · exact .inl rfl

private theorem endName_name (cs : List Char) (qualifiers : List (List Char))
    (after : List Char) :
    (endName cs qualifiers after).2 =
      ⟨qualifiers.map identifierName, (trimFrontChars after).head? == some '('⟩ := by
  unfold endName
  dsimp only
  split
  · rename_i inside opens
    rw [opens]
    rfl
  · rename_i closed
    have notCalled : ((trimFrontChars after).head? == some '(') = false := by
      rw [beq_eq_false_iff_ne]
      intro opens
      obtain ⟨inside, opens⟩ := List.head?_eq_some_iff.mp opens
      exact closed inside opens
    rw [notCalled]

/-- A dotted name ends behind the last of its parts, behind an asterisk or behind a parenthesis. -/
private theorem end_of_dottedName {before : Option Char} {n : Nat} {read : DottedName}
    (hit : dottedName before cs = some (n, read)) :
    ∃ k after, identifier? .exact cs = some k ∧
      (after = (dottedTail .exact (cs.drop k)).2 ∨
        afterDot? (dottedTail .exact (cs.drop k)).2 = some ('*' :: after)) ∧
      (n = cs.length - after.length ∨
        ∃ inside, trimFrontChars after = '(' :: inside ∧ n = cs.length - inside.length) := by
  unfold dottedName at hit
  split at hit
  · cases hit
  · rename_i k leading
    have first := identifier?_of_leadingIdentifier? leading
    dsimp only at hit
    split at hit
    · rename_i after asterisk
      obtain rfl : _ = n := congrArg Prod.fst (Option.some.inj hit)
      exact ⟨k, after, first, .inr asterisk, endName_length cs _ after⟩
    · cases hit
    · obtain rfl : _ = n := congrArg Prod.fst (Option.some.inj hit)
      exact ⟨k, _, first, .inl rfl, endName_length cs _ _⟩

/-- A dotted name that begins in the front ends there. -/
theorem dottedName_le {before : Option Char} {n : Nat} {read : DottedName} (parted : Parted front)
    (unquoted : '"' ∉ front) (name : startsApart rest = false) (nonempty : front ≠ [])
    (hit : dottedName before (front ++ rest) = some (n, read)) : n ≤ front.length := by
  have whole : LeftOf front rest (front ++ rest) := ⟨front, nonempty, List.suffix_rfl, rfl⟩
  obtain ⟨k, after, first, behind, length⟩ := end_of_dottedName hit
  have tail : LeftOf front rest (dottedTail .exact ((front ++ rest).drop k)).2 :=
    (whole.identifier parted unquoted first).dottedTail parted unquoted name
  obtain ⟨left, rfl⟩ : ∃ left, after = left ++ rest := by
    rcases behind with rfl | asterisk
    · obtain ⟨left, -, -, same⟩ := tail
      exact ⟨left, same⟩
    · obtain ⟨left, some_left, -, same⟩ := tail.afterDot parted name asterisk
      obtain ⟨c, left, rfl⟩ := List.exists_cons_of_ne_nil some_left
      exact ⟨left, (List.cons.inj same).2⟩
  rcases length with rfl | ⟨inside, opens, rfl⟩
  · simp only [List.length_append]
    omega
  · obtain ⟨tail, -, rfl⟩ := trimFrontChars_append_name name opens (by decide)
    simp only [List.length_append]
    omega

section Name

variable {first part dot : List Char} {others : List (List Char × List Char)}

/-- The part is an identifier of ASCII characters. -/
def IsAsciiName (part : List Char) : Prop :=
  isIdentifier part ∧ ∀ c ∈ part, c.toNat < 0x80

theorem isIdentifierChar_of_mem (identifier : isIdentifier part) (member : c ∈ part) :
    isIdentifierChar c := by
  cases part with
  | nil => cases member
  | cons d ds =>
    obtain ⟨starts, continues⟩ := (Bool.and_eq_true _ _).mp identifier
    rcases List.mem_cons.mp member with rfl | later
    · exact isIdentifierChar_of_isIdentifierStart starts
    · exact List.all_eq_true.mp continues c later

private theorem ne_quote_of_isIdentifier (identifier : isIdentifier (c :: cs)) : c ≠ '"' := by
  obtain ⟨starts, -⟩ := (Bool.and_eq_true _ _).mp identifier
  rintro rfl
  exact absurd starts (by decide)

theorem identifier?_name (name : IsAsciiName part) (apart : startsApart rest) :
    identifier? rule (part ++ rest) = some part.length := by
  obtain ⟨identifier, ascii⟩ := name
  cases part with
  | nil => cases identifier
  | cons c cs =>
    obtain ⟨starts, continues⟩ := (Bool.and_eq_true _ _).mp identifier
    have inside : ∀ d ∈ cs, rule.continuesName d := fun d member =>
      continuesName_of_isIdentifierChar (ascii d (List.mem_cons_of_mem c member))
        (List.all_eq_true.mp continues d member)
    have stops : rest.takeWhile rule.continuesName = [] := by
      cases rest with
      | nil => rfl
      | cons d tail =>
        have outside : ¬ rule.continuesName d := fun continues => by
          simp [startsApart, isIdentifierChar_of_continuesName continues] at apart
        exact List.takeWhile_cons_of_neg outside
    rw [List.cons_append, identifier?, if_neg (ne_quote_of_isIdentifier identifier),
      if_pos (startsName_of_isIdentifierStart (ascii c List.mem_cons_self) starts),
      List.takeWhile_append_of_pos inside, stops, List.append_nil, List.length_cons]

theorem startsApart_name (identifier : isIdentifier part) (rest : List Char) :
    startsApart (part ++ rest) = false := by
  cases part with
  | nil => cases identifier
  | cons c cs =>
    obtain ⟨starts, -⟩ := (Bool.and_eq_true _ _).mp identifier
    simp [startsApart, isIdentifierChar_of_isIdentifierStart starts]

/-- A dot with blanks around it. -/
theorem exists_of_trimChars_eq_dot (isDot : trimChars dot = ['.']) :
    ∃ left right, dot = left ++ '.' :: right ∧ (∀ c ∈ left, isBlank c) ∧ ∀ c ∈ right, isBlank c := by
  have front := List.takeWhile_append_dropWhile (p := isBlank) (l := dot)
  have back := List.takeWhile_append_dropWhile (p := isBlank) (l := (trimFrontChars dot).reverse)
  have same := congrArg List.reverse isDot
  rw [trimChars, trimBackChars, List.reverse_reverse, List.reverse_singleton] at same
  rw [same] at back
  have middle : trimFrontChars dot =
      '.' :: ((trimFrontChars dot).reverse.takeWhile isBlank).reverse := by
    have reversed := congrArg List.reverse back
    simpa using reversed.symm
  rw [← trimFrontChars, middle] at front
  refine ⟨_, _, front.symm, fun c => List.mem_takeWhile_imp, fun c member => ?_⟩
  exact List.mem_takeWhile_imp (List.mem_reverse.mp member)

theorem dotIdentifier?_name (isDot : trimChars dot = ['.']) (name : IsAsciiName part)
    (apart : startsApart rest) :
    dotIdentifier? rule (dot ++ (part ++ rest)) = some (part, rest) := by
  obtain ⟨left, right, rfl, leftBlank, rightBlank⟩ := exists_of_trimChars_eq_dot isDot
  have after : afterDot? ((left ++ '.' :: right) ++ (part ++ rest)) = some (part ++ rest) := by
    refine afterDot?_eq_some.mpr ⟨right ++ (part ++ rest), ?_, ?_⟩
    · rw [List.append_assoc, trimFrontChars, List.dropWhile_append_of_pos leftBlank]
      rfl
    · rw [trimFrontChars, List.dropWhile_append_of_pos rightBlank, ← trimFrontChars,
        trimFrontChars_of_name (startsApart_name name.1 rest)]
  rw [dotIdentifier?, after]
  simp [identifier?_name name apart]

/-- What follows a part of a dotted name is apart from it. -/
theorem startsApart_others (isDot : ∀ dot ∈ others.map Prod.fst, trimChars dot = ['.'])
    (apart : startsApart rest) :
    startsApart ((others.flatMap fun (dot, part) => dot ++ part) ++ rest) := by
  cases others with
  | nil => exact apart
  | cons joint others =>
    obtain ⟨left, right, same, leftBlank, -⟩ :=
      exists_of_trimChars_eq_dot (isDot joint.1 (by simp))
    simp only [List.flatMap_cons, same]
    cases left with
    | nil => simp [startsApart]; decide
    | cons c left =>
      simp [startsApart, isIdentifierChar_eq_false_of_isBlank (leftBlank c List.mem_cons_self)]

/-- The parts behind the first are read to the end of the name. -/
theorem dottedTail_name (isDot : ∀ dot ∈ others.map Prod.fst, trimChars dot = ['.'])
    (names : ∀ part ∈ others.map Prod.snd, IsAsciiName part)
    (ends : startsApart rest ∧ (trimFrontChars rest).head? ≠ some '.') :
    dottedTail rule ((others.flatMap fun (dot, part) => dot ++ part) ++ rest) =
      (others.map Prod.snd, rest) := by
  induction others with
  | nil =>
    have undotted : dotIdentifier? rule rest = none := by
      rw [dotIdentifier?, afterDot?_eq_none ends.2]
    exact dottedTail_of_none undotted
  | cons joint others ih =>
    have isDots := List.forall_mem_cons.mp isDot
    have isNames := List.forall_mem_cons.mp names
    rw [List.flatMap_cons, List.append_assoc, List.append_assoc,
      dottedTail_of_some (dotIdentifier?_name isDots.1 isNames.1 (startsApart_others isDots.2 ends.1)),
      ih isDots.2 isNames.2]
    rfl

theorem identifierName_of_name (name : IsAsciiName part) :
    identifierName part = String.ofList part := by
  obtain ⟨identifier, -⟩ := name
  cases part with
  | nil => cases identifier
  | cons c cs =>
    simp [identifierName, ne_quote_of_isIdentifier identifier]

/-- A name that is not joined to what stands before it begins there. -/
private theorem leadingIdentifier?_of_parted (parted : Parted front) (unquoted : '"' ∉ front)
    (name : startsApart cs = false) :
    leadingIdentifier? front.getLast? cs = identifier? .exact cs := by
  obtain ⟨c, last, apart⟩ := parted.last
  obtain ⟨before, rfl⟩ := List.getLast?_eq_some_iff.mp last
  obtain ⟨d, tail, rfl, identifier⟩ := exists_cons_of_not_startsApart name
  have plain : d ≠ '"' := by
    rintro rfl
    exact absurd identifier (by decide)
  have word : isWordChar c = false := by
    by_contra word
    rw [isIdentifierChar_of_isWordChar (by simpa using word)] at apart
    cases apart
  have undotted : c ≠ '.' := by
    rintro rfl
    have dotEnds := parted.undotted
    rw [endsInDot_append_of_not_isBlank before (by decide)] at dotEnds
    cases dotEnds
  have dollar : c ≠ '$' := by
    rintro rfl
    exact absurd apart (by decide)
  have quote : c ≠ '"' := by
    rintro rfl
    exact unquoted (by simp)
  rw [last]
  unfold leadingIdentifier?
  split
  · rename_i quoted _
    exact absurd (Option.some.inj quoted) plain
  · rename_i b here _
    obtain rfl := Option.some.inj here
    simp [word, undotted, dollar, quote]
  · rename_i none
    cases none

private theorem dottedName_of_tail {before : Option Char} {k : Nat} {tokens : List (List Char)}
    (leading : leadingIdentifier? before cs = some k)
    (tail : dottedTail .exact (cs.drop k) = (tokens, rest)) (undotted : afterDot? rest = none)
    (some_token : tokens ≠ []) :
    ∃ n, cs.length - rest.length ≤ n ∧
      dottedName before cs = some (n, ⟨(cs.take k :: tokens.dropLast).map identifierName,
        (trimFrontChars rest).head? == some '('⟩) := by
  have shorter : (trimFrontChars rest).length ≤ rest.length := (List.dropWhile_sublist _).length_le
  obtain ⟨token, others, rfl⟩ := List.exists_cons_of_ne_nil some_token
  have reaches : cs.length - rest.length ≤
      (endName cs (cs.take k :: (token :: others).dropLast) rest).1 := by
    rcases endName_length cs (cs.take k :: (token :: others).dropLast) rest with
      same | ⟨inside, opens, same⟩
    · exact same.ge
    · rw [opens, List.length_cons] at shorter
      rw [same]
      omega
  unfold dottedName
  rw [leading]
  dsimp only
  rw [tail]
  dsimp only
  rw [undotted]
  exact ⟨_, reaches, congrArg some (Prod.ext rfl (endName_name cs _ rest))⟩

/-- A dotted name is read to its end where it is not joined to the text before it. -/
theorem dottedName_name (parted : Parted front) (unquoted : '"' ∉ front)
    (isDot : ∀ dot ∈ others.map Prod.fst, trimChars dot = ['.'])
    (names : ∀ part ∈ first :: others.map Prod.snd, IsAsciiName part) (isDotted : others ≠ [])
    (ends : startsApart rest ∧ (trimFrontChars rest).head? ≠ some '.') :
    ∃ n, dottedName front.getLast? (dottedText first others ++ rest) =
      some (n + 1, ⟨((first :: others.map Prod.snd).dropLast).map String.ofList,
        (trimFrontChars rest).head? == some '('⟩) := by
  obtain ⟨isFirst, areOthers⟩ := List.forall_mem_cons.mp names
  rw [dottedText, List.append_assoc]
  have leading : leadingIdentifier? front.getLast?
      (first ++ ((others.flatMap fun (dot, part) => dot ++ part) ++ rest)) = some first.length := by
    rw [leadingIdentifier?_of_parted parted unquoted (startsApart_name isFirst.1 _),
      identifier?_name isFirst (startsApart_others isDot ends.1)]
  have tail : dottedTail .exact ((others.flatMap fun (dot, part) => dot ++ part) ++ rest) =
      (others.map Prod.snd, rest) := dottedTail_name isDot areOthers ends
  have some_token : others.map Prod.snd ≠ [] := by simpa using isDotted
  obtain ⟨n, long, read⟩ := dottedName_of_tail leading (by rwa [List.drop_left])
    (afterDot?_eq_none ends.2) some_token
  have qualifiers : (first :: (others.map Prod.snd).dropLast).map identifierName =
      ((first :: others.map Prod.snd).dropLast).map String.ofList := by
    rw [← List.dropLast_cons_of_ne_nil some_token]
    refine List.map_congr_left fun part member => identifierName_of_name (names part ?_)
    exact List.dropLast_subset _ member
  have nonempty : 0 < first.length := List.length_pos_iff.mpr fun none => by
    rw [none] at isFirst
    cases isFirst.1
  rw [List.length_append, List.length_append] at long
  obtain ⟨m, rfl⟩ : ∃ m, n = m + 1 := ⟨n - 1, by omega⟩
  refine ⟨m, ?_⟩
  rw [read, List.take_left, qualifiers]

theorem NamedTable.isAsciiName {text : List Char} (table : NamedTable text) (ascii : table.isAscii)
    (member : part ∈ table.parts) : IsAsciiName part := by
  refine ⟨table.isName part member, fun c among => ?_⟩
  have small := List.all_eq_true.mp (List.all_eq_true.mp ascii part member) c among
  exact of_decide_eq_true small

/-- The scan of dotted names finds the name of every table whose parts are ASCII. -/
theorem NamedTable.found {text : List Char} (table : NamedTable text) (unquoted : '"' ∉ text)
    (ascii : table.isAscii) :
    ∃ source, .found source ⟨table.schemas, table.isCalled⟩ ∈ pieces dottedName none text := by
  have names : ∀ part ∈ table.parts, IsAsciiName part := fun part => table.isAsciiName ascii
  have begins : startsApart (dottedText table.first table.others ++ table.rest) = false := by
    rw [dottedText, List.append_assoc]
    exact startsApart_name (table.isName table.first List.mem_cons_self) _
  have parted := table.place.parted begins
  have quotes : '"' ∉ table.before := fun member => unquoted (by rw [table.isText]; simp [member])
  have stops : ∀ left tail n a, tail ≠ [] → tail <:+ table.before →
      dottedName left (tail ++ (dottedText table.first table.others ++ table.rest)) = some (n, a) →
        n ≤ tail.length := by
    intro left tail n a nonempty suffix hit
    exact dottedName_le (parted.of_suffix suffix nonempty) (fun quote => quotes (suffix.subset quote))
      begins nonempty hit
  obtain ⟨ps, split⟩ := exists_pieces_append none stops
  obtain ⟨n, read⟩ := dottedName_name parted quotes table.isDot names table.isDotted table.ends
  have nonempty : dottedText table.first table.others ++ table.rest ≠ [] := fun none => by
    rw [none] at begins
    cases begins
  obtain ⟨source, member⟩ := exists_found_of_match nonempty read
  refine ⟨source, ?_⟩
  have cut := congrArg (pieces dottedName none) table.isText
  rw [split, Option.or_none] at cut
  rw [cut]
  exact List.mem_append_right ps member

end Name

end ReportQuery.Sql
