import ReportQuery.Proofs.Query.Layout
import ReportQuery.Proofs.Sql.QuotedReference

set_option autoImplicit false
set_option relaxedAutoImplicit false

/-!
How the scan of a table list goes over plain text. Behind the opening quote of a name there are two
ways on. A name that spells JOIN takes what follows, up to the next quote, for a table, so that the
scan comes out behind the opening quote of the next name; any other name is passed.
-/

namespace ReportQuery.Query

open Sql (Wordless TableReference tableReference joinedReference referenceFrom readTableReference
  isWordAt isWordAt_mark wordless_marks inQuotes inQuotes_append isIdentifierChar)
open Text (Piece isNameChar isPlainName lower upper pieces pieces_append_of_none pieces_append_of_match
  filterMap_plain filterMap_found)

variable {before : Option Char} {d : Char} {token : Token} {tokens front rest link : List Token}
  {name next : String} {reference : TableReference}

/-- A reference without schema that declares no plain name. -/
def isIdle (reference : TableReference) : Bool :=
  reference.parts.length ≤ 1 && reference.localNames.all fun name => !isPlainName name.toList

/-- The references that the scan finds from a place on, idle ones aside. -/
def referencesFrom (before : Option Char) (cs : List Char) : List TableReference :=
  ((pieces tableReference before cs).filterMap Piece.value?).filter fun reference => !isIdle reference

section Steps

variable {front rest after word middle : List Char}

@[simp] theorem referencesFrom_nil : referencesFrom before [] = [] := by
  simp [referencesFrom]

/-- Where neither JOIN nor a comma stands, the scan passes. -/
theorem referencesFrom_pass (wordless : Wordless ["JOIN"] (some d) front rest) (commas : ',' ∉ front) :
    referencesFrom (some d) (front ++ rest) =
      referencesFrom (front.getLast?.or (some d)) rest := by
  have passed : pieces tableReference (some d) (front ++ rest) =
      front.map .plain ++ pieces tableReference (front.getLast?.or (some d)) rest := by
    refine pieces_append_of_none fun left c tail same => ?_
    have unread := wordless left c tail same
    have comma : c ≠ ',' := by
      rintro rfl
      exact commas (by simp [same])
    have missed : joinedReference (left.getLast?.or (some d)) (c :: (tail ++ rest)) = none := by
      unfold joinedReference
      split
      · rename_i begins
        exact absurd (List.cons.inj begins).1 comma
      · rw [unread, if_neg Bool.false_ne_true]
    cases last : left.getLast? with
    | none =>
      rw [last] at missed
      exact missed
    | some b =>
      rw [last] at missed
      exact missed
  rw [referencesFrom, passed, filterMap_plain]
  rfl

theorem referencesFrom_join (isJoin : isWordAt ["JOIN"] (some d) (word ++ (middle ++ after)))
    (plain : ∀ c ∈ word, isNameChar c) (spelled : upper (String.ofList word) = "JOIN")
    (read : readTableReference (middle ++ after) = (reference, after)) :
    referencesFrom (some d) (word ++ (middle ++ after)) =
      [reference].filter (fun reference => !isIdle reference) ++
        referencesFrom (word ++ middle).getLast? after := by
  have four : word.length = 4 := by
    rw [Sql.upper_of_plain plain] at spelled
    have lengths := congrArg (fun text : String => text.toList.length) spelled
    simpa using lengths
  have nonempty : word ++ middle ≠ [] := by
    intro none
    rw [(List.append_eq_nil_iff.mp none).1] at four
    cases four
  have behind : (word ++ (middle ++ after)).drop 4 = middle ++ after := by
    rw [← four, List.drop_left]
  have hit : tableReference (some d) ((word ++ middle) ++ after) =
      some ((word ++ middle).length, reference) := by
    have joined : joinedReference (some d) (word ++ (middle ++ after)) =
        some (referenceFrom (word ++ (middle ++ after)) (middle ++ after)) := by
      unfold joinedReference
      split
      · rename_i comma
        rw [comma, isWordAt_mark (by decide) (by decide)] at isJoin
        cases isJoin
      · rw [isJoin, if_pos rfl, behind]
    rw [List.append_assoc]
    refine joined.trans (congrArg some ?_)
    rw [referenceFrom, read]
    refine Prod.ext ?_ rfl
    simp only [List.length_append]
    omega
  rw [referencesFrom, ← List.append_assoc, pieces_append_of_match nonempty hit, filterMap_found,
    ← List.singleton_append, List.filter_append]
  rfl

theorem referencesFrom_first (nonempty : middle ≠ [])
    (read : readTableReference (middle ++ after) = (reference, after)) :
    referencesFrom none (middle ++ after) =
      [reference].filter (fun reference => !isIdle reference) ++
        referencesFrom middle.getLast? after := by
  have length : (referenceFrom (middle ++ after) (middle ++ after)) = (middle.length, reference) := by
    rw [referenceFrom, read]
    refine Prod.ext ?_ rfl
    simp
  have hit : tableReference none (middle ++ after) = some (middle.length, reference) := by
    have some_ : middle.length ≠ 0 := by simpa using nonempty
    simp [tableReference, length, some_]
  rw [referencesFrom, pieces_append_of_match nonempty hit, filterMap_found,
    ← List.singleton_append, List.filter_append]
  rfl

end Steps

/-- A plain token, or the sign that is left of a parameter where a list ends. -/
def Token.IsListed (token : Token) : Prop :=
  token.IsPlain ∨ token = .mark '@'

/-- Tokens of a list that can be told apart. -/
structure Readable (tokens : List Token) : Prop where
  listed : ∀ token ∈ tokens, token.IsListed
  separated : Separated tokens

/-- A token of code that the scan passes. -/
def Token.IsPassed (token : Token) : Prop :=
  token.isName = false ∧ token.spells ["JOIN"] = false ∧ token ≠ .mark ','

instance (token : Token) : Decidable token.IsPassed :=
  inferInstanceAs (Decidable (_ ∧ _ ∧ _))

/-- Code between names that the scan passes. -/
def IsLink (link : List Token) : Prop :=
  ∀ token ∈ link, token.IsPassed

instance (link : List Token) : Decidable (IsLink link) :=
  inferInstanceAs (Decidable (∀ token ∈ link, _))

/-- Names and code between them that the scan passes. -/
def IsRun (run : List Token) : Prop :=
  ∀ token ∈ run, token.isName ∨ token.IsPassed

section Readable

theorem Token.IsListed.isBare (listed : token.IsListed) : token.IsBare := by
  rcases listed with plain | rfl
  · exact plain.isBare
  · exact (by decide : Sql.isIdentifierChar '@' = false)

theorem Token.IsListed.isPlain (listed : token.IsListed) (unmarked : token.isMark = false) :
    token.IsPlain := by
  refine listed.resolve_right ?_
  rintro rfl
  cases unmarked

theorem isCodeChar_of_listed (listed : ∀ token ∈ tokens, token.IsListed)
    (nameless : ∀ token ∈ tokens, token.isName = false) : ∀ c ∈ textOf tokens, isCodeChar c := by
  intro c member
  obtain ⟨token, among, inText⟩ := List.mem_flatMap.mp member
  rcases listed token among with plain | rfl
  · have safe : Token.IsSafe {} token := plain.isSafe
    exact isCodeChar_of_mem_text safe (nameless token among) c inText
  · obtain rfl := List.mem_singleton.mp inText
    decide

theorem quote_not_mem_of_listed (listed : ∀ token ∈ tokens, token.IsListed)
    (nameless : ∀ token ∈ tokens, token.isName = false) : '"' ∉ textOf tokens :=
  fun member => absurd (isCodeChar_of_listed listed nameless '"' member) (by decide)

theorem Readable.right (readable : Readable (front ++ rest)) : Readable rest where
  listed := (List.forall_mem_append.mp readable.listed).2
  separated := readable.separated.right_of_append

theorem Readable.tail (readable : Readable (token :: rest)) : Readable rest where
  listed := (List.forall_mem_cons.mp readable.listed).2
  separated := readable.separated.tail

theorem Readable.isPlainName (readable : Readable (.name name :: rest)) : isPlainName name.toList :=
  (readable.listed _ List.mem_cons_self).isPlain rfl

theorem Readable.spaced (readable : Readable tokens) (marked : ∀ token ∈ tokens.head?, token.isMark) :
    Spaced before tokens where
  bare := fun token member => (readable.listed token member).isBare
  separated := readable.separated
  opens := by
    -- a mark needs no distance from what stands before
    intro token head unmarked
    rw [marked token head] at unmarked
    cases unmarked

theorem Readable.spaced_apart (readable : Readable tokens) (apart : Sql.IsApart before) :
    Spaced before tokens where
  bare := fun token member => (readable.listed token member).isBare
  separated := readable.separated
  opens := fun _ _ _ => apart

theorem Readable.isMark_head (readable : Readable (.name name :: rest)) :
    ∀ token ∈ rest.head?, token.isMark := by
  intro token head
  obtain ⟨tail, rfl⟩ := List.head?_eq_some_iff.mp head
  exact (List.isChain_cons_cons.mp readable.separated).1

end Readable

section Names

/-- What is found from inside a quoted name on. -/
def referencesInside (name : String) (rest : List Token) : List TableReference :=
  referencesFrom (some '"') (name.toList ++ '"' :: textOf rest)

theorem areKeywords_join : Sql.areKeywords ["JOIN"] := by decide

private theorem comma_not_mem (listed : ∀ token ∈ link, token.IsListed)
    (commas : ∀ token ∈ link, token ≠ .mark ',') : ',' ∉ textOf link := by
  intro member
  obtain ⟨token, among, inText⟩ := List.mem_flatMap.mp member
  have different := commas token among
  cases token with
  | mark c =>
    obtain rfl := List.mem_singleton.mp inText
    exact different rfl
  | _ => exact ((((listed _ among).isPlain rfl).unmarked_text rfl).2 ',' inText).2 (by decide)

theorem referencesFrom_link (isLink : IsLink link) (readable : Readable (link ++ rest))
    (marked : ∀ token ∈ (link ++ rest).head?, token.isMark) :
    referencesFrom (some d) (textOf (link ++ rest)) =
      referencesFrom ((textOf link).getLast?.or (some d)) (textOf rest) := by
  obtain ⟨here, -⟩ := List.forall_mem_append.mp readable.listed
  have spaced : Spaced (some d) (link ++ rest) := readable.spaced marked
  have wordless := spaced.wordless_front areKeywords_join fun token member => (isLink token member).2.1
  rw [textOf_append]
  exact referencesFrom_pass wordless (comma_not_mem here fun token member => (isLink token member).2.2)

theorem referencesFrom_name (readable : Readable (.name name :: rest)) :
    referencesFrom (some d) (textOf (.name name :: rest)) = referencesInside name rest := by
  have quoted : (Token.name name).text = inQuotes name.toList :=
    Token.text_name (.inl (isNameChar_of_isPlainName readable.isPlainName))
  have quote : Wordless ["JOIN"] (some d) ['"'] (name.toList ++ '"' :: textOf rest) :=
    wordless_marks areKeywords_join (by simp; decide)
  have passed := referencesFrom_pass quote (by decide)
  rw [textOf_cons, quoted, inQuotes_append]
  exact passed

/-- The scan passes code up to the next name. -/
theorem referencesFrom_link_name (isLink : IsLink link)
    (readable : Readable (link ++ .name next :: rest))
    (marked : ∀ token ∈ (link ++ .name next :: rest).head?, token.isMark) :
    referencesFrom (some d) (textOf (link ++ .name next :: rest)) = referencesInside next rest := by
  rw [referencesFrom_link isLink readable marked]
  cases (textOf link).getLast? with
  | none => exact referencesFrom_name readable.right
  | some e => exact referencesFrom_name readable.right

theorem referencesInside_other (readable : Readable (.name name :: rest)) (other : upper name ≠ "JOIN") :
    referencesInside name rest = referencesFrom (some '"') (textOf rest) := by
  have letters := isNameChar_of_isPlainName readable.isPlainName
  have spaced : Spaced none (.name name :: rest) := readable.spaced_apart (by simp [Sql.IsApart])
  have wordless := spaced.wordless areKeywords_join (by simpa [Token.spells] using other)
  rw [Token.text_name (.inl letters)] at wordless
  have inside := wordless.cons.2
  have commas : ',' ∉ name.toList ++ ['"'] := by
    intro member
    rcases List.mem_append.mp member with letter | quote
    · exact absurd (letters _ letter) (by decide)
    · exact absurd quote (by decide)
  have passed := referencesFrom_pass inside commas
  rw [List.append_assoc, List.singleton_append, List.getLast?_concat] at passed
  exact passed

private theorem isWordAt_inside (readable : Readable (.name name :: rest))
    (spelled : upper name = "JOIN") :
    isWordAt ["JOIN"] (some '"') (name.toList ++ '"' :: textOf rest) := by
  have spaced : Spaced none (.name name :: rest) := readable.spaced_apart (by simp [Sql.IsApart])
  exact spaced.isWordAt_name areKeywords_join (by simp [spelled])

/-- A name that spells JOIN, and behind which no other name follows, is passed too. -/
theorem referencesInside_last (readable : Readable (.name name :: rest)) (spelled : upper name = "JOIN")
    (nameless : ∀ token ∈ rest, token.isName = false) :
    referencesInside name rest = referencesFrom (some '"') (textOf rest) := by
  have letters := isNameChar_of_isPlainName readable.isPlainName
  have unclosed : readTableReference ([] ++ '"' :: textOf rest) = (⟨[], none⟩, '"' :: textOf rest) :=
    Sql.readTableReference_unclosed (quote_not_mem_of_listed readable.tail.listed nameless)
  have found := referencesFrom_join (isWordAt_inside readable spelled) letters
    (by rw [String.ofList_toList, spelled]) unclosed
  have idle : isIdle ⟨[], none⟩ = true := by decide
  obtain ⟨e, last⟩ : ∃ e, name.toList.getLast? = some e := by
    refine Option.ne_none_iff_exists'.mp fun none => ?_
    have empty := readable.isPlainName
    rw [List.getLast?_eq_none_iff.mp none] at empty
    cases empty
  have quote : Wordless ["JOIN"] (some e) ['"'] (textOf rest) :=
    wordless_marks areKeywords_join (by simp; decide)
  have passed := referencesFrom_pass quote (by decide)
  rw [List.nil_append, List.append_nil, last] at found
  rw [referencesInside, found]
  simpa [idle] using passed

private theorem toNat_lt_of_isCodeChar {c : Char} (code : isCodeChar c) : c.toNat < 0x80 := by
  rcases (Bool.or_eq_true _ _).mp code with letter | sign
  · exact Sql.toNat_lt_of_isNameChar letter
  · have small : ('@' :: '<' :: '>' :: '=' :: marks).all (fun c => decide (c.toNat < 0x80)) = true := by
      decide
    exact of_decide_eq_true (List.all_eq_true.mp small c (List.contains_iff_mem.mp sign))

/-- A table whose name begins with a mark declares no plain name. -/
private theorem isIdle_of_marked {mark : Char} {more : List Char} (isMark : mark ∈ '@' :: marks)
    (ascii : ∀ c ∈ mark :: more, c.toNat < 0x80) : isIdle ⟨[String.ofList (mark :: more)], none⟩ := by
  have unstarted : ('@' :: marks).all (fun c => !Text.isNameStart c.toLower) = true := by decide
  have start := List.all_eq_true.mp unstarted mark isMark
  have unnamed : isPlainName (lower (String.ofList (mark :: more))).toList = false := by
    rw [lower, String.toList_ofList, String.toList_ofList, Text.lowerChars_of_ascii ascii, List.map_cons]
    rw [Bool.not_eq_true'] at start
    rw [isPlainName, start, Bool.false_and]
  have names : TableReference.localNames ⟨[String.ofList (mark :: more)], none⟩ =
      [lower (String.ofList (mark :: more))] := rfl
  rw [isIdle, names, List.all_cons, unnamed]
  rfl

/-- What stands between two names begins with a mark. -/
private theorem exists_mark (readable : Readable (.name name :: (link ++ .name next :: rest))) :
    ∃ mark more, mark ∈ '@' :: marks ∧ textOf link = mark :: more := by
  obtain ⟨listed, -⟩ := List.forall_mem_append.mp readable.tail.listed
  have marked := readable.isMark_head
  cases link with
  | nil => cases marked (.name next) rfl
  | cons token link =>
    have marked := marked token rfl
    cases token with
    | mark c =>
      refine ⟨c, textOf link, ?_, rfl⟩
      rcases listed _ List.mem_cons_self with isMark | same
      · exact List.mem_cons_of_mem _ isMark
      · exact Token.mark.inj same ▸ List.mem_cons_self
    | _ => cases marked

/-- A name that spells JOIN swallows what stands before the next name. -/
theorem referencesInside_join (readable : Readable (.name name :: (link ++ .name next :: rest)))
    (spelled : upper name = "JOIN") (nameless : ∀ token ∈ link, token.isName = false) :
    referencesInside name (link ++ .name next :: rest) = referencesInside next rest := by
  obtain ⟨linkListed, -⟩ := List.forall_mem_append.mp readable.tail.listed
  have letters := isNameChar_of_isPlainName readable.isPlainName
  have nextName := readable.tail.right.isPlainName
  have nextLetters := isNameChar_of_isPlainName nextName
  obtain ⟨c, cs, begins⟩ : ∃ c cs, next.toList = c :: cs := by
    refine List.exists_cons_of_ne_nil fun none => ?_
    rw [none] at nextName
    cases nextName
  obtain ⟨mark, more, isMark, swallowed⟩ := exists_mark readable
  have idle : isIdle ⟨[String.ofList (textOf link)], none⟩ := by
    rw [swallowed]
    refine isIdle_of_marked isMark fun c member => ?_
    rw [← swallowed] at member
    exact toNat_lt_of_isCodeChar (isCodeChar_of_listed linkListed nameless c member)
  have split : textOf (link ++ .name next :: rest) =
      textOf link ++ '"' :: (next.toList ++ '"' :: textOf rest) := by
    rw [textOf_append, textOf_cons, Token.text_name (.inl nextLetters)]
    simp
  have whole : name.toList ++ '"' :: textOf (link ++ .name next :: rest) =
      name.toList ++ (inQuotes (textOf link) ++ (next.toList ++ '"' :: textOf rest)) := by
    rw [split, inQuotes_append]
  have between : readTableReference
      (inQuotes (textOf link) ++ (next.toList ++ '"' :: textOf rest)) =
        (⟨[String.ofList (textOf link)], none⟩, next.toList ++ '"' :: textOf rest) := by
    have first : isNameChar c := nextLetters c (begins ▸ List.mem_cons_self)
    rw [begins]
    exact Sql.readTableReference_between (quote_not_mem_of_listed linkListed nameless)
      (by simp [swallowed]) first
  have isJoin := isWordAt_inside readable spelled
  rw [whole] at isJoin
  have found := referencesFrom_join isJoin letters (by rw [String.ofList_toList, spelled]) between
  have last : (name.toList ++ inQuotes (textOf link)).getLast? = some '"' := by
    rw [inQuotes, ← List.cons_append, ← List.append_assoc, List.getLast?_concat]
  rw [referencesInside, whole, found, last]
  rw [List.filter_singleton, idle]
  rfl

theorem referencesFrom_end (isLink : IsLink link) (readable : Readable link)
    (marked : ∀ token ∈ link.head?, token.isMark) : referencesFrom (some d) (textOf link) = [] := by
  rw [← List.append_nil link] at readable marked ⊢
  rw [referencesFrom_link isLink readable marked, textOf_nil, referencesFrom_nil]

theorem referencesInside_end (isLink : IsLink link) (readable : Readable (.name name :: link)) :
    referencesInside name link = [] := by
  have passed (d : Char) : referencesFrom (some d) (textOf link) = [] :=
    referencesFrom_end isLink readable.tail readable.isMark_head
  by_cases spelled : upper name = "JOIN"
  · rw [referencesInside_last readable spelled fun token member => (isLink token member).1, passed]
  · rw [referencesInside_other readable spelled, passed]

/-- From one name to the next, whatever the names are. -/
theorem referencesInside_link (isLink : IsLink link)
    (readable : Readable (.name name :: (link ++ .name next :: rest))) :
    referencesInside name (link ++ .name next :: rest) = referencesInside next rest := by
  by_cases spelled : upper name = "JOIN"
  · exact referencesInside_join readable spelled fun token member => (isLink token member).1
  · rw [referencesInside_other readable spelled,
      referencesFrom_link_name isLink readable.tail readable.isMark_head]

private theorem referencesInside_link_run {run : List Token} (isLink : IsLink link) (isRun : IsRun run)
    (readable : Readable (.name name :: (link ++ (run ++ .name next :: rest)))) :
    referencesInside name (link ++ (run ++ .name next :: rest)) = referencesInside next rest := by
  -- the link grows with the code of the run until a name is reached
  induction run generalizing link name with
  | nil => exact referencesInside_link isLink readable
  | cons token run ih =>
    obtain ⟨here, there⟩ := List.forall_mem_cons.mp isRun
    rcases here with isName | passed
    · cases token with
      | name text =>
        rw [List.cons_append] at readable ⊢
        rw [referencesInside_link isLink readable]
        have empty : IsLink [] := List.forall_mem_nil _
        exact ih empty there readable.tail.right
      | _ => cases isName
    · have longer : IsLink (link ++ [token]) :=
        List.forall_mem_append.mpr ⟨isLink, List.forall_mem_singleton.mpr passed⟩
      rw [List.cons_append, List.append_cons] at readable ⊢
      exact ih longer there readable

/-- From one name to a later one. -/
theorem referencesInside_run {run : List Token} (isRun : IsRun run)
    (readable : Readable (.name name :: (run ++ .name next :: rest))) :
    referencesInside name (run ++ .name next :: rest) = referencesInside next rest :=
  referencesInside_link_run (List.forall_mem_nil _) isRun readable

theorem referencesFrom_run {run : List Token} (isRun : IsRun run)
    (readable : Readable (run ++ .name next :: rest))
    (marked : ∀ token ∈ (run ++ .name next :: rest).head?, token.isMark) :
    referencesFrom (some d) (textOf (run ++ .name next :: rest)) = referencesInside next rest := by
  rcases nameless_or_exists_name run with nameless | ⟨link, text, back, rfl, nameless⟩
  · have isLink : IsLink run := fun token member =>
      (isRun token member).resolve_left (by simp [nameless token member])
    exact referencesFrom_link_name isLink readable marked
  · obtain ⟨front, there⟩ := List.forall_mem_append.mp isRun
    have isLink : IsLink link := fun token member =>
      (front token member).resolve_left (by simp [nameless token member])
    rw [List.append_assoc, List.cons_append] at readable marked ⊢
    rw [referencesFrom_link_name isLink readable marked]
    exact referencesInside_run (List.forall_mem_cons.mp there).2 readable.right

end Names

end ReportQuery.Query
