import ReportQuery.Proofs.Sql.Edits

set_option autoImplicit false
set_option relaxedAutoImplicit false

/-!
The binds that the bind shape finds in a prepared statement. Only the colons of placeholders are read as
binds, and each as it would be read in the place of its at sign: not at all behind a backslash or before a
further colon, and as a longer word where other characters of binds follow the name.
-/

namespace ReportQuery.Sql

open Text

variable {before before' : Option (Char × Bool)} {here : Char × Bool} {cs right : List (Char × Bool)}
  {name text : List Char} {p : Placeholder}

section Scan

/-- The prepared text of some places. -/
def writtenFrom (before : Option (Char × Bool)) (cs : List (Char × Bool)) : List Char :=
  (atPlaces editAt before cs).flatMap Edit.written

theorem writtenFrom_cons (before : Option (Char × Bool)) (here : Char × Bool) (cs : List (Char × Bool)) :
    writtenFrom before (here :: cs) = (editAt before here cs).written ++ writtenFrom (some here) cs := rfl

/-- A character behind one of a name or behind a colon is kept. -/
theorem editAt_of_joinsBind {last : Char × Bool} (joins : joinsBind (some last.1)) :
    editAt (some last) here right = .kept here.1 := by
  have sign : joinsPlaceholder (some last.1) := by
    rcases (Bool.or_eq_true _ _).mp joins with char | colon
    · rw [joinsPlaceholder, char, Bool.true_or, Bool.true_or]
    · rw [joinsPlaceholder, colon, Bool.or_true]
  have unbound : colonBind (some last.1) (here.1 :: right.map Prod.fst) = none := by
    by_cases colon : here.1 = ':'
    · rw [colon, colonBind_colon, joins]
      rfl
    · exact colonBind_of_ne colon
  have unread : placeholder (some last.1) (here.1 :: right.map Prod.fst) = none := by
    by_cases at_ : here.1 = '@'
    · rw [at_, placeholder_at, sign]
      rfl
    · exact placeholder_of_ne_at at_
  rw [editAt, nameAt, placeholderAt, Option.map_some, unbound, unread]
  simp

/-- Preparing does not change up to where characters of a kind go that has no signs. -/
theorem takeWhile_writtenFrom {kind : Char → Bool} (colon : kind ':' = false) (at_ : kind '@' = false)
    (backslash : kind '\\' = false) (before : Option (Char × Bool)) (cs : List (Char × Bool)) :
    (writtenFrom before cs).takeWhile kind = (cs.map Prod.fst).takeWhile kind := by
  induction cs generalizing before with
  | nil => rfl
  | cons here cs ih =>
    rw [writtenFrom_cons, List.map_cons]
    rcases editAt_cases before here cs with ⟨edit, -⟩ | ⟨edit, -, sign⟩ | ⟨edit, -, sign⟩
    · rw [edit, Edit.written, List.singleton_append]
      cases taken : kind here.1 <;> simp [taken, ih]
    · rw [edit, sign]
      simp [Edit.written, colon, backslash]
    · rw [edit, sign]
      simp [Edit.written, colon, at_]

/-- Behind a name or a colon the prepared text goes on as the text does. -/
theorem head?_dropWhile_writtenFrom {kind : Char → Bool} (within : ∀ c, kind c → isBindChar c)
    {last : Char × Bool} (joins : joinsBind (some last.1)) (cs : List (Char × Bool)) :
    ((writtenFrom (some last) cs).dropWhile kind).head? = ((cs.map Prod.fst).dropWhile kind).head? := by
  induction cs generalizing last with
  | nil => rfl
  | cons here cs ih =>
    rw [writtenFrom_cons, editAt_of_joinsBind joins, Edit.written, List.singleton_append, List.map_cons]
    cases next : kind here.1 with
    | false => simp [next]
    | true =>
      have char : joinsBind (some here.1) := by rw [joinsBind, within _ next, Bool.true_or]
      rw [List.dropWhile_cons_of_pos next, List.dropWhile_cons_of_pos next, ih char]

/-- A bind is read before the prepared text as before the text. -/
theorem colonBind_writtenFrom (left : Option Char) (here : Char × Bool) (cs : List (Char × Bool)) :
    colonBind left (':' :: writtenFrom (some here) cs) = colonBind left (':' :: cs.map Prod.fst) := by
  have taken : (writtenFrom (some here) cs).takeWhile isBindChar =
      (cs.map Prod.fst).takeWhile isBindChar :=
    takeWhile_writtenFrom (by decide) (by decide) (by decide) (some here) cs
  refine colonBind_congr taken fun nonempty => ?_
  rw [taken] at nonempty
  cases cs with
  | nil => exact absurd rfl nonempty
  | cons next cs =>
    have char : isBindChar next.1 := by
      by_contra other
      exact nonempty (List.takeWhile_cons_of_neg other)
    have kept : editAt (some here) next cs = .kept next.1 := by
      rcases editAt_cases (some here) next cs with ⟨kept, -⟩ | ⟨-, -, sign⟩ | ⟨-, -, sign⟩
      · exact kept
      · rw [sign] at char
        exact absurd char (by decide)
      · rw [sign] at char
        exact absurd char (by decide)
    have joins : joinsBind (some next.1) := by rw [joinsBind, char, Bool.true_or]
    rw [writtenFrom_cons, kept, Edit.written, List.singleton_append, List.map_cons,
      List.dropWhile_cons_of_pos char, List.dropWhile_cons_of_pos char,
      head?_dropWhile_writtenFrom (fun _ char => char) joins]

/-- The bind that is found at the colon of a placeholder. -/
def boundAt (before : Option (Char × Bool)) (here : Char × Bool) (right : List (Char × Bool)) :
    Option (List Char) :=
  if (nameAt before here right).isSome then
    (colonBind (before.map Prod.fst) (':' :: right.map Prod.fst)).map Prod.snd
  else none

theorem isNameChar_of_nameAt (read : nameAt before here right = some name) :
    ∀ next ∈ right.head?, isNameChar next.1 := by
  unfold nameAt placeholderAt at read
  split at read
  · cases read
  · obtain ⟨⟨n, _⟩, found, rfl⟩ := Option.map_eq_some_iff.mp read
    obtain ⟨behind, tail, -, -, plain, -⟩ := placeholder_eq_some_iff.mp found
    intro next first
    cases right with
    | nil => cases first
    | cons other right =>
      obtain rfl : other = next := Option.some.inj first
      rename_i chars
      cases chars with
      | nil => cases plain
      | cons c chars =>
        have same := (List.cons.inj (List.cons.inj tail).2).1
        rw [same]
        exact all_isNameChar_of_isPlainName plain c List.mem_cons_self

/-- Of the prepared text only the colons of placeholders are read as binds. -/
theorem filterMap_bind_writtenFrom (cs : List (Char × Bool)) (before : Option (Char × Bool))
    (left : Option Char)
    (same : ∀ here ∈ cs.head?, here.1 = ':' ∨ here.1 = '@' → left = before.map Prod.fst) :
    (atPlaces (fun left c right => (colonBind left (c :: right)).map Prod.snd) left
        (writtenFrom before cs)).filterMap id =
      (atPlaces boundAt before cs).filterMap id := by
  induction cs generalizing before left with
  | nil => rfl
  | cons here cs ih =>
    have sameHere := same here rfl
    rw [writtenFrom_cons, atPlaces]
    rcases editAt_cases before here cs with
      ⟨edit, unnamed, unbound⟩ | ⟨edit, unnamed, colon⟩ | ⟨edit, named, at_⟩
    · have unread : colonBind left (here.1 :: writtenFrom (some here) cs) = none := by
        by_cases colon : here.1 = ':'
        · rw [colon] at unbound ⊢
          rw [colonBind_writtenFrom, sameHere (.inl colon), unbound]
        · exact colonBind_of_ne colon
      have unfound : boundAt before here cs = none := by rw [boundAt, unnamed]; rfl
      rw [edit, Edit.written, List.singleton_append, atPlaces, unread, unfound, Option.map_none,
        List.filterMap_cons_none rfl, List.filterMap_cons_none rfl]
      exact ih (some here) (some here.1) fun _ _ _ => rfl
    · have unread : colonBind (some '\\') (':' :: writtenFrom (some here) cs) = none := by
        rw [colonBind_colon]
        simp
      have unfound : boundAt before here cs = none := by rw [boundAt, unnamed]; rfl
      rw [edit, Edit.written, List.cons_append, List.singleton_append, atPlaces, atPlaces, unread, unfound,
        colonBind_of_ne (by decide), Option.map_none, List.filterMap_cons_none rfl,
        List.filterMap_cons_none rfl, List.filterMap_cons_none rfl]
      exact ih (some here) (some ':') fun _ _ _ => by rw [Option.map_some, colon]
    · obtain ⟨name, read⟩ := Option.isSome_iff_exists.mp named
      have later := ih (some here) (some ':') fun next first sign => by
        have char := isNameChar_of_nameAt read next first
        rcases sign with sign | sign <;> rw [sign] at char <;> exact absurd char (by decide)
      have bound : boundAt before here cs =
          (colonBind (before.map Prod.fst) (':' :: cs.map Prod.fst)).map Prod.snd := by
        rw [boundAt, if_pos named]
      rw [edit, Edit.written, List.singleton_append, atPlaces, colonBind_writtenFrom, sameHere (.inr at_),
        bound, List.filterMap_cons, List.filterMap_cons, later]

end Scan

namespace Placeholder

/-- Nothing follows the name that a bind would take for a part of it or that keeps it from being one. -/
def IsFree (p : Placeholder) : Prop :=
  p.before.getLast? ≠ some '\\' ∧ joinsBind p.behind.head? = false

/-- A backslash stands before the placeholder, or a colon behind its word. -/
def IsUnread (p : Placeholder) : Prop :=
  p.before.getLast? = some '\\' ∨ (p.behind.dropWhile isBindChar).head? = some ':'

instance : Decidable p.IsUnread :=
  inferInstanceAs (Decidable (_ ∨ _))

/-- The name with the characters that a bind takes for a part of it. -/
def word (p : Placeholder) : List Char :=
  p.name ++ p.behind.takeWhile isBindChar

end Placeholder

section Binds

theorem Placeholder.StandsIn.bind (stands : p.StandsIn text) :
    (colonBind p.before.getLast? (':' :: (p.name ++ p.behind))).map Prod.snd =
      if p.IsUnread then none else some p.word := by
  have chars : ∀ c ∈ p.name, isBindChar c := fun c member =>
    isBindChar_of_isNameChar (all_isNameChar_of_isPlainName stands.plain c member)
  have nonempty : p.name ≠ [] := by
    intro empty
    have plain := stands.plain
    rw [empty] at plain
    cases plain
  have apart : joinsBind p.before.getLast? = false := by
    have outside := stands.apart
    cases last : p.before.getLast? with
    | none => rfl
    | some c =>
      obtain ⟨noWord, noSign⟩ := outside c last
      simp at noSign
      simp [joinsBind, isBindChar, noWord, noSign]
  have stops : ∀ c ∈ (p.behind.dropWhile isBindChar).head?, isBindChar c = false := head?_dropWhile_stop
  have next : joinsBind (p.behind.dropWhile isBindChar).head? =
      ((p.behind.dropWhile isBindChar).head? == some ':') := by
    cases head : (p.behind.dropWhile isBindChar).head? with
    | none => rfl
    | some c =>
      rw [joinsBind, stops c head, Bool.false_or]
      rfl
  rw [colonBind_colon, List.takeWhile_append_of_pos chars, List.dropWhile_append_of_pos chars, apart, next]
  have solid : (p.name ++ p.behind.takeWhile isBindChar).isEmpty = false := by simp [nonempty]
  rw [solid, Bool.false_or, Bool.or_false]
  by_cases unread : p.IsUnread
  · rw [if_pos unread, if_pos (by simpa [Placeholder.IsUnread] using unread)]
    rfl
  · rw [if_neg unread, if_neg (by simpa [Placeholder.IsUnread] using unread)]
    rfl

/-- A word that is found is the name of its placeholder exactly if nothing else belongs to it. -/
theorem Placeholder.StandsIn.word_eq_iff (stands : p.StandsIn text) {q : Placeholder}
    (other : q.StandsIn text) :
    p.word = q.name ↔ p.behind.takeWhile isBindChar = [] ∧ p.name = q.name := by
  refine ⟨fun same => ?_, fun ⟨alone, same⟩ => by rw [word, alone, List.append_nil, same]⟩
  have alone : p.behind.takeWhile isBindChar = [] := by
    cases rest : p.behind.takeWhile isBindChar with
    | nil => rfl
    | cons c cs =>
      have first : p.behind.head? = some c := by
        cases behind : p.behind with
        | nil => rw [behind] at rest; cases rest
        | cons d ds =>
          rw [behind] at rest
          cases char : isBindChar d with
          | false => simp [char] at rest
          | true =>
            rw [List.takeWhile_cons_of_pos char] at rest
            rw [List.head?_cons, (List.cons.inj rest).1]
      have within : c ∈ q.name := by
        rw [← same, word, rest]
        simp
      have char := all_isNameChar_of_isPlainName other.plain c within
      rw [stands.ends c first] at char
      cases char
  refine ⟨alone, ?_⟩
  rwa [word, alone, List.append_nil] at same

theorem Placeholder.isFree_iff : p.IsFree ↔ ¬ p.IsUnread ∧ p.behind.takeWhile isBindChar = [] := by
  unfold IsFree IsUnread
  cases behind : p.behind with
  | nil => simp [joinsBind]
  | cons c cs =>
    cases char : isBindChar c with
    | false => simp [joinsBind, char]
    | true => simp [joinsBind, char]

/-- The words that are found are those of the placeholders, but for the ones that are not read. -/
theorem mem_binds_iff {word : List Char} :
    word ∈ findAll colonBind (prepare text).text ↔
      ∃ p : Placeholder, p.IsFound text ∧ ¬ p.IsUnread ∧ p.word = word := by
  have scan := filterMap_bind_writtenFrom (shaded text) none none fun _ _ _ => rfl
  rw [findAll_eq_atPlaces opensWith_colonBind, text_prepare]
  refine (Eq.to_iff (congrArg (word ∈ ·) scan)).trans ?_
  rw [List.mem_filterMap]
  constructor
  · rintro ⟨_, member, rfl⟩
    obtain ⟨i, there⟩ := List.mem_iff_getElem?.mp member
    obtain ⟨front, here, back, cut, -, found⟩ := exists_of_getElem?_atPlaces there
    rw [Option.or_none] at found
    unfold boundAt at found
    split at found
    · rename_i named
      obtain ⟨name, read⟩ := Option.isSome_iff_exists.mp named
      obtain ⟨behind, tail, isFound⟩ := isFound_of_nameAt cut read
      have bind := isFound.1.bind
      rw [← List.getLast?_map, tail, bind] at found
      split at found
      · cases found
      · rename_i isRead
        exact ⟨_, isFound, isRead, Option.some.inj found⟩
    · cases found
  · rintro ⟨p, isFound, isRead, rfl⟩
    obtain ⟨front, back, cut, size, left, right, read⟩ := isFound.exists_cut
    refine ⟨some p.word, List.mem_of_getElem? (i := p.place) ?_, rfl⟩
    have bind := isFound.1.bind
    rw [if_neg isRead] at bind
    rw [cut, ← size, getElem?_atPlaces, Option.or_none, boundAt, read, ← List.getLast?_map, left, right,
      bind]
    rfl

/-- The words that the bind shape finds in a prepared statement are those of its placeholders, with the
characters of binds that follow the names, but for placeholders behind a backslash or before a colon. So
they are the names exactly if every placeholder that is read has its name alone, and every name a
placeholder that is read so. -/
theorem binds_eq_names_iff (text : List Char) :
    (∀ word, word ∈ findAll colonBind (prepare text).text ↔
      ∃ p : Placeholder, p.IsFound text ∧ ¬ p.IsUnread ∧ p.word = word) ∧
    (∀ name, String.ofList name ∈ (prepare text).names ↔
      ∃ p : Placeholder, p.IsFound text ∧ p.name = name) ∧
    ((∀ word, word ∈ findAll colonBind (prepare text).text ↔
        String.ofList word ∈ (prepare text).names) ↔
      (∀ p : Placeholder, p.IsFound text → p.IsFree ∨ p.IsUnread) ∧
        ∀ p : Placeholder, p.IsFound text →
          ∃ q : Placeholder, q.IsFound text ∧ q.name = p.name ∧ q.IsFree) := by
  refine ⟨fun _ => mem_binds_iff, fun _ => mem_names_prepare_iff, fun same => ⟨?_, ?_⟩, ?_⟩
  · intro p isFound
    by_cases unread : p.IsUnread
    · exact .inr unread
    · obtain ⟨q, other, named⟩ :=
        mem_names_prepare_iff.mp ((same p.word).mp (mem_binds_iff.mpr ⟨p, isFound, unread, rfl⟩))
      have alone := ((isFound.1.word_eq_iff other.1).mp named.symm).1
      exact .inl (Placeholder.isFree_iff.mpr ⟨unread, alone⟩)
  · intro p isFound
    obtain ⟨q, other, isRead, word⟩ :=
      mem_binds_iff.mp ((same p.name).mpr (mem_names_prepare_iff.mpr ⟨p, isFound, rfl⟩))
    obtain ⟨alone, named⟩ := (other.1.word_eq_iff isFound.1).mp word
    exact ⟨q, other, named, Placeholder.isFree_iff.mpr ⟨isRead, alone⟩⟩
  · rintro ⟨each, every⟩ word
    rw [mem_binds_iff, mem_names_prepare_iff]
    constructor
    · rintro ⟨p, isFound, isRead, rfl⟩
      have free := Placeholder.isFree_iff.mp ((each p isFound).resolve_right isRead)
      exact ⟨p, isFound, ((isFound.1.word_eq_iff isFound.1).mpr ⟨free.2, rfl⟩).symm⟩
    · rintro ⟨p, isFound, rfl⟩
      obtain ⟨q, other, named, free⟩ := every p isFound
      obtain ⟨isRead, alone⟩ := Placeholder.isFree_iff.mp free
      exact ⟨q, other, isRead, (other.1.word_eq_iff isFound.1).mpr ⟨alone, named⟩⟩

/-- Before a cast the name is rewritten, and no bind is found for it. -/
theorem cast_name_unbound :
    (prepare "SELECT @a::int".toList).names = ["a"] ∧
      (prepare "SELECT @a::int".toList).text = "SELECT :a::int".toList ∧
      findAll colonBind (prepare "SELECT @a::int".toList).text = [] := by
  refine ⟨?_, ?_, ?_⟩ <;> cbv

end Binds

end ReportQuery.Sql
