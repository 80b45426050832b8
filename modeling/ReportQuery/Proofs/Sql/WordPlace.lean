import ReportQuery.Proofs.Sql.Fence

set_option autoImplicit false
set_option relaxedAutoImplicit false

/-!
Where keywords can stand in a text. A word of plain characters that stands apart from what is around
it is read as the keyword that it spells, and inside it no keyword is read.
-/

namespace ReportQuery.Sql

open Text

variable {keywords : List String} {before : Option Char} {front back rest body : List Char} {c : Char}

/-- The keywords are words in capital letters. -/
def areKeywords (keywords : List String) : Bool :=
  keywords.all fun name => isCapitals name && !name.isEmpty

theorem capitals_of_areKeywords (words : areKeywords keywords) : keywords.all isCapitals := by
  refine List.all_eq_true.mpr fun name among => ?_
  exact ((Bool.and_eq_true _ _).mp (List.all_eq_true.mp words name among)).1

theorem nonempty_of_areKeywords (words : areKeywords keywords) :
    keywords.all fun name => !name.isEmpty := by
  refine List.all_eq_true.mpr fun name among => ?_
  exact ((Bool.and_eq_true _ _).mp (List.all_eq_true.mp words name among)).2

/-- Whether a neighbour, which the ends of a text lack, keeps apart what stands beside it. -/
def IsApart (before : Option Char) : Prop :=
  ∀ c ∈ before, isIdentifierChar c = false

/-- No keyword stands at a place of the front, after `before` and with `rest` behind it. -/
def Wordless (keywords : List String) (before : Option Char) (front rest : List Char) : Prop :=
  ∀ left c tail, front = left ++ c :: tail →
    isWordAt keywords (left.getLast?.or before) (c :: (tail ++ rest)) = false

theorem getLast?_append_or (front back : List Char) (before : Option Char) :
    (front ++ back).getLast?.or before = back.getLast?.or (front.getLast?.or before) := by
  rw [List.getLast?_append, Option.or_assoc]

section Wordless

theorem wordless_nil : Wordless keywords before [] rest := by
  intro left c tail same
  simp at same

theorem Wordless.append (first : Wordless keywords before front (back ++ rest))
    (second : Wordless keywords (front.getLast?.or before) back rest) :
    Wordless keywords before (front ++ back) rest := by
  intro left c tail same
  rcases List.append_eq_append_iff.mp same with ⟨middle, rfl, cut⟩ | ⟨middle, rfl, cut⟩
  · rw [getLast?_append_or]
    exact second middle c tail cut
  · cases middle with
    | nil =>
      have here := second [] c tail cut.symm
      simpa using here
    | cons d middle =>
      obtain ⟨rfl, rfl⟩ := List.cons.inj cut
      have here := first left c middle rfl
      rwa [← List.append_assoc] at here

theorem startsWithWord_mark (words : areKeywords keywords) (mark : isIdentifierChar c = false) :
    startsWithWord keywords (c :: rest) = false := by
  refine List.any_eq_false.mpr fun name member found => ?_
  obtain ⟨capitals, nonempty⟩ := (Bool.and_eq_true _ _).mp (List.all_eq_true.mp words name member)
  cases spelled : name.toList with
  | nil =>
    rw [String.toList_eq_nil_iff.mp spelled] at nonempty
    cases nonempty
  | cons letter letters =>
    rw [isCapitals, spelled, List.all_cons, Bool.and_eq_true] at capitals
    have unmet : ¬ meetsLetter letter c = true := by
      intro meets
      rw [isIdentifierChar_of_meetsLetter capitals.1 meets] at mark
      cases mark
    rw [afterWord?, spelled, afterKeyword?, if_neg unmet] at found
    cases found

theorem isWordAt_mark (words : areKeywords keywords) (mark : isIdentifierChar c = false) :
    isWordAt keywords before (c :: rest) = false := by
  rw [isWordAt, startsWithWord_mark words mark, Bool.and_false]

theorem isWordAt_nil (words : areKeywords keywords) : isWordAt keywords before [] = false := by
  have unread : startsWithWord keywords [] = false := by
    refine List.any_eq_false.mpr fun name member found => ?_
    obtain ⟨-, nonempty⟩ := (Bool.and_eq_true _ _).mp (List.all_eq_true.mp words name member)
    cases spelled : name.toList with
    | nil =>
      rw [String.toList_eq_nil_iff.mp spelled] at nonempty
      cases nonempty
    | cons letter letters =>
      rw [afterWord?, spelled, afterKeyword?] at found
      cases found
  rw [isWordAt, unread, Bool.and_false]

theorem wordless_marks (words : areKeywords keywords)
    (marks : ∀ c ∈ front, isIdentifierChar c = false) : Wordless keywords before front rest := by
  intro left c tail same
  exact isWordAt_mark words (marks c (by simp [same]))

end Wordless

section Names

theorem toNat_lt_of_isNameChar (char : isNameChar c) : c.toNat < 0x80 := by
  by_contra large
  simp only [isNameChar, isNameStart, isAsciiLetter, isAsciiDigit, Bool.or_eq_true,
    Bool.and_eq_true, decide_eq_true_eq, beq_iff_eq, Char.le_def, UInt32.le_iff_toNat_le] at char
  have code : c.toNat = c.val.toNat := rfl
  have bounds : 'z'.val.toNat = 122 ∧ 'Z'.val.toNat = 90 ∧ '9'.val.toNat = 57 := by decide
  rcases char with ((letter | letter) | rfl) | digit
  · omega
  · omega
  · exact large (by decide)
  · omega

theorem isWordChar_of_isNameChar (char : isNameChar c) : isWordChar c := by
  have ascii : ∀ c : Char, c.toNat < 0x80 → isNameChar c → isWordChar c :=
    forall_ascii (by decide)
  exact ascii c (toNat_lt_of_isNameChar char) char

theorem isIdentifierChar_of_isNameChar (char : isNameChar c) : isIdentifierChar c :=
  isIdentifierChar_of_isWordChar (isWordChar_of_isNameChar char)

/-- Of plain characters a capital letter is met by its two cases only. -/
private theorem toUpper_of_meetsLetter {letter : Char} (capital : 'A' ≤ letter && letter ≤ 'Z')
    (char : isNameChar c) (meets : meetsLetter letter c) : c.toUpper = letter := by
  have upper : ∀ c : Char, c.toNat < 0x80 → ('A' ≤ c && c ≤ 'Z') →
      c.toUpper = c ∧ (Char.ofNat (c.toNat + 0x20)).toUpper = c := forall_ascii (by decide)
  have small : letter.toNat < 0x80 := by
    simp only [Bool.and_eq_true, decide_eq_true_eq, Char.le_def, UInt32.le_iff_toNat_le] at capital
    have high : letter.toNat ≤ 90 := capital.2
    omega
  have both := upper letter small capital
  have plain := toNat_lt_of_isNameChar char
  simp only [meetsLetter, Bool.or_eq_true, Bool.and_eq_true, beq_iff_eq] at meets
  rcases meets with (((rfl | shift) | ⟨-, rfl | rfl⟩) | ⟨-, rfl⟩) | ⟨-, rfl⟩
  · exact both.1
  · rw [← Char.ofNat_toNat c, shift]
    exact both.2
  all_goals exact absurd plain (by decide)

private theorem toUpper_of_afterKeyword? {letters left : List Char}
    (capitals : letters.all fun c => 'A' ≤ c && c ≤ 'Z') (plain : ∀ c ∈ body, isNameChar c)
    (read : afterKeyword? letters body = some left) : body.map Char.toUpper = letters ++
      left.map Char.toUpper := by
  induction letters generalizing body with
  | nil =>
    obtain rfl := Option.some.inj read
    rfl
  | cons letter letters ih =>
    obtain ⟨capital, others⟩ := (Bool.and_eq_true _ _).mp capitals
    cases body with
    | nil => cases read
    | cons c body =>
      obtain ⟨here, there⟩ := List.forall_mem_cons.mp plain
      rw [afterKeyword?] at read
      split at read
      · rename_i meets
        rw [List.map_cons, toUpper_of_meetsLetter capital here meets, ih others there read]
        rfl
      · cases read

theorem upper_of_plain (plain : ∀ c ∈ body, isNameChar c) :
    upper (String.ofList body) = String.ofList (body.map Char.toUpper) := by
  rw [upper, String.toList_ofList, upperChars_of_ascii fun c member =>
    toNat_lt_of_isNameChar (plain c member)]

/-- A plain word that stands apart is read as the keyword that it spells. -/
theorem isWordAt_plain (words : areKeywords keywords) (plain : ∀ c ∈ body, isNameChar c)
    (apartBefore : IsApart before) (apart : startsApart rest) :
    isWordAt keywords before (body ++ rest) = keywords.contains (upper (String.ofList body)) := by
  rw [Bool.eq_iff_iff, List.contains_iff_mem, upper_of_plain plain]
  constructor
  · intro word
    have starts : startsWithWord keywords (body ++ rest) := ((Bool.and_eq_true _ _).mp word).2
    have capitals := capitals_of_areKeywords words
    have inside := startsWithWord_append capitals apart starts
    obtain ⟨name, member, found⟩ := List.any_eq_true.mp inside
    unfold afterWord? at found
    split at found
    · rename_i left read
      have spelled := toUpper_of_afterKeyword? (List.all_eq_true.mp capitals name member) plain read
      cases left with
      | nil =>
        rw [List.map_nil, List.append_nil] at spelled
        rwa [spelled, String.ofList_toList]
      | cons c left =>
        have among : c ∈ body :=
          (List.drop_suffix _ body).subset (afterKeyword?_eq_drop read ▸ List.mem_cons_self)
        have continues : isWordChar? (some c) := isWordChar_of_isNameChar (plain c among)
        rw [List.head?_cons, if_pos continues] at found
        cases found
    · cases found
  · intro member
    exact isWordAt_spelled (String.toList_ofList).symm member apartBefore apart

/-- Inside a plain word no keyword is read. -/
theorem wordless_plain (plain : ∀ c ∈ body, isNameChar c)
    (unread : isWordAt keywords before (body ++ rest) = false) : Wordless keywords before body rest := by
  intro left c tail same
  cases last : left.getLast? with
  | none =>
    obtain rfl := List.getLast?_eq_none_iff.mp last
    rw [same, List.nil_append, List.cons_append] at unread
    simpa using unread
  | some d =>
    have member : d ∈ body := by
      rw [same]
      exact List.mem_append_left _ (List.mem_of_getLast? last)
    rw [Option.some_or, isWordAt]
    simp [isWordChar?, isWordChar_of_isNameChar (plain d member)]

end Names

section Passing

variable {passed masked maskedRest : List Char}

theorem Wordless.pieces_keyword (wordless : Wordless keywords before front rest) :
    pieces (keyword keywords) before (front ++ rest) =
      front.map .plain ++ pieces (keyword keywords) (front.getLast?.or before) rest := by
  refine pieces_append_of_none fun left c tail same => ?_
  have unread := wordless left c tail same
  unfold isWordAt at unread
  unfold keyword
  split
  · rfl
  · rename_i starts
    have none : startsWithWord keywords (c :: (tail ++ rest)) = false := by simpa [starts] using unread
    rw [Option.map_eq_none_iff, List.find?_eq_none]
    exact fun name member => by simpa using List.any_eq_false.mp none name member

theorem Wordless.cons (wordless : Wordless keywords before (c :: front) rest) :
    isWordAt keywords before (c :: (front ++ rest)) = false ∧
      Wordless keywords (some c) front rest := by
  refine ⟨by simpa using wordless [] c front rfl, fun left d tail same => ?_⟩
  have place := wordless (c :: left) d tail (by rw [same]; rfl)
  rw [List.getLast?_cons] at place
  cases last : left.getLast? <;> simpa [last] using place

/-- A table list goes on over what holds no keyword that ends it. -/
theorem Wordless.beforeListEnd (length : front.length = masked.length)
    (wordless : Wordless listEndKeywords before masked maskedRest) :
    beforeListEnd before (front ++ rest) (masked ++ maskedRest) =
      front ++ beforeListEnd (masked.getLast?.or before) rest maskedRest := by
  induction masked generalizing before front with
  | nil =>
    obtain rfl := List.eq_nil_of_length_eq_zero length
    rfl
  | cons m masked ih =>
    obtain ⟨t, front, rfl⟩ := List.exists_cons_of_length_eq_add_one length
    obtain ⟨here, there⟩ := wordless.cons
    have later := ih (by simpa using length) there
    have last : (m :: masked).getLast?.or before = masked.getLast?.or (some m) := by
      rw [List.getLast?_cons]
      cases masked.getLast? <;> simp
    rw [List.cons_append, List.cons_append, Sql.beforeListEnd, here, if_neg Bool.false_ne_true, later,
      last]
    rfl

theorem Wordless.tableListsFrom (length : front.length = masked.length)
    (wordless : Wordless ["FROM"] passed.head? masked maskedRest) :
    tableListsFrom passed (front ++ rest) (masked ++ maskedRest) =
      tableListsFrom (masked.reverse ++ passed) rest maskedRest := by
  induction masked generalizing passed front with
  | nil =>
    obtain rfl := List.eq_nil_of_length_eq_zero length
    rfl
  | cons m masked ih =>
    obtain ⟨t, front, rfl⟩ := List.exists_cons_of_length_eq_add_one length
    have here := wordless.cons.1
    have there : Wordless ["FROM"] (m :: passed).head? masked maskedRest := wordless.cons.2
    rw [List.cons_append, List.cons_append, Sql.tableListsFrom, here, Bool.false_and,
      if_neg Bool.false_ne_true, ih (by simpa using length) there, List.reverse_cons,
      List.append_assoc]
    rfl

end Passing

end ReportQuery.Sql
