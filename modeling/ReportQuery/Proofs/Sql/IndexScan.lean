import ReportQuery.Proofs.Sql.QuotedPlaces
import ReportQuery.Sql.TableList

set_option autoImplicit false
set_option relaxedAutoImplicit false

/-!
The table lists of a text, scanned by index: an index that is taken from the masked text is used in the
text itself. Main statement: masking keeps every place, so that each such index is one of the text and
shows the same character there outside of quoted identifiers.
-/

namespace ReportQuery.Sql

open Text

section Scan

/-- A scan of texts by index. It notes the indices that it takes, and fails at one at which a text has no
character. -/
abbrev IndexScan := StateT (List Nat) Option

/-- Notes the indices. -/
def noteIndices (indices : List Nat) : IndexScan Unit := fun noted => some ((), noted ++ indices)

/-- The character at the index, which is noted. -/
def charAt (cs : List Char) (index : Nat) : IndexScan Char := do
  noteIndices [index]
  StateT.lift cs[index]?

/-- Whether one of the keywords stands at the index as a whole word. -/
def isWordAtIndex (keywords : List String) (cs : List Char) (index : Nat) : Bool :=
  isWordAt keywords (cs.take index).getLast? (cs.drop index)

/-- Looks for SELECT at the level of parentheses of the place, from the index before it down. -/
def selectBefore (masked : List Char) : Nat → Nat → IndexScan Bool
  | _, 0 => pure false
  | depth, index + 1 => do
    let c ← charAt masked index
    if c = ')' then selectBefore masked (depth + 1) index
    else if c = '(' then
      if depth = 0 then pure false else selectBefore masked (depth - 1) index
    else if depth = 0 ∧ isWordAtIndex ["SELECT"] masked index then pure true
    else selectBefore masked depth index

/-- Whether the FROM at the place introduces tables. -/
def startsListAt (masked : List Char) (place : Nat) : IndexScan Bool :=
  if endsWithWord "DISTINCT" (masked.take place).reverse then pure false
  else selectBefore masked 0 place

/-- The characters at the indices, of the text and of the masked text, up to the parenthesis that closes
the level; deeper levels and parentheses are blanked in both. -/
def levelAt (text masked : List Char) : Nat → List Nat → IndexScan (List (Char × Char))
  | _, [] => pure []
  | depth, index :: indices => do
    let m ← charAt masked index
    if m = ')' then
      if depth = 0 then pure [] else ((' ', ' ') :: ·) <$> levelAt text masked (depth - 1) indices
    else if m = '(' then ((' ', ' ') :: ·) <$> levelAt text masked (depth + 1) indices
    else if depth = 0 then do
      let t ← charAt text index
      ((t, m) :: ·) <$> levelAt text masked depth indices
    else ((' ', ' ') :: ·) <$> levelAt text masked depth indices

/-- The table list that begins at the place. -/
def tableListAt (text masked : List Char) (place : Nat) : IndexScan (List Char) := do
  let level ← levelAt text masked 0 (List.range' place (masked.length - place))
  let (visible, scanned) := level.unzip
  match (List.range scanned.length).find? (isWordAtIndex listEndKeywords scanned) with
  | none => pure visible
  | some length => do
    noteIndices [place + length]
    pure (visible.take length)

/-- The table lists of the FROM words at the places. -/
def tableListsAt (text masked : List Char) : List Nat → IndexScan (List (List Char))
  | [] => pure []
  | place :: places => do
    noteIndices (List.range' place 4)
    if ← startsListAt masked place then
      let list ← tableListAt text masked (place + 4)
      (list :: ·) <$> tableListsAt text masked places
    else tableListsAt text masked places

/-- The table lists of a statement's code, with indices that are taken from the masked text. -/
def tableListsByIndex (code : List Char) : IndexScan (List (List Char)) :=
  let masked := maskQuoted code
  tableListsAt code masked ((List.range masked.length).filter (isWordAtIndex ["FROM"] masked))

end Scan

section Results

variable {α β : Type} {bound : Nat} {text masked cs : List Char} {depth place count : Nat}

/-- Whatever was noted before, the scan gives the value, and the indices that it notes lie below the
bound. -/
def GivesWithin (bound : Nat) (scan : IndexScan α) (value : α) : Prop :=
  ∀ noted, ∃ more, scan.run noted = some (value, noted ++ more) ∧ ∀ i ∈ more, i < bound

theorem givesWithin_pure (value : α) : GivesWithin bound (pure value) value :=
  fun _ => ⟨[], by simp, by simp⟩

theorem givesWithin_note {indices : List Nat} (below : ∀ i ∈ indices, i < bound) :
    GivesWithin bound (noteIndices indices) () :=
  fun _ => ⟨indices, rfl, below⟩

theorem GivesWithin.bind {scan : IndexScan α} {next : α → IndexScan β} {a : α} {b : β}
    (first : GivesWithin bound scan a) (second : GivesWithin bound (next a) b) :
    GivesWithin bound (scan >>= next) b := by
  intro noted
  obtain ⟨more, run, below⟩ := first noted
  obtain ⟨later, runNext, belowNext⟩ := second (noted ++ more)
  refine ⟨more ++ later, ?_, fun i member => (List.mem_append.mp member).elim (below i) (belowNext i)⟩
  rw [StateT.run_bind, run, Option.bind_eq_bind, Option.bind_some, runNext, List.append_assoc]

theorem GivesWithin.map {scan : IndexScan α} {a : α} (gives : GivesWithin bound scan a) (f : α → β) :
    GivesWithin bound (f <$> scan) (f a) := by
  rw [← bind_pure_comp]
  exact gives.bind (givesWithin_pure (f a))

theorem givesWithin_charAt {c : Char} (here : cs[place]? = some c) (below : place < bound) :
    GivesWithin bound (charAt cs place) c := by
  refine (givesWithin_note (by simpa using below)).bind fun _ => ⟨[], ?_, by simp⟩
  simp [here]

/-- The character at a place is the first of the text from there on and the last of the text up to it. -/
theorem exists_char_at (cs : List Char) (place : Nat) (within : place < cs.length) :
    ∃ c, cs[place]? = some c ∧ cs.drop place = c :: cs.drop (place + 1) ∧
      (cs.take (place + 1)).reverse = c :: (cs.take place).reverse := by
  refine ⟨cs[place], List.getElem?_eq_getElem within, List.drop_eq_getElem_cons within, ?_⟩
  rw [← List.take_append_getElem within, List.reverse_append]
  rfl

theorem givesWithin_selectBefore (within : place ≤ masked.length) :
    GivesWithin masked.length (selectBefore masked depth place)
      (followsSelect depth (masked.take place).reverse (masked.drop place)) := by
  induction place generalizing depth with
  | zero => exact givesWithin_pure false
  | succ index ih =>
    obtain ⟨c, here, ahead, passed⟩ := exists_char_at masked index within
    have before : isWordAtIndex ["SELECT"] masked index =
        isWordAt ["SELECT"] (masked.take index).reverse.head? (c :: masked.drop (index + 1)) := by
      rw [isWordAtIndex, ahead, List.head?_reverse]
    rw [selectBefore, passed, followsSelect.eq_def]
    refine (givesWithin_charAt here within).bind ?_
    dsimp only
    rw [before, ← ahead]
    split
    · exact ih (by omega)
    · split
      · cases depth with
        | zero => exact givesWithin_pure false
        | succ d => exact ih (by omega)
      · split
        · exact givesWithin_pure true
        · exact ih (by omega)

theorem givesWithin_startsListAt (within : place ≤ masked.length) :
    GivesWithin masked.length (startsListAt masked place)
      (startsTableList (masked.take place).reverse (masked.drop place)) := by
  rw [startsListAt, startsTableList]
  split
  · rename_i distinct
    rw [distinct]
    exact givesWithin_pure false
  · rename_i plain
    rw [Bool.eq_false_iff.mpr plain]
    exact givesWithin_selectBefore within

theorem givesWithin_levelAt (same : text.length = masked.length)
    (within : place + count = masked.length) :
    GivesWithin masked.length (levelAt text masked depth (List.range' place count))
      (sameLevel depth (text.drop place) (masked.drop place)) := by
  induction count generalizing depth place with
  | zero =>
    have ends : masked.drop place = [] := List.drop_eq_nil_of_le (by omega)
    rw [ends, sameLevel.eq_def]
    cases text.drop place <;> exact givesWithin_pure []
  | succ count ih =>
    obtain ⟨m, masked_here, masked_ahead, -⟩ := exists_char_at masked place (by omega)
    obtain ⟨t, text_here, text_ahead, -⟩ := exists_char_at text place (by omega)
    have next : place + 1 + count = masked.length := by omega
    rw [List.range'_succ, levelAt, masked_ahead, text_ahead, sameLevel.eq_def]
    refine (givesWithin_charAt masked_here (by omega)).bind ?_
    dsimp only
    split
    · cases depth with
      | zero => exact givesWithin_pure []
      | succ d => exact (ih next).map _
    · split
      · exact (ih next).map _
      · split
        · exact (givesWithin_charAt text_here (by omega)).bind ((ih next).map _)
        · exact (ih next).map _

theorem length_sameLevel_le (depth : Nat) (text masked : List Char) :
    (sameLevel depth text masked).length ≤ masked.length := by
  fun_induction sameLevel depth text masked with grind

/-- A list ends before the first keyword that ends it. -/
theorem beforeListEnd_eq_take {visible scanned : List Char} (same : visible.length = scanned.length)
    (before : Option Char) :
    beforeListEnd before visible scanned =
      match (List.range scanned.length).find? fun i =>
        isWordAt listEndKeywords ((scanned.take i).getLast?.or before) (scanned.drop i) with
      | none => visible
      | some length => visible.take length := by
  induction scanned generalizing visible before with
  | nil =>
    obtain rfl := List.eq_nil_of_length_eq_zero same
    rfl
  | cons m scanned ih =>
    obtain ⟨t, visible, rfl⟩ := List.exists_cons_of_length_eq_add_one same
    have later (i : Nat) : isWordAt listEndKeywords (((m :: scanned).take (i + 1)).getLast?.or before)
        ((m :: scanned).drop (i + 1)) =
          isWordAt listEndKeywords ((scanned.take i).getLast?.or (some m)) (scanned.drop i) := by
      rw [List.take_succ_cons, getLast?_cons_or, List.drop_succ_cons]
    rw [beforeListEnd, ih (by simpa using same), List.length_cons, List.range_succ_eq_map, List.find?_cons,
      List.find?_map]
    simp only [Function.comp_def, later, List.take_zero, List.getLast?_nil, Option.none_or, List.drop_zero]
    cases isWordAt listEndKeywords before (m :: scanned) with
    | true => rfl
    | false =>
      cases (List.range scanned.length).find? fun i =>
          isWordAt listEndKeywords ((scanned.take i).getLast?.or (some m)) (scanned.drop i) with
      | none => rfl
      | some length => rfl

theorem beforeListEnd_none_eq_take {visible scanned : List Char} (same : visible.length = scanned.length) :
    beforeListEnd none visible scanned =
      match (List.range scanned.length).find? (isWordAtIndex listEndKeywords scanned) with
      | none => visible
      | some length => visible.take length := by
  have general := beforeListEnd_eq_take same none
  simp only [Option.or_none] at general
  exact general

theorem givesWithin_tableListAt (same : text.length = masked.length) (within : place ≤ masked.length) :
    GivesWithin masked.length (tableListAt text masked place)
      (tableListAfter (text.drop place) (masked.drop place)) := by
  rw [tableListAt, tableListAfter]
  refine (givesWithin_levelAt same (by omega)).bind ?_
  have short := length_sameLevel_le 0 (text.drop place) (masked.drop place)
  rw [List.length_drop] at short
  generalize sameLevel 0 (text.drop place) (masked.drop place) = level at short ⊢
  simp only [List.unzip_eq_map]
  rw [beforeListEnd_none_eq_take (by rw [List.length_map, List.length_map])]
  cases found : (List.range (level.map Prod.snd).length).find?
      (isWordAtIndex listEndKeywords (level.map Prod.snd)) with
  | none => exact givesWithin_pure _
  | some length =>
    have inside := List.mem_range.mp (List.mem_of_find?_eq_some found)
    rw [List.length_map] at inside
    refine (givesWithin_note fun i member => ?_).bind (givesWithin_pure _)
    obtain rfl := List.mem_singleton.mp member
    omega

theorem length_le_of_afterKeyword? {letters rest : List Char}
    (read : afterKeyword? letters cs = some rest) : letters.length ≤ cs.length := by
  fun_induction afterKeyword? letters cs with grind

/-- A FROM stands within the text. -/
theorem add_four_le_of_isWordAtIndex (word : isWordAtIndex ["FROM"] cs place) : place + 4 ≤ cs.length := by
  obtain ⟨name, member, found⟩ := List.any_eq_true.mp ((Bool.and_eq_true _ _).mp word).2
  obtain rfl := List.mem_singleton.mp member
  unfold afterWord? at found
  split at found
  · rename_i read
    have short := length_le_of_afterKeyword? read
    rw [List.length_drop] at short
    have four : "FROM".toList.length = 4 := rfl
    omega
  · cases found

theorem givesWithin_tableListsAt (same : text.length = masked.length)
    (within : place + count = masked.length) :
    GivesWithin masked.length
      (tableListsAt text masked ((List.range' place count).filter (isWordAtIndex ["FROM"] masked)))
      (tableListsFrom (masked.take place).reverse (text.drop place) (masked.drop place)) := by
  induction count generalizing place with
  | zero =>
    have ends : masked.drop place = [] := List.drop_eq_nil_of_le (by omega)
    rw [ends, tableListsFrom.eq_def]
    cases text.drop place <;> exact givesWithin_pure []
  | succ count ih =>
    obtain ⟨m, -, masked_ahead, passed⟩ := exists_char_at masked place (by omega)
    obtain ⟨t, -, text_ahead, -⟩ := exists_char_at text place (by omega)
    have next : place + 1 + count = masked.length := by omega
    have later := ih next
    have isFrom : isWordAtIndex ["FROM"] masked place =
        isWordAt ["FROM"] (masked.take place).reverse.head? (m :: masked.drop (place + 1)) := by
      rw [isWordAtIndex, masked_ahead, List.head?_reverse]
    rw [List.range'_succ, List.filter_cons, text_ahead, masked_ahead, tableListsFrom, ← isFrom,
      ← masked_ahead, ← passed]
    cases word : isWordAtIndex ["FROM"] masked place with
    | false => exact later
    | true =>
      have fits := add_four_le_of_isWordAtIndex word
      have list := givesWithin_tableListAt same fits
      rw [if_pos rfl, tableListsAt, Bool.true_and, List.drop_drop, List.drop_drop]
      refine (givesWithin_note fun i member => ?_).bind ((givesWithin_startsListAt (by omega)).bind ?_)
      · have bounds := List.mem_range'_1.mp member
        omega
      · split
        · exact list.bind (later.map _)
        · exact later

theorem givesWithin_tableListsByIndex (code : List Char) :
    GivesWithin code.length (tableListsByIndex code) (tableLists code) := by
  have same : code.length = (maskQuoted code).length := (length_maskQuoted code).symm
  have whole : 0 + (maskQuoted code).length = (maskQuoted code).length := Nat.zero_add _
  rw [tableListsByIndex, tableLists, same, List.range_eq_range']
  exact givesWithin_tableListsAt same whole

/-- Masking keeps places. A masked text is as long as the text, shows the same characters outside of quoted
identifiers and blanks inside them, and is not changed by masking it again. So the scan for table lists may
take its indices from the masked text: it never fails, and each of its indices is a place of the text at
which both texts show the same character unless it lies inside a quoted identifier. -/
theorem maskQuoted_keepsPlaces (cs : List Char) :
    (maskQuoted cs).length = cs.length ∧
      (∀ i, ¬ InsideQuoted cs i → (maskQuoted cs)[i]? = cs[i]?) ∧
      (∀ i, InsideQuoted cs i → (maskQuoted cs)[i]? = some ' ') ∧
      maskQuoted (maskQuoted cs) = maskQuoted cs ∧
      ∃ noted, (tableListsByIndex cs).run [] = some (tableLists cs, noted) ∧
        ∀ i ∈ noted, ∃ c m, cs[i]? = some c ∧ (maskQuoted cs)[i]? = some m ∧
          (c = m ∨ InsideQuoted cs i) := by
  refine ⟨length_maskQuoted cs, fun i => getElem?_maskQuoted_of_outside,
    fun i => getElem?_maskQuoted_of_inside, maskQuoted_maskQuoted cs, ?_⟩
  obtain ⟨noted, run, below⟩ := givesWithin_tableListsByIndex cs []
  refine ⟨noted, run, fun i member => ?_⟩
  have within := below i member
  have masked_within : i < (maskQuoted cs).length := by rwa [length_maskQuoted]
  refine ⟨cs[i], (maskQuoted cs)[i], List.getElem?_eq_getElem within,
    List.getElem?_eq_getElem masked_within, ?_⟩
  by_cases inside : InsideQuoted cs i
  · exact .inr inside
  · left
    have same := getElem?_maskQuoted_of_outside inside
    rw [List.getElem?_eq_getElem within, List.getElem?_eq_getElem masked_within] at same
    exact (Option.some.inj same).symm

end Results

end ReportQuery.Sql
