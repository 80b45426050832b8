import Mathlib.Data.List.Basic
import ReportQuery.Text.Scan

set_option autoImplicit false
set_option relaxedAutoImplicit false

/-!
One step of cutting a text: a match is taken, or the first character is passed.
-/

namespace ReportQuery.Text

variable {α : Type} {matcher : Matcher α} {before : Option Char} {c : Char} {cs : List Char}

/-- The last character so far, when one more was passed. -/
theorem getLast?_cons_or {γ : Type} (c : γ) (cs : List γ) (before : Option γ) :
    (c :: cs).getLast?.or before = cs.getLast?.or (some c) := by
  rw [List.getLast?_cons]
  cases cs.getLast? <;> simp

/-- Parts with a separator between them: one behind each but the first. -/
theorem intercalate_cons_flatMap {γ : Type} (separator first : List γ) (parts : List (List γ)) :
    separator.intercalate (first :: parts) = first ++ parts.flatMap fun part => separator ++ part := by
  induction parts generalizing first with
  | nil => simp
  | cons next parts ih =>
    rw [List.intercalate_cons_cons, ih, List.flatMap_cons, List.append_assoc, List.append_assoc]

/-- What is taken in front of a character that is not taken does not depend on what follows. -/
theorem takeWhile_append_cons {p : Char → Bool} (stop : p c = false) (front back : List Char) :
    (front ++ c :: back).takeWhile p = front.takeWhile p ∧
      (front ++ c :: back).dropWhile p = front.dropWhile p ++ c :: back := by
  induction front with
  | nil => simp [stop]
  | cons d front ih => cases taken : p d <;> simp [taken, ih]

/-- A part whose characters all pass a test is what is taken before a character that does not. -/
theorem takeWhile_append_stop {p : Char → Bool} {part rest : List Char} (all : ∀ c ∈ part, p c)
    (stop : ∀ c ∈ rest.head?, p c = false) :
    (part ++ rest).takeWhile p = part ∧ (part ++ rest).dropWhile p = rest := by
  rw [List.takeWhile_append_of_pos all, List.dropWhile_append_of_pos all]
  cases rest with
  | nil => simp
  | cons c rest => simp [stop c rfl]

theorem drop_length_takeWhile (property : Char → Bool) (cs : List Char) :
    cs.drop (cs.takeWhile property).length = cs.dropWhile property := by
  calc cs.drop (cs.takeWhile property).length
      = (cs.takeWhile property ++ cs.dropWhile property).drop (cs.takeWhile property).length := by
        rw [List.takeWhile_append_dropWhile]
    _ = cs.dropWhile property := List.drop_left

@[simp] theorem pieces_nil : pieces matcher before [] = [] := by
  rw [pieces]

theorem filterMap_found (source : List Char) (a : α) (ps : List (Piece α)) :
    (Piece.found source a :: ps).filterMap Piece.value? = a :: ps.filterMap Piece.value? := rfl

theorem filterMap_plain (front : List Char) (ps : List (Piece α)) :
    (front.map Piece.plain ++ ps).filterMap Piece.value? = ps.filterMap Piece.value? := by
  rw [List.filterMap_append, List.filterMap_map]
  simp [Function.comp_def, Piece.value?]

theorem pieces_append_of_match {source rest : List Char} {a : α} (nonempty : source ≠ [])
    (hit : matcher before (source ++ rest) = some (source.length, a)) :
    pieces matcher before (source ++ rest) =
      .found source a :: pieces matcher source.getLast? rest := by
  cases source with
  | nil => exact absurd rfl nonempty
  | cons c cs =>
    simp only [List.cons_append, List.length_cons] at hit ⊢
    rw [pieces, hit]
    simp

theorem exists_found_of_match {n : Nat} {a : α} (nonempty : cs ≠ [])
    (hit : matcher before cs = some (n + 1, a)) :
    ∃ source, .found source a ∈ pieces matcher before cs := by
  obtain ⟨c, tail, rfl⟩ := List.exists_cons_of_ne_nil nonempty
  refine ⟨(c :: tail).take (n + 1), ?_⟩
  rw [pieces, hit]
  exact List.mem_cons_self

theorem pieces_of_none (miss : matcher before (c :: cs) = none) :
    pieces matcher before (c :: cs) = .plain c :: pieces matcher (some c) cs := by
  rw [pieces, miss]

/-- A front in which no match begins is passed character by character. -/
theorem pieces_append_of_none {front rest : List Char}
    (none : ∀ left c tail, front = left ++ c :: tail →
      matcher (left.getLast?.or before) (c :: (tail ++ rest)) = none) :
    pieces matcher before (front ++ rest) =
      front.map .plain ++ pieces matcher (front.getLast?.or before) rest := by
  induction front generalizing before with
  | nil => rfl
  | cons c front ih =>
    have here := none [] c front rfl
    have later := @ih (some c) fun left d tail same => by
      have place := none (c :: left) d tail (by rw [same]; rfl)
      rwa [getLast?_cons_or] at place
    rw [List.getLast?_nil, Option.none_or] at here
    rw [List.cons_append, pieces_of_none here, later, getLast?_cons_or]
    rfl

/-- Characters that begin no match are passed, whatever stands around them. -/
theorem pieces_append_of_missed {front : List Char}
    (missed : ∀ c ∈ front, ∀ left tail, matcher left (c :: tail) = none) (before : Option Char)
    (rest : List Char) :
    pieces matcher before (front ++ rest) =
      front.map .plain ++ pieces matcher (front.getLast?.or before) rest := by
  refine pieces_append_of_none fun left c tail same => ?_
  exact missed c (by simp [same]) _ _

/-- Matchers that do not look back cut a text alike whatever stands before it. -/
theorem pieces_before (blind : ∀ before cs, matcher before cs = matcher none cs)
    (before : Option Char) (cs : List Char) :
    pieces matcher before cs = pieces matcher none cs := by
  cases cs with
  | nil => simp
  | cons c cs =>
    rw [pieces, pieces, blind before]

/-- A text in which no match begins is cut into its characters. -/
theorem pieces_eq_map_plain (none : ∀ left tail, tail <:+ cs → matcher left tail = none) :
    pieces matcher before cs = cs.map .plain := by
  induction cs generalizing before with
  | nil => simp
  | cons c cs ih =>
    rw [pieces_of_none (none before (c :: cs) List.suffix_rfl), List.map_cons,
      ih fun left tail suffix => none left tail (suffix.trans (List.suffix_cons c cs))]

theorem replaceAll_eq_self (f : List Char → α → List Char)
    (none : ∀ left tail, tail <:+ cs → matcher left tail = none) : replaceAll matcher f cs = cs := by
  rw [replaceAll, pieces_eq_map_plain none, List.flatMap_map]
  exact List.flatMap_singleton' cs

/-- The last character so far, when a match was passed and what is left of the front after it. -/
private theorem getLast?_drop_or_take (n : Nat) (c : Char) (cs : List Char) (before : Option Char) :
    (cs.drop n).getLast?.or ((c :: cs).take (n + 1)).getLast? = (c :: cs).getLast?.or before := by
  rw [← List.getLast?_append, List.take_succ_cons, List.cons_append, List.take_append_drop,
    List.getLast?_cons, Option.some_or]

/-- Where the rest changes no match that begins in the front, front and rest are cut on their own. -/
theorem pieces_append {front rest : List Char} (before : Option Char)
    (same : ∀ left tail, tail ≠ [] → tail <:+ front → matcher left (tail ++ rest) = matcher left tail)
    (fits : ∀ left tail n a, matcher left tail = some (n, a) → n ≤ tail.length) :
    pieces matcher before (front ++ rest) =
      pieces matcher before front ++ pieces matcher (front.getLast?.or before) rest := by
  fun_induction pieces matcher before front with
  | case1 => rfl
  | case2 before c cs n a hit ih =>
    have short : n ≤ cs.length := by simpa using fits before (c :: cs) (n + 1) a hit
    have suffix : cs.drop n <:+ c :: cs := (List.drop_suffix n cs).trans (List.suffix_cons c cs)
    have here : matcher before (c :: (cs ++ rest)) = some (n + 1, a) := by
      rw [← hit]
      exact same before (c :: cs) (by simp) List.suffix_rfl
    have later := ih fun left tail nonempty within => same left tail nonempty (within.trans suffix)
    rw [List.cons_append, pieces, here]
    dsimp only
    rw [List.drop_append_of_le_length short, ← List.cons_append,
      List.take_append_of_le_length (by simpa using short), later, getLast?_drop_or_take n c cs before,
      List.cons_append]
  | case3 before c cs miss ih =>
    have missed : ∀ n a, matcher before (c :: (cs ++ rest)) ≠ some (n + 1, a) := by
      intro n a hit
      have here := same before (c :: cs) (by simp) List.suffix_rfl
      exact miss n a (here.symm.trans hit)
    have later := ih fun left tail nonempty within =>
      same left tail nonempty (within.trans (List.suffix_cons c cs))
    rw [List.cons_append, pieces]
    split
    · rename_i n a hit
      exact absurd hit (missed n a)
    · rw [later, getLast?_cons_or, List.cons_append]

/-- Where no match that begins in the front reaches past it, the rest is cut on its own. -/
theorem exists_pieces_append {front rest : List Char} (before : Option Char)
    (stops : ∀ left tail n a, tail ≠ [] → tail <:+ front →
      matcher left (tail ++ rest) = some (n, a) → n ≤ tail.length) :
    ∃ ps, pieces matcher before (front ++ rest) =
      ps ++ pieces matcher (front.getLast?.or before) rest := by
  match front with
  | [] => exact ⟨[], rfl⟩
  | c :: cs =>
    rw [List.cons_append, pieces]
    split
    · rename_i n a hit
      have short : n ≤ cs.length := by
        have inside := stops before (c :: cs) (n + 1) a (by simp) List.suffix_rfl hit
        simpa using inside
      have shorter : (cs.drop n).length < (c :: cs).length := by
        simp only [List.length_drop, List.length_cons]
        omega
      have suffix : cs.drop n <:+ c :: cs := (List.drop_suffix n cs).trans (List.suffix_cons c cs)
      obtain ⟨ps, later⟩ := exists_pieces_append ((c :: cs).take (n + 1)).getLast?
        fun left tail m b nonempty within => stops left tail m b nonempty (within.trans suffix)
      refine ⟨.found ((c :: cs).take (n + 1)) a :: ps, ?_⟩
      rw [List.drop_append_of_le_length short, ← List.cons_append,
        List.take_append_of_le_length (by simpa using short), later,
        getLast?_drop_or_take n c cs before, List.cons_append]
    · have suffix : cs <:+ c :: cs := List.suffix_cons c cs
      obtain ⟨ps, later⟩ := exists_pieces_append (some c)
        fun left tail m b nonempty within => stops left tail m b nonempty (within.trans suffix)
      refine ⟨.plain c :: ps, ?_⟩
      rw [later, getLast?_cons_or, List.cons_append]
termination_by front.length

/-- A match that was found is what the matcher reads at some place. -/
theorem exists_of_found_mem {source : List Char} {a : α}
    (member : .found source a ∈ pieces matcher before cs) :
    ∃ left c rest n, matcher left (c :: rest) = some (n + 1, a) ∧
      source = (c :: rest).take (n + 1) := by
  fun_induction pieces matcher before cs with
  | case1 => cases member
  | case2 before c cs n b hit ih =>
    rcases List.mem_cons.mp member with here | later
    · cases here
      exact ⟨before, c, cs, n, hit, rfl⟩
    · exact ih later
  | case3 before c cs miss ih =>
    rcases List.mem_cons.mp member with here | later
    · cases here
    · exact ih later

/-- A text in which nothing is found is cut into its characters. -/
theorem pieces_of_findAll_eq_nil (nothing : findAll matcher cs = []) :
    pieces matcher none cs = cs.map .plain := by
  have plain : ∀ ps : List (Piece α), ps.filterMap (·.value?) = [] →
      ps = (ps.flatMap Piece.source).map .plain := by
    intro ps none
    induction ps with
    | nil => rfl
    | cons piece ps ih =>
      cases piece with
      | plain c => simpa [Piece.source] using ih (by simpa [Piece.value?] using none)
      | found source value => simp [Piece.value?] at none
  have whole := plain _ nothing
  rwa [flatMap_source_pieces] at whole

/-- Where nothing is found, the matcher reads nothing at any place of the text. -/
theorem eq_zero_of_findAll_eq_nil {front : List Char} {n : Nat} {a : α}
    (nothing : findAll matcher (front ++ c :: cs) = [])
    (hit : matcher front.getLast? (c :: cs) = some (n, a)) : n = 0 := by
  have general : ∀ before, (pieces matcher before (front ++ c :: cs)).filterMap (·.value?) = [] →
      matcher (front.getLast?.or before) (c :: cs) = some (n, a) → n = 0 := by
    clear nothing hit
    induction front with
    | nil =>
      intro before nothing hit
      rw [List.nil_append, pieces] at nothing
      rw [List.getLast?_nil, Option.none_or] at hit
      rw [hit] at nothing
      cases n with
      | zero => rfl
      | succ n => simp [Piece.value?] at nothing
    | cons d front ih =>
      intro before nothing hit
      rw [List.cons_append, pieces] at nothing
      rw [getLast?_cons_or] at hit
      split at nothing
      · simp [Piece.value?] at nothing
      · exact ih (some d) (by simpa [Piece.value?] using nothing) hit
  exact general none nothing (by rwa [Option.or_none])

/-- Where something is found, a match covers at least one character. -/
theorem exists_found_of_findAll_ne_nil (something : findAll matcher cs ≠ []) :
    ∃ source a, .found source a ∈ pieces matcher none cs ∧ source ≠ [] := by
  obtain ⟨a, member⟩ := List.exists_mem_of_ne_nil _ something
  obtain ⟨piece, among, value⟩ := List.mem_filterMap.mp member
  cases piece with
  | plain c => cases value
  | found source b =>
    refine ⟨source, b, among, ?_⟩
    obtain ⟨left, c, rest, n, -, rfl⟩ := exists_of_found_mem among
    simp

end ReportQuery.Text
