import Mathlib.Logic.Function.Iterate
import ReportQuery.Proofs.Sql.OutsideGroups

set_option autoImplicit false
set_option relaxedAutoImplicit false

/-!
Pairs of parentheses, matched with a stack of the open ones, and the places that no pair encloses. The
rounds that take out innermost groups come to an end, and a keyword is found in what they leave just when
it stands at such a place.

A place of a text parts it into what is left and what is right of it. It is enclosed just when a
parenthesis is open on the left and one more is closed on the right than is opened there: this links the
stack with the scan for the code outside all pairs.
-/

namespace ReportQuery.Sql

open Text

/-- The pairs of matching parentheses, each by its two places, of a text that begins at a place; `opened`
are the places of the parentheses that are open before it, the innermost first. -/
def groupsFrom (place : Nat) (opened : List Nat) : List Char → List (Nat × Nat)
  | [] => []
  | c :: cs =>
    if c = '(' then groupsFrom (place + 1) (place :: opened) cs
    else if c = ')' then
      match opened with
      | [] => groupsFrom (place + 1) [] cs
      | start :: outer => (start, place) :: groupsFrom (place + 1) outer cs
    else groupsFrom (place + 1) opened cs

/-- The pairs of matching parentheses of a text. A parenthesis without its other half is passed over. -/
def groups (cs : List Char) : List (Nat × Nat) :=
  groupsFrom 0 [] cs

example : groups "a(b(c)d)e)f".toList = [(3, 5), (1, 7)] := by decide

/-- Whether a place lies between the two parentheses of a pair: behind the one that opens and in front of
the one that closes. -/
def Encloses (group : Nat × Nat) (place : Nat) : Prop :=
  group.1 < place ∧ place ≤ group.2

/-- The places of the parentheses that are open after a text, the innermost first. -/
def openedAfter (place : Nat) (opened : List Nat) : List Char → List Nat
  | [] => opened
  | c :: cs =>
    if c = '(' then openedAfter (place + 1) (place :: opened) cs
    else if c = ')' then openedAfter (place + 1) opened.tail cs
    else openedAfter (place + 1) opened cs

/-- How many parentheses the text closes that it does not open. -/
def surplus : List Char → Nat
  | [] => 0
  | c :: cs =>
    if c = '(' then surplus cs - 1 else if c = ')' then surplus cs + 1 else surplus cs

variable {c : Char} {cs left right : List Char} {depth opened place : Nat} {keywords : List String}

section Stack

variable {inner outer stack : List Nat}

theorem isClosedIn_iff : isClosedIn depth cs ↔ depth < surplus cs := by
  induction cs generalizing depth with
  | nil => simp [isClosedIn, surplus]
  | cons c cs ih =>
    rw [isClosedIn, surplus]
    split
    · rw [ih]
      omega
    · split
      · rw [Bool.or_eq_true, beq_iff_eq, ih]
        omega
      · exact ih

/-- The pairs of a text and of what follows it: those closed in the one and those closed in the other. -/
theorem groupsFrom_append (place : Nat) (stack : List Nat) (left right : List Char) :
    groupsFrom place stack (left ++ right) =
      groupsFrom place stack left ++
        groupsFrom (place + left.length) (openedAfter place stack left) right := by
  induction left generalizing place stack with
  | nil => rfl
  | cons c left ih =>
    have count : place + (c :: left).length = place + 1 + left.length := by
      rw [List.length_cons]
      omega
    rw [List.cons_append, groupsFrom.eq_def, groupsFrom.eq_def _ _ (c :: left), openedAfter, count]
    dsimp only
    split
    · exact ih _ _
    · split
      · cases stack with
        | nil => exact ih _ _
        | cons start outer => exact congrArg (_ :: ·) (ih _ _)
      · exact ih _ _

/-- A pair is closed inside the text that it was found in. -/
theorem bounds_of_mem_groupsFrom {group : Nat × Nat} (member : group ∈ groupsFrom place stack cs) :
    place ≤ group.2 ∧ group.2 < place + cs.length := by
  induction cs generalizing place stack with
  | nil => cases member
  | cons c cs ih =>
    have later {stack : List Nat} (there : group ∈ groupsFrom (place + 1) stack cs) :
        place ≤ group.2 ∧ group.2 < place + (c :: cs).length := by
      obtain ⟨lower, upper⟩ := ih there
      rw [List.length_cons]
      omega
    rw [groupsFrom.eq_def] at member
    dsimp only at member
    split at member
    · exact later member
    · split at member
      · cases stack with
        | nil => exact later member
        | cons start outer =>
          rcases List.mem_cons.mp member with rfl | there
          · simp
          · exact later there
      · exact later member

theorem length_openedAfter (place : Nat) (stack : List Nat) (cs : List Char) :
    (openedAfter place stack cs).length = depthAfterText stack.length cs := by
  induction cs generalizing place stack with
  | nil => rfl
  | cons c cs ih =>
    rw [openedAfter, depthAfterText, List.foldl_cons, ← depthAfterText, depthAfterChar]
    split
    · rw [ih, List.length_cons]
    · split
      · rw [ih, List.length_tail]
      · exact ih _ _

/-- What is open after a text was opened before its end. -/
theorem lt_of_mem_openedAfter (before : ∀ start ∈ stack, start < place) :
    ∀ start ∈ openedAfter place stack cs, start < place + cs.length := by
  induction cs generalizing place stack with
  | nil => exact before
  | cons c cs ih =>
    have count : place + (c :: cs).length = place + 1 + cs.length := by
      rw [List.length_cons]
      omega
    have sooner : ∀ start ∈ stack, start < place + 1 := fun start member =>
      Nat.lt_succ_of_lt (before start member)
    rw [openedAfter, count]
    split
    · exact ih (List.forall_mem_cons.mpr ⟨Nat.lt_succ_self place, sooner⟩)
    · split
      · exact ih fun start member => sooner start (List.mem_of_mem_tail member)
      · exact ih sooner

/-- Of the parentheses that are open at a place and opened before a mark one is closed later, just when
there is one and all those opened behind the mark are closed too. -/
theorem exists_group_before_iff {mark : Nat} (marked : mark ≤ place)
    (behind : ∀ start ∈ inner, mark ≤ start) (before : ∀ start ∈ outer, start < mark) :
    (∃ group ∈ groupsFrom place (inner ++ outer) cs, group.1 < mark) ↔
      outer ≠ [] ∧ isClosedIn inner.length cs := by
  induction cs generalizing place inner outer with
  | nil => simp [groupsFrom, isClosedIn]
  | cons c cs ih =>
    have later := Nat.le_succ_of_le marked
    rw [groupsFrom.eq_def, isClosedIn]
    dsimp only
    split
    · exact @ih (place + 1) (place :: inner) outer later (List.forall_mem_cons.mpr ⟨marked, behind⟩)
        before
    · split
      · cases inner with
        | cons start inner =>
          obtain ⟨here, there⟩ := List.forall_mem_cons.mp behind
          have others := @ih (place + 1) inner outer later there before
          simpa [Nat.not_lt.mpr here] using others
        | nil =>
          cases outer with
          | nil =>
            have others := @ih (place + 1) [] [] later behind before
            simpa using others
          | cons start outer => simp [before start List.mem_cons_self]
      · exact ih later behind before

/-- A place is enclosed by a pair just when a parenthesis is open on its left and one more is closed on
its right than is opened there. -/
theorem exists_encloses_iff (left right : List Char) :
    (∃ group ∈ groups (left ++ right), Encloses group left.length) ↔
      0 < depthAfterText 0 left ∧ 0 < surplus right := by
  have sooner : ∀ start ∈ openedAfter 0 [] left, start < left.length := by
    have bounds := @lt_of_mem_openedAfter left 0 [] (by simp)
    rwa [Nat.zero_add] at bounds
  have open_iff : openedAfter 0 [] left ≠ [] ↔ 0 < depthAfterText 0 left := by
    rw [← List.length_pos_iff, length_openedAfter]
    rfl
  have closed : (∃ group ∈ groupsFrom left.length (openedAfter 0 [] left) right,
      group.1 < left.length) ↔ 0 < depthAfterText 0 left ∧ 0 < surplus right := by
    have both := @exists_group_before_iff right left.length [] (openedAfter 0 [] left) left.length
      le_rfl (by simp) sooner
    rwa [open_iff, isClosedIn_iff] at both
  rw [← closed, groups, groupsFrom_append, Nat.zero_add]
  constructor
  · rintro ⟨group, member, starts, ends⟩
    rcases List.mem_append.mp member with before | behind
    · have bounds := bounds_of_mem_groupsFrom before
      omega
    · exact ⟨group, behind, starts⟩
  · rintro ⟨group, member, starts⟩
    exact ⟨group, List.mem_append_right _ member, starts, (bounds_of_mem_groupsFrom member).1⟩

end Stack

section Scan

variable {shown before : Option Char}

private theorem mark_of_not_isFlat (paren : isFlat c = false) : isIdentifierChar c = false := by
  rcases (by simpa [isFlat, or_iff_not_imp_left] using paren : c = '(' ∨ c = ')') with rfl | rfl <;> decide

/-- Outside all pairs a character that is no parenthesis shows itself, and a parenthesis shows a character
of no word. -/
private theorem outsideFrom_cons (c : Char) (cs : List Char) :
    (isFlat c = true ∧ outsideFrom 0 (c :: cs) = c :: outsideFrom 0 cs) ∨
      (isFlat c = false ∧ ∃ mark rest, outsideFrom 0 (c :: cs) = mark :: rest ∧
        isIdentifierChar mark = false) := by
  cases flat : isFlat c with
  | true =>
    obtain ⟨opens, closes⟩ : c ≠ '(' ∧ c ≠ ')' := by simpa [isFlat] using flat
    refine .inl ⟨rfl, ?_⟩
    rw [outsideFrom, if_neg (fun opened => opens opened.1), if_neg (fun closed => closes closed.1)]
    rfl
  | false =>
    refine .inr ⟨rfl, ?_⟩
    rw [outsideFrom]
    by_cases opened : c = '(' ∧ isClosedIn 0 cs
    · exact ⟨' ', _, if_pos opened, by decide⟩
    · refine ⟨c, outsideFrom 0 cs, ?_, mark_of_not_isFlat flat⟩
      rw [if_neg opened, if_neg (by simp)]
      rfl

private theorem isWordChar?_head?_outsideFrom (cs : List Char) :
    isWordChar? (outsideFrom 0 cs).head? = isWordChar? cs.head? := by
  cases cs with
  | nil => rfl
  | cons c cs =>
    obtain ⟨-, same⟩ | ⟨paren, mark, rest, same, apart⟩ := outsideFrom_cons c cs
    · rw [same]
      rfl
    · have first : isWordChar? (some mark) = false := isWordChar?_eq_false (by simpa using apart)
      have second : isWordChar? (some c) = false :=
        isWordChar?_eq_false (by simpa using mark_of_not_isFlat paren)
      rw [same, List.head?_cons, List.head?_cons, first, second]

private theorem afterKeyword?_outsideFrom {letters : List Char}
    (capitals : letters.all fun c => 'A' ≤ c && c ≤ 'Z') (cs : List Char) :
    afterKeyword? letters (outsideFrom 0 cs) = (afterKeyword? letters cs).map (outsideFrom 0) := by
  induction letters generalizing cs with
  | nil => rfl
  | cons letter letters ih =>
    obtain ⟨capital, others⟩ := (Bool.and_eq_true _ _).mp capitals
    have unmet {c : Char} (mark : isIdentifierChar c = false) : ¬ meetsLetter letter c := by
      intro meets
      rw [isIdentifierChar_of_meetsLetter capital meets] at mark
      cases mark
    cases cs with
    | nil => rfl
    | cons c cs =>
      obtain ⟨-, same⟩ | ⟨paren, mark, rest, same, apart⟩ := outsideFrom_cons c cs
      · rw [same, afterKeyword?, afterKeyword?, ih others]
        split <;> rfl
      · rw [same, afterKeyword?, if_neg (unmet apart), afterKeyword?,
          if_neg (unmet (mark_of_not_isFlat paren))]
        rfl

/-- Outside all pairs the same keywords begin as in the text itself. -/
private theorem startsWithWord_outsideFrom (words : areKeywords keywords) (cs : List Char) :
    startsWithWord keywords (outsideFrom 0 cs) = startsWithWord keywords cs := by
  rw [Bool.eq_iff_iff, startsWithWord, startsWithWord, List.any_eq_true, List.any_eq_true]
  refine exists_congr fun name => and_congr_right fun member => ?_
  have capitals := List.all_eq_true.mp (capitals_of_areKeywords words) name member
  rw [afterWord?, afterWord?, afterKeyword?_outsideFrom capitals]
  cases afterKeyword? name.toList cs with
  | none => exact Iff.rfl
  | some rest =>
    dsimp only [Option.map_some]
    rw [isWordChar?_head?_outsideFrom]
    split <;> rfl

/-- One character of the scan, where as many pairs are open as parentheses on the left have their other
half on the right. Outside all pairs something is shown, which is of a word just if the character is and
opens no pair; inside one nothing is. -/
private theorem outsideFrom_step (opened : Nat) (c : Char) (cs : List Char) :
    (min opened (surplus (c :: cs)) = 0 ∧
      ∃ d, outsideFrom 0 (c :: cs) = d :: outsideFrom (min (depthAfterChar opened c) (surplus cs)) cs ∧
        isWordChar? (some d) =
          (decide (min (depthAfterChar opened c) (surplus cs) = 0) && isWordChar? (some c))) ∨
    (min opened (surplus (c :: cs)) ≠ 0 ∧
      outsideFrom (min opened (surplus (c :: cs))) (c :: cs) =
        outsideFrom (min (depthAfterChar opened c) (surplus cs)) cs ∧
      (min (depthAfterChar opened c) (surplus cs) = 0 → isWordChar? (some c) = false)) := by
  by_cases opens : c = '(' ∧ isClosedIn 0 cs
  · obtain ⟨rfl, closed⟩ := opens
    have some : 0 < surplus cs := isClosedIn_iff.mp closed
    have step (depth : Nat) :
        outsideFrom depth ('(' :: cs) = shownAt depth ' ' ++ outsideFrom (depth + 1) cs := by
      rw [outsideFrom, if_pos ⟨rfl, closed⟩]
    have left : surplus ('(' :: cs) = surplus cs - 1 := rfl
    have deeper : min (depthAfterChar opened '(') (surplus cs) = min opened (surplus ('(' :: cs)) + 1 := by
      rw [left, depthAfterChar, if_pos rfl]
      omega
    rw [step, step, deeper]
    by_cases level : min opened (surplus ('(' :: cs)) = 0
    · exact .inl ⟨level, ' ', by rw [level]; rfl, by simp; decide⟩
    · refine .inr ⟨level, ?_, fun zero => absurd zero (Nat.succ_ne_zero _)⟩
      rw [shownAt, if_neg level, List.nil_append]
  by_cases closes : c = ')' ∧ min opened (surplus (c :: cs)) ≠ 0
  · obtain ⟨rfl, nested⟩ := closes
    have left : surplus (')' :: cs) = surplus cs + 1 := rfl
    have higher : min (depthAfterChar opened ')') (surplus cs) = min opened (surplus (')' :: cs)) - 1 := by
      rw [left, depthAfterChar, if_neg (by decide), if_pos rfl]
      omega
    refine .inr ⟨nested, ?_, fun _ => by decide⟩
    rw [outsideFrom, if_neg opens, if_pos ⟨rfl, nested⟩, higher]
  have same : min (depthAfterChar opened c) (surplus cs) = min opened (surplus (c :: cs)) := by
    rw [depthAfterChar, surplus]
    by_cases opening : c = '('
    · have unclosed : surplus cs = 0 := by
        by_contra some
        exact opens ⟨opening, isClosedIn_iff.mpr (Nat.pos_of_ne_zero some)⟩
      rw [unclosed, if_pos opening, if_pos opening, Nat.min_zero, Nat.min_zero]
    rw [if_neg opening, if_neg opening]
    by_cases closing : c = ')'
    · have outside : opened = 0 := by
        by_contra some
        refine closes ⟨closing, ?_⟩
        rw [surplus, if_neg opening, if_pos closing]
        omega
      rw [outside, if_pos closing, Nat.zero_min, Nat.zero_min]
    · rw [if_neg closing, if_neg closing]
  have step : outsideFrom (min opened (surplus (c :: cs))) (c :: cs) =
      shownAt (min opened (surplus (c :: cs))) c ++ outsideFrom (min opened (surplus (c :: cs))) cs := by
    rw [outsideFrom, if_neg opens, if_neg closes]
  rw [same]
  by_cases level : min opened (surplus (c :: cs)) = 0
  · refine .inl ⟨level, c, ?_, by simp [level]⟩
    rw [level] at step ⊢
    exact step
  · refine .inr ⟨level, ?_, fun zero => absurd zero level⟩
    rw [step, shownAt, if_neg level, List.nil_append]

private theorem exists_split_cons {holds : List Char → List Char → Prop} :
    (∃ left right, c :: cs = left ++ right ∧ holds left right) ↔
      holds [] (c :: cs) ∨ ∃ left right, cs = left ++ right ∧ holds (c :: left) right := by
  constructor
  · rintro ⟨left, right, split, here⟩
    cases left with
    | nil =>
      obtain rfl : c :: cs = right := split
      exact .inl here
    | cons d left =>
      obtain ⟨rfl, rfl⟩ := List.cons.inj split
      exact .inr ⟨left, right, rfl, here⟩
  · rintro (here | ⟨left, right, rfl, there⟩)
    · exact ⟨[], c :: cs, rfl, here⟩
    · exact ⟨c :: left, right, rfl, there⟩

/-- The keywords in what is shown of a text are those of the text that no pair encloses. The induction is
on the text; what is carried along is that the last character shown is of a word just if the last one
passed is and no pair is open. -/
private theorem exists_isWordAt_outsideFrom (words : areKeywords keywords)
    (meets : isWordChar? shown = (decide (min opened (surplus cs) = 0) && isWordChar? before)) :
    (∃ left right, outsideFrom (min opened (surplus cs)) cs = left ++ right ∧
        isWordAt keywords (left.getLast?.or shown) right) ↔
      ∃ left right, cs = left ++ right ∧ isWordAt keywords (left.getLast?.or before) right ∧
        min (depthAfterText opened left) (surplus right) = 0 := by
  induction cs generalizing opened shown before with
  | nil => simp [outsideFrom, isWordAt_nil words]
  | cons c cs ih =>
    have passed (left : List Char) :
        depthAfterText opened (c :: left) = depthAfterText (depthAfterChar opened c) left := rfl
    rw [@exists_split_cons c cs]
    simp only [passed, getLast?_cons_or, List.getLast?_nil, Option.none_or]
    obtain ⟨level, d, step, shows⟩ | ⟨nested, step, ends⟩ := outsideFrom_step opened c cs
    · have here : isWordAt keywords shown (outsideFrom 0 (c :: cs)) = isWordAt keywords before (c :: cs) := by
        rw [isWordAt, isWordAt, startsWithWord_outsideFrom words, meets, level]
        rfl
      rw [level]
      rw [step] at here ⊢
      rw [exists_split_cons, ← ih shows]
      simp only [getLast?_cons_or, List.getLast?_nil, Option.none_or, here]
      simp [depthAfterText, level]
    · have marked : isWordChar? shown = false := by rw [meets, decide_eq_false nested, Bool.false_and]
      rw [step, @ih (depthAfterChar opened c) shown (some c)]
      · simp [depthAfterText, nested]
      · rw [marked]
        by_cases zero : min (depthAfterChar opened c) (surplus cs) = 0
        · rw [ends zero, Bool.and_false]
        · rw [decide_eq_false zero, Bool.false_and]

/-- A keyword is found in the code outside all pairs just when it stands in the code at a place that no
pair encloses. -/
theorem containsWord_outsideFrom_iff (words : areKeywords keywords) :
    containsWord keywords (outsideFrom 0 cs) ↔
      ∃ left right, cs = left ++ right ∧ isWordAt keywords left.getLast? right ∧
        ∀ group ∈ groups cs, ¬ Encloses group left.length := by
  have scanned := @exists_isWordAt_outsideFrom cs 0 keywords none none words (by simp [isWordChar?])
  rw [Nat.zero_min] at scanned
  simp only [Option.or_none] at scanned
  rw [containsWord_iff_isWordAt words, scanned]
  refine exists_congr fun left => exists_congr fun right => and_congr_right fun split => ?_
  refine and_congr_right fun _ => ?_
  have enclosed := exists_encloses_iff left right
  rw [← split] at enclosed
  rw [← Nat.lt_min] at enclosed
  rw [← Nat.le_zero, ← Nat.not_lt, ← enclosed]
  simp

end Scan

section Rounds

/-- The rounds that take out innermost groups: as long as a round changes the code another one follows,
and there are no more of them than characters. -/
theorem exists_rounds (code : List Char) :
    ∃ rounds ≤ code.length, collapseGroups code = collapseInnermost^[rounds] code ∧
      collapseInnermost^[rounds + 1] code = collapseInnermost^[rounds] code ∧
      ∀ k < rounds, collapseInnermost^[k + 1] code ≠ collapseInnermost^[k] code := by
  fun_induction collapseGroups code with
  | case1 code shorter ih =>
    obtain ⟨rounds, bound, ends, still, moves⟩ := ih
    refine ⟨rounds + 1, by omega, ends, still, fun k less => ?_⟩
    cases k with
    | zero =>
      intro same
      have lengths := congrArg List.length same
      simp only [Function.iterate_succ, Function.iterate_zero, Function.comp_apply, id_eq] at lengths
      omega
    | succ k => exact moves k (by omega)
  | case2 code same =>
    refine ⟨0, Nat.zero_le _, rfl, ?_, by simp⟩
    exact collapseInnermost_eq_self same

end Rounds

/-- The LIMIT of the outermost query is found just when it is there. The rounds that take out innermost
groups end, and what they leave holds the word LIMIT just when the code holds it, in any case and as a
whole word, at a place that no pair of matching parentheses encloses. -/
theorem hasLimit_iff_unenclosed (statement : List Char) :
    let code := maskQuoted (stripLiterals statement)
    (∃ rounds ≤ code.length, collapseGroups code = collapseInnermost^[rounds] code ∧
      collapseInnermost^[rounds + 1] code = collapseInnermost^[rounds] code ∧
      ∀ k < rounds, collapseInnermost^[k + 1] code ≠ collapseInnermost^[k] code) ∧
    (hasLimit statement ↔
      ∃ left right, code = left ++ right ∧ isWordAt ["LIMIT"] left.getLast? right ∧
        ∀ group ∈ groups code, ¬ Encloses group left.length) := by
  intro code
  refine ⟨exists_rounds code, ?_⟩
  rw [hasLimit, collapseGroups_eq]
  exact containsWord_outsideFrom_iff (by decide)

end ReportQuery.Sql
