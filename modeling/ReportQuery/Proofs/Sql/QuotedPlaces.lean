import ReportQuery.Proofs.Sql.QuotePass

set_option autoImplicit false
set_option relaxedAutoImplicit false

/-!
The places inside the quoted identifiers of a text, and what masking does at every place: it blanks
those inside and keeps all others. Quoted identifiers are found from left to right, each as long as
it can be, and masking does not change where they are. Which quotes enclose a character can be told
without finding them: an odd number of quotes stands before it, and one more behind it.
-/

namespace ReportQuery.Sql

open Text

variable {cs inside others rest tail front back : List Char} {c : Char} {i : Nat}

section Segments

/-- A quoted identifier stands at the front of the text: a part between two quotes inside which every
quote is doubled, the longest such part there. -/
structure BeginsQuoted (cs inside rest : List Char) : Prop where
  whole : cs = '"' :: (inside ++ '"' :: rest)
  doubled : Quoted.Paired '"' inside
  longest : ∀ longer tail, cs = '"' :: (longer ++ '"' :: tail) → Quoted.Paired '"' longer →
    longer.length ≤ inside.length

/-- No quoted identifier stands at the front of the text. -/
def BeginsPlain (cs : List Char) : Prop :=
  ∀ inside rest, ¬ BeginsQuoted cs inside rest

/-- A place of the text lies strictly inside a quoted identifier. These are found from left to right; a
character that begins none, such as a quote that no other closes, is passed. -/
inductive InsideQuoted : List Char → Nat → Prop
  | here {cs inside rest : List Char} {i : Nat} :
      BeginsQuoted cs inside rest → i < inside.length → InsideQuoted cs (i + 1)
  | behind {cs inside rest : List Char} {i : Nat} :
      BeginsQuoted cs inside rest → InsideQuoted rest i → InsideQuoted cs (inside.length + 2 + i)
  | passed {c : Char} {cs : List Char} {i : Nat} :
      BeginsPlain (c :: cs) → InsideQuoted cs i → InsideQuoted (c :: cs) (i + 1)

theorem segment?_of_beginsQuoted (begins : BeginsQuoted cs inside rest) :
    Quoted.segment? '"' cs = some (inside.length + 2) := by
  obtain ⟨rfl, doubled, longest⟩ := begins
  obtain ⟨n, closes, least⟩ := Quoted.closing?_of_paired_le doubled rest
  obtain ⟨found, tail, same, paired, rfl⟩ := Quoted.exists_paired_of_closing? closes
  have most : found.length ≤ inside.length := longest found tail (by rw [same]) paired
  have size : found.length = inside.length := by omega
  simp [Quoted.segment?, closes, size]

theorem beginsQuoted_of_segment? (doubled : Quoted.Paired '"' inside)
    (read : Quoted.segment? '"' ('"' :: (inside ++ '"' :: rest)) = some (inside.length + 2)) :
    BeginsQuoted ('"' :: (inside ++ '"' :: rest)) inside rest := by
  refine ⟨rfl, doubled, fun longer tail same paired => ?_⟩
  obtain ⟨n, closes, least⟩ := Quoted.closing?_of_paired_le paired tail
  rw [same, Quoted.segment?, if_pos rfl, closes] at read
  have size : n + 1 = inside.length + 2 := Option.some.inj read
  omega

theorem segment?_eq_none_iff : Quoted.segment? '"' cs = none ↔ BeginsPlain cs := by
  constructor
  · intro unread inside rest begins
    rw [segment?_of_beginsQuoted begins] at unread
    cases unread
  · intro plain
    rw [Option.eq_none_iff_forall_ne_some]
    intro n read
    obtain ⟨inside, rest, rfl, doubled, rfl⟩ := Quoted.exists_paired_of_segment? read
    exact plain inside rest (beginsQuoted_of_segment? doubled read)

/-- A character begins no quoted identifier exactly if it is no quote or the last one of the text. -/
theorem beginsPlain_cons_iff : BeginsPlain (c :: cs) ↔ (c = '"' → '"' ∉ cs) := by
  rw [← segment?_eq_none_iff, Quoted.segment?]
  split
  · rename_i quote
    rw [Option.map_eq_none_iff, Quoted.closing?_eq_none_iff]
    simp [quote]
  · rename_i other
    simp [other]

theorem BeginsQuoted.length_lt (begins : BeginsQuoted cs inside rest) : rest.length < cs.length := by
  rw [begins.whole]
  simp only [List.length_cons, List.length_append]
  omega

/-- Every text is empty, or a quoted identifier stands at its front, or its first character begins
none: with this a text is gone through from left to right. -/
@[elab_as_elim]
theorem quotedInduction {motive : List Char → Prop} (nil : motive [])
    (quoted : ∀ cs inside rest, BeginsQuoted cs inside rest → motive rest → motive cs)
    (passed : ∀ c cs, BeginsPlain (c :: cs) → motive cs → motive (c :: cs)) (cs : List Char) :
    motive cs := by
  induction size : cs.length using Nat.strong_induction_on generalizing cs with
  | _ n ih =>
    subst size
    cases cs with
    | nil => exact nil
    | cons c cs =>
      by_cases plain : BeginsPlain (c :: cs)
      · exact passed c cs plain (ih cs.length (by simp) cs rfl)
      · simp only [BeginsPlain, not_forall, not_not] at plain
        obtain ⟨inside, rest, begins⟩ := plain
        exact quoted _ inside rest begins (ih rest.length begins.length_lt rest rfl)

/-- Where a quoted identifier ends. -/
theorem beginsQuoted_iff :
    BeginsQuoted cs inside rest ↔ cs = '"' :: (inside ++ '"' :: rest) ∧ Quoted.Paired '"' inside ∧
      ∀ tail, rest = '"' :: tail → '"' ∉ tail := by
  constructor
  · intro begins
    have read := segment?_of_beginsQuoted begins
    obtain ⟨rfl, doubled, -⟩ := begins
    refine ⟨rfl, doubled, (Quoted.closing?_eq_length_iff doubled).mp ?_⟩
    simpa [Quoted.segment?] using read
  · rintro ⟨rfl, doubled, ends⟩
    refine beginsQuoted_of_segment? doubled ?_
    simp [Quoted.segment?, (Quoted.closing?_eq_length_iff doubled).mpr ends]

end Segments

section Parity

/-- Quotes in pairs are even in number, up to every place where no pair is cut. -/
theorem even_count_of_paired (paired : Quoted.Paired '"' (front ++ back))
    (uncut : back.head? ≠ some '"') : front.count '"' % 2 = 0 := by
  generalize whole : front ++ back = cs at paired
  induction paired generalizing front with
  | nil =>
    obtain ⟨rfl, -⟩ := List.append_eq_nil_iff.mp whole
    simp
  | pair _ ih =>
    match front with
    | [] => simp
    | [d] =>
      obtain ⟨-, rfl⟩ := List.cons.inj whole
      exact absurd rfl uncut
    | d :: e :: front =>
      obtain ⟨rfl, rfl, same⟩ : d = '"' ∧ e = '"' ∧ front ++ back = _ := by simpa using whole
      have even := ih same
      rw [List.count_cons_self, List.count_cons_self]
      omega
  | other different _ ih =>
    cases front with
    | nil => simp
    | cons d front =>
      obtain ⟨rfl, same⟩ := List.cons.inj whole
      rw [List.count_cons_of_ne different]
      exact ih same

/-- A quoted identifier in front changes nothing about whether the number of quotes is odd. -/
theorem BeginsQuoted.count_quoted (begins : BeginsQuoted cs inside rest) (behind : List Char) :
    ('"' :: (inside ++ '"' :: behind)).count '"' % 2 = behind.count '"' % 2 := by
  have doubled : Quoted.Paired '"' (inside ++ []) := by simpa using begins.doubled
  have even : inside.count '"' % 2 = 0 := even_count_of_paired doubled (by simp)
  rw [List.count_cons_self, List.count_append, List.count_cons_self]
  omega

theorem BeginsQuoted.unique (begins : BeginsQuoted cs inside rest)
    (again : BeginsQuoted cs others tail) : others = inside ∧ tail = rest := by
  have size := (segment?_of_beginsQuoted again).symm.trans (segment?_of_beginsQuoted begins)
  have same := (List.cons.inj (again.whole.symm.trans begins.whole)).2
  obtain ⟨rfl, others⟩ := List.append_inj same (by simpa using size)
  exact ⟨rfl, (List.cons.inj others).2⟩

theorem BeginsQuoted.insideQuoted_iff (begins : BeginsQuoted cs inside rest) :
    InsideQuoted cs i ↔ (∃ j < inside.length, i = j + 1) ∨
      ∃ j, InsideQuoted rest j ∧ i = inside.length + 2 + j := by
  constructor
  · intro within
    cases within with
    | here again bound =>
      obtain ⟨rfl, rfl⟩ := begins.unique again
      exact .inl ⟨_, bound, rfl⟩
    | behind again within =>
      obtain ⟨rfl, rfl⟩ := begins.unique again
      exact .inr ⟨_, within, rfl⟩
    | passed plain _ => exact absurd begins (plain _ _)
  · rintro (⟨j, bound, rfl⟩ | ⟨j, within, rfl⟩)
    · exact .here begins bound
    · exact .behind begins within

theorem BeginsPlain.insideQuoted_iff (plain : BeginsPlain (c :: cs)) :
    InsideQuoted (c :: cs) i ↔ ∃ j, InsideQuoted cs j ∧ i = j + 1 := by
  constructor
  · intro within
    cases within with
    | here begins _ => exact absurd begins (plain _ _)
    | behind begins _ => exact absurd begins (plain _ _)
    | passed _ within => exact ⟨_, within, rfl⟩
  · rintro ⟨j, within, rfl⟩
    exact .passed plain within

/-- A character other than a quote stands inside a quoted identifier exactly if an odd number of quotes
stands before it and a quote stands behind it. -/
theorem insideQuoted_iff_odd (other : c ≠ '"') :
    InsideQuoted (front ++ c :: back) front.length ↔ front.count '"' % 2 = 1 ∧ '"' ∈ back := by
  generalize whole : front ++ c :: back = cs
  induction cs using quotedInduction generalizing front with
  | nil => simp at whole
  | quoted cs inside rest begins ih =>
    rw [begins.insideQuoted_iff]
    cases front with
    | nil => exact absurd (List.cons.inj (whole.trans begins.whole)).1 other
    | cons d front =>
      obtain ⟨rfl, same⟩ := List.cons.inj (whole.trans begins.whole)
      rcases List.append_eq_append_iff.mp same with ⟨middle, rfl, cut⟩ | ⟨middle, rfl, cut⟩
      · -- the character stands in the quoted identifier at the front
        cases middle with
        | nil => exact absurd (List.cons.inj cut).1 other
        | cons d middle =>
          obtain ⟨rfl, rfl⟩ := List.cons.inj cut
          have even := even_count_of_paired begins.doubled (by simpa using other)
          have odd : ('"' :: front).count '"' % 2 = 1 := by
            rw [List.count_cons_self]
            omega
          exact iff_of_true (.inl ⟨front.length, by simp, rfl⟩) ⟨odd, by simp⟩
      · -- the character stands behind it
        cases middle with
        | nil => exact absurd (List.cons.inj cut).1.symm other
        | cons d middle =>
          obtain ⟨rfl, rfl⟩ := List.cons.inj cut
          have place : ('"' :: (inside ++ '"' :: middle)).length = inside.length + 2 + middle.length := by
            simp only [List.length_cons, List.length_append]
            omega
          rw [begins.count_quoted, place, ← ih rfl]
          constructor
          · rintro (⟨j, bound, there⟩ | ⟨j, within, there⟩)
            · omega
            · obtain rfl : j = middle.length := by omega
              exact within
          · exact fun within => .inr ⟨_, within, rfl⟩
  | passed d cs plain ih =>
    rw [plain.insideQuoted_iff]
    cases front with
    | nil => simp
    | cons e front =>
      obtain ⟨rfl, same⟩ := List.cons.inj whole
      have step : (∃ j, InsideQuoted cs j ∧ (e :: front).length = j + 1) ↔
          InsideQuoted cs front.length := by simp
      rw [step, ih same]
      by_cases quote : e = '"'
      · -- no quote stands behind this one
        have unquoted : '"' ∉ back := fun member =>
          beginsPlain_cons_iff.mp plain quote (same ▸ by simp [member])
        simp [unquoted]
      · rw [List.count_cons_of_ne quote]

end Parity

section Masking

@[simp] theorem maskQuoted_nil : maskQuoted [] = [] := by
  simp [maskQuoted, replaceAll]

theorem maskQuoted_quoted (begins : BeginsQuoted cs inside rest) :
    maskQuoted cs = '"' :: (List.replicate inside.length ' ' ++ '"' :: maskQuoted rest) := by
  obtain ⟨source, after, whole, size, cut⟩ :=
    pieces_quotedSegment_found (segment?_of_beginsQuoted begins)
  have same : source ++ after = '"' :: (inside ++ ['"']) ++ rest := by
    rw [← whole, begins.whole]
    simp
  obtain ⟨rfl, rfl⟩ := List.append_inj same (by simp [size])
  rw [maskQuoted, replaceAll, cut, List.flatMap_cons]
  simp [Piece.replaced, maskQuoted, replaceAll]

theorem maskQuoted_passed (plain : BeginsPlain (c :: cs)) :
    maskQuoted (c :: cs) = c :: maskQuoted cs := by
  rw [maskQuoted, replaceAll, pieces_quotedSegment_missed (segment?_eq_none_iff.mpr plain),
    List.flatMap_cons]
  rfl

theorem length_maskQuoted (cs : List Char) : (maskQuoted cs).length = cs.length := by
  induction cs using quotedInduction with
  | nil => simp
  | quoted cs inside rest begins ih =>
    rw [maskQuoted_quoted begins, begins.whole]
    simp [ih]
  | passed c cs plain ih => simp [maskQuoted_passed plain, ih]

/-- Masking keeps what stands outside of quoted identifiers. -/
theorem getElem?_maskQuoted_of_outside (outside : ¬ InsideQuoted cs i) :
    (maskQuoted cs)[i]? = cs[i]? := by
  induction cs using quotedInduction generalizing i with
  | nil => simp
  | quoted cs inside rest begins ih =>
    rw [maskQuoted_quoted begins, begins.whole]
    cases i with
    | zero => rfl
    | succ i =>
      have past : inside.length ≤ i := by
        by_contra before
        exact outside (.here begins (by omega))
      rw [List.getElem?_cons_succ, List.getElem?_cons_succ,
        List.getElem?_append_right (by rwa [List.length_replicate]), List.getElem?_append_right past,
        List.length_replicate]
      cases place : i - inside.length with
      | zero => rfl
      | succ j =>
        have same : i + 1 = inside.length + 2 + j := by omega
        rw [same] at outside
        simpa using ih fun within => outside (.behind begins within)
  | passed c cs plain ih =>
    rw [maskQuoted_passed plain]
    cases i with
    | zero => rfl
    | succ i => simpa using ih fun within => outside (.passed plain within)

/-- Masking blanks what stands inside quoted identifiers. -/
theorem getElem?_maskQuoted_of_inside (within : InsideQuoted cs i) :
    (maskQuoted cs)[i]? = some ' ' := by
  induction within with
  | here begins bound =>
    rw [maskQuoted_quoted begins, List.getElem?_cons_succ, List.getElem?_append_left (by simpa using bound),
      List.getElem?_replicate, if_pos bound]
  | @behind cs inside rest i begins _ ih =>
    have place : inside.length + 2 + i = inside.length + (i + 1) + 1 := by omega
    rw [maskQuoted_quoted begins, place, List.getElem?_cons_succ, List.getElem?_append_right (by simp)]
    simpa using ih
  | passed plain _ ih => rw [maskQuoted_passed plain, List.getElem?_cons_succ, ih]

example : maskQuoted "\"a\"\"b\"\" (".toList = "\"    \"\" (".toList := by decide +kernel

/-- A quote that no other follows is still the last one when the text is masked. -/
theorem BeginsPlain.masked (plain : BeginsPlain (c :: cs)) : BeginsPlain (c :: maskQuoted cs) := by
  rw [beginsPlain_cons_iff] at plain ⊢
  intro quote
  rw [maskQuoted_eq_self (plain quote)]
  exact plain quote

/-- A quoted identifier ends at the same place when it and what follows it are masked. -/
theorem BeginsQuoted.masked (begins : BeginsQuoted cs inside rest) :
    BeginsQuoted (maskQuoted cs) (List.replicate inside.length ' ') (maskQuoted rest) := by
  obtain ⟨-, -, ends⟩ := beginsQuoted_iff.mp begins
  refine beginsQuoted_iff.mpr ⟨maskQuoted_quoted begins, ?_, ?_⟩
  · exact Quoted.paired_of_not_mem (by simp)
  · cases rest using quotedInduction with
    | nil => simp
    | quoted rest named after next =>
      -- behind the closing quote no quoted identifier follows at once
      obtain ⟨rfl, -⟩ := next
      exact absurd (ends _ rfl) (by simp)
    | passed c rest plain =>
      rw [maskQuoted_passed plain]
      rintro tail same
      obtain ⟨rfl, rfl⟩ := List.cons.inj same
      have unquoted : '"' ∉ rest := ends rest rfl
      rwa [maskQuoted_eq_self unquoted]

/-- A masked text holds nothing more to mask. -/
theorem maskQuoted_maskQuoted (cs : List Char) : maskQuoted (maskQuoted cs) = maskQuoted cs := by
  induction cs using quotedInduction with
  | nil => simp
  | quoted cs inside rest begins ih =>
    rw [maskQuoted_quoted begins.masked, maskQuoted_quoted begins, ih, List.length_replicate]
  | passed c cs plain ih => rw [maskQuoted_passed plain, maskQuoted_passed plain.masked, ih]

end Masking

end ReportQuery.Sql
