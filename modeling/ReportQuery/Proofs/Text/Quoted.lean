import ReportQuery.Proofs.Text.Scan
import ReportQuery.Sql.Code

set_option autoImplicit false
set_option relaxedAutoImplicit false

/-!
Written quoted segments read back: an enclosed text is one segment as long as no further quote
follows, and its inside is the text. Of all quotes that could close a segment, with quotes in pairs
only before them, the last one closes it.
-/

namespace ReportQuery.Text.Quoted

variable {quote : Char}

theorem closing?_cons_of_ne {c : Char} (cs : List Char) (h : c ≠ quote) :
    closing? quote (c :: cs) = (closing? quote cs).map (· + 1) := by
  rw [closing?.eq_def]
  simp [h]

private theorem closingNonempty?_cons_of_ne {c : Char} (cs : List Char) (h : c ≠ quote) :
    closingNonempty? quote (c :: cs) = (closing? quote cs).map (· + 1) := by
  rw [closingNonempty?.eq_def]
  simp [h]

/-- Every quote in the text belongs to a pair of its own. -/
inductive Paired (quote : Char) : List Char → Prop
  | nil : Paired quote []
  | pair {cs : List Char} : Paired quote cs → Paired quote (quote :: quote :: cs)
  | other {c : Char} {cs : List Char} : c ≠ quote → Paired quote cs → Paired quote (c :: cs)

/-- A segment ends in a quote, and what stands before it holds quotes in pairs only. -/
theorem exists_paired_of_closing? {cs : List Char} {n : Nat} (closes : closing? quote cs = some n) :
    ∃ inside rest, cs = inside ++ quote :: rest ∧ Paired quote inside ∧ n = inside.length + 1 := by
  induction cs using closing?.induct quote generalizing n with
  | case1 => cases closes
  | case2 =>
    obtain rfl : 1 = n := by simpa [closing?] using closes
    exact ⟨[], [], rfl, .nil, rfl⟩
  | case3 ds m found ih =>
    obtain ⟨inside, rest, rfl, paired, rfl⟩ := ih found
    obtain rfl : inside.length + 1 + 2 = n := by simpa [closing?, found] using closes
    exact ⟨quote :: quote :: inside, rest, rfl, .pair paired, rfl⟩
  | case4 ds none _ =>
    obtain rfl : 1 = n := by simpa [closing?, none] using closes
    exact ⟨[], quote :: ds, rfl, .nil, rfl⟩
  | case5 d ds different =>
    obtain rfl : 1 = n := by simpa [closing?, different] using closes
    exact ⟨[], d :: ds, rfl, .nil, rfl⟩
  | case6 c cs different ih =>
    rw [closing?_cons_of_ne cs different] at closes
    obtain ⟨m, found, rfl⟩ := Option.map_eq_some_iff.mp closes
    obtain ⟨inside, rest, rfl, paired, rfl⟩ := ih found
    exact ⟨c :: inside, rest, rfl, .other different paired, rfl⟩

/-- A segment ends in a quote. -/
theorem closing?_eq_some {cs : List Char} {n : Nat} (closes : closing? quote cs = some n) :
    ∃ inside rest, cs = inside ++ quote :: rest ∧ n = inside.length + 1 := by
  obtain ⟨inside, rest, whole, -, size⟩ := exists_paired_of_closing? closes
  exact ⟨inside, rest, whole, size⟩

/-- A segment stands between two quotes, with quotes in pairs only inside it. -/
theorem exists_paired_of_segment? {cs : List Char} {n : Nat} (read : segment? quote cs = some n) :
    ∃ inside rest, cs = quote :: (inside ++ quote :: rest) ∧ Paired quote inside ∧
      n = inside.length + 2 := by
  cases cs with
  | nil => cases read
  | cons c cs =>
    rw [segment?] at read
    by_cases opens : c = quote
    · rw [if_pos opens] at read
      obtain ⟨m, closes, rfl⟩ := Option.map_eq_some_iff.mp read
      obtain ⟨inside, rest, rfl, paired, rfl⟩ := exists_paired_of_closing? closes
      exact ⟨inside, rest, by rw [opens], paired, rfl⟩
    · rw [if_neg opens] at read
      cases read

/-- A segment stands between two quotes. -/
theorem segment?_eq_some {cs : List Char} {n : Nat} (read : segment? quote cs = some n) :
    ∃ inside rest, cs = quote :: (inside ++ quote :: rest) ∧ n = inside.length + 2 := by
  obtain ⟨inside, rest, whole, -, size⟩ := exists_paired_of_segment? read
  exact ⟨inside, rest, whole, size⟩

/-- Of all places at which a segment may close, behind quotes in pairs only, it closes at the last. -/
theorem closing?_of_paired_le {inside : List Char} (paired : Paired quote inside) (rest : List Char) :
    ∃ n, closing? quote (inside ++ quote :: rest) = some n ∧ inside.length + 1 ≤ n := by
  induction paired with
  | nil =>
    cases rest with
    | nil => exact ⟨1, by simp [closing?], by simp⟩
    | cons d ds =>
      by_cases same : d = quote
      · cases later : closing? quote ds with
        | none => exact ⟨1, by simp [closing?, same, later], by simp⟩
        | some n => exact ⟨n + 2, by simp [closing?, same, later], by simp⟩
      · exact ⟨1, by simp [closing?, same], by simp⟩
  | pair _ ih =>
    obtain ⟨n, closes, least⟩ := ih
    exact ⟨n + 2, by simp [closing?, closes], by simp only [List.length_cons]; omega⟩
  | other different _ ih =>
    obtain ⟨n, closes, least⟩ := ih
    refine ⟨n + 1, by simp [closing?_cons_of_ne _ different, closes], ?_⟩
    simp only [List.length_cons]
    omega

theorem closing?_eq_none_iff {cs : List Char} : closing? quote cs = none ↔ quote ∉ cs := by
  induction cs with
  | nil => simp [closing?]
  | cons c cs ih =>
    by_cases same : c = quote
    · subst same
      have found : closing? c (c :: cs) ≠ none := by
        unfold closing?
        rw [if_pos rfl]
        split
        · simp
        · split
          · split <;> simp
          · simp
      simp [found]
    · rw [closing?_cons_of_ne cs same, Option.map_eq_none_iff, ih, List.mem_cons, not_or]
      simp [Ne.symm same]

/-- Behind quotes in pairs a segment closes at a quote that stands alone, or that only one more quote
of the text follows, and this one at once. -/
theorem closing?_eq_length_iff {inside rest : List Char} (paired : Paired quote inside) :
    closing? quote (inside ++ quote :: rest) = some (inside.length + 1) ↔
      ∀ tail, rest = quote :: tail → quote ∉ tail := by
  induction paired with
  | nil =>
    cases rest with
    | nil => simp [closing?]
    | cons d ds =>
      by_cases same : d = quote
      · by_cases later : quote ∈ ds
        · have some_end : closing? quote ds ≠ none := fun none => closing?_eq_none_iff.mp none later
          obtain ⟨n, closes⟩ := Option.ne_none_iff_exists'.mp some_end
          simp [closing?, same, closes, later]
        · simp [closing?, same, closing?_eq_none_iff.mpr later, later]
      · simp [closing?, same]
  | @pair cs _ ih =>
    rw [← ih]
    cases closes : closing? quote (cs ++ quote :: rest) <;> simp [closing?, closes]
  | other different _ ih =>
    rw [← ih]
    simp [closing?_cons_of_ne _ different]

/-- A quote that stands alone closes a segment, whatever pairs stand before it. -/
theorem closing?_of_paired {cs rest : List Char} (paired : Paired quote cs)
    (lone : rest.head? ≠ some quote) :
    closing? quote (cs ++ quote :: rest) = some (cs.length + 1) :=
  (closing?_eq_length_iff paired).mpr fun _ same => absurd (congrArg List.head? same) lone

theorem paired_double (cs : List Char) : Paired quote (double quote cs) := by
  induction cs with
  | nil => exact .nil
  | cons c cs ih =>
    unfold double
    split
    · exact .pair ih
    · rename_i different
      exact .other different ih

/-- A segment with paired quotes in it is read as a whole before anything but another quote. -/
theorem segment?_of_paired {cs rest : List Char} (paired : Paired quote cs)
    (lone : rest.head? ≠ some quote) :
    segment? quote (quote :: (cs ++ quote :: rest)) = some (cs.length + 2) := by
  simp [segment?, closing?_of_paired paired lone]

/-- An enclosed text before anything but another quote is read as one segment. -/
theorem segment?_enclose (cs : List Char) {rest : List Char} (lone : rest.head? ≠ some quote) :
    segment? quote (enclose quote cs ++ rest) = some (enclose quote cs).length := by
  have read := segment?_of_paired (paired_double cs) lone
  simpa [enclose] using read

theorem double_of_not_mem {cs : List Char} (unquoted : quote ∉ cs) : double quote cs = cs := by
  induction cs with
  | nil => rfl
  | cons c cs ih =>
    obtain ⟨here, there⟩ : quote ≠ c ∧ quote ∉ cs := by simpa using unquoted
    rw [double, if_neg (Ne.symm here), ih there]

theorem paired_of_not_mem {cs : List Char} (unquoted : quote ∉ cs) : Paired quote cs := by
  have paired : Paired quote (double quote cs) := paired_double cs
  rwa [double_of_not_mem unquoted] at paired

private theorem undouble_double (cs : List Char) : undouble quote (double quote cs) = cs := by
  induction cs with
  | nil => rfl
  | cons c cs ih =>
    by_cases h : c = quote
    · subst h
      simp [double, undouble, ih]
    · rw [double, if_neg h]
      cases rest : double quote cs with
      | nil =>
        rw [rest] at ih
        simp [undouble, ← ih]
      | cons d ds => simp [undouble, h, ← rest, ih]

/-- A nonempty segment without further quotes in it. -/
theorem segmentNonempty?_of_not_mem {cs rest : List Char} (unquoted : quote ∉ cs)
    (nonempty : cs ≠ []) (lone : rest.head? ≠ some quote) :
    segmentNonempty? quote (quote :: (cs ++ quote :: rest)) = some (cs.length + 2) := by
  obtain ⟨c, cs, rfl⟩ := List.exists_cons_of_ne_nil nonempty
  obtain ⟨here, there⟩ : quote ≠ c ∧ quote ∉ cs := by simpa using unquoted
  rw [segmentNonempty?, if_pos rfl, List.cons_append, closingNonempty?_cons_of_ne _ (Ne.symm here),
    closing?_of_paired (paired_of_not_mem there) lone]
  simp

/-- A quote after which no other follows opens no segment. -/
theorem segmentNonempty?_eq_none {cs : List Char} (unquoted : quote ∉ cs) :
    segmentNonempty? quote (quote :: cs) = none := by
  have open_ : closingNonempty? quote cs = none := by
    cases cs with
    | nil => rfl
    | cons c cs =>
      obtain ⟨here, there⟩ : quote ≠ c ∧ quote ∉ cs := by simpa using unquoted
      have never : closing? quote cs = none := closing?_eq_none_iff.mpr there
      rw [closingNonempty?_cons_of_ne _ (Ne.symm here), never]
      rfl
  rw [segmentNonempty?, if_pos rfl, open_]
  rfl

/-- The inside of an enclosed text is the text. -/
theorem inside_enclose (cs : List Char) : inside quote (enclose quote cs) = cs := by
  simp [inside, enclose, undouble_double]

end ReportQuery.Text.Quoted
