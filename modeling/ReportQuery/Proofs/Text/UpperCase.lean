import ReportQuery.Proofs.Text.Blank
import ReportQuery.Text.Case

set_option autoImplicit false
set_option relaxedAutoImplicit false

/-!
The upper case of a text is its own upper case, and it has blanks only where the text has them.

That no upper case has another one is checked on sets of code points, each written as one number
whose bits are its members.
-/

namespace ReportQuery.Text

open CaseTable (CaseRun upperExpansions upperRuns)

variable {c d : Char} {n : Nat}

section Codes

/-- The code points of a run. -/
def CaseTable.CaseRun.codes (run : CaseRun) : List Nat :=
  (List.range ((run.last - run.first) / run.step + 1)).map fun k => run.first + k * run.step

private theorem mem_codes {run : CaseRun} (holds : run.holds n) : n ∈ run.codes := by
  simp only [CaseRun.holds, Bool.and_eq_true, decide_eq_true_eq, beq_iff_eq] at holds
  obtain ⟨⟨first, last⟩, steps⟩ := holds
  refine List.mem_map.mpr ⟨(n - run.first) / run.step, List.mem_range.mpr ?_, ?_⟩
  · have := Nat.div_le_div_right (c := run.step) (Nat.sub_le_sub_right last run.first)
    omega
  · have := Nat.div_mul_cancel (Nat.dvd_of_mod_eq_zero steps)
    omega

/-- The code points of characters whose upper case may be another text. -/
def upperSources : List Nat :=
  upperExpansions.map Prod.fst ++ (asciiLetterRun :: upperRuns).flatMap CaseRun.codes

/-- The code points of characters that upper cases of others consist of. -/
def upperImages : List Nat :=
  upperExpansions.flatMap Prod.snd ++
    (asciiLetterRun :: upperRuns).flatMap fun run =>
      run.codes.map fun (n : Nat) => (n + run.shift).toNat

/-- The number whose bits are the members of a list. -/
def codeMask (codes : List Nat) : Nat :=
  codes.foldr (fun n mask => mask ||| 1 <<< n) 0

private theorem testBit_codeMask {codes : List Nat} : (codeMask codes).testBit n ↔ n ∈ codes := by
  induction codes with
  | nil => simp [codeMask]
  | cons m codes ih =>
    have step : codeMask (m :: codes) = codeMask codes ||| 1 <<< m := rfl
    rw [step, Nat.testBit_or, Bool.or_eq_true, ih, List.mem_cons, Nat.one_shiftLeft,
      Nat.testBit_two_pow, decide_eq_true_eq, or_comm, eq_comm]

private theorem not_mem_of_codeMask {codes others : List Nat}
    (apart : codeMask codes &&& codeMask others = 0) (member : n ∈ codes) : n ∉ others := by
  intro again
  have both : (codeMask codes &&& codeMask others).testBit n = true := by
    rw [Nat.testBit_and, testBit_codeMask.mpr member, testBit_codeMask.mpr again, Bool.and_self]
  rw [apart, Nat.zero_testBit] at both
  cases both

/-- No upper case has another upper case or is a blank. Zero is no source either, which stands for
code points that are no character. -/
private theorem not_mem_upperSources (image : n ∈ 0 :: upperImages) :
    n ∉ upperSources ++ blankCodes :=
  not_mem_of_codeMask (by decide +kernel) image

end Codes

section Characters

private theorem toNat_ofNat_mem (image : n ∈ upperImages) :
    (Char.ofNat n).toNat ∈ 0 :: upperImages := by
  by_cases valid : n.isValidChar
  · rw [Char.ofNat, dif_pos valid]
    exact List.mem_cons_of_mem 0 image
  · rw [Char.ofNat, dif_neg valid]
    exact List.mem_cons_self

/-- A character is in upper case, or the characters of its upper case come from the tables. -/
theorem upperChar_eq_or_mem (c : Char) : upperChar c = [c] ∨
    c.toNat ∈ upperSources ∧ ∀ d ∈ upperChar c, d.toNat ∈ 0 :: upperImages := by
  rcases upperChar_cases c with ⟨codes, expands, whole⟩ | ⟨run, member, holds, moved⟩ | same
  · refine .inr ⟨List.mem_append_left _ (List.mem_map_of_mem expands), fun d among => ?_⟩
    rw [whole] at among
    obtain ⟨n, inside, rfl⟩ := List.mem_map.mp among
    exact toNat_ofNat_mem (List.mem_append_left _ (List.mem_flatMap.mpr ⟨_, expands, inside⟩))
  · refine .inr ⟨List.mem_append_right _ (List.mem_flatMap.mpr ⟨run, member, mem_codes holds⟩),
      fun d among => ?_⟩
    rw [moved] at among
    rw [List.mem_singleton.mp among]
    exact toNat_ofNat_mem (List.mem_append_right _ (List.mem_flatMap.mpr ⟨run, member,
      List.mem_map.mpr ⟨c.toNat, mem_codes holds, rfl⟩⟩))
  · exact .inl same

theorem upperChar_eq_self_of_mem (among : d ∈ upperChar c) : upperChar d = [d] := by
  rcases upperChar_eq_or_mem c with same | ⟨-, images⟩
  · rw [same] at among
    rwa [List.mem_singleton.mp among]
  · rcases upperChar_eq_or_mem d with same | ⟨source, -⟩
    · exact same
    · exact absurd (List.mem_append_left _ source) (not_mem_upperSources (images d among))

theorem isBlank_eq_false_of_mem_upperChar (solid : isBlank c = false) (among : d ∈ upperChar c) :
    isBlank d = false := by
  rcases upperChar_eq_or_mem c with same | ⟨-, images⟩
  · rw [same] at among
    rwa [List.mem_singleton.mp among]
  · refine Bool.eq_false_iff.mpr fun blank => ?_
    exact not_mem_upperSources (images d among)
      (List.mem_append_right _ (toNat_mem_blankCodes blank))

theorem upperChar_ne_nil (c : Char) : upperChar c ≠ [] := by
  rcases upperChar_cases c with ⟨codes, expands, whole⟩ | ⟨run, -, -, moved⟩ | same
  · have all : upperExpansions.all (fun entry => !entry.2.isEmpty) = true := by decide
    have nonempty := List.all_eq_true.mp all _ expands
    rw [whole]
    simpa using nonempty
  · simp [moved]
  · simp [same]

end Characters

section Texts

variable {cs : List Char}

theorem upperChars_singleton (c : Char) : upperChars [c] = upperChar c :=
  List.flatMap_singleton upperChar c

theorem upperChars_append (front back : List Char) :
    upperChars (front ++ back) = upperChars front ++ upperChars back :=
  List.flatMap_append

/-- The upper case of a text has no other upper case. -/
theorem upperChars_upperChars (cs : List Char) : upperChars (upperChars cs) = upperChars cs := by
  have each : ∀ d ∈ upperChars cs, upperChar d = [d] := by
    intro d member
    obtain ⟨c, -, among⟩ := List.mem_flatMap.mp member
    exact upperChar_eq_self_of_mem among
  generalize upperChars cs = text at each
  induction text with
  | nil => rfl
  | cons d text ih =>
    obtain ⟨here, later⟩ := List.forall_mem_cons.mp each
    rw [upperChars, List.flatMap_cons, here, List.singleton_append, ← upperChars, ih later]

theorem upperChars_eq_nil_iff : upperChars cs = [] ↔ cs = [] := by
  rw [upperChars, List.flatMap_eq_nil_iff]
  constructor
  · intro none
    exact List.eq_nil_iff_forall_not_mem.mpr fun c member => upperChar_ne_nil c (none c member)
  · rintro rfl c member
    cases member

theorem solid_upperChars (solid : ∀ c ∈ cs, isBlank c = false) :
    ∀ d ∈ upperChars cs, isBlank d = false := by
  intro d member
  obtain ⟨c, inside, among⟩ := List.mem_flatMap.mp member
  exact isBlank_eq_false_of_mem_upperChar (solid c inside) among

/-- The upper case of a trimmed text is trimmed. -/
theorem IsTrimmed.upperChars (trimmed : IsTrimmed cs) : IsTrimmed (upperChars cs) := by
  constructor
  · cases cs with
    | nil => simp [Text.upperChars]
    | cons c cs =>
      intro d first
      obtain ⟨e, es, spelled⟩ := List.exists_cons_of_ne_nil (upperChar_ne_nil c)
      rw [Text.upperChars, List.flatMap_cons, spelled] at first
      obtain rfl : e = d := by simpa using first
      exact isBlank_eq_false_of_mem_upperChar (trimmed.front c rfl) (by simp [spelled])
  · rcases List.eq_nil_or_concat cs with rfl | ⟨front, c, rfl⟩
    · simp [Text.upperChars]
    · intro d last
      rw [List.concat_eq_append, upperChars_append, upperChars_singleton, List.getLast?_append,
        List.getLast?_eq_some_getLast (upperChar_ne_nil c), Option.some_or, Option.mem_some] at last
      refine isBlank_eq_false_of_mem_upperChar (trimmed.back c (by simp)) ?_
      rw [← last]
      exact List.getLast_mem (upperChar_ne_nil c)

theorem upper_upper (s : String) : upper (upper s) = upper s := by
  rw [upper, upper, String.toList_ofList, upperChars_upperChars]

/-- The upper case of a trimmed text needs no trimming. -/
theorem trim_upper_trim (s : String) : trim (upper (trim s)) = upper (trim s) := by
  refine trim_eq_self ?_
  rw [upper, String.toList_ofList]
  exact (isTrimmed_trim s).upperChars

theorem isBlankText_upper_trim (s : String) : isBlankText (upper (trim s)) = isBlankText s := by
  rw [Bool.eq_iff_iff, isBlankText_iff, isBlankText_iff, trim_upper_trim, upper,
    String.toList_ofList, upperChars_eq_nil_iff]

end Texts

end ReportQuery.Text
