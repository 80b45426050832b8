import Mathlib.Data.List.TakeWhile
import ReportQuery.Text.Case
import ReportQuery.Text.Identifier

set_option autoImplicit false
set_option relaxedAutoImplicit false

/-!
Blanks and trimmed texts. A trimmed text has no blank at its ends, and trimming it again changes
nothing.
-/

namespace ReportQuery.Text

variable {c : Char} {cs : List Char}

/-- The code points of the blanks. -/
def blankCodes : List Nat :=
  [0x09, 0x0A, 0x0B, 0x0C, 0x0D, 0x1C, 0x1D, 0x1E, 0x1F, 0x20, 0x85, 0xA0, 0x1680, 0x2000, 0x2001,
    0x2002, 0x2003, 0x2004, 0x2005, 0x2006, 0x2007, 0x2008, 0x2009, 0x200A, 0x2028, 0x2029, 0x202F,
    0x205F, 0x3000]

theorem toNat_mem_blankCodes (blank : isBlank c) : c.toNat ∈ blankCodes := by
  simp only [isBlank, Bool.or_eq_true, Bool.and_eq_true, decide_eq_true_eq, beq_iff_eq] at blank
  simp only [blankCodes, List.mem_cons, List.not_mem_nil, or_false]
  omega

theorem isBlank_of_isNameChar (char : isNameChar c) : isBlank c = false := by
  have all : ∀ n ∈ blankCodes, isNameChar (Char.ofNat n) = false := by decide
  refine Bool.eq_false_iff.mpr fun blank => ?_
  have apart := all _ (toNat_mem_blankCodes blank)
  rw [Char.ofNat_toNat, char] at apart
  cases apart

/-- No blank stands at either end. -/
structure IsTrimmed (cs : List Char) : Prop where
  front : ∀ c ∈ cs.head?, isBlank c = false
  back : ∀ c ∈ cs.getLast?, isBlank c = false

/-- Text that begins with no blank is not trimmed at its front. -/
theorem trimFrontChars_of_head (nonblank : isBlank c = false) :
    trimFrontChars (c :: cs) = c :: cs := by
  rw [trimFrontChars, List.dropWhile_cons_of_neg (by simp [nonblank])]

theorem trimFrontChars_blank (blank : isBlank c) :
    trimFrontChars (c :: cs) = trimFrontChars cs := by
  rw [trimFrontChars, List.dropWhile_cons_of_pos blank, ← trimFrontChars]

theorem trimFrontChars_eq_self (front : ∀ c ∈ cs.head?, isBlank c = false) :
    trimFrontChars cs = cs := by
  cases cs with
  | nil => rfl
  | cons c cs => exact trimFrontChars_of_head (front c rfl)

theorem trimBackChars_eq_self (back : ∀ c ∈ cs.getLast?, isBlank c = false) :
    trimBackChars cs = cs := by
  have stays : trimFrontChars cs.reverse = cs.reverse :=
    trimFrontChars_eq_self (by rwa [List.head?_reverse])
  rw [trimBackChars, ← trimFrontChars, stays, List.reverse_reverse]

/-- What is taken off the end of a text passes the test and stands behind what is left. -/
theorem exists_dropped_back (p : Char → Bool) (cs : List Char) :
    ∃ back, (cs.reverse.dropWhile p).reverse ++ back = cs ∧ ∀ c ∈ back, p c := by
  refine ⟨(cs.reverse.takeWhile p).reverse, ?_, fun c member => ?_⟩
  · rw [← List.reverse_append, List.takeWhile_append_dropWhile, List.reverse_reverse]
  · exact List.mem_takeWhile_imp (List.mem_reverse.mp member)

theorem IsTrimmed.trimChars_eq (trimmed : IsTrimmed cs) : trimChars cs = cs := by
  rw [trimChars, trimFrontChars_eq_self trimmed.front, trimBackChars_eq_self trimmed.back]

private theorem head?_dropWhile_blank (cs : List Char) :
    ∀ c ∈ (cs.dropWhile isBlank).head?, isBlank c = false := by
  intro c first
  have stopped := List.head?_dropWhile_not isBlank cs
  rw [Option.mem_def.mp first] at stopped
  simpa using stopped

private theorem trimBackChars_isPrefix (cs : List Char) : trimBackChars cs <+: cs := by
  rw [trimBackChars, ← List.reverse_suffix, List.reverse_reverse]
  exact List.dropWhile_suffix isBlank

theorem trimChars_within (cs : List Char) : trimChars cs <:+: cs :=
  (trimBackChars_isPrefix _).isInfix.trans (List.dropWhile_suffix isBlank).isInfix

theorem isTrimmed_trimChars (cs : List Char) : IsTrimmed (trimChars cs) := by
  constructor
  · obtain ⟨behind, whole⟩ := trimBackChars_isPrefix (trimFrontChars cs)
    intro c first
    refine head?_dropWhile_blank cs c ?_
    rw [← trimFrontChars, ← whole, ← trimChars, List.head?_append, Option.mem_def.mp first]
    rfl
  · intro c last
    rw [trimChars, trimBackChars, List.getLast?_reverse] at last
    exact head?_dropWhile_blank _ c last

/-- Only a blank text is trimmed to nothing. -/
theorem trimChars_eq_nil_iff : trimChars cs = [] ↔ ∀ c ∈ cs, isBlank c := by
  rw [trimChars, trimBackChars, List.reverse_eq_nil_iff, List.dropWhile_eq_nil_iff]
  constructor
  · intro all
    have nothing : trimFrontChars cs = [] := by
      cases front : trimFrontChars cs with
      | nil => rfl
      | cons c behind =>
        have solid : isBlank c = false := by
          refine head?_dropWhile_blank cs c ?_
          rw [← trimFrontChars, front]
          rfl
        have blank := all c (by simp [front])
        rw [solid] at blank
        cases blank
    rwa [trimFrontChars, List.dropWhile_eq_nil_iff] at nothing
  · intro all c among
    have inside := (List.dropWhile_suffix isBlank (l := cs)).subset
    exact all c (inside (List.mem_reverse.mp among))

theorem isTrimmed_trim (s : String) : IsTrimmed (trim s).toList := by
  rw [trim, String.toList_ofList]
  exact isTrimmed_trimChars s.toList

theorem trim_eq_self {s : String} (trimmed : IsTrimmed s.toList) : trim s = s := by
  rw [trim, trimmed.trimChars_eq, String.ofList_toList]

theorem trim_trim (s : String) : trim (trim s) = trim s :=
  trim_eq_self (isTrimmed_trim s)

theorem isBlankText_iff {s : String} : isBlankText s ↔ (trim s).toList = [] := by
  rw [isBlankText, List.all_eq_true, trim, String.toList_ofList, trimChars_eq_nil_iff]

theorem isBlankText_trim (s : String) : isBlankText (trim s) = isBlankText s := by
  rw [Bool.eq_iff_iff, isBlankText_iff, isBlankText_iff, trim_trim]

/-- Trimming a text takes no lower-case form to another one that is the same: the form of a longer text
is longer. -/
theorem lower_trim_eq_lower_iff {s : String} : lower (trim s) = lower s ↔ IsTrimmed s.toList := by
  constructor
  · intro same
    obtain ⟨before, behind, whole⟩ := trimChars_within s.toList
    have lengths : (lowerChars (trimChars s.toList)).length = (lowerChars s.toList).length := by
      have forms := congrArg String.toList same
      rw [lower, lower, trim, String.toList_ofList, String.toList_ofList, String.toList_ofList] at forms
      rw [forms]
    have nothing {cs : List Char} (empty : (cs.flatMap lowerChar).length = 0) : cs = [] := by
      cases cs with
      | nil => rfl
      | cons c cs =>
        have positive := List.length_pos_iff.mpr (lowerChar_ne_nil c)
        rw [List.flatMap_cons, List.length_append] at empty
        omega
    have parts := congrArg (fun cs => (lowerChars cs).length) whole
    simp only [length_lowerChars, List.flatMap_append, List.length_append] at parts lengths
    have front : before = [] := nothing (by omega)
    have back : behind = [] := nothing (by omega)
    rw [front, back, List.nil_append, List.append_nil] at whole
    rw [← whole]
    exact isTrimmed_trimChars s.toList
  · intro trimmed
    rw [trim_eq_self trimmed]

end ReportQuery.Text
