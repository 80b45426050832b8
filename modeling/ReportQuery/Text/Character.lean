import ReportQuery.Text.WordTable

set_option autoImplicit false
set_option relaxedAutoImplicit false

/-!
Classes of single characters: blanks, word characters and decimal digits, for all of Unicode.
ASCII is decided by cases, everything else by the tables.
-/

namespace ReportQuery.Text

/-- Blanks separate words and are trimmed from the ends of names; the four information separators
and the next-line control count as blanks too. -/
def isBlank (c : Char) : Bool :=
  let n := c.toNat
  (0x09 ≤ n && n ≤ 0x0D) || (0x1C ≤ n && n ≤ 0x20) || n == 0x85 || n == 0xA0 || n == 0x1680 ||
    (0x2000 ≤ n && n ≤ 0x200A) || n == 0x2028 || n == 0x2029 || n == 0x202F || n == 0x205F ||
    n == 0x3000

/-- A Latin letter without accents. -/
def isAsciiLetter (c : Char) : Bool :=
  ('a' ≤ c && c ≤ 'z') || ('A' ≤ c && c ≤ 'Z')

/-- One of the ten ASCII digits. -/
def isAsciiDigit (c : Char) : Bool :=
  '0' ≤ c && c ≤ '9'

/-- Letters, digits, other numbers and the underscore make up words. -/
def isWordChar (c : Char) : Bool :=
  if c.toNat < 0x80 then isAsciiLetter c || isAsciiDigit c || c == '_'
  else WordTable.wordRanges.any fun (first, last) => first ≤ c.toNat && c.toNat ≤ last

/-- Whether a neighbour, which the ends of a text lack, is a word character. -/
def isWordChar? : Option Char → Bool
  | none => false
  | some c => isWordChar c

/-- The value of a decimal digit of any script. -/
def digitValue? (c : Char) : Option Nat :=
  if c.toNat < 0x80 then if isAsciiDigit c then some (c.toNat - '0'.toNat) else none
  else
    (WordTable.digitZeros.find? fun start => start ≤ c.toNat && c.toNat < start + 10).map
      fun start => c.toNat - start

/-- The text without the blanks at its front. -/
def trimFrontChars (cs : List Char) : List Char :=
  cs.dropWhile isBlank

/-- The text without the blanks at its end. -/
def trimBackChars (cs : List Char) : List Char :=
  (cs.reverse.dropWhile isBlank).reverse

/-- The text without the blanks at both ends. -/
def trimChars (cs : List Char) : List Char :=
  trimBackChars (trimFrontChars cs)

/-- The string without the blanks at both ends. -/
def trim (s : String) : String :=
  String.ofList (trimChars s.toList)

/-- Whether the string holds nothing but blanks. -/
def isBlankText (s : String) : Bool :=
  s.toList.all isBlank

/-- Splits at runs of blanks; `current` is the word read so far, last character first. -/
private def blankSeparated (current : List Char) : List Char → List (List Char)
  | [] => if current.isEmpty then [] else [current.reverse]
  | c :: cs =>
    if isBlank c then
      if current.isEmpty then blankSeparated [] cs else current.reverse :: blankSeparated [] cs
    else blankSeparated (c :: current) cs

/-- The words of a text: its maximal runs of characters that are not blank. -/
def words (cs : List Char) : List (List Char) :=
  blankSeparated [] cs

/-- A word without blanks continues the word read so far. -/
private theorem blankSeparated_append {word : List Char} (solid : ∀ c ∈ word, isBlank c = false)
    (current cs : List Char) :
    blankSeparated current (word ++ cs) = blankSeparated (word.reverse ++ current) cs := by
  induction word generalizing current with
  | nil => rfl
  | cons c word ih =>
    obtain ⟨here, later⟩ := List.forall_mem_cons.mp solid
    rw [List.cons_append, blankSeparated, here, if_neg Bool.false_ne_true, ih later,
      List.reverse_cons, List.append_assoc, List.singleton_append]

private theorem solid_of_mem_blankSeparated {current cs word : List Char}
    (solid : ∀ c ∈ current, isBlank c = false) (member : word ∈ blankSeparated current cs) :
    word ≠ [] ∧ ∀ c ∈ word, isBlank c = false := by
  have finished {current : List Char} (nonempty : ¬ current.isEmpty = true)
      (solid : ∀ c ∈ current, isBlank c = false) :
      current.reverse ≠ [] ∧ ∀ c ∈ current.reverse, isBlank c = false :=
    ⟨by simpa using nonempty, fun c among => solid c (List.mem_reverse.mp among)⟩
  fun_induction blankSeparated current cs with
  | case1 current empty => cases member
  | case2 current nonempty =>
    rw [List.mem_singleton.mp member]
    exact finished nonempty solid
  | case3 current c cs blank empty ih => exact ih (by simp) member
  | case4 current c cs blank nonempty ih =>
    rcases List.mem_cons.mp member with rfl | later
    · exact finished nonempty solid
    · exact ih (by simp) later
  | case5 current c cs inside ih =>
    exact ih (List.forall_mem_cons.mpr ⟨Bool.eq_false_iff.mpr inside, solid⟩) member

/-- A word is not empty and holds no blank. -/
theorem solid_of_mem_words {cs word : List Char} (member : word ∈ words cs) :
    word ≠ [] ∧ ∀ c ∈ word, isBlank c = false :=
  solid_of_mem_blankSeparated (by simp) member

/-- Words with a blank between each two are read back. -/
theorem words_intercalate {ws : List (List Char)}
    (solid : ∀ word ∈ ws, word ≠ [] ∧ ∀ c ∈ word, isBlank c = false) :
    words ([' '].intercalate ws) = ws := by
  have ended {word : List Char} (nonempty : word ≠ []) : ¬ (word.reverse ++ []).isEmpty = true := by
    simpa using nonempty
  induction ws with
  | nil => rfl
  | cons word ws ih =>
    obtain ⟨⟨nonempty, inside⟩, later⟩ := List.forall_mem_cons.mp solid
    cases ws with
    | nil =>
      rw [List.intercalate_singleton, words, ← List.append_nil word, blankSeparated_append inside,
        blankSeparated, if_neg (ended nonempty)]
      simp
    | cons next ws =>
      have whole : [' '].intercalate (word :: next :: ws) =
          word ++ ' ' :: [' '].intercalate (next :: ws) := by simp
      rw [whole, words, blankSeparated_append inside, blankSeparated,
        if_pos (by decide), if_neg (ended nonempty), ← words, ih later]
      simp

end ReportQuery.Text
