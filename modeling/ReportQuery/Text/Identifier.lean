import ReportQuery.Text.Character
import ReportQuery.Text.Quoted

set_option autoImplicit false
set_option relaxedAutoImplicit false

/-!
Names of tables and columns in SQL text, and the plain names that callers may choose for output
columns and parameters.
-/

namespace ReportQuery.Text

/-- The first character of a plain name. -/
def isNameStart (c : Char) : Bool :=
  isAsciiLetter c || c == '_'

/-- A later character of a plain name. -/
def isNameChar (c : Char) : Bool :=
  isNameStart c || isAsciiDigit c

theorem isNameChar_of_mem_digits {n : Nat} : ∀ c ∈ (toString n).toList, isNameChar c := by
  intro c member
  rw [Nat.toString_eq_repr, Nat.toList_repr] at member
  have digit := Nat.isDigit_of_mem_toDigits (by decide) (by decide) member
  simp only [Char.isDigit, Bool.and_eq_true, decide_eq_true_eq] at digit
  simp only [isNameChar, isAsciiDigit, Bool.or_eq_true, Bool.and_eq_true, decide_eq_true_eq]
  exact .inr digit

/-- Whether the whole text is a plain name. -/
def isPlainName : List Char → Bool
  | [] => false
  | c :: cs => isNameStart c && cs.all isNameChar

/-- A plain name, after which one line feed may stand. -/
def isSafeIdentifier (s : String) : Bool :=
  let cs := s.toList
  isPlainName cs || (cs.getLast? == some '\n' && isPlainName cs.dropLast)

/-- The name as a quoted SQL identifier. -/
def quoteIdentifier (name : String) : String :=
  String.ofList (Quoted.enclose '"' name.toList)

end ReportQuery.Text
