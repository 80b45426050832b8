import ReportQuery.Text.Character
import ReportQuery.Text.Scan

set_option autoImplicit false
set_option relaxedAutoImplicit false

/-!
Keywords as whole words, whatever their case. Beside the two ASCII cases a letter also meets the
characters that Unicode folds onto it: the dotted and the dotless i, the long s and the Kelvin sign.
-/

namespace ReportQuery.Sql

open Text

/-- Characters beyond ASCII that count as Latin letters where case is ignored. -/
def isFoldedLetter (c : Char) : Bool :=
  c == '\u0130' || c == '\u0131' || c == '\u017f' || c == '\u212a'

/-- Whether a character is a form of the capital letter. -/
def meetsLetter (letter c : Char) : Bool :=
  c == letter || c.toNat == letter.toNat + 0x20 ||
    (letter == 'I' && (c == '\u0130' || c == '\u0131')) || (letter == 'S' && c == '\u017f') ||
    (letter == 'K' && c == '\u212a')

/-- What follows the keyword at the front of a text. -/
def afterKeyword? : List Char → List Char → Option (List Char)
  | [], cs => some cs
  | _ :: _, [] => none
  | letter :: letters, c :: cs => if meetsLetter letter c then afterKeyword? letters cs else none

/-- What follows the keyword at the front of a text, if the keyword ends there as a word. -/
def afterWord? (keyword : String) (cs : List Char) : Option (List Char) :=
  match afterKeyword? keyword.toList cs with
  | some rest => if isWordChar? rest.head? then none else some rest
  | none => none

/-- Whether one of the keywords stands at the front of a text, ending there as a word. -/
def startsWithWord (keywords : List String) (cs : List Char) : Bool :=
  keywords.any fun keyword => (afterWord? keyword cs).isSome

/-- Whether one of the keywords stands as a whole word after the given character. -/
def isWordAt (keywords : List String) (before : Option Char) (cs : List Char) : Bool :=
  !isWordChar? before && startsWithWord keywords cs

/-- Reads one of the keywords as a whole word. -/
def keyword (keywords : List String) : Matcher (List Char) := fun before cs =>
  if isWordChar? before then none
  else
    (keywords.find? fun word => (afterWord? word cs).isSome).map fun word =>
      (word.length, cs.take word.length)

/-- Whether one of the keywords stands as a whole word somewhere in a text. -/
def containsWord (keywords : List String) (cs : List Char) : Bool :=
  (findFirst? (keyword keywords) cs).isSome

end ReportQuery.Sql
