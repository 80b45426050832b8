import ReportQuery.Text.Digits
import ReportQuery.Text.Printable

set_option autoImplicit false
set_option relaxedAutoImplicit false

/-!
Texts between quotes, with escapes for what cannot be shown.
-/

namespace ReportQuery.Text

/-- The escape of a character that cannot be shown: two, four or eight digits. -/
def literalEscape (c : Char) : List Char :=
  let n := c.toNat
  if n < 0x100 then ['\\', 'x'] ++ lastHexDigits n 2
  else if n < 0x10000 then ['\\', 'u'] ++ lastHexDigits n 4
  else ['\\', 'U'] ++ lastHexDigits n 8

/-- A character between quotes. -/
def literalChar (quote c : Char) : List Char :=
  if c = '\\' then ['\\', '\\']
  else if c = quote then ['\\', c]
  else if c = '\n' then ['\\', 'n']
  else if c = '\r' then ['\\', 'r']
  else if c = '\t' then ['\\', 't']
  else if isPrintable c then [c]
  else literalEscape c

/-- A text between quotes: single ones, unless it holds those and no double ones. -/
def literalText (s : String) : List Char :=
  let quote := if s.toList.contains '\'' && !s.toList.contains '"' then '"' else '\''
  quote :: s.toList.flatMap (literalChar quote) ++ [quote]

end ReportQuery.Text
