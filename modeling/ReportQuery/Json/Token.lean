import ReportQuery.Json.Basic
import ReportQuery.Text.Digits

set_option autoImplicit false
set_option relaxedAutoImplicit false

/-!
The tokens of a JSON text. A token that is malformed carries its fault and the place of it, which
count only if the token stands where it could have been used.
-/

namespace ReportQuery.Json

open Text (isAsciiDigit digitsValue)

/-- What can be wrong with a JSON text. -/
inductive Fault where
  | endInValue
  | endInList
  | endInObject
  | endInText
  | expectedColon
  | expectedListCommaOrEnd
  | expectedObjectCommaOrEnd
  | expectedWord
  | expectedValue
  | invalidEscape
  | invalidNumber
  | numberOutOfRange
  | loneSurrogate
  | endOfHexEscape
  | controlCharacter
  | keyMustBeText
  | trailingComma
  | trailingCharacters
  | tooDeep
  /-- An array for which the reader has no room. -/
  | noRoomForArray
  /-- An object for which the reader has no room. -/
  | noRoomForObject
  /-- An integer with more digits than a reader converts. -/
  | tooManyDigits (digits : Nat)
deriving Repr, DecidableEq

/-- What a reader accepts beyond the common rules. -/
structure Rules where
  /-- Whether half of a surrogate pair may be escaped. -/
  keepsLoneSurrogates : Bool
  /-- How many containers may be nested around a nonempty one. -/
  depthLimit? : Option Nat
  /-- Whether a long integer is a fault of the text; otherwise it is a fault of its own. -/
  refusesLongIntegers : Bool
  /-- How many containers, empty ones too, the reader has room to hold open at a time. -/
  room? : Option Nat
deriving Repr

/-- The rules for texts that must be exact. -/
def Rules.strict : Rules := ⟨false, some 200, true, none⟩

/-- The rules for texts that are read leniently. -/
def Rules.lenient : Rules := ⟨true, none, false, none⟩

/-- The rules for texts that are read leniently with limited room. -/
def Rules.lenientWithin (room : Nat) : Rules := { Rules.lenient with room? := some room }

/-- The greatest number of digits of an integer. -/
def maxIntegerDigits : Nat := 4300

/-- A token of a JSON text. -/
inductive Token where
  | openArray
  | closeArray
  | openObject
  | closeObject
  | comma
  | colon
  /-- A number or one of the words of the notation. -/
  | scalar (value : Json)
  /-- A text, or none if it holds half of a surrogate pair. -/
  | text (s : Option String)
  | fault (fault : Fault) (rest : List Char) (inText : Bool)
deriving Repr

/-- A token with the text from its first character on. -/
structure Lexeme where
  start : List Char
  token : Token
deriving Repr

/-- The blanks between tokens. -/
def isTokenBlank (c : Char) : Bool :=
  c == ' ' || c == '\t' || c == '\n' || c == '\r'

/-- The value of a hexadecimal digit. -/
def hexDigit? (c : Char) : Option Nat :=
  if isAsciiDigit c then some (c.toNat - '0'.toNat)
  else if 'a' ≤ c && c ≤ 'f' then some (c.toNat - 'a'.toNat + 10)
  else if 'A' ≤ c && c ≤ 'F' then some (c.toNat - 'A'.toNat + 10)
  else none

/-- Reads the given number of hexadecimal digits after the value read so far. -/
def hexDigits (value : Nat) : Nat → List Char → Except (Fault × List Char) Nat
  | 0, _ => .ok value
  | _ + 1, [] => .error (.endInText, [])
  | n + 1, c :: cs =>
    match hexDigit? c with
    | some d => hexDigits (16 * value + d) n cs
    | none => .error (.invalidEscape, c :: cs)

/-- Reads the four digits of an escape, for which four bytes of text must be left. -/
def hexEscape (cs : List Char) : Except (Fault × List Char) Nat :=
  if (String.ofList (cs.take 4)).utf8ByteSize < 4 then .error (.endInText, []) else hexDigits 0 4 cs

/-- One step through a text: its end, a character or half of a surrogate pair with the number of
further characters that it was written with, or a fault. -/
inductive TextStep where
  | close
  | char (c : Char) (more : Nat)
  | lone (more : Nat)
  | fault (fault : Fault) (rest : List Char)
deriving Repr

private def isLeading (n : Nat) : Bool := 0xD800 ≤ n && n ≤ 0xDBFF

private def isTrailing (n : Nat) : Bool := 0xDC00 ≤ n && n ≤ 0xDFFF

/-- What follows the first half of a surrogate pair; `cs` is the text after its four digits. -/
def secondHalf (rules : Rules) (leading : Nat) (cs : List Char) : TextStep :=
  match cs with
  | '\\' :: 'u' :: rest =>
    match hexEscape rest with
    | .error (fault, place) => if rules.keepsLoneSurrogates then .lone 5 else .fault fault place
    | .ok trailing =>
      if isTrailing trailing then
        .char (Char.ofNat ((leading - 0xD800) * 0x400 + (trailing - 0xDC00) + 0x10000)) 11
      else if rules.keepsLoneSurrogates then .lone 5
      else .fault .loneSurrogate (rest.drop 3)
  | _ =>
    if rules.keepsLoneSurrogates then .lone 5
    else
      match cs with
      | [] => .fault .endInText []
      | ['\\'] => .fault .endInText []
      | '\\' :: rest => .fault .endOfHexEscape rest
      | _ => .fault .endOfHexEscape cs

/-- Reads an escape; `cs` is the text after the backslash. -/
def escapeStep (rules : Rules) (cs : List Char) : TextStep :=
  match cs with
  | [] => .fault .endInText []
  | '"' :: _ => .char '"' 1
  | '\\' :: _ => .char '\\' 1
  | '/' :: _ => .char '/' 1
  | 'b' :: _ => .char '\x08' 1
  | 'f' :: _ => .char '\x0c' 1
  | 'n' :: _ => .char '\n' 1
  | 'r' :: _ => .char '\r' 1
  | 't' :: _ => .char '\t' 1
  | 'u' :: rest =>
    match hexEscape rest with
    | .error (fault, place) => .fault fault place
    | .ok n =>
      if isLeading n then secondHalf rules n (rest.drop 4)
      else if isTrailing n then
        if rules.keepsLoneSurrogates then .lone 5 else .fault .loneSurrogate (rest.drop 3)
      else .char (Char.ofNat n) 5
  | _ => .fault .invalidEscape cs

/-- An escaped unit that is no half of a surrogate pair is its character. -/
theorem escapeStep_unit {rules : Rules} {n : Nat} {digits rest : List Char} (small : n < 0xD800)
    (four : digits.length = 4) (read : hexDigits 0 4 (digits ++ rest) = .ok n) :
    escapeStep rules ('u' :: (digits ++ rest)) = .char (Char.ofNat n) 5 := by
  have enough : ¬ (String.ofList ((digits ++ rest).take 4)).utf8ByteSize < 4 := by
    rw [← four, List.take_left]
    match digits, four with
    | [a, b, c, d], _ =>
      have := a.utf8Size_pos
      have := b.utf8Size_pos
      have := c.utf8Size_pos
      have := d.utf8Size_pos
      simp
      omega
  have escape : hexEscape (digits ++ rest) = .ok n := by rw [hexEscape, if_neg enough, read]
  have leading : isLeading n = false := by
    rw [isLeading, Bool.and_eq_false_iff, decide_eq_false_iff_not]
    omega
  have trailing : isTrailing n = false := by
    rw [isTrailing, Bool.and_eq_false_iff, decide_eq_false_iff_not]
    omega
  simp [escapeStep, escape, leading, trailing]

/-- Reads the next character of a text. -/
def textStep (rules : Rules) (c : Char) (cs : List Char) : TextStep :=
  if c = '"' then .close
  else if c = '\\' then escapeStep rules cs
  else if c.toNat < 0x20 then .fault .controlCharacter (c :: cs)
  else .char c 0

/-- Reads a text up to its closing quote: the token and how many characters it took. `read` holds
the characters read so far, last first, or none once half of a surrogate pair was met. -/
def readText (rules : Rules) (read : Option (List Char)) (length : Nat) :
    List Char → Token × Nat
  | [] => (.fault .endInText [] true, length)
  | c :: cs =>
    match textStep rules c cs with
    | .close => (.text (read.map fun cs => String.ofList cs.reverse), length + 1)
    | .char d n => readText rules (read.map (d :: ·)) (length + n + 1) (cs.drop n)
    | .lone n => readText rules none (length + n + 1) (cs.drop n)
    | .fault fault rest => (.fault fault rest true, length)
termination_by cs => cs.length
decreasing_by all_goals simp only [List.length_cons, List.length_drop]; omega

/-- Reads the rest of a word of the notation. -/
def readWord (value : Json) (length : Nat) : List Char → List Char → Token × Nat
  | [], _ => (.scalar value, length)
  | _ :: _, [] => (.fault .endInValue [] false, length)
  | w :: ws, c :: cs =>
    if w = c then readWord value (length + 1) ws cs
    else (.fault .expectedWord (c :: cs) false, length)

/-- Reads at least one digit: the digits, or the fault of having none. -/
def readDigits (cs : List Char) : Except (Fault × List Char) (List Char) :=
  match cs.takeWhile isAsciiDigit, cs with
  | [], [] => .error (.endInValue, [])
  | [], _ :: _ => .error (.invalidNumber, cs)
  | digits, _ => .ok digits

/-- Reads an exponent, if one follows: its value and length. -/
def readExponent (cs : List Char) : Except (Fault × List Char) (Option Int × Nat) :=
  let signed (negative : Bool) (signLength : Nat) (rest : List Char) :
      Except (Fault × List Char) (Option Int × Nat) :=
    (readDigits rest).map fun digits =>
      let size : Int := digitsValue digits
      (some (if negative then -size else size), digits.length + signLength + 1)
  match cs with
  | c :: rest =>
    if c = 'e' ∨ c = 'E' then
      match rest with
      | '-' :: more => signed true 1 more
      | '+' :: more => signed false 1 more
      | _ => signed false 0 rest
    else .ok (none, 0)
  | [] => .ok (none, 0)

/-- Reads a fraction, if one follows: its digits and length. -/
def readFraction (cs : List Char) : Except (Fault × List Char) (List Char × Nat) :=
  match cs with
  | '.' :: rest => (readDigits rest).map fun digits => (digits, digits.length + 1)
  | _ => .ok ([], 0)

/-- Whether a point and a digit stand at the front of a text. -/
def startsFraction : List Char → Bool
  | '.' :: c :: _ => isAsciiDigit c
  | _ => false

/-- Reads what may follow the whole part of a number: fraction digits, exponent and length. -/
def readScale (cs : List Char) :
    Except (Fault × List Char) (List Char × Option Int × Nat) := do
  let (digits, length) ← readFraction cs
  let (exponent, more) ← readExponent (cs.drop length)
  return (digits, exponent, length + more)

/-- Reads a number whose sign was read: `whole` are the digits before the point, `start` the text
from the sign on. -/
def readNumber (rules : Rules) (negative : Bool) (start whole : List Char) : Token × Nat :=
  let signed (n : Nat) : Int := if negative then -n else n
  let wholeLength := whole.length + if negative then 1 else 0
  let integer : Token × Nat :=
    if !rules.refusesLongIntegers && maxIntegerDigits < whole.length then
      (.fault (.tooManyDigits whole.length) start false, 0)
    else (.scalar (.integer (signed (digitsValue whole))), wholeLength)
  if rules.refusesLongIntegers && maxIntegerDigits < wholeLength then
    (.fault .numberOutOfRange (start.drop (maxIntegerDigits + 1)) false, 0)
  else
    match readScale (start.drop wholeLength) with
    | .error (fault, rest) =>
      if maxIntegerDigits < whole.length && !startsFraction (start.drop wholeLength) then integer
      else (.fault fault rest false, 0)
    | .ok (_, _, 0) => integer
    | .ok (fraction, exponent, length) =>
      let scale : Int := exponent.getD 0 - fraction.length
      (.scalar (.number (.decimal negative (digitsValue (whole ++ fraction)) scale)),
        wholeLength + length)

/-- Reads a number from its sign or first digit on. -/
def readSigned (rules : Rules) (negative : Bool) (start cs : List Char) : Token × Nat :=
  match cs with
  | [] => (.fault .endInValue [] false, 0)
  | 'I' :: rest =>
    readWord (.number (.infinite negative)) (if negative then 2 else 1) "nfinity".toList rest
  | '0' :: rest =>
    if (rest.head?.map isAsciiDigit).getD false then (.fault .invalidNumber rest false, 0)
    else readNumber rules negative start ['0']
  | _ =>
    match cs.takeWhile isAsciiDigit with
    | [] => (.fault .invalidNumber cs false, 0)
    | whole => readNumber rules negative start whole

/-- Reads a token that is no blank: the token and how many characters it took. -/
def readToken (rules : Rules) (c : Char) (cs : List Char) : Token × Nat :=
  if c = '"' then
    let (token, length) := readText rules (some []) 0 cs
    (token, length + 1)
  else if c = '[' then (.openArray, 1)
  else if c = ']' then (.closeArray, 1)
  else if c = '\x7b' then (.openObject, 1)
  else if c = '\x7d' then (.closeObject, 1)
  else if c = ',' then (.comma, 1)
  else if c = ':' then (.colon, 1)
  else if c = 't' then readWord (.bool true) 1 "rue".toList cs
  else if c = 'f' then readWord (.bool false) 1 "alse".toList cs
  else if c = 'n' then readWord .null 1 "ull".toList cs
  else if c = 'N' then readWord (.number .notANumber) 1 "aN".toList cs
  else if c = '-' then readSigned rules true (c :: cs) cs
  else if isAsciiDigit c || c = 'I' then readSigned rules false (c :: cs) (c :: cs)
  else (.fault .expectedValue (c :: cs) false, 0)

/-- The tokens of a text, up to the first malformed one. -/
def lexemes (rules : Rules) : List Char → List Lexeme
  | [] => []
  | c :: cs =>
    if isTokenBlank c then lexemes rules cs
    else
      let (token, length) := readToken rules c cs
      match token with
      | .fault .. => [⟨c :: cs, token⟩]
      | _ => ⟨c :: cs, token⟩ :: lexemes rules (cs.drop (length - 1))
termination_by cs => cs.length
decreasing_by all_goals simp only [List.length_cons, List.length_drop]; omega

end ReportQuery.Json
