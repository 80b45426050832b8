import ReportQuery.Sql.Keyword
import ReportQuery.Text.Identifier

set_option autoImplicit false
set_option relaxedAutoImplicit false

/-!
Names in SQL code: identifiers, plain or quoted, and dotted names made of them.
-/

namespace ReportQuery.Sql

open Text

/-- Which characters count as Latin letters in a plain identifier. -/
inductive LetterRule where
  /-- The two ASCII cases only. -/
  | exact
  /-- Also the characters that fold onto an ASCII letter. -/
  | folded
deriving Repr, DecidableEq

/-- The first character of a plain identifier. -/
def LetterRule.startsName (rule : LetterRule) (c : Char) : Bool :=
  isNameStart c || (rule == .folded && isFoldedLetter c)

/-- A character of a plain identifier. -/
def LetterRule.continuesName (rule : LetterRule) (c : Char) : Bool :=
  rule.startsName c || isAsciiDigit c || c == '$'

/-- The length of the identifier at the front of the text: a nonempty quoted segment or a plain
identifier read to its end. -/
def identifier? (rule : LetterRule) : List Char → Option Nat
  | [] => none
  | c :: cs =>
    if c = '"' then Quoted.segmentNonempty? '"' (c :: cs)
    else if rule.startsName c then some ((cs.takeWhile rule.continuesName).length + 1)
    else none

/-- The name that an identifier stands for. -/
def identifierName (token : List Char) : String :=
  String.ofList (if token.head? == some '"' then Quoted.inside '"' token else token)

/-- What follows a dot at the front of the text, blanks around the dot skipped. -/
def afterDot? (cs : List Char) : Option (List Char) :=
  match trimFrontChars cs with
  | '.' :: rest => some (trimFrontChars rest)
  | _ => none

/-- Reads a dot and an identifier: the identifier and the text after it. -/
def dotIdentifier? (rule : LetterRule) (cs : List Char) : Option (List Char × List Char) :=
  match afterDot? cs with
  | none => none
  | some rest => (identifier? rule rest).map fun n => (rest.take n, rest.drop n)

private theorem length_afterDot?_lt {cs rest : List Char} (h : afterDot? cs = some rest) :
    rest.length < cs.length := by
  have drop_le (xs : List Char) : (trimFrontChars xs).length ≤ xs.length :=
    (List.dropWhile_sublist _).length_le
  unfold afterDot? at h
  split at h
  · rename_i tail front
    obtain rfl := Option.some.inj h
    have whole := drop_le cs
    rw [front, List.length_cons] at whole
    have rest_le := drop_le tail
    omega
  · cases h

theorem length_dotIdentifier?_lt {rule : LetterRule} {cs token rest : List Char}
    (h : dotIdentifier? rule cs = some (token, rest)) : rest.length < cs.length := by
  unfold dotIdentifier? at h
  split at h
  · cases h
  · rename_i tail dot
    obtain ⟨n, _, parts⟩ := Option.map_eq_some_iff.mp h
    have shorter := length_afterDot?_lt dot
    have dropped : rest.length = tail.length - n := by
      rw [← (Prod.mk.inj parts).2, List.length_drop]
    omega

/-- Reads as many dots with identifiers as follow: the identifiers and the text after them. -/
def dottedTail (rule : LetterRule) (cs : List Char) : List (List Char) × List Char :=
  match h : dotIdentifier? rule cs with
  | none => ([], cs)
  | some (token, rest) =>
    have : rest.length < cs.length := length_dotIdentifier?_lt h
    let (tokens, last) := dottedTail rule rest
    (token :: tokens, last)
termination_by cs.length

/-- A dotted name in code, without its last part. -/
structure DottedName where
  /-- The parts before the last, at least one. -/
  qualifiers : List String
  /-- Whether an opening parenthesis follows, as after a function's name. -/
  isCall : Bool
deriving Repr, DecidableEq

/-- The length of an identifier that can begin a dotted name after the given character. A quoted
one may follow a keyword directly. -/
def leadingIdentifier? (before : Option Char) (cs : List Char) : Option Nat :=
  match cs.head?, before with
  | some '"', some b => if b == '.' || b == '"' then none else identifier? .exact cs
  | _, some b =>
    if isWordChar b || b == '.' || b == '$' || b == '"' then none else identifier? .exact cs
  | _, none => identifier? .exact cs

/-- The dotted name that has been read from the front of `cs` up to `after`, with an opening
parenthesis if one follows. -/
def endName (cs : List Char) (qualifiers : List (List Char)) (after : List Char) :
    Nat × DottedName :=
  let names := qualifiers.map identifierName
  match trimFrontChars after with
  | '(' :: inside => (cs.length - inside.length, ⟨names, true⟩)
  | _ => (cs.length - after.length, ⟨names, false⟩)

/-- Reads a dotted name: identifiers joined by dots, the last part of which may be an asterisk,
and an opening parenthesis if one follows. -/
def dottedName : Matcher DottedName := fun before cs =>
  match leadingIdentifier? before cs with
  | none => none
  | some n =>
    let first := cs.take n
    let (tokens, rest) := dottedTail .exact (cs.drop n)
    match afterDot? rest, tokens with
    | some ('*' :: after), _ => some (endName cs (first :: tokens) after)
    | _, [] => none
    | _, _ :: _ => some (endName cs (first :: tokens.dropLast) rest)

end ReportQuery.Sql
