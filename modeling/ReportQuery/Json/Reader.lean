import ReportQuery.Json.Token
import ReportQuery.Mapping

set_option autoImplicit false
set_option relaxedAutoImplicit false

/-!
Reading a JSON value from its tokens with a stack of the containers that are still open.
-/

namespace ReportQuery.Json

/-- A container that is still open. -/
inductive Frame where
  /-- The items so far, last first. -/
  | array (items : List Json)
  /-- The fields so far and the key whose value is being read; none for a key that is no string. -/
  | object (fields : List (String × Json)) (key? : Option String)
deriving Repr

/-- What may come next. -/
inductive Expectation where
  | value
  | itemOrEnd
  | item
  | keyOrEnd
  | key
  | colon
  | commaOrEnd
deriving Repr, DecidableEq

/-- What is wrong with a text, and the text from the place on where it is. -/
structure Failure where
  fault : Fault
  rest : List Char
deriving Repr

/-- What a token leads to: what may come next, the value of the whole text or a fault, with its place
where that is not the beginning of the token. -/
inductive Progress where
  | go (expects : Expectation) (stack : List Frame)
  | done (value : Json)
  | stop (fault : Fault) (place? : Option (List Char))
deriving Repr

/-- Closes a value: it is the whole text's, or goes into the innermost open container. -/
def deliver (value : Json) : List Frame → Progress
  | [] => .done value
  | .array items :: stack => .go .commaOrEnd (.array (value :: items) :: stack)
  | .object fields (some key) :: stack =>
    .go .commaOrEnd (.object (Mapping.put fields key value) none :: stack)
  | .object fields none :: stack => .go .commaOrEnd (.object fields none :: stack)

/-- Whether a container, entered for its first item, lies too deep. -/
def isTooDeep (rules : Rules) (stack : List Frame) : Bool :=
  match rules.depthLimit? with
  | some limit => limit < stack.length
  | none => false

/-- Whether there is no room for one more open container. -/
def isFull (rules : Rules) (stack : List Frame) : Bool :=
  match rules.room? with
  | some room => room ≤ stack.length
  | none => false

/-- A value begins with the token. -/
def beginValue (rules : Rules) (stack : List Frame) : Token → Progress
  | .openArray =>
    if isFull rules stack then .stop .noRoomForArray none
    else .go .itemOrEnd (.array [] :: stack)
  | .openObject =>
    if isFull rules stack then .stop .noRoomForObject none
    else .go .keyOrEnd (.object [] none :: stack)
  | .scalar value => deliver value stack
  | .text (some s) => deliver (.text s) stack
  | .text none => deliver .brokenText stack
  | .fault fault place _ => .stop fault (some place)
  | .closeArray | .closeObject | .comma | .colon => .stop .expectedValue none

/-- The first value in a container begins with the token. -/
def beginFirst (rules : Rules) (stack : List Frame) (token : Token) : Progress :=
  if isTooDeep rules stack then .stop .tooDeep none else beginValue rules stack token

/-- The token is a key. -/
def readKey : List Frame → Token → Progress
  | .object fields _ :: outer, .text key? => .go .colon (.object fields key? :: outer)
  | _, .fault fault place true => .stop fault (some place)
  | _, _ => .stop .keyMustBeText none

/-- The token stands behind a value in a container. -/
def goOn : List Frame → Token → Progress
  | .array items :: outer, .comma => .go .item (.array items :: outer)
  | .array items :: outer, .closeArray => deliver (.array items.reverse) outer
  | .array _ :: _, _ => .stop .expectedListCommaOrEnd none
  | .object fields key? :: outer, .comma => .go .key (.object fields key? :: outer)
  | .object fields _ :: outer, .closeObject => deliver (.object fields) outer
  | _, _ => .stop .expectedObjectCommaOrEnd none

/-- Takes one token where the given may come next. -/
def advance (rules : Rules) (stack : List Frame) (token : Token) : Expectation → Progress
  | .value => match stack with
    | .object [] _ :: _ => beginFirst rules stack token
    | _ => beginValue rules stack token
  | .itemOrEnd => match token, stack with
    | .closeArray, _ :: outer => deliver (.array []) outer
    | _, _ => beginFirst rules stack token
  | .item => match token with
    | .closeArray => .stop .trailingComma none
    | _ => beginValue rules stack token
  | .keyOrEnd => match token, stack with
    | .closeObject, _ :: outer => deliver (.object []) outer
    | _, _ => readKey stack token
  | .key => match token with
    | .closeObject => .stop .trailingComma none
    | _ => readKey stack token
  | .colon => match token with
    | .colon => .go .value stack
    | _ => .stop .expectedColon none
  | .commaOrEnd => goOn stack token

/-- What is missing where a text ends. -/
def endFault : Expectation → List Frame → Fault
  | .value, _ | .item, _ | .key, _ => .endInValue
  | .itemOrEnd, _ | .commaOrEnd, .array _ :: _ => .endInList
  | .keyOrEnd, _ | .colon, _ | .commaOrEnd, _ => .endInObject

/-- Reads the tokens that remain, given what may come next and the open containers. -/
def readLexemes (rules : Rules) (expects : Expectation) (stack : List Frame) :
    List Lexeme → Except Failure Json
  | [] => .error ⟨endFault expects stack, []⟩
  | lexeme :: rest =>
    match advance rules stack lexeme.token expects with
    | .go expects stack => readLexemes rules expects stack rest
    | .done value =>
      match rest with
      | [] => .ok value
      | next :: _ => .error ⟨.trailingCharacters, next.start⟩
    | .stop fault place? => .error ⟨fault, place?.getD lexeme.start⟩

/-- Reads a JSON text. -/
def read (rules : Rules) (cs : List Char) : Except Failure Json :=
  readLexemes rules .value [] (lexemes rules cs)

/-- A place in a text: its line, counted from one, and how many bytes of that line run up to it. -/
structure Position where
  line : Nat
  column : Nat
deriving Repr, DecidableEq

/-- The place after the given text. -/
def Position.after (cs : List Char) : Position :=
  cs.foldl (fun ⟨line, column⟩ c =>
    if c = '\n' then ⟨line + 1, 0⟩ else ⟨line, column + c.utf8Size⟩) ⟨1, 0⟩

/-- The place of a failure: that of the first byte it points to, or the end of the text. -/
def Failure.position (failure : Failure) (text : List Char) : Position :=
  let before := Position.after (text.take (text.length - failure.rest.length))
  match failure.rest with
  | [] => before
  | '\n' :: _ => ⟨before.line + 1, 0⟩
  | _ :: _ => ⟨before.line, before.column + 1⟩

/-- The sentence that reports a lack of room for a container. -/
def noRoomMessage (container : String) : String :=
  "maximum recursion depth exceeded while decoding a JSON " ++ container ++
    " from a unicode string"

/-- What a fault is called. -/
def Fault.message : Fault → String
  | endInValue => "EOF while parsing a value"
  | endInList => "EOF while parsing a list"
  | endInObject => "EOF while parsing an object"
  | endInText => "EOF while parsing a string"
  | expectedColon => "expected `:`"
  | expectedListCommaOrEnd => "expected `,` or `]`"
  | expectedObjectCommaOrEnd => "expected `,` or `\x7d`"
  | expectedWord => "expected ident"
  | expectedValue => "expected value"
  | invalidEscape => "invalid escape"
  | invalidNumber => "invalid number"
  | numberOutOfRange => "number out of range"
  | loneSurrogate => "lone leading surrogate in hex escape"
  | endOfHexEscape => "unexpected end of hex escape"
  | controlCharacter => "control character (\\u0000-\\u001F) found while parsing a string"
  | keyMustBeText => "key must be a string"
  | trailingComma => "trailing comma"
  | trailingCharacters => "trailing characters"
  | tooDeep => "recursion limit exceeded"
  | noRoomForArray => noRoomMessage "array"
  | noRoomForObject => noRoomMessage "object"
  | tooManyDigits digits =>
    "Exceeds the limit (" ++ toString maxIntegerDigits ++
      " digits) for integer string conversion: value has " ++ toString digits ++
      " digits; use sys.set_int_max_str_digits() to increase the limit"

/-- Whether the fault is a limit of the reader and none of the text. -/
def Fault.isLimit : Fault → Bool
  | noRoomForArray | noRoomForObject | tooManyDigits _ => true
  | _ => false

/-- The report of a failure to read a text. -/
def Failure.message (failure : Failure) (text : List Char) : String :=
  let position := failure.position text
  failure.fault.message ++ " at line " ++ toString position.line ++ " column " ++
    toString position.column

end ReportQuery.Json
