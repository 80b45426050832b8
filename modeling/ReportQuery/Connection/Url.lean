import ReportQuery.Text.Digits

set_option autoImplicit false
set_option relaxedAutoImplicit false

/-!
Database URLs and their parts.
-/

namespace ReportQuery.Connection

open Text (isWordChar isAsciiDigit)

/-- The place where a text occurs first in another: what stands before it and what follows it. -/
def splitAt? (part : List Char) : List Char → Option (List Char × List Char)
  | [] => if part.isEmpty then some ([], []) else none
  | c :: cs =>
    if part.isPrefixOf (c :: cs) then some ([], (c :: cs).drop part.length)
    else (splitAt? part cs).map fun (before, after) => (c :: before, after)

/-- A PostgreSQL URL with its driver named. A URL that names one, or is of another database, stays
as it is. -/
def withDriver (url : String) : String :=
  let cs := url.toList
  let scheme := "postgresql://".toList
  if (splitAt? "postgresql+".toList cs).isSome then url
  else if scheme.isPrefixOf cs then
    String.ofList ("postgresql+psycopg://".toList ++ cs.drop scheme.length)
  else url

/-- The URL that a database is connected to with. -/
def connectionUrl (url : String) : String :=
  if "postgresql".toList.isPrefixOf url.toList then withDriver url else url

/-- The parts of a database URL. -/
structure Url where
  scheme : String
  username? : Option String
  password? : Option String
  host? : Option String
  portText? : Option String
  database? : Option String
  query? : Option String
deriving Repr, DecidableEq

/-- A text, unless it is empty. -/
private def nonempty? (cs : List Char) : Option String :=
  if cs.isEmpty then none else some (String.ofList cs)

/-- Reads user name and password, which end with an at sign: both, and the text after them. The
user name holds no colon or slash, the password no at sign. -/
def readCredentials (cs : List Char) : Option String × Option String × List Char :=
  let username := cs.takeWhile fun c => c != ':' && c != '/'
  match cs.drop username.length with
  | ':' :: rest =>
    let password := rest.takeWhile (· != '@')
    match rest.drop password.length with
    | _ :: after => (some (String.ofList username), some (String.ofList password), after)
    | [] => credentialsWithoutPassword username cs
  | _ => credentialsWithoutPassword username cs
where
  /-- The user name ends at its last at sign. -/
  credentialsWithoutPassword (username cs : List Char) :
      Option String × Option String × List Char :=
    let afterLast := (username.reverse.takeWhile (· != '@')).length
    if afterLast = username.length then (none, none, cs)
    else
      (some (String.ofList (username.take (username.length - afterLast - 1))), none,
        cs.drop (username.length - afterLast))

/-- Reads the host: its name or its bracketed number, and the text after it. -/
def readHost (cs : List Char) : Option String × List Char :=
  let plain := cs.takeWhile fun c => c != '/' && c != ':' && c != '?'
  match cs with
  | '[' :: rest =>
    let number := rest.takeWhile fun c => c != '/' && c != '?' && c != ']'
    match rest.drop number.length with
    | ']' :: after => (nonempty? number, after)
    | _ => (nonempty? plain, cs.drop plain.length)
  | _ => (nonempty? plain, cs.drop plain.length)

/-- Reads the parts of a URL. What has no scheme is no URL. -/
def Url.read? (cs : List Char) : Option Url :=
  let scheme := cs.takeWhile fun c => isWordChar c || c == '+'
  match cs.drop scheme.length with
  | ':' :: '/' :: '/' :: rest =>
    if scheme.isEmpty then none
    else
      let (username?, password?, rest) := readCredentials rest
      let (host?, rest) := readHost rest
      let (portText?, rest) :=
        match rest with
        | ':' :: more =>
          let digits := more.takeWhile fun c => c != '/' && c != '?'
          (nonempty? digits, more.drop digits.length)
        | _ => (none, rest)
      let (database?, rest) :=
        match rest with
        | '/' :: more =>
          let database := more.takeWhile (· != '?')
          (some (String.ofList database), more.drop database.length)
        | _ => (none, rest)
      let query? :=
        match rest with
        | '?' :: more => some (String.ofList more)
        | _ => none
      some ⟨String.ofList scheme, username?, password?, host?, portText?, database?, query?⟩
  | _ => none

/-- The text of a URL, its password hidden. -/
def Url.text (url : Url) : String :=
  let credentials :=
    match url.username?, url.password? with
    | some username, some _ => username ++ ":***@"
    | some username, none => username ++ "@"
    | none, _ => ""
  let portText := (url.portText?.map (":" ++ ·)).getD ""
  let database := (url.database?.map ("/" ++ ·)).getD ""
  let query := (url.query?.map ("?" ++ ·)).getD ""
  url.scheme ++ "://" ++ credentials ++ url.host?.getD "" ++ portText ++ database ++ query

end ReportQuery.Connection
