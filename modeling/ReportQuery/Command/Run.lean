import ReportQuery.Builder
import ReportQuery.Command.Arguments
import ReportQuery.Command.Assignment
import ReportQuery.Command.Output

set_option autoImplicit false
set_option relaxedAutoImplicit false

/-!
Running commands: what is printed, and what was done to the database on the way.
-/

namespace ReportQuery.Command

open Connection (Database Machine)
open Execution (Event Request Result)
open Query (Description)
open Schema (Snapshot Table Relation)

/-- What a command finds around it. -/
structure Surroundings where
  machine : Machine := {}
  source : Source := {}
  /-- The texts of files by their paths. -/
  file? : String → Option String
  /-- The values of environment variables by their names. -/
  environment? : String → Option String

/-- What a command did. -/
structure Outcome where
  exitCode : Nat := 0
  output : String := ""
  /-- The URLs of the databases that were used. -/
  urls : List String := []
  log : List Event := []
deriving Repr

/-- The version of the program. -/
def version : String := "0.1.0"

/-- The database URL: the one given, else the environment's, else a file in the current directory.
Empty texts do not count. -/
def databaseUrl (given? fromEnvironment? : Option String) : String :=
  (((given?.filter (· != "")).orElse fun _ => fromEnvironment?.filter (· != ""))).getD
    "sqlite:///./adhocql.db"

/-- The text of a file, its lines ended by line feeds alone. -/
def Surroundings.read (surroundings : Surroundings) (path : String) : Except Trouble String :=
  match surroundings.file? path with
  | some text => .ok (String.ofList (Text.withLineFeeds text.toList))
  | none => .error (.plain ("File not found: " ++ path))

/-- The statement that is given: in a file, or as an argument. -/
def Surroundings.statement (surroundings : Surroundings) (sql? file? : Option String) :
    Except Trouble String :=
  match file?.filter (· != ""), sql?.filter (· != "") with
  | some path, _ => surroundings.read path
  | none, some sql => .ok sql
  | none, none => .error (.plain "Either provide SQL or use --file")

/-- The options of the builder: given schemas replace the standard ones. -/
def Settings.options (settings : Settings) : Options :=
  if settings.allowedSchemas.isEmpty then .standard
  else { Options.standard with allowedSchemas := settings.allowedSchemas }

/-- The form of the output. -/
def Settings.style (settings : Settings) : Style :=
  if settings.json then .json else .screen

/-- The steps of a command, with the URLs and the log so far. -/
abbrev Steps (α : Type) := ExceptT Trouble (StateM (List String × List Event)) α

/-- A step of the library. -/
def ofLibrary {α : Type} (outcome : Except Failure α) : Steps α :=
  match outcome with
  | .ok a => pure a
  | .error failure => throw (.library failure)

/-- A step that reads what was given. -/
def ofInput {α : Type} (outcome : Except Trouble α) : Steps α :=
  match outcome with
  | .ok a => pure a
  | .error trouble => throw trouble

/-- A step that reads an assignment. -/
def ofAssignment {α : Type} (outcome : Except AssignmentFault α) : Steps α :=
  ofInput (outcome.mapError fun fault => .plain fault.message)

/-- The report builder for the database. -/
def openBuilder (surroundings : Surroundings) (settings : Settings) : Steps Builder := do
  let database := Database.ofUrl
    (databaseUrl settings.database? (surroundings.environment? "ADHOCQL_URL"))
  match database.engine surroundings.machine with
  | .error fault => throw (.library (.connection (.engine fault)))
  | .ok _ =>
    modify fun (urls, log) => (urls ++ [database.url], log)
    return { options := settings.options, source := surroundings.source }

/-- The rows that list tables with the numbers of their columns and relations. -/
def tableRows (snapshot : Snapshot) (tables : List Table) : List (List (String × Json)) :=
  tables.map fun table =>
    [("Key", .text table.key), ("Display Name", .text table.displayName),
      ("Columns", Json.integer table.columns.length),
      ("Relations", Json.integer (snapshot.relationsFor table.key).length)]

/-- The part of a snapshot that belongs to one schema. -/
def schemaPart (snapshot : Snapshot) (schema : String) : Snapshot :=
  let tables := snapshot.tables.filter fun table => Text.lower table.schema = Text.lower schema
  let keys := tables.map Table.key
  ⟨snapshot.schemas.filter fun group => Text.lower group.name = Text.lower schema, tables,
    snapshot.relations.filter fun relation =>
      keys.contains relation.fromTable || keys.contains relation.toTable⟩

/-- Lists the tables, of one schema only if one is named. -/
def showMetadata (surroundings : Surroundings) (settings : Settings) (schema? : Option String) :
    Steps String := do
  let builder ← openBuilder surroundings settings
  let snapshot ← ofLibrary builder.metadata.1
  let shown :=
    match schema?.filter (· != "") with
    | some schema => schemaPart snapshot schema
    | none => snapshot
  match settings.style with
  | .json => return printData .json shown.toJson
  | .screen =>
    return printTable .screen ("Tables (" ++ toString shown.tables.length ++ " total)")
      (tableRows snapshot shown.tables) ["Key", "Display Name", "Columns", "Relations"]

/-- Shows one table. -/
def showTable (surroundings : Surroundings) (settings : Settings) (key : String) :
    Steps String := do
  let builder ← openBuilder surroundings settings
  let snapshot ← ofLibrary builder.metadata.1
  match snapshot.table? key with
  | none => throw (.library (.unknownTable key))
  | some table =>
    return printTableInfo settings.style table (snapshot.relationsFor table.key)

/-- Reads a description from a file. -/
def readDescription (surroundings : Surroundings) (path : String) : Steps Description := do
  let text ← ofInput (surroundings.read path)
  ofLibrary ((Description.deserialize (some text)).mapError Failure.stored)

/-- Compiles the description in a file. -/
def compileFile (surroundings : Surroundings) (settings : Settings) (path : String) :
    Steps String := do
  let description ← readDescription surroundings path
  let builder ← openBuilder surroundings settings
  let compiled ← ofLibrary (builder.compile description).1
  return printSql settings.style compiled.sql compiled.parameterNames

/-- Checks a statement. -/
def validate (surroundings : Surroundings) (settings : Settings) (sql? file? : Option String) :
    Steps String := do
  let sql ← ofInput (surroundings.statement sql? file?)
  let builder : Builder := { options := settings.options, source := {} }
  ofLibrary (builder.validate sql)
  return printSuccess settings.style "Query is valid" []

/-- The report to run and the names of its placeholders. -/
def reportToRun (surroundings : Surroundings) (builder : Builder) (arguments : RunArguments) :
    Steps (Report × List String × Builder) := do
  match arguments.description?.filter (· != "") with
  | some path =>
    let description ← readDescription surroundings path
    let (compiled, next) := builder.compile description
    return ({ query? := some description }, (← ofLibrary compiled).parameterNames, next)
  | none =>
    let sql ← ofInput (surroundings.statement arguments.sql? arguments.file?)
    return ({ sqlText := sql }, (Sql.prepare sql.toList).names, builder)

/-- Runs a statement or a description. A failure of the database is trouble like any other. -/
def runQuery (surroundings : Surroundings) (settings : Settings) (arguments : RunArguments) :
    Steps String := do
  let values ← ofAssignment (readValues arguments.values)
  let types ← ofAssignment (readTypes arguments.types)
  let builder ← openBuilder surroundings settings
  let (report, names, builder) ← reportToRun surroundings builder arguments
  let report := { report with parameters := definitionsFor values types names }
  let request : Request := {
    sql := ""
    values := givenValues values
    extent := if arguments.preview then .preview else .full
  }
  let (log, outcome, _) := builder.runReport report request
  modify fun (urls, before) => (urls, before ++ log)
  let result ← ofLibrary outcome
  match result.error? with
  | some message => throw (.plain message)
  | none => return printResult settings.style result

/-- The steps of a command. -/
def Invocation.steps (surroundings : Surroundings) (invocation : Invocation) : Steps String :=
  let settings := invocation.settings
  match invocation.action with
  | .version => pure ("AdhocQL v" ++ version ++ "\n")
  | .showMetadata schema? => showMetadata surroundings settings schema?
  | .showTable key => showTable surroundings settings key
  | .compile path => compileFile surroundings settings path
  | .validate sql? file? => validate surroundings settings sql? file?
  | .run arguments => runQuery surroundings settings arguments

/-- Runs a command. Trouble is printed and makes the exit code one; a command line that is not
understood makes it two. -/
def execute (surroundings : Surroundings) (words : List String) : Outcome :=
  match Invocation.read? words with
  | none => { exitCode := 2 }
  | some invocation =>
    match (invocation.steps surroundings).run.run ([], []) with
    | (.ok output, urls, log) => ⟨0, output, urls, log⟩
    | (.error trouble, urls, log) => ⟨1, printTrouble invocation.settings.style trouble, urls, log⟩

end ReportQuery.Command
