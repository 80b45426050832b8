import ReportQuery.Connection.Url
import ReportQuery.Execution.Script
import ReportQuery.Parameter.Value
import ReportQuery.Text.Literal

set_option autoImplicit false
set_option relaxedAutoImplicit false

/-!
The engine that database access goes through. It is made from a URL when it is first needed and is
given up when the connection is closed.
-/

namespace ReportQuery.Connection

open Execution (Fault)

/-- What a machine offers: dialects beside the supported ones, and directories that files can be
opened in. -/
structure Machine where
  otherDialects : List String := []
  directories : List String := ["."]
deriving Repr, DecidableEq

/-- A supported database. -/
inductive Dialect where
  | postgresql
  | sqlite
deriving Repr, DecidableEq

namespace Dialect

/-- All supported databases. -/
def all : List Dialect := [postgresql, sqlite]

/-- The name of the database. -/
def name : Dialect → String
  | postgresql => "postgresql"
  | sqlite => "sqlite"

/-- The schemes of URLs for the database: its name, alone or with a driver. -/
def schemes : Dialect → List String
  | postgresql => ["postgresql", "postgresql+psycopg"]
  | sqlite => ["sqlite", "sqlite+pysqlite"]

/-- The database of a scheme. -/
def ofScheme? (scheme : String) : Option Dialect :=
  all.find? fun dialect => dialect.schemes.contains scheme

end Dialect

/-- Why there is no engine for a URL. -/
inductive EngineFault where
  | notUrl
  | invalidPort (text : String)
  | unknownScheme (scheme : String)
  | invalidFileUrl (url : Url)
  | unsupported (dialect : String)
deriving Repr, DecidableEq

/-- The sentence that reports the fault. At most 200 characters of a port are shown. -/
def EngineFault.message : EngineFault → String
  | notUrl =>
    "Failed to create database engine: Could not parse SQLAlchemy URL from given URL string"
  | invalidPort text =>
    "Failed to create database engine: invalid literal for int() with base 10: " ++
      String.ofList ((Text.literalText text).take 200)
  | unknownScheme scheme =>
    "Failed to create database engine: Can't load plugin: sqlalchemy.dialects:" ++
      scheme.map fun c => if c == '+' then '.' else c
  | invalidFileUrl url =>
    "Failed to create database engine: Invalid SQLite URL: " ++ url.text ++
      "\nValid SQLite URL forms are sqlite:///:memory: or sqlite:////absolute/path/to/file.db"
  | unsupported dialect =>
    "Unsupported database dialect: " ++ dialect ++ ". Supported: " ++
      ", ".intercalate (Dialect.all.map Dialect.name)

/-- An engine: the database and where it is. -/
structure Engine where
  dialect : Dialect
  url : Url
deriving Repr, DecidableEq

/-- Makes the engine for a URL. -/
def Engine.create (machine : Machine) (text : String) : Except EngineFault Engine :=
  match Url.read? text.toList with
  | none => .error .notUrl
  | some url =>
    match url.portText?.filter fun text => (Parameter.readInt? text.toList).isNone with
    | some text => .error (.invalidPort text)
    | none =>
      match Dialect.ofScheme? url.scheme with
      | some .sqlite =>
        let hasServer :=
          [url.username?, url.password?, url.host?, url.portText?].any fun part? =>
            (part?.filter (· != "")).isSome
        if hasServer then .error (.invalidFileUrl url) else .ok ⟨.sqlite, url⟩
      | some .postgresql => .ok ⟨.postgresql, url⟩
      | none =>
        if machine.otherDialects.contains url.scheme then .error (.unsupported url.scheme)
        else .error (.unknownScheme url.scheme)

/-- The directory of a path. -/
def directoryOf (path : String) : String :=
  let before := (path.toList.reverse.dropWhile (· != '/')).reverse
  match before with
  | [] => "."
  | ['/'] => "/"
  | _ => String.ofList before.dropLast

/-- The fault of opening a connection, if it cannot be opened. A database in memory always can, one
in a file if its directory is there; a server is out of reach. -/
def Engine.openFault? (machine : Machine) (engine : Engine) : Option Fault :=
  match engine.dialect with
  | .postgresql => some (.driver "psycopg.OperationalError" none "connection failed")
  | .sqlite =>
    let path := engine.url.database?.getD ""
    if path == "" || path == ":memory:" || machine.directories.contains (directoryOf path) then none
    else some (.driver "sqlite3.OperationalError" none "unable to open database file")

/-- Why a database cannot be used. -/
inductive ConnectionFault where
  | engine (fault : EngineFault)
  | test (fault : Fault)
deriving Repr, DecidableEq

/-- The sentence that reports the fault. -/
def ConnectionFault.message : ConnectionFault → String
  | engine fault => fault.message
  | test fault => "Database connection test failed: " ++ fault.report

/-- A database by its URL, with the engine made for it so far. -/
structure Database where
  url : String
  engine? : Option Engine := none
deriving Repr, DecidableEq

namespace Database

/-- The database at a URL. -/
def ofUrl (url : String) : Database :=
  ⟨connectionUrl url, none⟩

/-- The engine, made now unless there is one. -/
def engine (machine : Machine) (database : Database) : Except EngineFault Engine :=
  match database.engine? with
  | some engine => .ok engine
  | none => Engine.create machine database.url

/-- The database after its engine was asked for. -/
def withEngine (machine : Machine) (database : Database) : Database :=
  match database.engine machine with
  | .ok engine => { database with engine? := some engine }
  | .error _ => database

/-- Tries the connection. -/
def test (machine : Machine) (database : Database) : Except ConnectionFault Unit :=
  match database.engine machine with
  | .error fault => .error (.engine fault)
  | .ok engine =>
    match engine.openFault? machine with
    | some fault => .error (.test fault)
    | none => .ok ()

/-- The database with its engine given up. -/
def close (database : Database) : Database :=
  { database with engine? := none }

end Database

end ReportQuery.Connection
