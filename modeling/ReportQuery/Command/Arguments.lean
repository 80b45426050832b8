set_option autoImplicit false
set_option relaxedAutoImplicit false

/-!
The command line: options for all commands, the name of a command, and its own options and
arguments.

An option is written with two hyphens and its name, or with one hyphen and its letter. A value
follows as the next word, after an equals sign, or directly after the letter. Letters of options
without value may share a hyphen. Two hyphens alone end the options.
-/

namespace ReportQuery.Command

/-- An option that a command understands. -/
structure OptionSpec where
  name : String
  letter? : Option Char := none
  takesValue : Bool := true
deriving Repr, DecidableEq

/-- What was read from words: options in order, and the arguments. -/
structure Words where
  options : List (String × String) := []
  arguments : List String := []
deriving Repr, DecidableEq

namespace Words

/-- The last value of an option. -/
def last? (words : Words) (name : String) : Option String :=
  words.options.reverse.lookup name

/-- All values of an option. -/
def all (words : Words) (name : String) : List String :=
  words.options.filterMap fun (key, value) => if key = name then some value else none

/-- Whether an option was given. -/
def has (words : Words) (name : String) : Bool :=
  (words.last? name).isSome

/-- Adds an option in front. -/
def withOption (words : Words) (name value : String) : Words :=
  { words with options := (name, value) :: words.options }

/-- Adds an argument in front. -/
def withArgument (words : Words) (argument : String) : Words :=
  { words with arguments := argument :: words.arguments }

end Words

/-- What a word with one hyphen holds: its options, and the one among them whose value is the next
word. -/
structure Cluster where
  options : List (String × String)
  pending? : Option String
deriving Repr, DecidableEq

/-- Reads the letters after one hyphen. -/
def readCluster (specs : List OptionSpec) : List Char → Option Cluster
  | [] => some ⟨[], none⟩
  | c :: cs =>
    match specs.find? fun spec => spec.letter? = some c with
    | none => none
    | some spec =>
      if spec.takesValue then
        some (if cs.isEmpty then ⟨[], some spec.name⟩
          else ⟨[(spec.name, String.ofList cs)], none⟩)
      else
        (readCluster specs cs).map fun rest =>
          { rest with options := (spec.name, "") :: rest.options }

/-- Reads what follows two hyphens. -/
def readLong (specs : List OptionSpec) (cs : List Char) : Option Cluster :=
  let (name, value) := cs.span (· != '=')
  match specs.find? fun spec => spec.name.toList = name, value with
  | none, _ => none
  | some spec, [] =>
    some (if spec.takesValue then ⟨[], some spec.name⟩ else ⟨[(spec.name, "")], none⟩)
  | some spec, _ :: text =>
    if spec.takesValue then some ⟨[(spec.name, String.ofList text)], none⟩ else none

/-- Reads a word that holds options, if it is one; the outer none stands for an argument. -/
def readOptions (specs : List OptionSpec) (word : String) : Option (Option Cluster) :=
  match word.toList with
  | '-' :: '-' :: cs => some (readLong specs cs)
  | '-' :: c :: cs => some (readCluster specs (c :: cs))
  | _ => none

/-- Reads words. Without `interspersed` the first argument ends the options. `pending?` is an option
whose value comes next. -/
def readWords (specs : List OptionSpec) (interspersed : Bool) (pending? : Option String) :
    List String → Option Words
  | [] => if pending?.isSome then none else some {}
  | word :: rest =>
    match pending? with
    | some name =>
      (readWords specs interspersed none rest).map (·.withOption name word)
    | none =>
      if word = "--" then some { arguments := rest }
      else
        match readOptions specs word with
        | none =>
          if interspersed then (readWords specs interspersed none rest).map (·.withArgument word)
          else some { arguments := word :: rest }
        | some none => none
        | some (some cluster) =>
          (readWords specs interspersed cluster.pending? rest).map fun words =>
            { words with options := cluster.options ++ words.options }

/-- What all commands share. -/
structure Settings where
  database? : Option String := none
  echo : Bool := false
  json : Bool := false
  allowedSchemas : List String := []
deriving Repr, DecidableEq

/-- What `query run` is to run. -/
structure RunArguments where
  sql? : Option String := none
  file? : Option String := none
  description? : Option String := none
  values : List String := []
  types : List String := []
  preview : Bool := false
deriving Repr, DecidableEq

/-- A command. -/
inductive Action where
  | version
  | showMetadata (schema? : Option String)
  | showTable (key : String)
  | compile (file : String)
  | validate (sql? file? : Option String)
  | run (arguments : RunArguments)
deriving Repr, DecidableEq

/-- A command line that was understood. -/
structure Invocation where
  settings : Settings
  action : Action
deriving Repr, DecidableEq

/-- The options for all commands. -/
def settingSpecs : List OptionSpec :=
  [⟨"database", some 'd', true⟩, ⟨"echo", some 'e', false⟩, ⟨"json", some 'j', false⟩,
    ⟨"allow-schema", none, true⟩]

/-- Options for all commands from what was read. -/
def settingsOf (words : Words) : Settings :=
  ⟨words.last? "database", words.has "echo", words.has "json", words.all "allow-schema"⟩

/-- At most one argument. -/
def atMostOne : List String → Option (Option String)
  | [] => some none
  | [argument] => some (some argument)
  | _ => none

/-- Reads `metadata` and what follows. -/
def readMetadata (words : List String) : Option Action := do
  match (← readWords [] false none words).arguments with
  | "show" :: rest =>
    let read ← readWords [⟨"schema", some 's', true⟩] true none rest
    if read.arguments.isEmpty then some (.showMetadata (read.last? "schema")) else none
  | "table" :: rest =>
    match (← readWords [] true none rest).arguments with
    | [key] => some (.showTable key)
    | _ => none
  | _ => none

/-- The options of `query run`. -/
def runSpecs : List OptionSpec :=
  [⟨"file", some 'f', true⟩, ⟨"query", some 'q', true⟩, ⟨"param", some 'p', true⟩,
    ⟨"param-type", some 't', true⟩, ⟨"preview", none, false⟩]

/-- Reads `query` and what follows. -/
def readQuery (words : List String) : Option Action := do
  match (← readWords [] false none words).arguments with
  | "compile" :: rest =>
    match (← readWords [] true none rest).arguments with
    | [file] => some (.compile file)
    | _ => none
  | "validate" :: rest =>
    let read ← readWords [⟨"file", some 'f', true⟩] true none rest
    return .validate (← atMostOne read.arguments) (read.last? "file")
  | "run" :: rest =>
    let read ← readWords runSpecs true none rest
    return .run {
      sql? := ← atMostOne read.arguments
      file? := read.last? "file"
      description? := read.last? "query"
      values := read.all "param"
      types := read.all "param-type"
      preview := read.has "preview"
    }
  | _ => none

/-- Reads a command line; none stands for one that is not understood. -/
def Invocation.read? (words : List String) : Option Invocation := do
  let read ← readWords settingSpecs false none words
  let action ←
    match read.arguments with
    | "metadata" :: rest => readMetadata rest
    | "query" :: rest => readQuery rest
    | ["version"] => some .version
    | _ => none
  return ⟨settingsOf read, action⟩

end ReportQuery.Command
