import SnapshotStaging.Json.Printer
import SnapshotStaging.Log.Line
import SnapshotStaging.Run
import SnapshotStaging.Warehouse

/-!
# The command line

`analyze` prints the columns that the pages of tables call for; `stage` stages the tables, merges
them and promotes them. What a command reads, and the databases it works on, are values here; only
the program around it reads files and prints.

| here | there |
| --- | --- |
| `definitions` | `BaseCommand.resolve_tables` |
| `Options.settings` | `BaseCommand.build_settings` |
| `analyzeAll`, `resultLine`, `runCommand` | `Command.handle` of `analyze` and of `stage` |
| `overview`, `usage` | `CLIManager.list_commands`, `BaseCommand.help` |
| `run` | `CLIManager.run_command` under `main` |
-/

namespace SnapshotStaging.Cli

variable [Platform]

/-- What a command can see. -/
structure Surroundings where
  environment : List (String × String) := []
  /-- The directory of pages at a path. -/
  storeAt : String → PageStore
  /-- The file at a path. -/
  fileAt : String → Option (List UInt8)
  /-- Whether a file could be made at a path. -/
  canMake : String → Bool
  now : String

/-- Databases by their place. -/
abbrev Databases := List (String × Warehouse)

/-- How a command ended. -/
inductive Ending
  | status (n : Nat)
  | badArguments
  | failed (e : Error)
  | badSettings (f : Settings.Failure)

structure Outcome where
  /-- What was printed. -/
  output : String
  ending : Ending
  log : List Log.Entry
  databases : Databases
  /-- How the log is written, once that is settled. -/
  setup : Option Log.Setup := none

/-! ## Arguments -/

/-- The options of the commands. -/
structure Options where
  loadDir : Option String := none
  tables : Option (List String) := none
  schemaFile : Option String := none
  dialect : Option Dialect := none
  logLevel : Option String := none
  databaseUrl : Option String := none
  workers : Option Int := none

inductive Command
  | analyze
  | stage
  deriving DecidableEq, Repr

namespace Command

def all : List Command := [.analyze, .stage]

def name : Command → String
  | .analyze => "analyze"
  | .stage => "stage"

def description : Command → String
  | .analyze => "Run the analysis pass only and print inferred columns"
  | .stage => "Stage extracted pages into loading tables, merge history and promote"

def ofName? (s : String) : Option Command := all.find? fun c => c.name = s

/-- The names of a command's options. -/
def options : Command → List String
  | .analyze => ["--load-dir", "--table", "--schema-file", "--dialect", "--log-level", "--help"]
  | .stage =>
    ["--load-dir", "--table", "--schema-file", "--dialect", "--log-level", "--help",
      "--database-url", "--workers"]

end Command

/-- What an argument is. -/
inductive Argument
  | plain (s : String)
  | separator
  /-- An option, with the value that stands in the same argument. -/
  | option (name : String) (value : Option String)
  | unknown
  | ambiguous
  deriving DecidableEq, Repr

/-- Whether a text is a negative number. -/
def isNegativeNumber (cs : List Char) : Bool :=
  match cs with
  | '-' :: rest =>
    let whole := rest.takeWhile Text.isDecimalDigit
    match rest.dropWhile Text.isDecimalDigit with
    | [] => !whole.isEmpty
    | '.' :: fraction => !fraction.isEmpty && fraction.all Text.isDecimalDigit
    | _ => false
  | _ => false

/-- The part before the first equals sign and, if there is one, the part after it. -/
def splitAtEquals (s : String) : String × Option String :=
  let cs := s.toList
  match cs.dropWhile (· ≠ '=') with
  | [] => (s, none)
  | _ :: value => (String.ofList (cs.takeWhile (· ≠ '=')), some (String.ofList value))

/-- What an argument is among options of these names, which may be shortened as long as only one
name fits. -/
def Argument.ofText (names : List String) (s : String) : Argument :=
  match s.toList with
  | '-' :: _ :: _ =>
    if s = "--" then .separator
    else if names.contains s then .option s none
    else if s.startsWith "-h" then .option "--help" (splitAtEquals s).2
    else
      let (name, value) := splitAtEquals s
      if names.contains name then .option name value
      else
        match names.filter fun n => name.startsWith "--" && n.startsWith name with
        | [n] => .option n value
        | _ :: _ :: _ => .ambiguous
        | [] => if isNegativeNumber s.toList || s.toList.contains ' ' then .plain s else .unknown
  | _ => .plain s

/-- The options after one more; nothing when its value will not do. -/
def Options.set? (o : Options) (name value : String) : Option Options :=
  match name with
  | "--load-dir" => some { o with loadDir := some value }
  | "--table" => some { o with tables := some ((o.tables.getD []) ++ [value]) }
  | "--schema-file" => some { o with schemaFile := some value }
  | "--dialect" => (Dialect.ofName? value).map fun d => { o with dialect := some d }
  | "--log-level" => some { o with logLevel := some value }
  | "--database-url" => some { o with databaseUrl := some value }
  | "--workers" =>
    (PageStore.legible? (Settings.trimmed value.toList)).map fun n => { o with workers := some n }
  | _ => none

/-- What arguments are; after a separator all are plain. -/
def Argument.ofTexts (names : List String) : List String → List Argument
  | [] => []
  | s :: rest =>
    match ofText names s with
    | .separator => .separator :: rest.map .plain
    | a => a :: ofTexts names rest

/-- The command and what follows it; nothing when an option comes first. -/
def splitCommand : List String → Option (Option String × List String)
  | [] => some (none, [])
  | s :: rest =>
    match Argument.ofText [] s with
    | .plain _ =>
      match rest with
      | "--" :: rest => some (some s, rest)
      | rest => some (some s, rest)
    | .separator =>
      match rest with
      | s :: rest => some (some s, rest)
      | [] => some (none, [])
    | _ => none

/-! ## Commands -/

/-- The settings of the environment, with options in their place. -/
def Options.settings (o : Options) (s : Settings) : Settings :=
  { s with
    loadDir := o.loadDir.getD s.loadDir
    tables := o.tables.getD s.tables
    dialect := o.dialect.getD s.dialect
    databaseUrl := o.databaseUrl.getD s.databaseUrl
    workers := o.workers.getD s.workers
    logging :=
      match o.logLevel with
      | some level => if level = "" then s.logging else { s.logging with level := level }
      | none => s.logging }

/-- The tables to work on: those of a file, kept to the ones asked for, or the ones asked for. -/
def definitions (env : Surroundings) (s : Settings) (schemaFile : Option String) :
    Except Error (List Definition) := do
  let named := schemaFile.filter (· ≠ "")
  let all ←
    match named with
    | some path => Definition.ofFile path (env.fileAt path)
    | none => Definition.ofEntries (s.tables.map Json.str)
  let choosing := named.isSome && !s.tables.isEmpty
  if choosing && all.any fun d => d.name.isContainer then .error .unsuitableValue
  let chosen :=
    if choosing then all.filter fun d => s.tables.any fun t => d.name matches .str _ && d.label = t
    else all
  if chosen.isEmpty then .error .noTables else .ok chosen

/-- A text as ASCII, other characters as escapes of their units. -/
def asciiOnly (cs : List Char) : List Char :=
  cs.flatMap fun c =>
    if c.toNat < 0x7F then [c]
    else if c.toNat < 0x10000 then escape c.toNat
    else
      let n := c.toNat - 0x10000
      escape (0xD800 + n / 0x400) ++ escape (0xDC00 + n % 0x400)
where
  escape (n : Nat) : List Char := '\\' :: 'u' :: Text.hexDigits n 4 []

/-- The definitions with the columns their pages call for. -/
def analyzeAll (store : PageStore) : List Definition → Task Warehouse (List Json)
  | [] => return []
  | d :: rest => do
    let table := d.label
    let count ← Staging.pageCount store table
    let (statistics, columns) ← Staging.analyze store table count
    let members :=
      match d.toJson columns with
      | .obj members => members
      | _ => []
    return .obj (members ++ [("records", .int statistics.records)]) :: (← analyzeAll store rest)

def colored (color : String) (text : String) : String := s!"\x1b[{color}m{text}\x1b[0m\n"

/-- The line about a table of a run. -/
def resultLine (r : TableResult) : String :=
  match r.status, r.failure, r.stage with
  | .skipped, _, _ => colored "93" s!"⚠ {r.table.plain}: skipped"
  | .failed, some f, _ => colored "91" s!"✗ {r.table.plain}: {f.text}"
  | _, _, some stage =>
    colored "92" s!"✓ {r.table.plain}: {stage.loaded} records, {r.appended} history rows appended"
  | _, _, none => ""

/-- The place of a database that can be opened. -/
def databasePlace (env : Surroundings) (url : String) : Except Error String :=
  match url.splitOn "://" with
  | "sqlite" :: rest =>
    let path := "://".intercalate rest
    if path = "" || path = "/:memory:" then .ok ""
    else if path.startsWith "/" && env.canMake (String.ofList path.toList.tail) then
      .ok (String.ofList path.toList.tail)
    else .error (.databaseFailed .systemTables)
  | [scheme, _] =>
    if scheme.startsWith "postgresql" then .error (.databaseFailed .systemTables)
    else .error (.databaseFailed .connection)
  | _ => .error (.databaseFailed .connection)

/-- The database at a place, as a command that starts finds it. -/
def openAt (env : Surroundings) (dialect : Dialect) (databases : Databases) (place : String) :
    Warehouse :=
  let known := (databases.find? fun d => d.1 = place && place ≠ "").map (·.2)
  let tables := (known.map (·.tables)).getD ⟨[], []⟩
  let kept := tables.relations.filter fun r => !(r.2 matches .latest _)
  { tables := { tables with relations := kept }, saved := none, now := env.now, dialect := dialect }

def runCommand (env : Surroundings) (databases : Databases) (c : Command) (o : Options)
    (settings : Settings) : Outcome :=
  let settings := o.settings settings
  let setup := Log.setup settings.logging settings.databaseEcho
  let stop (output : String) (ending : Ending) (log : List Log.Entry) : Outcome :=
    ⟨output, ending, log, databases, setup.toOption⟩
  let refuse (e : Error) (log : List Log.Entry) : Outcome :=
    match e.report? with
    | some r => stop s!"Error running command '{c.name}': {r.text}\n" (.status 1) log
    | none => stop "" (.failed e) log
  match setup, definitions env settings o.schemaFile with
  | .error e, _ => refuse e []
  | .ok _, .error e => refuse e []
  | .ok _, .ok ds =>
    let store := env.storeAt settings.loadDir
    match c with
    | .analyze =>
      match analyzeAll store ds ⟨.empty, .memory .empty, []⟩ with
      | .ok entries s =>
        let text := (Json.arr entries).write (.indented 2) 0 []
        stop (String.ofList (asciiOnly text) ++ "\n") (.status 0) s.entries
      | .error e s => refuse e s.entries
    | .stage =>
      match databasePlace env settings.databaseUrl with
      | .error e => refuse e []
      | .ok place =>
        let database := openAt env settings.dialect databases place
        let kept (w : Warehouse) : Databases := (place, w) :: databases.filter fun d => d.1 ≠ place
        match Run.all settings store ds ⟨database, .durable .empty, []⟩ with
        | .ok results s =>
          let status := if results.all TableResult.succeeded then 0 else 1
          { stop (String.join (results.map resultLine)) (.status status) s.entries with
            databases := kept s.database }
        | .error e s => { refuse e s.entries with databases := kept s.database }

/-! ## Help -/

/-- A text filled up with blanks. -/
def widened (width : Nat) (s : String) : String :=
  s ++ String.ofList (List.replicate (width - s.length) ' ')

def overview : String :=
  let commands := Command.all.map fun c => s!"  {widened 20 c.name} {c.description}\n"
  "recordstage CLI\nUsage: recordstage <command> [args...]\n\nAvailable commands:\n" ++
    String.ofList (List.replicate 40 '=') ++ "\n" ++ String.join commands ++
    "\nUse 'recordstage help <command>' for help on a specific command.\n"

/-- What the options of a command are called. -/
def usage (c : Command) : String :=
  s!"usage: recordstage {c.name} [options]\n\n{c.description}\n\noptions:\n" ++
    String.join (c.options.map fun o => s!"  {o}\n")

/-- What the arguments ask for. -/
inductive Request
  /-- To print a text and end. -/
  | say (text : String) (status : Nat)
  | run (c : Command) (o : Options)
  | unclear

/-- The request for help, on one command or on all. -/
def Request.help : List String → Request
  | [] => .say overview 0
  | topic :: _ =>
    match Command.ofName? topic with
    | some c => .say (usage c) 0
    | none => .say s!"Unknown command: {topic}\n" 1

/-- The request of arguments in turn; `clear` tells whether all before were options with their
values. -/
def Request.ofOptions (c : Command) (o : Options) (clear : Bool) : List Argument → Request
  | [] => if clear then .run c o else .unclear
  | .option "--help" none :: _ => .say (usage c) 0
  | .option name (some value) :: rest => given name value rest
  | .option name none :: .plain value :: rest => given name value rest
  | .option _ none :: _ => .unclear
  | _ :: rest => ofOptions c o false rest
where
  given (name value : String) (rest : List Argument) : Request :=
    match o.set? name value with
    | some o => ofOptions c o clear rest
    | none => .unclear

/-- The request to run a command with these arguments. -/
def Request.ofCommand (c : Command) (arguments : List String) : Request :=
  let arguments := Argument.ofTexts c.options arguments
  if arguments.contains .ambiguous then .unclear else .ofOptions c {} true arguments

def Request.ofArguments (arguments : List String) : Request :=
  match splitCommand arguments with
  | none => .unclear
  | some (command, rest) =>
    let name := command.getD ""
    if name = "" || name = "help" then .help rest
    else
      match Command.ofName? name with
      | some c => .ofCommand c rest
      | none =>
        .say s!"Unknown command: {name}\nUse 'recordstage help' to see available commands.\n" 1

/-- Runs the program with its arguments. -/
def run (env : Surroundings) (databases : Databases) (arguments : List String) : Outcome :=
  let stop (output : String) (ending : Ending) : Outcome :=
    { output := output, ending := ending, log := [], databases := databases }
  match Request.ofArguments arguments with
  | .unclear => stop "" .badArguments
  | .say text status => stop text (.status status)
  | .run c o =>
    match Settings.load env.environment [] with
    | .error f => stop "" (.badSettings f)
    | .ok settings => runCommand env databases c o settings

/-- The directory and the file that a command reads, when its arguments and settings are clear. -/
def sources (environment : List (String × String)) (arguments : List String) :
    List String × List String :=
  match Request.ofArguments arguments, Settings.load environment [] with
  | .run _ o, .ok settings => ([(o.settings settings).loadDir], o.schemaFile.toList)
  | _, _ => ([], [])

/-- The lines of the log of a command that ended at a moment. -/
def Outcome.logLines (o : Outcome) (moment : Nat) : List String :=
  match o.setup with
  | none => []
  | some setup => o.log.filterMap fun e =>
    setup.line? e.level
      { moment := moment, level := e.level.name, logger := Log.rootName, message := e.message,
        attributes := e.fields.toList.map fun fields => ("extra_fields", .obj fields) }

/-- A moment as the databases note it; moments are milliseconds from the start of 1970. -/
def timeText (moment : Nat) : String :=
  String.ofList (Log.momentText moment ++ '.' :: Log.padded 3 (moment % 1000))

end SnapshotStaging.Cli
