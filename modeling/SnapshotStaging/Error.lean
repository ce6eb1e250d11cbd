import SnapshotStaging.Json.Notation
import SnapshotStaging.Json.Printer

/-!
# What can go wrong

An `Error` is a cause. Causes that a run foresees have a `Report`: a kind, a message, a code and
details. The other causes end a run.

| here | there |
| --- | --- |
| `ErrorKind` | `AppException` and the classes below it; `ancestry` is their inheritance |
| `Report.make` | their `__init__` |
| `Report.text`, `Report.description` | `AppException.__str__`, `AppException.__repr__` |
| `Place` | `BuilderState` |
| `databaseReport` | the `DatabaseError` of `SqlConnection` and `DatabaseManager` |
| `report?` | which errors are an `AppException` |
-/

namespace SnapshotStaging

inductive ErrorKind
  | application
  | configuration
  | staging
  | malformedRecord
  | pageCount
  | database
  deriving DecidableEq, Repr

namespace ErrorKind

def name : ErrorKind → String
  | .application => "AppException"
  | .configuration => "ConfigurationError"
  | .staging => "StagingError"
  | .malformedRecord => "MalformedRecordError"
  | .pageCount => "PageCountError"
  | .database => "DatabaseError"

def all : List ErrorKind :=
  [.application, .configuration, .staging, .malformedRecord, .pageCount, .database]

def ofName? (s : String) : Option ErrorKind := all.find? fun k => k.name = s

/-- The kind and the more general ones, most general last. -/
def ancestry : ErrorKind → List ErrorKind
  | .application => [.application]
  | .configuration => [.configuration, .application]
  | .staging => [.staging, .application]
  | .malformedRecord => [.malformedRecord, .staging, .application]
  | .pageCount => [.pageCount, .staging, .application]
  | .database => [.database, .application]

/-- The code of a kind; the most general kind has none of its own. -/
def code : ErrorKind → String
  | .application => ""
  | .configuration => "CONFIGURATION_ERROR"
  | .staging => "STAGING_ERROR"
  | .malformedRecord => "MALFORMED_RECORD"
  | .pageCount => "PAGE_COUNT_ERROR"
  | .database => "DATABASE_ERROR"

/-- The message of a kind when none is given. -/
def message? : ErrorKind → Option String
  | .application => none
  | .configuration => some "Invalid configuration"
  | .staging => some "Staging failed"
  | .malformedRecord => some "Malformed record"
  | .pageCount => some "Unable to read page count"
  | .database => some "Database error occurred"

/-- What a report of this kind says about where the error arose. -/
def context : ErrorKind → List String
  | .application => []
  | .configuration => ["setting"]
  | .staging => ["table"]
  | .malformedRecord => ["table", "record_text"]
  | .pageCount => ["table", "file_path"]
  | .database => ["operation"]

/-- Whether a report of this kind may be given a code. -/
def takesCode : ErrorKind → Bool
  | .application | .staging => true
  | _ => false

end ErrorKind

structure Report where
  kind : ErrorKind
  message : String
  code : String
  details : List (String × Json)
  /-- Where the error arose, by the names in `ErrorKind.context`. -/
  origin : List (String × Json)

namespace Report

/-- How many characters of a record a report quotes. -/
def quotedLength : Nat := 200

/-- The detail that a piece of context adds: records are cut, and all else is left out when
empty. -/
def detail? (name : String) (v : Json) : Option Json :=
  match name, v with
  | "record_text", .str s => some (.str (String.ofList (s.toList.take quotedLength)))
  | "record_text", .arr items => some (.arr (items.take quotedLength))
  | "record_text", _ => none
  | _, v => if v.truthy then some v else none

/-- Whether a piece of context can be quoted. -/
def quotable (name : String) (v : Json) : Bool :=
  match name, v with
  | "record_text", .str _ | "record_text", .arr _ | "record_text", .null => true
  | name, _ => name ≠ "record_text"

/-- A report of a kind. An empty code gives way to the kind's name. -/
def make (kind : ErrorKind) (message code : String) (details origin : List (String × Json)) :
    Report :=
  let details := origin.foldl (fun ds (name, v) =>
    match detail? name v with
    | some d => Json.put name d ds
    | none => ds) details
  ⟨kind, message, if code = "" then kind.name else code, details, origin⟩

/-- The report with a table's name as its definition gives it. -/
def about (r : Report) (table : Json) : Report :=
  { r with details := r.details.filterMap fun (name, v) =>
      if name = "table" then (detail? name table).map fun v => (name, v) else some (name, v) }

/-- A report from named arguments; nothing when one is unknown or will not do, or the message is
missing. -/
def ofArguments? (kind : ErrorKind) (arguments : List (String × Json)) : Option Report := do
  let code := if kind.takesCode then ["error_code"] else []
  let names := "message" :: "details" :: kind.context ++ code
  if arguments.any fun (name, v) => !(names.contains name && quotable name v) then none
  let message ← ((Json.find? "message" arguments).map Json.plain).or kind.message?
  let code :=
    match Json.find? "error_code" arguments with
    | some v => if v.truthy then v.plain else ""
    | none => kind.code
  let details :=
    match Json.find? "details" arguments with
    | some (.obj members) => members
    | _ => []
  let origin := kind.context.map fun name => (name, (Json.find? name arguments).getD .null)
  return make kind message code details origin

/-- The report as one line. -/
def text (r : Report) : String := s!"{r.code}: {r.message}"

/-- The report with its kind. -/
def description (r : Report) : String :=
  s!"{r.kind.name}(message='{r.message}', error_code='{r.code}')"

end Report

/-- Where an assembly of records stands in a page. -/
inductive Place
  | outsideArray
  | betweenRecords
  | insideRecord
  deriving DecidableEq, Repr

def Place.name : Place → String
  | .outsideArray => "OUTSIDE_ARRAY"
  | .betweenRecords => "BETWEEN_RECORDS"
  | .insideRecord => "INSIDE_RECORD"

/-- What a database was asked to do when it failed. -/
inductive DatabaseStep
  /-- A statement of a load or a merge. -/
  | statement
  /-- Reading or writing keys, inside a transaction or on its own. -/
  | keys (inTransaction : Bool)
  | transaction
  | connection
  | systemTables
  deriving DecidableEq, Repr

inductive Error
  | unknownDialect (name : String)
  | unnamedTable (definition : Json)
  | unknownDefinition (value : Json)
  | unreadableDefinitions (path : String)
  | noTables
  | invalidPage (table : String)
  | missingCollector (table : String)
  | missingEncoder (table : String)
  | unexpectedEvent (event : String) (place : Place) (table : String)
  | pageEnded (place : Place) (table : String)
  | numberOutOfRange (number : Decimal) (record : String) (table : String)
  | invalidRecord (record : String) (table : String)
  | unidentifiedRecord (record : String) (table : String)
  | unreadableCount (path : String) (table : String)
  | negativeCount (path : String) (table : String)
  | databaseFailed (step : DatabaseStep)
  /-- A text of a page whose bytes stand for no characters. -/
  | undecodableText
  /-- A number of a page whose power of ten cannot be held. -/
  | unholdableNumber
  /-- An integer with too many digits to be turned into a number or into text. -/
  | overlongInteger
  /-- A record whose text is nested too deep to be read. -/
  | deepText
  /-- A record that is nested too deep to be put into order. -/
  | deepRecord
  | invalidText
  /-- A value of a kind that the operation has no meaning for. -/
  | unsuitableValue
  /-- A value that is no object where one with members is due. -/
  | notAnObject
  /-- A value that is no text where one is to be quoted. -/
  | notAText
  | unknownLevel

namespace Error

def databaseReport : DatabaseStep → Report
  | .statement => failed "SQL execution failed" "exec"
  | .keys true => failed "Database operation failed" "session"
  | .keys false => failed "Database operation failed" ""
  | .transaction => failed "Database transaction failed" "transaction"
  | .connection => failed "Database engine creation failed" "connect"
  | .systemTables => failed "Creating system tables failed" "init_db"
where
  failed (message operation : String) : Report :=
    .make .database message ErrorKind.database.code [] [("operation", .str operation)]

/-- What is reported of a cause; nothing of those that no run foresees. -/
def report? : Error → Option Report
  | .unknownDialect name => configuration s!"Unsupported dialect: {name}" "dialect"
  | .unnamedTable definition =>
    some (.make .configuration "Table definition without table_name" ErrorKind.configuration.code
      [("table", definition)] [])
  | .unknownDefinition v => configuration s!"Invalid table definition: {String.ofList v.inspect}" ""
  | .unreadableDefinitions path =>
    configuration s!"Cannot read table schema file {path}" "schema_file"
  | .noTables => configuration "No tables selected" "tables"
  | .invalidPage table => staging "Invalid JSON in page" table
  | .missingCollector table => staging "Analysis pass requires a statistics collector" table
  | .missingEncoder table => staging "Load pass requires a tuple encoder" table
  | .unexpectedEvent event place table =>
    malformed s!"Unexpected '{event}' in state {place.name}" table .null
  | .pageEnded place table => malformed s!"Page ended in state {place.name}" table .null
  | .numberOutOfRange number record table =>
    malformed
      s!"Reconstructed record is not valid JSON: Number out of range: {String.ofList number.text}"
      table (.str record)
  | .invalidRecord record table =>
    malformed "Reconstructed record is not valid JSON" table (.str record)
  | .unidentifiedRecord record table => malformed "Record has no id" table (.str record)
  | .unreadableCount path table => pageCount s!"Unable to read page count from {path}" path table
  | .negativeCount path table => pageCount s!"Negative page count in {path}" path table
  | .databaseFailed step => some (databaseReport step)
  | .undecodableText | .unholdableNumber | .overlongInteger | .deepText | .deepRecord
  | .invalidText | .unsuitableValue | .notAnObject | .notAText | .unknownLevel => none
where
  configuration (message setting : String) : Option Report :=
    some (.make .configuration message ErrorKind.configuration.code [] [("setting", .str setting)])
  staging (message table : String) : Option Report :=
    some (.make .staging message ErrorKind.staging.code [] [("table", .str table)])
  malformed (message table : String) (record : Json) : Option Report :=
    some (.make .malformedRecord message ErrorKind.malformedRecord.code []
      [("table", .str table), ("record_text", record)])
  pageCount (message path table : String) : Option Report :=
    some (.make .pageCount message ErrorKind.pageCount.code []
      [("table", .str table), ("file_path", .str path)])

end Error

/-- A value as a record: only objects are records. -/
def Json.asRecord : Json → Except Error Json
  | .obj members => .ok (.obj members)
  | _ => .error .notAnObject

end SnapshotStaging
