import SnapshotStaging.Error
import SnapshotStaging.Log
import SnapshotStaging.Settings

/-!
# Lines of the log

How an entry is written: as one JSON object, or by a template. The level of the log and the places
where lines go are settled once, from the settings.

| here | there |
| --- | --- |
| `members`, `json` | `JSONFormatter.format` |
| `text` | a formatter with a template |
| `addContext`, `withContext` | `LoggerAdapter.process` |
| `setup` | `setup_logging` with `_build_formatter` and `_file_handler` |
-/

namespace SnapshotStaging.Log

/-! ## Time -/

/-- A number with at least `width` digits. -/
def padded (width n : Nat) : List Char :=
  let ds := digits n
  List.replicate (width - ds.length) '0' ++ ds

/-- The year, month and day that follow the first of January 1970 by some days. -/
def dayOf (days : Nat) : Nat × Nat × Nat :=
  -- Counted in years that begin in March, so that a leap day is the last of its year.
  let d := days + 719468
  let era := d / 146097
  let day := d % 146097
  let year := (day - day / 1460 + day / 36524 - day / 146096) / 365
  let dayOfYear := day - (365 * year + year / 4 - year / 100)
  let m := (5 * dayOfYear + 2) / 153
  let month := if m < 10 then m + 3 else m - 9
  (year + 400 * era + (if month ≤ 2 then 1 else 0), month, dayOfYear - (153 * m + 2) / 5 + 1)

/-- A moment to the second; moments are milliseconds from the start of 1970. -/
def momentText (ms : Nat) : List Char :=
  let seconds := ms / 1000
  let (year, month, day) := dayOf (seconds / 86400)
  padded 4 year ++ '-' :: padded 2 month ++ '-' :: padded 2 day ++ ' ' ::
    padded 2 (seconds / 3600 % 24) ++ ':' :: padded 2 (seconds / 60 % 60) ++ ':' ::
    padded 2 (seconds % 60)

/-- A moment to the millisecond. -/
def exactMomentText (ms : Nat) : List Char := momentText ms ++ ',' :: padded 3 (ms % 1000)

/-! ## Lines -/

structure Line where
  moment : Nat
  level : String
  logger : String
  message : String
  thread : String := "MainThread"
  /-- What the entry carries beside its message. -/
  attributes : List (String × Json) := []

namespace Line

/-- Attributes that every line shows when an entry carries them. -/
def shown : List String := ["table", "column", "sk", "id", "action"]

/-- The members of a line as an object. The fields of an entry replace members of the same name. -/
def members (l : Line) : List (String × Json) :=
  let base : List (String × Json) :=
    [("timestamp", .str (String.ofList (exactMomentText l.moment))), ("level", .str l.level),
      ("logger", .str l.logger), ("message", .str l.message), ("thread", .str l.thread)]
  let context := shown.filterMap fun name => (Json.find? name l.attributes).map fun v => (name, v)
  let extra :=
    match Json.find? "extra_fields" l.attributes with
    | some (.obj fields) => fields
    | _ => []
  extra.foldl (fun all (name, v) => Json.put name v all) (base ++ context)

def json (l : Line) : String := (Json.obj l.members).render .spaced

/-- What a place in a template stands for. -/
def value (l : Line) (name : String) : List Char :=
  match name with
  | "asctime" => momentText l.moment
  | "levelname" => l.level.toList
  | "name" => l.logger.toList
  | "message" => l.message.toList
  | "threadName" => l.thread.toList
  | name => ((Json.find? name l.attributes).getD .null).plain.toList

/-- The state of writing by a template: outside a place, or inside one with its name so far. -/
def expand (l : Line) : Option (List Char) → List Char → List Char
  | none, '%' :: '(' :: rest => expand l (some []) rest
  | none, c :: rest => c :: expand l none rest
  | some name, ')' :: 's' :: rest => l.value (String.ofList name.reverse) ++ expand l none rest
  | some name, c :: rest => expand l (some (c :: name)) rest
  | _, [] => []

def text (l : Line) (template : String) : String := String.ofList (expand l none template.toList)

end Line

/-! ## Names and context -/

/-- The name of the log that all others belong to. -/
def rootName : String := "recordstage"

/-- The name of a module's log. -/
def loggerName (name : String) : String :=
  if name = rootName || (rootName ++ ".").isPrefixOf name then name else s!"{rootName}.{name}"

/-- Attributes with context added; what is there already stays. -/
def addContext (context attributes : List (String × Json)) : List (String × Json) :=
  context.foldl (fun all (name, v) =>
    if (Json.find? name all).isSome then all else Json.put name v all) attributes

/-- Options of an entry with context added to its attributes. -/
def withContext (context options : List (String × Json)) : Except Error (List (String × Json)) :=
  match Json.find? "extra" options with
  | none => .ok (Json.put "extra" (.obj context) options)
  | some (.obj attributes) => .ok (Json.put "extra" (.obj (addContext context attributes)) options)
  | some _ => if context.isEmpty then .ok options else .error .notAnObject

/-! ## Setup -/

inductive Handler
  | console
  | file (path : String)
  deriving DecidableEq, Repr

structure Setup where
  handlers : List Handler
  level : Level
  /-- The level of the database's own log. -/
  sqlLevel : Level
  json : Bool
  template : String

/-- Where lines go and which are written. -/
def setup (s : LogSettings) (echo : Bool) : Except Error Setup :=
  match Level.ofName? s.level.toUpper with
  | none => .error .unknownLevel
  | some level =>
    let files :=
      match s.file with
      | some path => if path = "" then [] else [Handler.file path]
      | none => []
    .ok ⟨.console :: files, level, if echo then .info else .warning, s.json, s.format⟩

/-- The text of a line, when its level is written. -/
def Setup.line? (s : Setup) (level : Level) (l : Line) : Option String :=
  if level.rank < s.level.rank then none else some (if s.json then l.json else l.text s.template)

end SnapshotStaging.Log
