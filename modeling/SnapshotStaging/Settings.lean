import SnapshotStaging.Json.Notation
import SnapshotStaging.Json.Reader
import SnapshotStaging.Sql.Statement
import SnapshotStaging.Text.Blank
import SnapshotStaging.Text.Case
import SnapshotStaging.Text.Digit

/-!
# Settings

Settings come from named arguments, then from variables of the environment, then from defaults.
Variables are matched without regard to case; a field of lists or of members is JSON in a variable.
Every value is checked on its own, so all problems are reported together.

| here | there |
| --- | --- |
| `LogSettings`, `Settings` | `LoggingSettings`, `Settings` |
| `dialectField`, `workersField` | `Settings.validate_dialect`, `Settings.validate_max_workers` |
| `load` | `get_settings`, and `Settings` with arguments |
-/

namespace SnapshotStaging

structure LogSettings where
  level : String := "INFO"
  json : Bool := false
  format : String := "%(asctime)s - %(levelname)s - %(name)s - %(message)s"
  file : Option String := none
  maxBytes : Int := 10 * 1024 * 1024
  backups : Int := 5

/-- The rules that hold for the table of users unless others are set. -/
def defaultRedaction : List (String × List String) :=
  [("user_users",
    ["/barcode", "/externalSystemId", "/username", "/personal/lastName", "/personal/firstName",
      "/personal/middleName", "/personal/email", "/personal/phone", "/personal/mobilePhone",
      "/personal/dateOfBirth", "/personal/addresses/*/addressLine1",
      "/personal/addresses/*/addressLine2", "/personal/addresses/*/city",
      "/personal/addresses/*/region", "/personal/addresses/*/postalCode",
      "/personal/addresses/*/countryId"])]

structure Settings where
  databaseUrl : String := "postgresql://user:password@db:5432/warehouse"
  dialect : Dialect := .postgresql
  databaseEcho : Bool := false
  loadDir : String := "./extract"
  tables : List String := []
  tenant : Int := 1
  workers : Int := 1
  flushThreshold : Int := 10000000
  maxValueLength : Int := 65535
  grantee : Option String := none
  redaction : List (String × List String) := defaultRedaction
  logging : LogSettings := {}

namespace Settings

/-- What is wrong with the value at a path. -/
structure Problem where
  path : List String
  kind : String
  message : Option String := none

inductive Failure
  /-- A variable that should be JSON and is not. -/
  | unreadable
  | invalid (problems : List Problem)

/-- A value, or the problems with it. -/
abbrev Checked (α : Type) := Except (List Problem) α

def problem {α : Type} (path : List String) (kind : String) : Checked α :=
  .error [{ path := path, kind := kind }]

/-- Keeps the problems of both. -/
def both {α β γ : Type} (f : α → β → γ) : Checked α → Checked β → Checked γ
  | .ok a, .ok b => .ok (f a b)
  | .ok _, .error q => .error q
  | .error p, .ok _ => .error p
  | .error p, .error q => .error (p ++ q)

def text (path : List String) : Json → Checked String
  | .str s => .ok s
  | _ => problem path "string_type"

def optionalText (path : List String) : Json → Checked (Option String)
  | .null => .ok none
  | v => (text path v).map some

/-- Digits with single underscores between them. -/
def grouped (afterDigit : Bool) : List Char → Option (List Char)
  | [] => if afterDigit then some [] else none
  | c :: rest =>
    if c.isDigit then (grouped true rest).map (c :: ·)
    else if c = '_' && afterDigit then
      match rest with
      | d :: _ => if d.isDigit then grouped false rest else none
      | [] => none
    else none

def trimmed (cs : List Char) : List Char :=
  ((cs.dropWhile Text.isBlank).reverse.dropWhile Text.isBlank).reverse

/-- The whole number that a text spells; a fraction of zeros does no harm. -/
def wholeNumber? (s : String) : Option Int :=
  let cs := trimmed s.toList
  let (negative, cs) :=
    match cs with
    | '-' :: rest => (true, rest)
    | '+' :: rest => (false, rest)
    | cs => (false, cs)
  let whole := cs.takeWhile (· ≠ '.')
  let fraction := (cs.dropWhile (· ≠ '.')).tail
  if fraction.all (· = '0') then
    (grouped false whole).map fun ds =>
      let n : Int := ofDigits ds
      if negative then -n else n
  else none

def integer (path : List String) : Json → Checked Int
  | .int n => .ok n
  | .bool b => .ok (if b then 1 else 0)
  | .str s =>
    match wholeNumber? s with
    | some n => .ok n
    | none => problem path "int_parsing"
  | .float x =>
    match (Decimal.read? (String.ofList (x.text Double.plainWords))) with
    | some d =>
      if d.exponent < 0 && d.coefficient % 10 ^ (-d.exponent).toNat ≠ 0 then
        problem path "int_from_float"
      else
        let n : Int :=
          if d.exponent < 0 then d.coefficient / 10 ^ (-d.exponent).toNat
          else d.coefficient * 10 ^ d.exponent.toNat
        .ok (if d.negative then -n else n)
    | none => problem path "finite_number"
  | _ => problem path "int_type"

def yes : List String := ["1", "on", "t", "true", "y", "yes"]

def no : List String := ["0", "off", "f", "false", "n", "no"]

def flag (path : List String) : Json → Checked Bool
  | .bool b => .ok b
  | .int 0 => .ok false
  | .int 1 => .ok true
  | .int _ => problem path "bool_parsing"
  | .str s =>
    if yes.contains s.toLower then .ok true
    else if no.contains s.toLower then .ok false
    else problem path "bool_parsing"
  | _ => problem path "bool_type"

def textItems (path : List String) (index : Nat) : List Json → Checked (List String)
  | [] => .ok []
  | v :: rest =>
    both (· :: ·) (text (path ++ [String.ofList (digits index)]) v)
      (textItems path (index + 1) rest)

def texts (path : List String) : Json → Checked (List String)
  | .arr items => textItems path 0 items
  | _ => problem path "list_type"

def textsByName (path : List String) : List (String × Json) → Checked (List (String × List String))
  | [] => .ok []
  | (name, v) :: rest =>
    both (fun items more => (name, items) :: more) (texts (path ++ [name]) v)
      (textsByName path rest)

def rules (path : List String) : Json → Checked (List (String × List String))
  | .obj members => textsByName path members
  | _ => problem path "dict_type"

/-- A problem in the words of a rule of this program. -/
def refused {α : Type} (path : List String) (message : String) : Checked α :=
  .error [{ path := path, kind := "value_error", message := some s!"Value error, {message}" }]

/-- Names of dialects are not told apart by case. -/
def dialectField (path : List String) (v : Json) : Checked Dialect := do
  let name := String.ofList (Text.lower (← text path v).toList)
  match Dialect.ofName? name with
  | some d => return d
  | none => refused path s!"Unsupported dialect: {name}"

def workersField (path : List String) (v : Json) : Checked Int := do
  let n ← integer path v
  if n < 1 then refused path "max_workers must be at least 1" else return n

/-- The value of a field, its default when it is not given. -/
def field {α : Type} (members : List (String × Json)) (name : String) (default : α)
    (check : List String → Json → Checked α) (path : List String) : Checked α :=
  match Json.find? name members with
  | some v => check (path ++ [name]) v
  | none => .ok default

/-- Applies a function to one more checked value. -/
def apply {α β : Type} (f : Checked (α → β)) (a : Checked α) : Checked β :=
  both (fun f a => f a) f a

/-- The value of a variable, whatever the case of its name. -/
def ofVariable? (env : List (String × String)) (name : String) : Option String :=
  (env.find? fun v => v.1.toLower = name.toLower).map (·.2)

/-- Members merged into others: what stands in both is taken from the first, objects are merged. -/
def merged : Nat → List (String × Json) → List (String × Json) → List (String × Json)
  | 0, first, _ => first
  | depth + 1, first, second =>
    first.foldl (fun all (name, v) =>
      match v, Json.find? name all with
      | .obj inner, some (.obj other) => Json.put name (.obj (merged depth inner other)) all
      | v, _ => Json.put name v all) second

/-- Variables of one group of settings, as members. -/
def ofVariables [Platform] (env : List (String × String)) (group : String) (plain coded : List String) :
    Except Failure (List (String × Json)) := do
  let texts := plain.filterMap fun name =>
    (ofVariable? env (group ++ name)).map fun s => (name, Json.str s)
  let values ← coded.filterMapM fun name =>
    match ofVariable? env (group ++ name) with
    | none => pure none
    | some s =>
      match Json.load .any s.toList with
      | .ok .null => pure none
      | .ok v => pure (some (name, v))
      | .error _ => .error .unreadable
  return texts ++ values

def logPlain : List String :=
  ["level", "json_format", "format", "file_path", "max_bytes", "backup_count"]

def logSettings (path : List String) (members : List (String × Json)) : Checked LogSettings :=
  let d : LogSettings := {}
  let f := Except.ok LogSettings.mk
  let f := apply f (field members "level" d.level text path)
  let f := apply f (field members "json_format" d.json flag path)
  let f := apply f (field members "format" d.format text path)
  let f := apply f (field members "file_path" d.file optionalText path)
  let f := apply f (field members "max_bytes" d.maxBytes integer path)
  apply f (field members "backup_count" d.backups integer path)

/-- The settings of the log: the members given, then the variables of the log's own group. -/
def logField (fromVariables : List (String × Json)) (path : List String) :
    Json → Checked LogSettings
  | .obj members => logSettings path (merged 8 members fromVariables)
  | _ => problem path "model_type"

def plain : List String :=
  ["database_url", "dialect", "database_echo", "load_dir", "tenant_id", "max_workers",
    "insert_flush_threshold", "max_value_length", "grant_select_to"]

def coded : List String := ["tables", "anonymize", "logging"]

def checked (members logVariables : List (String × Json)) (logging : LogSettings) :
    Checked Settings :=
  let d : Settings := {}
  let f := Except.ok Settings.mk
  let f := apply f (field members "database_url" d.databaseUrl text [])
  let f := apply f (field members "dialect" d.dialect dialectField [])
  let f := apply f (field members "database_echo" d.databaseEcho flag [])
  let f := apply f (field members "load_dir" d.loadDir text [])
  let f := apply f (field members "tables" d.tables texts [])
  let f := apply f (field members "tenant_id" d.tenant integer [])
  let f := apply f (field members "max_workers" d.workers workersField [])
  let f := apply f (field members "insert_flush_threshold" d.flushThreshold integer [])
  let f := apply f (field members "max_value_length" d.maxValueLength integer [])
  let f := apply f (field members "grant_select_to" d.grantee optionalText [])
  let f := apply f (field members "anonymize" d.redaction rules [])
  apply f (field members "logging" logging (logField logVariables) [])

/-- What the names of this program's variables begin with. -/
def ownGroup : String := "RECORDSTAGE_"

/-- What the names of the variables about the log begin with. -/
def logGroup : String := "LOG_"

/-- The names of all variables that matter, in capitals. -/
def variableNames : List String :=
  ((plain ++ coded).map (ownGroup ++ ·) ++ logPlain.map (logGroup ++ ·)).map String.toUpper

/-- The settings for an environment and arguments. -/
def load [Platform] (env : List (String × String)) (arguments : List (String × Json)) :
    Except Failure Settings := do
  let ours ← ofVariables env ownGroup plain coded
  let members := merged 8 arguments ours
  let logVariables ← ofVariables env logGroup logPlain []
  let logging ←
    match Json.find? "logging" members with
    | some _ => pure {}
    | none => (logSettings [] logVariables).mapError .invalid
  (checked members logVariables logging).mapError .invalid

def optionalJson : Option String → Json
  | some s => .str s
  | none => .null

def textsJson (items : List String) : Json := .arr (items.map Json.str)

/-- All settings by name. -/
def toJson (s : Settings) : Json :=
  .obj [("database_url", .str s.databaseUrl), ("dialect", .str s.dialect.name),
    ("database_echo", .bool s.databaseEcho), ("load_dir", .str s.loadDir),
    ("tables", textsJson s.tables), ("tenant_id", .int s.tenant), ("max_workers", .int s.workers),
    ("insert_flush_threshold", .int s.flushThreshold), ("max_value_length", .int s.maxValueLength),
    ("grant_select_to", optionalJson s.grantee),
    ("anonymize", .obj (s.redaction.map fun (table, paths) => (table, textsJson paths))),
    ("logging", .obj [("level", .str s.logging.level), ("json_format", .bool s.logging.json),
      ("format", .str s.logging.format), ("file_path", optionalJson s.logging.file),
      ("max_bytes", .int s.logging.maxBytes), ("backup_count", .int s.logging.backups)])]

end Settings

end SnapshotStaging
