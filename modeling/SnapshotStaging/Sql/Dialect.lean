import SnapshotStaging.Error

/-!
# Dialects of SQL

The few fragments in which the target databases differ.

| here | there |
| --- | --- |
| `ofName` | `get_dialect` |
| `now`, `jsonType` | `DBType.current_timestamp`, `DBType.json_type` |
| `quoted` | `DBType.encode_string_const` |
| `textCast`, `tableKeys` | `DBType.text_cast`, `DBType.table_keys` |
| `hasCatalog` | `supports_comments`, `supports_grants` |
-/

namespace SnapshotStaging

inductive Dialect
  | postgresql
  | redshift
  | sqlite
  deriving DecidableEq, Repr

namespace Dialect

def all : List Dialect := [.postgresql, .redshift, .sqlite]

/-- The name in settings. -/
def name : Dialect → String
  | .postgresql => "postgresql"
  | .redshift => "redshift"
  | .sqlite => "sqlite"

/-- The name in messages. -/
def label : Dialect → String
  | .postgresql => "PostgreSQLType()"
  | .redshift => "RedshiftType()"
  | .sqlite => "SQLiteType()"

def ofName? (s : String) : Option Dialect := all.find? fun d => d.name = s

def ofName (s : String) : Except Error Dialect :=
  match ofName? s with
  | some d => .ok d
  | none => .error (.unknownDialect s)

/-- The expression for the time of a statement. -/
def now : Dialect → String
  | .postgresql => "CURRENT_TIMESTAMP"
  | .redshift => "GETDATE()"
  | .sqlite => "strftime('%Y-%m-%d %H:%M:%f', 'now')"

/-- The column type of payloads. -/
def jsonType : Dialect → String
  | .postgresql => "JSON"
  | .redshift => "VARCHAR(65535)"
  | .sqlite => "TEXT"

/-- Whether tables can be commented on and granted. -/
def hasCatalog : Dialect → Bool
  | .sqlite => false
  | _ => true

/-- The form in which a string stands between quotes: without NUL where the database cannot hold
it, backslashes doubled where they escape, quotes doubled. -/
def quoteChar (d : Dialect) (c : Char) : List Char :=
  match d, c with
  | .postgresql, '\x00' => []
  | .redshift, '\x00' => []
  | .redshift, '\\' => ['\\', '\\']
  | _, '\'' => ['\'', '\'']
  | _, c => [c]

/-- A string literal. -/
def quoted (d : Dialect) (s : String) : String :=
  String.ofList ('\'' :: (s.toList.flatMap d.quoteChar ++ ['\'']))

/-- An expression as text. -/
def textCast (d : Dialect) (expression : String) : String :=
  match d with
  | .sqlite => s!"CAST({expression} AS TEXT)"
  | _ => s!"({expression})::VARCHAR"

/-- How the rows of a table are spread and sorted. -/
def tableKeys (d : Dialect) (distribution sort : String) : String :=
  match d with
  | .redshift => s!" DISTKEY({distribution}) COMPOUND SORTKEY({sort})"
  | _ => ""

end Dialect

end SnapshotStaging
